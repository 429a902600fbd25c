import RelationalDesign.CommandLine.Directory
import RelationalDesign.Exchange.Request
import RelationalDesign.Main
import RelationalDesign.Proofs.Ddl.Compilation
import RelationalDesign.Proofs.Ddl.CompilerRuns
import RelationalDesign.Proofs.Ddl.ConstraintNames
import RelationalDesign.Proofs.Ddl.QuotedRegions
import RelationalDesign.Proofs.Ddl.WrittenNames
import RelationalDesign.Proofs.Decomposition.Chains
import RelationalDesign.Proofs.Decomposition.Consolidation
import RelationalDesign.Proofs.Decomposition.Grouping
import RelationalDesign.Proofs.Decomposition.Keys
import RelationalDesign.Proofs.Decomposition.MatrixOperations
import RelationalDesign.Proofs.Decomposition.Merge
import RelationalDesign.Proofs.Decomposition.Overlap
import RelationalDesign.Proofs.Decomposition.PartialDependency
import RelationalDesign.Proofs.Decomposition.References
import RelationalDesign.Proofs.Decomposition.SecondForm
import RelationalDesign.Proofs.Decomposition.StillWalks
import RelationalDesign.Proofs.Decomposition.Synthesis
import RelationalDesign.Proofs.Decomposition.Targets
import RelationalDesign.Proofs.Decomposition.Walk
import RelationalDesign.Proofs.Decomposition.WalkEffects
import RelationalDesign.Proofs.Dependency.Closure
import RelationalDesign.Proofs.Dependency.Cover
import RelationalDesign.Proofs.Dependency.MinimalCover
import RelationalDesign.Proofs.Exchange.Renderings
import RelationalDesign.Proofs.Exchange.RoundTrip
import RelationalDesign.Proofs.Normalization.CarriedRelationships
import RelationalDesign.Proofs.Normalization.Compilability
import RelationalDesign.Proofs.Normalization.Coverage
import RelationalDesign.Proofs.Normalization.ForeignKeys
import RelationalDesign.Proofs.Normalization.KeptKey
import RelationalDesign.Proofs.Normalization.LosslessJoin
import RelationalDesign.Proofs.Normalization.PartKeys
import RelationalDesign.Proofs.Normalization.PartRelationships
import RelationalDesign.Proofs.Normalization.Rebuild
import RelationalDesign.Proofs.Normalization.Relationships
import RelationalDesign.Proofs.Normalization.Renormalization
import RelationalDesign.Proofs.Normalization.Scheme
import RelationalDesign.Proofs.Normalization.SecondRun
import RelationalDesign.Proofs.Relation.Basic
import RelationalDesign.Proofs.Relation.Entailment
import RelationalDesign.Proofs.Relation.Join
import RelationalDesign.Proofs.Scheme.FirstFault
import RelationalDesign.Proofs.SchemeText.BareNames
import RelationalDesign.Proofs.SchemeText.Calls
import RelationalDesign.Proofs.SchemeText.Grammar
import RelationalDesign.Proofs.SchemeText.Lines
import RelationalDesign.Proofs.SchemeText.RoundTrip
import RelationalDesign.Proofs.SchemeText.Spelling
import RelationalDesign.Proofs.SchemeText.WrittenTokens
