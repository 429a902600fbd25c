import RelationalDesign.Proofs.Dependency.Statements
import RelationalDesign.Proofs.Relation.Basic

/-!
# Projections and natural joins

A projection keeps of every tuple the values for some attributes. The natural
join of two relations consists of the tuples over both headings whose
restrictions belong to the relations, and the join of a list of relations is
taken one after the other, from the relation that has the empty tuple alone.
A tuple is in it if its restriction to every heading is in the relation
(`mem_joinAll`).

The main result is a criterion for a split without loss (`joinAll_project`): the
join of the projections onto some sets is the relation itself, if each of some
dependencies that it satisfies lies within one of the sets, and one of the sets
fixes the heading by these dependencies.
-/

set_option autoImplicit false

namespace RelationalDesign

universe u

variable {V : Type u}

namespace Relation

/-- The values for some attributes of each tuple. -/
def project (relation : Relation V) (names : AttributeSet) : Relation V where
  heading := relation.heading.filter fun name => decide (name ∈ names)
  tuples := {projected | ∃ tuple ∈ relation.tuples, projected = tuple.restrict names}
  typed := by
    rintro _ ⟨tuple, member, rfl⟩ name
    rw [AttributeSet.mem_filter, decide_eq_true_eq, ← relation.typed tuple member name]
    by_cases inNames : name ∈ names
    · rw [Tuple.restrict_of_mem inNames, and_iff_left inNames]
    · rw [Tuple.restrict_of_notMem inNames]
      exact ⟨fun isSome => absurd isSome Bool.false_ne_true, fun both => absurd both.2 inNames⟩

/-- The tuples over both headings that restrict to tuples of both relations. -/
def join (first second : Relation V) : Relation V where
  heading := first.heading ∪ second.heading
  tuples := {tuple | (∀ name, (tuple name).isSome ↔ name ∈ first.heading ∪ second.heading) ∧
    tuple.restrict first.heading ∈ first.tuples ∧ tuple.restrict second.heading ∈ second.tuples}
  typed := fun _ joined => joined.1

/-- The relation over no attributes that has the empty tuple. -/
def unit : Relation V where
  heading := ∅
  tuples := {tuple | ∀ name, tuple name = none}
  typed := by
    intro tuple member name
    rw [member name]
    exact ⟨fun isSome => absurd isSome Bool.false_ne_true,
      fun inEmpty => absurd inEmpty (AttributeSet.notMem_empty name)⟩

/-- The natural join of a list of relations. -/
def joinAll (relations : List (Relation V)) : Relation V := relations.foldr join unit

theorem mem_heading_joinAll {relations : List (Relation V)} {name : String} :
    name ∈ (joinAll relations).heading ↔ ∃ relation ∈ relations, name ∈ relation.heading := by
  induction relations with
  | nil => simp [joinAll, unit]
  | cons first rest ih =>
    show name ∈ first.heading ∪ (joinAll rest).heading ↔ _
    rw [AttributeSet.mem_union, ih]
    simp only [List.mem_cons, exists_eq_or_imp]

/-- **A tuple is in a join if its restriction to each heading is in the relation.** -/
theorem mem_joinAll {relations : List (Relation V)} {tuple : Tuple V} :
    tuple ∈ (joinAll relations).tuples ↔
      (∀ name, (tuple name).isSome ↔ name ∈ (joinAll relations).heading) ∧
        ∀ relation ∈ relations, tuple.restrict relation.heading ∈ relation.tuples := by
  induction relations generalizing tuple with
  | nil =>
    constructor
    · intro member
      exact ⟨unit.typed tuple member, fun relation inNil => absurd inNil List.not_mem_nil⟩
    · rintro ⟨typed, _⟩ name
      rw [← Option.not_isSome_iff_eq_none, typed name]
      exact AttributeSet.notMem_empty name
  | cons first rest ih =>
    have restricted (relation : Relation V) (member : relation ∈ rest) :
        (tuple.restrict (joinAll rest).heading).restrict relation.heading =
          tuple.restrict relation.heading :=
      Tuple.restrict_restrict fun name inHeading =>
        mem_heading_joinAll.2 ⟨relation, member, inHeading⟩
    constructor
    · rintro ⟨typed, inFirst, inRest⟩
      refine ⟨typed, fun relation member => ?_⟩
      rcases List.mem_cons.1 member with rfl | later
      · exact inFirst
      · exact restricted relation later ▸ (ih.1 inRest).2 relation later
    · rintro ⟨typed, each⟩
      have inRest : tuple.restrict (joinAll rest).heading ∈ (joinAll rest).tuples := by
        refine ih.2 ⟨fun name => ?_, fun relation later => ?_⟩
        · by_cases inHeading : name ∈ (joinAll rest).heading
          · rw [Tuple.restrict_of_mem inHeading, typed name]
            exact iff_of_true (AttributeSet.mem_union.2 (Or.inr inHeading)) inHeading
          · rw [Tuple.restrict_of_notMem inHeading]
            exact iff_of_false Bool.false_ne_true inHeading
        · rw [restricted relation later]
          exact each relation (List.mem_cons_of_mem first later)
      exact ⟨typed, each first List.mem_cons_self, inRest⟩

/-- The values of a projection are those of a tuple of the relation. -/
theorem exists_of_mem_project {relation : Relation V} {names : AttributeSet} {tuple : Tuple V}
    (member : tuple.restrict (relation.project names).heading ∈ (relation.project names).tuples) :
    ∃ whole ∈ relation.tuples, ∀ name ∈ relation.heading, name ∈ names →
      tuple name = whole name := by
  obtain ⟨whole, inRelation, same⟩ := member
  refine ⟨whole, inRelation, fun name inHeading inNames => ?_⟩
  have inProjected : name ∈ (relation.project names).heading :=
    AttributeSet.mem_filter.2 ⟨inHeading, decide_eq_true inNames⟩
  calc tuple name = tuple.restrict (relation.project names).heading name :=
        (Tuple.restrict_of_mem inProjected).symm
    _ = whole.restrict names name := by rw [same]
    _ = whole name := Tuple.restrict_of_mem inNames

/-- A tuple of the relation restricts to a tuple of each projection. -/
theorem restrict_mem_project {relation : Relation V} {tuple : Tuple V}
    (member : tuple ∈ relation.tuples) (names : AttributeSet) :
    tuple.restrict (relation.project names).heading ∈ (relation.project names).tuples := by
  refine ⟨tuple, member, funext fun name => ?_⟩
  by_cases inNames : name ∈ names
  · rw [Tuple.restrict_of_mem inNames]
    by_cases inHeading : name ∈ relation.heading
    · exact Tuple.restrict_of_mem (AttributeSet.mem_filter.2 ⟨inHeading, decide_eq_true inNames⟩)
    · rw [eq_none_of_notMem member inHeading]
      exact Tuple.restrict_of_notMem fun both => inHeading (AttributeSet.mem_filter.1 both).1
  · rw [Tuple.restrict_of_notMem inNames]
    refine Tuple.restrict_of_notMem fun both => inNames ?_
    exact of_decide_eq_true (AttributeSet.mem_filter.1 both).2

/-! ## Splitting without loss -/

section Lossless

variable {relation : Relation V} {rows : List Dependency} {parts : List AttributeSet}
  {holder : AttributeSet} (satisfied : ∀ row ∈ rows, relation.Satisfies row)
  (within : ∀ row ∈ rows, ∃ part ∈ parts, row.attributes ⊆ part) (isPart : holder ∈ parts)
  (reaches : relation.heading ⊆ closure rows holder)
include within isPart reaches

/-- Every attribute of the heading is in one of the parts. -/
theorem heading_joinAll_project :
    (joinAll (parts.map relation.project)).heading = relation.heading := by
  ext name
  rw [mem_heading_joinAll]
  constructor
  · rintro ⟨_, projection, inHeading⟩
    obtain ⟨part, _, rfl⟩ := List.mem_map.1 projection
    exact (AttributeSet.mem_filter.1 inHeading).1
  · intro inHeading
    have inPart : ∃ part ∈ parts, name ∈ part := by
      rcases mem_or_mentions_of_mem_closure (reaches name inHeading) with held | mentioned
      · exact ⟨holder, isPart, held⟩
      · obtain ⟨row, member, named⟩ := mentioned
        obtain ⟨part, partMember, contained⟩ := within row member
        exact ⟨part, partMember, contained name named⟩
    obtain ⟨part, partMember, inPart⟩ := inPart
    exact ⟨relation.project part, List.mem_map_of_mem partMember,
      AttributeSet.mem_filter.2 ⟨inHeading, decide_eq_true inPart⟩⟩

include satisfied

/-- A tuple of the join is the tuple of the relation that it has its values for
the holder from. -/
theorem mem_of_mem_joinAll_project {tuple : Tuple V}
    (joined : tuple ∈ (joinAll (parts.map relation.project)).tuples) : tuple ∈ relation.tuples := by
  have heading : (joinAll (parts.map relation.project)).heading = relation.heading :=
    heading_joinAll_project within isPart reaches
  obtain ⟨typed, each⟩ := mem_joinAll.1 joined
  have source (part : AttributeSet) (member : part ∈ parts) :=
    exists_of_mem_project (each (relation.project part) (List.mem_map_of_mem member))
  obtain ⟨whole, wholeMember, sameOnHolder⟩ := source holder isPart
  -- outside the heading both have no value, so it is enough to agree within it
  have agree : ∀ name ∈ closure rows holder, name ∈ relation.heading → tuple name = whole name := by
    refine closure_induction ?_ fun name held inHeading => sameOnHolder name inHeading held
    intro row member agreeOnDeterminants name dependant inHeading
    obtain ⟨part, partMember, contained⟩ := within row member
    obtain ⟨other, otherMember, sameOnPart⟩ := source part partMember
    have sameValue : other name = whole name := by
      refine satisfied row member other otherMember whole wholeMember ?_ name dependant
      intro determinant isDeterminant
      by_cases known : determinant ∈ relation.heading
      · rw [← agreeOnDeterminants determinant isDeterminant known]
        refine (sameOnPart determinant known (contained determinant ?_)).symm
        exact row.determinants_subset_attributes determinant isDeterminant
      · rw [eq_none_of_notMem otherMember known, eq_none_of_notMem wholeMember known]
    rw [← sameValue]
    apply sameOnPart name inHeading
    exact contained name (row.dependants_subset_attributes name dependant)
  have same : tuple = whole := by
    funext name
    by_cases inHeading : name ∈ relation.heading
    · exact agree name (reaches name inHeading) inHeading
    · rw [eq_none_of_notMem wholeMember inHeading]
      rw [← heading] at inHeading
      exact eq_none_of_notMem joined inHeading
  exact same ▸ wholeMember

/-- **A relation is the join of its projections, if each dependency lies within a
part and one part fixes the heading.** -/
theorem joinAll_project : joinAll (parts.map relation.project) = relation := by
  have heading : (joinAll (parts.map relation.project)).heading = relation.heading :=
    heading_joinAll_project within isPart reaches
  refine Relation.ext heading fun tuple => ⟨?_, fun member => mem_joinAll.2 ⟨?_, ?_⟩⟩
  · exact mem_of_mem_joinAll_project satisfied within isPart reaches
  · rw [heading]
    exact relation.typed tuple member
  · intro projection inParts
    obtain ⟨part, _, rfl⟩ := List.mem_map.1 inParts
    exact restrict_mem_project member part

end Lossless

end Relation

end RelationalDesign
