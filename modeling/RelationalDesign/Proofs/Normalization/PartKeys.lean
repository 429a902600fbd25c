import RelationalDesign.Proofs.Decomposition.Chains
import RelationalDesign.Proofs.Normalization.Parts

/-!
# The keys of parts

A part is only sound if its primary key fixes its attributes, by the dependencies of
the table and that of the whole table on its own key (`KeysHold`). Keeping the key and
making parts of rows add nothing to doubt: the keys of all parts hold if and only if
those dependencies imply every row of the decomposition (`keysHold_iff`).

In third normal form they always do. In second normal form a row takes over the
dependants of each row that it leads to, and it may lead to a row of several
determinants through one of them. So the keys hold if the determinants at the start of
each chain of the cover fix the dependants at its end (`keysHold`), and they need not
hold otherwise: the product of a shipment fixes its supplier, and the supplier and the
region together fix the fee, but the part for the product holds the fee
(`fee_of_product`).
-/

set_option autoImplicit false

namespace RelationalDesign

/-- Determinants among the dependants of their own row do not matter. -/
theorem implies_widen {given : List Dependency} {row : Dependency} :
    Implies given ⟨row.determinants, row.attributes⟩ ↔ Implies given row := by
  constructor
  · exact AttributeSet.subset_trans row.dependants_subset_attributes
  · intro implied name named
    rcases Dependency.mem_attributes.1 named with determinant | dependant
    · exact subset_closure given row.determinants name determinant
    · exact implied name dependant

/-- **Keeping a key adds only what the key fixes.** If the key fixes the declared
attributes, the kept rows are implied if and only if the rows are. -/
theorem implies_keepKey_iff {given : List Dependency} {key declared : AttributeSet}
    {design : Decomposition} (nonempty : key ≠ ∅) (fixes : declared ⊆ closure given key) :
    (∀ row ∈ (design.keepKey key declared).rows, Implies given row) ↔
      ∀ row ∈ design.rows, Implies given row := by
  constructor
  · intro implied row member
    obtain ⟨kept, inKept, same, contained⟩ := exists_of_keepKey nonempty member
    intro name dependant
    exact same ▸ implied kept inKept name (contained name dependant)
  · intro implied
    obtain ⟨before, holder, after, holds, rows, origin⟩ := keepKey_cases nonempty declared design
    rw [rows]
    have around (row : Dependency) (common : row ∈ before ++ after) : Implies given row := by
      rcases origin with place | ⟨place, _⟩
      · exact implied row (place ▸ append_subset_append_cons common)
      · exact implied row (place ▸ common)
    have holderImplied : Implies given holder := by
      rcases origin with place | ⟨_, rfl⟩
      · exact implied holder (place ▸ List.mem_append_cons_self)
      · exact AttributeSet.empty_subset _
    have keyFixed : key ⊆ closure given holder.determinants :=
      AttributeSet.subset_trans holds (implies_widen.2 holderImplied)
    intro row member
    rcases mem_append_cons.1 member with rfl | common
    · intro name dependant
      rcases mem_dependants_gain.1 dependant with old | ⟨free, _⟩
      · exact holderImplied name old
      · exact closure_subset_closure keyFixed name (fixes name (mem_unmentioned.1 free).1)
    · exact around row common

namespace Table

/-- What is known about a table: the dependencies that it states and that of all its
attributes on its primary key. -/
def known (table : Table) : List Dependency := table.keyDependency :: table.stated

theorem stated_subset_known (table : Table) : table.stated ⊆ table.known :=
  List.subset_cons_self table.keyDependency table.stated

theorem heading_subset_closure_known (table : Table) :
    table.heading ⊆ closure table.known table.key := by
  have own : table.keyDependency ∈ table.known := List.mem_cons_self
  exact implies_of_mem own

/-- The primary key of every part fixes all attributes of the part. -/
def KeysHold (settings : Settings) (form : NormalForm) (table : Table) : Prop :=
  ∀ part ∈ (table.decompose settings form).parts, part.heading ⊆ closure table.known part.key

section Accepted

variable {table : Table} (accepted : table.violations = []) (settings : Settings)
include accepted

/-- **The keys of the parts hold if and only if what is known about the table implies the
rows of its decomposition.** -/
theorem keysHold_iff (form : NormalForm) :
    table.KeysHold settings form ↔
      ∀ row ∈ (form.decompose (settings.cover.cover table.stated)).rows,
        Implies table.known row := by
  have parts : table.KeysHold settings form ↔
      ∀ dependency ∈ (table.decompose settings form).parts.map keyDependency,
        Implies table.known dependency := by
    rw [List.forall_mem_map]
    rfl
  rw [parts, map_keyDependency_design accepted, List.forall_mem_map]
  simp only [implies_widen]
  refine design_induction (motive := fun rows => (∀ row ∈ rows, Implies table.known row) ↔
    ∀ row ∈ (form.decompose (settings.cover.cover table.stated)).rows,
      Implies table.known row) Iff.rfl ?_
  exact implies_keepKey_iff (key_ne_empty accepted) table.heading_subset_closure_known

theorem keysHold_third : table.KeysHold settings .third := by
  rw [keysHold_iff accepted]
  intro row member
  exact (implies_of_mem_thirdForm member).mono table.stated_subset_known

/-- The keys of the second normal form hold if the determinants at the start of every
chain fix the dependants at its end. -/
theorem keysHold_second
    (fixed : ∀ first last, Chain (settings.cover.cover table.stated) first last →
      last.dependants ⊆ closure table.known first.determinants) :
    table.KeysHold settings .second := by
  rw [keysHold_iff accepted]
  intro row member name dependant
  obtain ⟨first, last, same, chain, stated⟩ := traced_decompose .second _ row member name dependant
  exact same ▸ fixed first last chain name stated

end Accepted

/-- **When the keys of parts hold**: always in third normal form, and in second normal
form exactly when the rows are implied, as they are if the determinants at the start of
every chain fix the dependants at its end. -/
theorem keysHold {scheme : Scheme} (accepted : scheme.violations = []) {table : Table}
    (member : table ∈ scheme.tables) (settings : Settings) :
    table.KeysHold settings .third ∧
      (table.KeysHold settings .second ↔
        ∀ row ∈ (secondForm (settings.cover.cover table.stated)).rows,
          Implies table.known row) ∧
      ((∀ first last, Chain (settings.cover.cover table.stated) first last →
          last.dependants ⊆ closure table.known first.determinants) →
        table.KeysHold settings .second) := by
  have acceptedTable : table.violations = [] := List.flatMap_eq_nil_iff.1 accepted table member
  exact ⟨keysHold_third acceptedTable settings, keysHold_iff acceptedTable settings .second,
    keysHold_second acceptedTable settings⟩

/-- Over full links the first determinants of a chain of a cover fix the last dependants. -/
theorem dependants_subset_of_linksFully {table : Table} (mode : CoverMode)
    (full : LinksFully table.known (mode.cover table.stated)) {first last : Dependency}
    (chain : Chain (mode.cover table.stated) first last) :
    last.dependants ⊆ closure table.known first.determinants := by
  have implied : Implies table.known last :=
    (implies_of_mem_cover chain.last_mem).mono table.stated_subset_known
  exact implied.dependants_subset (full.determinants_subset chain)

/-- Shipments of a product to a region, with the supplier of the product and a fee. -/
def shipments (dependencies : List DependencyClause) : Table where
  name := "shipments"
  attributes :=
    [⟨"shipment", .integer, ⟨true, true, false⟩⟩, ⟨"product", .text, ∅⟩, ⟨"supplier", .text, ∅⟩,
      ⟨"region", .text, ∅⟩, ⟨"fee", .float, ∅⟩]
  dependencies := dependencies

/-- If each supplier delivers to one region only, the product fixes the fee. -/
theorem keysHold_shipments :
    let table := shipments
      [⟨["product"], ["supplier"]⟩, ⟨["supplier"], ["region"]⟩, ⟨["region", "supplier"], ["fee"]⟩]
    (⟨[table], []⟩ : Scheme).violations = [] ∧ table ∈ [table] ∧
      (∀ first last, Chain (split table.stated) first last →
        last.dependants ⊆ closure table.known first.determinants) ∧
      table.KeysHold ⟨.splitOnly, true, true⟩ .second := by
  intro table
  have accepted : (⟨[table], []⟩ : Scheme).violations = [] := by decide
  have member : table ∈ [table] := List.mem_singleton.2 rfl
  have full : LinksFully table.known (split table.stated) := by decide
  have fixed (first last : Dependency) (chain : Chain (split table.stated) first last) :
      last.dependants ⊆ closure table.known first.determinants :=
    dependants_subset_of_linksFully .splitOnly full chain
  obtain ⟨_, _, second⟩ := keysHold accepted member ⟨.splitOnly, true, true⟩
  exact ⟨accepted, member, fixed, second fixed⟩

/-- The product absorbs the row of region and supplier, to which it leads through the
supplier alone. -/
theorem secondForm_shipments :
    let table := shipments [⟨["product"], ["supplier"]⟩, ⟨["region", "supplier"], ["fee"]⟩]
    (secondForm (minimalCover table.stated)).rows =
      [⟨{"product"}, .ofList ["fee", "supplier"]⟩] := by
  intro table
  let start : Focus :=
    ⟨[], ⟨{"product"}, {"supplier"}⟩, [⟨.ofList ["region", "supplier"], {"fee"}⟩]⟩
  have cover : minimalCover table.stated = start.rows := by decide
  have chosen : startingFocus? start.rows = some start := rfl
  have consolidated : consolidate start = [⟨{"product"}, .ofList ["fee", "supplier"]⟩] := by
    rw [consolidate, if_neg (by decide), consolidate, if_pos (by decide)]
    decide
  rw [cover, secondForm, chosen]
  dsimp only
  rw [consolidated]
  decide

/-- **A key that does not hold.** The part for the product has the fee, which the
product does not fix without the region. -/
theorem fee_of_product :
    let table := shipments [⟨["product"], ["supplier"]⟩, ⟨["region", "supplier"], ["fee"]⟩]
    (⟨[table], []⟩ : Scheme).violations = [] ∧
      ∃ part ∈ (table.decompose .usual .second).parts,
        part.key = {"product"} ∧ "fee" ∈ part.heading ∧ "fee" ∉ closure table.known part.key := by
  intro table
  have accepted : table.violations = [] := by decide
  have inForm : ⟨{"product"}, .ofList ["fee", "supplier"]⟩ ∈
      (secondForm (minimalCover table.stated)).rows := by
    rw [secondForm_shipments]
    exact List.mem_singleton.2 rfl
  obtain ⟨kept, inDesign, same, contained⟩ :
      ∃ kept ∈ ((secondForm (minimalCover table.stated)).keepKey table.key table.heading).rows,
        kept.determinants = {"product"} ∧ AttributeSet.ofList ["fee", "supplier"] ⊆ kept.dependants :=
    exists_of_keepKey (key_ne_empty accepted) inForm
  have inParts : ⟨kept.determinants, kept.attributes⟩ ∈
      (table.decompose .usual .second).parts.map keyDependency := by
    rw [map_keyDependency_decompose accepted rfl]
    exact List.mem_map.2 ⟨kept, inDesign, rfl⟩
  obtain ⟨part, inTable, equal⟩ := List.mem_map.1 inParts
  have key : part.key = {"product"} := (congrArg Dependency.determinants equal).trans same
  have heading : part.heading = kept.attributes := congrArg Dependency.dependants equal
  refine ⟨by decide, part, inTable, key, ?_, ?_⟩
  · rw [heading]
    exact kept.dependants_subset_attributes "fee" (contained "fee" (by decide))
  · rw [key]
    decide

end Table

end RelationalDesign
