import RelationalDesign.Proofs.Dependency.Closure

/-!
# What a list of dependencies states

A list states that some determinants fix an attribute if one of its rows has
exactly these determinants and the attribute among its dependants (`States`).
How the statements are spread over rows does not matter for the closure
(`closure_eq_of_states_iff`), and every attribute of a closure is one of the
attributes it starts from or is mentioned in the list (`mem_or_mentions_of_mem_closure`).

Putting one row in the place of another keeps the closure if the lists before
and after imply the other row each (`closure_replace`).
-/

set_option autoImplicit false

namespace RelationalDesign

/-- Some row has the given determinants and the name among its dependants. -/
def States (rows : List Dependency) (determinants : AttributeSet) (name : String) : Prop :=
  ∃ row ∈ rows, row.determinants = determinants ∧ name ∈ row.dependants

/-- Some row has the name among its attributes. -/
def Mentions (rows : List Dependency) (name : String) : Prop := ∃ row ∈ rows, name ∈ row.attributes

/-- A set of attributes fixes every attribute that the rows mention. -/
def Spans (rows : List Dependency) (names : AttributeSet) : Prop :=
  ∀ name, Mentions rows name → name ∈ closure rows names

instance (rows : List Dependency) (names : AttributeSet) : Decidable (Spans rows names) :=
  decidable_of_iff (AttributeSet.unions (rows.map Dependency.attributes) ⊆ closure rows names)
    (forall_congr' fun _ => imp_congr_left AttributeSet.mem_unions_map)

theorem Mentions.of_determinant {rows : List Dependency} {row : Dependency} (member : row ∈ rows)
    {name : String} (determinant : name ∈ row.determinants) : Mentions rows name :=
  ⟨row, member, row.determinants_subset_attributes name determinant⟩

theorem Mentions.of_dependant {rows : List Dependency} {row : Dependency} (member : row ∈ rows)
    {name : String} (dependant : name ∈ row.dependants) : Mentions rows name :=
  ⟨row, member, row.dependants_subset_attributes name dependant⟩

theorem states_cons {row : Dependency} {rest : List Dependency} {determinants : AttributeSet}
    {name : String} : States (row :: rest) determinants name ↔
      row.determinants = determinants ∧ name ∈ row.dependants ∨
        States rest determinants name := by
  simp only [States, List.mem_cons, exists_eq_or_imp]

theorem states_append {first second : List Dependency} {determinants : AttributeSet}
    {name : String} : States (first ++ second) determinants name ↔
      States first determinants name ∨ States second determinants name := by
  simp only [States, List.mem_append, or_and_right, exists_or]

theorem states_singleton {row : Dependency} {determinants : AttributeSet} {name : String} :
    States [row] determinants name ↔ row.determinants = determinants ∧ name ∈ row.dependants := by
  simp only [States, List.mem_singleton, exists_eq_left]

theorem States.mentions {rows : List Dependency} {determinants : AttributeSet} {name : String}
    (stated : States rows determinants name) : Mentions rows name := by
  obtain ⟨row, member, _, dependant⟩ := stated
  exact .of_dependant member dependant

/-- What a list mentions is among the determinants of a row or is stated. -/
theorem mentions_iff {rows : List Dependency} {name : String} :
    Mentions rows name ↔
      (∃ determinants ∈ rows.map Dependency.determinants, name ∈ determinants) ∨
        ∃ determinants, States rows determinants name := by
  constructor
  · rintro ⟨row, member, named⟩
    rcases Dependency.mem_attributes.1 named with determinant | dependant
    · exact Or.inl ⟨row.determinants, List.mem_map_of_mem member, determinant⟩
    · exact Or.inr ⟨row.determinants, row, member, rfl, dependant⟩
  · rintro (⟨determinants, among, determinant⟩ | ⟨determinants, stated⟩)
    · obtain ⟨row, member, rfl⟩ := List.mem_map.1 among
      exact .of_determinant member determinant
    · exact stated.mentions

/-- What a list states is in the closure of the determinants. -/
theorem States.mem_closure {rows : List Dependency} {determinants : AttributeSet} {name : String}
    (stated : States rows determinants name) : name ∈ closure rows determinants := by
  obtain ⟨row, member, rfl, dependant⟩ := stated
  exact implies_of_mem member name dependant

theorem implies_of_states {rows : List Dependency} {row : Dependency}
    (stated : ∀ name ∈ row.dependants, States rows row.determinants name) : Implies rows row :=
  fun name dependant => (stated name dependant).mem_closure

theorem closure_subset_of_states {first second : List Dependency}
    (stated : ∀ determinants name, States first determinants name → States second determinants name)
    (names : AttributeSet) : closure first names ⊆ closure second names := by
  refine closure_subset_of_implies (fun row member => ?_) names
  exact implies_of_states fun name dependant =>
    stated row.determinants name ⟨row, member, rfl, dependant⟩

/-- **Lists that state the same have the same closure.** -/
theorem closure_eq_of_states_iff {first second : List Dependency}
    (same : ∀ determinants name, States first determinants name ↔ States second determinants name) :
    closure first = closure second := by
  funext names
  exact AttributeSet.subset_antisymm
    (closure_subset_of_states (fun determinants name => (same determinants name).1) names)
    (closure_subset_of_states (fun determinants name => (same determinants name).2) names)

/-- What a set fixes is in it or among the dependants of a row. -/
theorem mem_or_dependant_of_mem_closure {rows : List Dependency} {names : AttributeSet}
    {name : String} (member : name ∈ closure rows names) :
    name ∈ names ∨ ∃ row ∈ rows, name ∈ row.dependants := by
  refine closure_induction (motive := fun name =>
    name ∈ names ∨ ∃ row ∈ rows, name ∈ row.dependants) ?_ ?_ name member
  · exact fun row rowMember _ other dependant => Or.inr ⟨row, rowMember, dependant⟩
  · exact fun other start => Or.inl start

/-- A closure brings in nothing that the list does not mention. -/
theorem mem_or_mentions_of_mem_closure {rows : List Dependency} {names : AttributeSet}
    {name : String} (member : name ∈ closure rows names) : name ∈ names ∨ Mentions rows name := by
  refine (mem_or_dependant_of_mem_closure member).imp id ?_
  rintro ⟨row, rowMember, dependant⟩
  exact .of_dependant rowMember dependant

/-- Lists with the same closure that mention the same are spanned by the same sets. -/
theorem spans_congr {first second : List Dependency} (sameClosure : closure first = closure second)
    (sameMentions : ∀ name, Mentions first name ↔ Mentions second name) {names : AttributeSet} :
    Spans first names ↔ Spans second names := by
  unfold Spans
  rw [sameClosure]
  exact forall_congr' fun name => imp_congr_left (sameMentions name)

/-! ## Replacing a row -/

section Replacing

variable {before after : List Dependency} {row other : Dependency}

theorem mem_append_cons {member : Dependency} :
    member ∈ before ++ row :: after ↔ member = row ∨ member ∈ before ++ after := by
  simp only [List.mem_append, List.mem_cons]
  exact or_left_comm

theorem append_subset_append_cons : before ++ after ⊆ before ++ row :: after :=
  fun _ member => mem_append_cons.2 (Or.inr member)

/-- A list implies the rows that it has in common with another one and the row
that stands in the place of the remaining one. -/
theorem implies_of_mem_replaced (implied : Implies (before ++ row :: after) other) :
    ∀ member ∈ before ++ other :: after, Implies (before ++ row :: after) member := by
  intro member inList
  rcases mem_append_cons.1 inList with equal | common
  · exact equal ▸ implied
  · exact implies_of_mem (append_subset_append_cons common)

/-- **A row can be replaced by one that is implied and implies it.** -/
theorem closure_replace (forward : Implies (before ++ row :: after) other)
    (back : Implies (before ++ other :: after) row) :
    closure (before ++ other :: after) = closure (before ++ row :: after) :=
  closure_eq_of_implies (implies_of_mem_replaced forward) (implies_of_mem_replaced back)

/-- A row that the others imply can be left out. -/
theorem closure_leave_out (implied : Implies (before ++ after) row) :
    closure (before ++ after) = closure (before ++ row :: after) := by
  refine closure_eq_of_implies ?_ ?_
  · exact fun member inList => implies_of_mem (append_subset_append_cons inList)
  · intro member inList
    rcases mem_append_cons.1 inList with equal | common
    · exact equal ▸ implied
    · exact implies_of_mem common

/-- What another row states is stated without the row. -/
theorem States.leave_out {determinants : AttributeSet} {name : String}
    (stated : States (before ++ row :: after) determinants name)
    (elsewhere : ¬(row.determinants = determinants ∧ name ∈ row.dependants)) :
    States (before ++ after) determinants name := by
  obtain ⟨member, inList, same, dependant⟩ := stated
  rcases mem_append_cons.1 inList with equal | around
  · exact absurd ⟨equal ▸ same, equal ▸ dependant⟩ elsewhere
  · exact ⟨member, around, same, dependant⟩

/-- A row whose determinants are not in a closure has no part in it. -/
theorem closure_subset_leave_out {names : AttributeSet}
    (unused : ¬row.determinants ⊆ closure (before ++ row :: after) names) :
    closure (before ++ row :: after) names ⊆ closure (before ++ after) names := by
  refine closure_induction ?_ (subset_closure (before ++ after) names)
  intro member inList usable
  rcases mem_append_cons.1 inList with equal | common
  · subst equal
    exact absurd (AttributeSet.subset_trans usable
      (closure_subset_of_subset append_subset_append_cons names)) unused
  · exact closed_closure (before ++ after) names member common usable

end Replacing

end RelationalDesign
