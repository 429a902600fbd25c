import RelationalDesign.Decomposition.Keys
import RelationalDesign.Proofs.Decomposition.Walk

/-!
# The row that keeps the key

Keeping the key changes one row: a row that holds the key, or a new row of the
key, gains the attributes that no row mentions (`keepKey_cases`). So every row is
still there with its determinants (`exists_of_keepKey`), and one row holds the key
together with all attributes that were not mentioned (`exists_holder`).

Some row has the key as its determinants if some row had before, or else if no row held the
key (`mem_determinants_keepKey_iff`).

Keeping the key does not help to reach from it what the rows do not reach. All
declared attributes are reached if and only if the rows alone reach what they
mention (`subset_closure_keepKey_iff`).
-/

set_option autoImplicit false

namespace RelationalDesign

/-- The declared attributes that no row mentions. -/
def unmentioned (declared : AttributeSet) (rows : List Dependency) : AttributeSet :=
  declared \ AttributeSet.unions (rows.map Dependency.attributes)

theorem mem_unmentioned {declared : AttributeSet} {rows : List Dependency} {name : String} :
    name ∈ unmentioned declared rows ↔ name ∈ declared ∧ ¬Mentions rows name := by
  unfold unmentioned
  rw [AttributeSet.mem_diff, AttributeSet.mem_unions_map]
  rfl

theorem mem_dependants_gain {row : Dependency} {names : AttributeSet} {name : String} :
    name ∈ (row.gain names).dependants ↔
      name ∈ row.dependants ∨ name ∈ names ∧ name ∉ row.determinants := by
  unfold Dependency.gain
  rw [AttributeSet.mem_union, AttributeSet.mem_diff]

/-- A row that gains attributes mentions them and what it mentioned before. -/
theorem mem_attributes_gain {row : Dependency} {names : AttributeSet} {name : String} :
    name ∈ (row.gain names).attributes ↔ name ∈ row.attributes ∨ name ∈ names := by
  rw [Dependency.mem_attributes, mem_dependants_gain, Dependency.mem_attributes]
  show name ∈ row.determinants ∨ _ ↔ _
  by_cases determinant : name ∈ row.determinants
  · simp only [determinant, true_or]
  · simp only [determinant, false_or, not_false_eq_true, and_true]

theorem modify_place {rows before after : List Dependency} {row : Dependency}
    (place : rows = before ++ row :: after) (change : Dependency → Dependency) :
    rows.modify before.length change = before ++ change row :: after := by
  subst place
  induction before with
  | nil => rfl
  | cons first rest ih => exact congrArg (first :: ·) ih

theorem map_determinants_modify_gain (rows : List Dependency) (row : Nat) (names : AttributeSet) :
    (rows.modify row fun row => row.gain names).map Dependency.determinants =
      rows.map Dependency.determinants := by
  apply List.ext_getElem?
  intro index
  rw [List.getElem?_map, List.getElem?_map, List.getElem?_modify]
  show Option.map _ (Option.map _ rows[index]?) = _
  rw [Option.map_map]
  congr 1
  funext other
  dsimp only [Function.comp]
  split <;> rfl

/-! ## The changed row -/

section KeptKey

variable {key : AttributeSet} (nonempty : key ≠ ∅)
include nonempty

/-- **One row gains the unmentioned attributes**: a row that holds the key, or a
new row of the key. -/
theorem keepKey_cases (declared : AttributeSet) (design : Decomposition) :
    ∃ before holder after, key ⊆ holder.attributes ∧
      (design.keepKey key declared).rows =
        before ++ holder.gain (unmentioned declared design.rows) :: after ∧
      (design.rows = before ++ holder :: after ∨
        design.rows = before ++ after ∧ holder = ⟨key, ∅⟩) := by
  unfold Decomposition.keepKey
  rw [if_neg nonempty]
  dsimp only
  split
  · next index found =>
    obtain ⟨inRange, holds, _⟩ := List.findIdx?_eq_some_iff_getElem.1 found
    obtain ⟨before, after, place, rfl⟩ :=
      exists_place_of_getElem? (List.getElem?_eq_getElem inRange)
    exact ⟨before, design.rows[before.length], after, of_decide_eq_true holds,
      modify_place place _, Or.inl place⟩
  · refine ⟨design.rows, ⟨key, ∅⟩, [], ?_, rfl, Or.inr ⟨(List.append_nil _).symm, rfl⟩⟩
    exact Dependency.determinants_subset_attributes ⟨key, ∅⟩

/-- Every row is kept, with its determinants and all its dependants. -/
theorem exists_of_keepKey {declared : AttributeSet} {design : Decomposition} {row : Dependency}
    (member : row ∈ design.rows) :
    ∃ kept ∈ (design.keepKey key declared).rows,
      kept.determinants = row.determinants ∧ row.dependants ⊆ kept.dependants := by
  obtain ⟨before, holder, after, _, rows, origin⟩ :=
    keepKey_cases nonempty declared design
  rw [rows]
  have around (common : row ∈ before ++ after) :
      ∃ kept ∈ before ++ holder.gain (unmentioned declared design.rows) :: after,
        kept.determinants = row.determinants ∧ row.dependants ⊆ kept.dependants :=
    ⟨row, append_subset_append_cons common, rfl, AttributeSet.subset_refl row.dependants⟩
  rcases origin with place | ⟨place, _⟩
  · rw [place] at member
    rcases mem_append_cons.1 member with rfl | common
    · refine ⟨_, List.mem_append_cons_self, rfl, ?_⟩
      intro name dependant
      exact mem_dependants_gain.2 (Or.inl dependant)
    · exact around common
  · exact around (place ▸ member)

/-- One row holds the key and all attributes that were not mentioned. Its
determinants are the key or those of a row from before. -/
theorem exists_holder (declared : AttributeSet) (design : Decomposition) :
    ∃ holder ∈ (design.keepKey key declared).rows,
      key ⊆ holder.attributes ∧ unmentioned declared design.rows ⊆ holder.attributes ∧
        (holder.determinants = key ∨
          ∃ row ∈ design.rows, holder.determinants = row.determinants) := by
  obtain ⟨before, holder, after, holds, rows, origin⟩ :=
    keepKey_cases nonempty declared design
  rw [rows]
  refine ⟨_, List.mem_append_cons_self, ?_, ?_, ?_⟩
  · intro name inKey
    exact mem_attributes_gain.2 (Or.inl (holds name inKey))
  · intro name free
    exact mem_attributes_gain.2 (Or.inr free)
  · rcases origin with place | ⟨_, rfl⟩
    · exact Or.inr ⟨holder, place ▸ List.mem_append_cons_self, rfl⟩
    · exact Or.inl rfl

variable {declared : AttributeSet} {design : Decomposition}

/-- Once the key is kept, every declared attribute is mentioned. -/
theorem mentions_of_mem_declared {name : String} (isDeclared : name ∈ declared) :
    Mentions (design.keepKey key declared).rows name := by
  by_cases mentioned : Mentions design.rows name
  · obtain ⟨row, member, named⟩ := mentioned
    obtain ⟨kept, inKept, same, contained⟩ := exists_of_keepKey nonempty member
    refine ⟨kept, inKept, Dependency.mem_attributes.2 ?_⟩
    exact same ▸ (Dependency.mem_attributes.1 named).imp id (contained name)
  · obtain ⟨holder, inKept, _, free, _⟩ := exists_holder nonempty declared design
    exact ⟨holder, inKept, free name (mem_unmentioned.2 ⟨isDeclared, mentioned⟩)⟩

/-- **Some kept row has the key as its determinants if and only if some row had them before, or
no row held the key.** A row that holds the key otherwise takes the place of a row of its own. -/
theorem mem_determinants_keepKey_iff :
    key ∈ (design.keepKey key declared).rows.map Dependency.determinants ↔
      key ∈ design.rows.map Dependency.determinants ∨ ∀ row ∈ design.rows, ¬key ⊆ row.attributes := by
  unfold Decomposition.keepKey
  rw [if_neg nonempty]
  dsimp only
  split
  · next index found =>
    obtain ⟨inRange, holds, _⟩ := List.findIdx?_eq_some_iff_getElem.1 found
    rw [map_determinants_modify_gain]
    refine (or_iff_left fun noneHolds => ?_).symm
    exact noneHolds _ (List.getElem_mem inRange) (of_decide_eq_true holds)
  · next notFound =>
    have noneHolds (row : Dependency) (member : row ∈ design.rows) : ¬key ⊆ row.attributes :=
      of_decide_eq_false (List.findIdx?_eq_none_iff.1 notFound row member)
    refine iff_of_true ?_ (Or.inr noneHolds)
    exact List.mem_map.2 ⟨_, List.mem_append_right _ (List.mem_singleton.2 rfl), rfl⟩

/-- A kept row has the determinants of a row from before, or the key, and gains
only attributes that were not mentioned. -/
theorem of_mem_keepKey {kept : Dependency} (member : kept ∈ (design.keepKey key declared).rows) :
    (∃ row ∈ design.rows, kept.determinants = row.determinants ∧
      ∀ name ∈ kept.dependants, name ∈ row.dependants ∨ name ∈ unmentioned declared design.rows) ∨
    kept.determinants = key ∧ kept.dependants ⊆ unmentioned declared design.rows := by
  obtain ⟨before, holder, after, _, rows, origin⟩ :=
    keepKey_cases nonempty declared design
  rw [rows] at member
  rcases mem_append_cons.1 member with rfl | common
  · have gained (name : String)
        (dependant : name ∈ (holder.gain (unmentioned declared design.rows)).dependants) :
        name ∈ holder.dependants ∨ name ∈ unmentioned declared design.rows :=
      (mem_dependants_gain.1 dependant).imp id And.left
    rcases origin with place | ⟨_, rfl⟩
    · exact Or.inl ⟨holder, place ▸ List.mem_append_cons_self, rfl, gained⟩
    · refine Or.inr ⟨rfl, fun name dependant => (gained name dependant).resolve_left ?_⟩
      exact AttributeSet.notMem_empty name
  · refine Or.inl ⟨kept, ?_, rfl, fun name dependant => Or.inl dependant⟩
    rcases origin with place | ⟨place, _⟩
    · exact place ▸ append_subset_append_cons common
    · exact place ▸ common

/-- If the rows mention only declared attributes, so do the kept rows. -/
theorem mentions_keepKey (declares : ∀ name, Mentions design.rows name → name ∈ declared)
    (keyDeclared : key ⊆ declared) {name : String}
    (mentioned : Mentions (design.keepKey key declared).rows name) : name ∈ declared := by
  obtain ⟨kept, member, named⟩ := mentioned
  rcases of_mem_keepKey nonempty member with ⟨row, inDesign, same, gained⟩ | ⟨same, gained⟩
  · rcases Dependency.mem_attributes.1 named with determinant | dependant
    · exact declares name (.of_determinant inDesign (same ▸ determinant))
    · rcases gained name dependant with old | free
      · exact declares name (.of_dependant inDesign old)
      · exact (mem_unmentioned.1 free).1
  · rcases Dependency.mem_attributes.1 named with determinant | dependant
    · exact keyDeclared name (same ▸ determinant)
    · exact (mem_unmentioned.1 (gained name dependant)).1

/-! ## What the key reaches -/

/-- Kept rows have the larger closures. -/
theorem closure_subset_closure_keepKey (names : AttributeSet) :
    closure design.rows names ⊆ closure (design.keepKey key declared).rows names := by
  apply closure_subset_of_states
  rintro determinants name ⟨row, member, rfl, dependant⟩
  obtain ⟨kept, inKept, same, contained⟩ := exists_of_keepKey nonempty member
  exact ⟨kept, inKept, same, contained name dependant⟩

/-- The key reaches no more than before but for the attributes that were not mentioned. -/
theorem mem_closure_keepKey {name : String}
    (reached : name ∈ closure (design.keepKey key declared).rows key) :
    name ∈ closure design.rows key ∨ name ∈ unmentioned declared design.rows := by
  refine closure_induction (motive := fun name =>
    name ∈ closure design.rows key ∨ name ∈ unmentioned declared design.rows) ?_ ?_ name reached
  · intro kept member usable name dependant
    rcases of_mem_keepKey nonempty member with ⟨row, inDesign, same, gained⟩ | ⟨_, gained⟩
    · rcases gained name dependant with old | free
      · refine Or.inl (closed_closure design.rows key row inDesign ?_ name old)
        -- the determinants of the row are mentioned, so they were reached before
        intro determinant isDeterminant
        have mentioned : Mentions design.rows determinant :=
          .of_determinant inDesign isDeterminant
        refine (usable determinant (same ▸ isDeterminant)).resolve_right ?_
        exact fun free => (mem_unmentioned.1 free).2 mentioned
      · exact Or.inr free
    · exact Or.inr (gained name dependant)
  · intro name inKey
    exact Or.inl (subset_closure design.rows key name inKey)

/-- **The key reaches all declared attributes if and only if the rows alone reach
from it all that they mention.** -/
theorem subset_closure_keepKey_iff
    (declares : ∀ name, Mentions design.rows name → name ∈ declared) :
    declared ⊆ closure (design.keepKey key declared).rows key ↔ Spans design.rows key := by
  constructor
  · intro reaches name mentioned
    refine (mem_closure_keepKey nonempty (reaches name (declares name mentioned))).resolve_right ?_
    exact fun free => (mem_unmentioned.1 free).2 mentioned
  · intro spans name isDeclared
    have reached (other : String) (mentioned : Mentions design.rows other) :
        other ∈ closure (design.keepKey key declared).rows key :=
      closure_subset_closure_keepKey nonempty key other (spans other mentioned)
    by_cases mentioned : Mentions design.rows name
    · exact reached name mentioned
    · obtain ⟨holder, member, _, free, origin⟩ :=
        exists_holder nonempty declared design
      have usable : holder.determinants ⊆ closure (design.keepKey key declared).rows key := by
        intro determinant isDeterminant
        rcases origin with same | ⟨row, inDesign, same⟩
        · exact subset_closure _ key determinant (same ▸ isDeterminant)
        · exact reached determinant (.of_determinant inDesign (same ▸ isDeterminant))
      rcases Dependency.mem_attributes.1 (free name (mem_unmentioned.2 ⟨isDeclared, mentioned⟩))
        with determinant | dependant
      · exact usable name determinant
      · exact closed_closure _ key holder member usable name dependant

end KeptKey

end RelationalDesign
