/-!
# Sets of attribute names

A set of attribute names is kept as the list of its members in strictly
increasing order of code points. The order makes the list unique, so two sets
with the same members are equal (`AttributeSet.ext`), and it is the order in
which a set is written out.

Every operation is described by its members: `mem_insert`, `mem_erase`,
`mem_union`, `mem_diff`, `mem_filter`, `mem_ofList` and `subset_iff`.
-/

set_option autoImplicit false

namespace RelationalDesign

/-- A finite set of attribute names, listed in strictly increasing order. -/
structure AttributeSet where
  /-- The members in increasing order. -/
  toList : List String
  /-- Each member is smaller than all the later ones. -/
  increasing : toList.Pairwise (· < ·)
deriving DecidableEq

namespace AttributeSet

instance : Membership String AttributeSet := ⟨fun names name => name ∈ names.toList⟩

theorem mem_toList {name : String} {names : AttributeSet} :
    name ∈ names.toList ↔ name ∈ names := Iff.rfl

instance (name : String) (names : AttributeSet) : Decidable (name ∈ names) :=
  inferInstanceAs (Decidable (name ∈ names.toList))

instance : HasSubset AttributeSet := ⟨fun inner outer => ∀ name ∈ inner.toList, name ∈ outer⟩

instance (inner outer : AttributeSet) : Decidable (inner ⊆ outer) :=
  inferInstanceAs (Decidable (∀ name ∈ inner.toList, name ∈ outer))

instance (holds : String → Prop) [DecidablePred holds] (names : AttributeSet) :
    Decidable (∀ name ∈ names, holds name) :=
  inferInstanceAs (Decidable (∀ name ∈ names.toList, holds name))

theorem subset_refl (names : AttributeSet) : names ⊆ names := fun _ member => member

theorem subset_trans {first second third : AttributeSet} (inner : first ⊆ second)
    (outer : second ⊆ third) : first ⊆ third :=
  fun name member => outer name (inner name member)

/-- A strictly increasing list repeats no name. -/
theorem nodup_of_increasing {names : List String} (increasing : names.Pairwise (· < ·)) :
    names.Nodup :=
  increasing.imp fun {smaller larger} before equal => by
    subst equal
    exact String.lt_irrefl smaller before

/-- Two strictly increasing lists with the same members are equal. -/
theorem eq_of_increasing {first second : List String} (firstIncreasing : first.Pairwise (· < ·))
    (secondIncreasing : second.Pairwise (· < ·)) (same : ∀ name, name ∈ first ↔ name ∈ second) :
    first = second := by
  refine List.Perm.eq_of_pairwise
    (fun _ _ _ _ before after => absurd after (String.lt_asymm before))
    firstIncreasing secondIncreasing ?_
  refine (List.perm_ext_iff_of_nodup ?_ ?_).2 same
  · exact nodup_of_increasing firstIncreasing
  · exact nodup_of_increasing secondIncreasing

/-- Sets with the same members are equal. -/
@[ext]
theorem ext {first second : AttributeSet} (same : ∀ name, name ∈ first ↔ name ∈ second) :
    first = second := by
  obtain ⟨firstList, firstIncreasing⟩ := first
  obtain ⟨secondList, secondIncreasing⟩ := second
  have equal : firstList = secondList := eq_of_increasing firstIncreasing secondIncreasing same
  subst equal
  rfl

theorem subset_antisymm {first second : AttributeSet} (forward : first ⊆ second)
    (back : second ⊆ first) : first = second :=
  ext fun name => ⟨forward name, back name⟩

/-- The number of members. -/
def size (names : AttributeSet) : Nat := names.toList.length

/-- A set has at least as many members as any set that it contains. -/
theorem size_le_of_subset {inner outer : AttributeSet} (contained : inner ⊆ outer) :
    inner.size ≤ outer.size :=
  (nodup_of_increasing inner.increasing).length_le_of_subset fun name member =>
    contained name member

/-- A set with two different members has more than one. -/
theorem one_lt_size {first second : String} {names : AttributeSet} (firstMember : first ∈ names)
    (secondMember : second ∈ names) (different : first ≠ second) : 1 < names.size := by
  have distinct : [first, second].Nodup := by simp [different]
  refine distinct.length_le_of_subset fun name member => ?_
  rcases List.mem_cons.1 member with equal | member
  · exact equal ▸ firstMember
  · exact List.mem_singleton.1 member ▸ secondMember

instance : EmptyCollection AttributeSet := ⟨⟨[], List.Pairwise.nil⟩⟩

@[simp]
theorem notMem_empty (name : String) : ¬name ∈ (∅ : AttributeSet) := List.not_mem_nil

theorem empty_subset (names : AttributeSet) : ∅ ⊆ names :=
  fun name member => absurd member (notMem_empty name)

theorem eq_empty_or_exists_mem (names : AttributeSet) : names = ∅ ∨ ∃ name, name ∈ names := by
  obtain ⟨list, increasing⟩ := names
  cases list with
  | nil => exact Or.inl rfl
  | cons name rest => exact Or.inr ⟨name, List.mem_cons_self⟩

theorem size_eq_zero_iff {names : AttributeSet} : names.size = 0 ↔ names = ∅ := by
  constructor
  · intro noMembers
    refine names.eq_empty_or_exists_mem.resolve_right fun ⟨name, member⟩ => ?_
    exact List.ne_nil_of_mem member (List.eq_nil_of_length_eq_zero noMembers)
  · rintro rfl
    rfl

instance : Singleton String AttributeSet := ⟨fun name => ⟨[name], List.pairwise_singleton _ name⟩⟩

@[simp]
theorem mem_singleton {name member : String} : name ∈ ({member} : AttributeSet) ↔ name = member :=
  List.mem_singleton

/-! ## Insertion -/

/-- Puts a name at its place in an increasing list, unless it is there. -/
def place (name : String) : List String → List String
  | [] => [name]
  | head :: rest =>
    if name < head then name :: head :: rest
    else if name = head then head :: rest
    else head :: place name rest

@[simp]
theorem mem_place {name member : String} {names : List String} :
    member ∈ place name names ↔ member = name ∨ member ∈ names := by
  induction names with
  | nil => simp [place]
  | cons head rest ih =>
    simp only [place]
    split
    · simp
    · split
      · next equal => simp [equal]
      · simp only [List.mem_cons, ih]
        grind

theorem place_increasing {name : String} {names : List String}
    (increasing : names.Pairwise (· < ·)) : (place name names).Pairwise (· < ·) := by
  induction names with
  | nil => exact List.pairwise_singleton _ name
  | cons head rest ih =>
    have ⟨headSmallest, restIncreasing⟩ := List.pairwise_cons.1 increasing
    simp only [place]
    split
    · next before =>
      refine List.pairwise_cons.2 ⟨fun later member => ?_, increasing⟩
      rcases List.mem_cons.1 member with equal | member
      · exact equal ▸ before
      · exact String.lt_trans before (headSmallest later member)
    · next notBefore =>
      split
      · exact increasing
      · next different =>
        refine List.pairwise_cons.2 ⟨fun later member => ?_, ih restIncreasing⟩
        rcases mem_place.1 member with equal | member
        · subst equal
          exact Decidable.byContradiction fun notAfter =>
            different (String.le_antisymm (String.not_lt.1 notAfter) (String.not_lt.1 notBefore))
        · exact headSmallest later member

instance : Insert String AttributeSet :=
  ⟨fun name names => ⟨place name names.toList, place_increasing names.increasing⟩⟩

@[simp]
theorem mem_insert {name member : String} {names : AttributeSet} :
    member ∈ insert name names ↔ member = name ∨ member ∈ names := mem_place

/-! ## Other operations -/

/-- The members that pass a test. -/
def filter (keep : String → Bool) (names : AttributeSet) : AttributeSet :=
  ⟨names.toList.filter keep, names.increasing.filter keep⟩

@[simp]
theorem mem_filter {keep : String → Bool} {name : String} {names : AttributeSet} :
    name ∈ names.filter keep ↔ name ∈ names ∧ keep name = true := List.mem_filter

/-- The set without one name. -/
def erase (names : AttributeSet) (name : String) : AttributeSet :=
  names.filter (fun member => decide (member ≠ name))

@[simp]
theorem mem_erase {name member : String} {names : AttributeSet} :
    member ∈ names.erase name ↔ member ∈ names ∧ member ≠ name := by
  simp [erase]

instance : SDiff AttributeSet :=
  ⟨fun names others => names.filter (fun member => decide (¬member ∈ others))⟩

@[simp]
theorem mem_diff {name : String} {names others : AttributeSet} :
    name ∈ names \ others ↔ name ∈ names ∧ ¬name ∈ others := by
  show name ∈ names.filter _ ↔ _
  simp

instance : Union AttributeSet :=
  ⟨fun first second => second.toList.foldl (fun names name => insert name names) first⟩

theorem mem_foldl_insert {name : String} {added : List String} {names : AttributeSet} :
    name ∈ added.foldl (fun names name => insert name names) names ↔
      name ∈ names ∨ name ∈ added := by
  induction added generalizing names with
  | nil => simp
  | cons head rest ih =>
    simp only [List.foldl_cons, ih, mem_insert, List.mem_cons]
    grind

@[simp]
theorem mem_union {name : String} {first second : AttributeSet} :
    name ∈ first ∪ second ↔ name ∈ first ∨ name ∈ second := mem_foldl_insert

/-- The set of the names in a list, whose order and repetitions are forgotten. -/
def ofList (names : List String) : AttributeSet :=
  names.foldl (fun names name => insert name names) ∅

@[simp]
theorem mem_ofList {name : String} {names : List String} :
    name ∈ ofList names ↔ name ∈ names := by
  simp [ofList, mem_foldl_insert]

/-- The union of the sets in a list. -/
def unions (sets : List AttributeSet) : AttributeSet :=
  sets.foldl (fun names others => names ∪ others) ∅

theorem mem_foldl_union {name : String} {sets : List AttributeSet} {names : AttributeSet} :
    name ∈ sets.foldl (fun names others => names ∪ others) names ↔
      name ∈ names ∨ ∃ others ∈ sets, name ∈ others := by
  induction sets generalizing names with
  | nil => simp
  | cons head rest ih =>
    simp only [List.foldl_cons, ih, mem_union, List.mem_cons]
    grind

/-- The union of a list of sets has the members of each. -/
@[simp]
theorem mem_unions {name : String} {sets : List AttributeSet} :
    name ∈ unions sets ↔ ∃ names ∈ sets, name ∈ names := by
  simp [unions, mem_foldl_union]

/-- The union of the sets that go with the members of a list. -/
theorem mem_unions_map {α : Type} {name : String} {members : List α} {names : α → AttributeSet} :
    name ∈ unions (members.map names) ↔ ∃ member ∈ members, name ∈ names member := by
  rw [mem_unions]
  constructor
  · rintro ⟨_, among, named⟩
    obtain ⟨member, inList, rfl⟩ := List.mem_map.1 among
    exact ⟨member, inList, named⟩
  · rintro ⟨member, inList, named⟩
    exact ⟨names member, List.mem_map_of_mem inList, named⟩

/-- Whether two sets share a member. -/
def meets (first second : AttributeSet) : Bool :=
  first.toList.any (fun name => decide (name ∈ second))

@[simp]
theorem meets_iff {first second : AttributeSet} :
    first.meets second = true ↔ ∃ name, name ∈ first ∧ name ∈ second := by
  simp only [meets, List.any_eq_true, decide_eq_true_eq, mem_toList]

/-- The written form of a set: its members between braces, as in `{a, b}`. -/
def render (names : AttributeSet) : String :=
  "\x7b" ++ ", ".intercalate names.toList ++ "\x7d"

end AttributeSet

end RelationalDesign
