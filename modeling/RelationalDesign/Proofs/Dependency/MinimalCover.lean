import RelationalDesign.Proofs.Dependency.Cover

/-!
# Minimal covers are the fixed points

A list of dependencies is minimal if each row has one dependant outside its own
determinants, no row is implied by the other rows, and no determinant can be
taken out of a row that has several (`IsMinimal`). A minimal cover is minimal in
this sense, with the closure taken under the cover itself (`isMinimal_minimalCover`).

On a minimal list none of the three passes finds anything to do: the split gives
each row back (`split_eq_self`), every determinant that is tried stays
(`reduceRows_eq_self`) and so does every row (`pruneRows_eq_self`). So the minimal
lists are exactly those that are their own minimal cover
(`minimalCover_eq_self_iff`), order of the rows included.
-/

set_option autoImplicit false

namespace RelationalDesign

/-- Single dependants outside the determinants, no row that the others imply and no
determinant that can be taken out of several. -/
structure IsMinimal (cover : List Dependency) : Prop where
  single : ∀ row ∈ cover, ∃ name, row.dependants = {name} ∧ name ∉ row.determinants
  irredundant : Irredundant cover
  reduced : ∀ row ∈ cover, Reduced cover row

theorem isMinimal_minimalCover (rows : List Dependency) : IsMinimal (minimalCover rows) where
  single := fun _ => single_minimalCover
  irredundant := irredundant_minimalCover rows
  reduced := fun _ member => (reduced_minimalCover member).congr (closure_minimalCover rows).symm

/-! ## Nothing left to do -/

/-- Splitting gives back rows with one dependant outside the determinants. -/
theorem split_eq_self {cover : List Dependency}
    (single : ∀ row ∈ cover, ∃ name, row.dependants = {name} ∧ name ∉ row.determinants) :
    split cover = cover := by
  induction cover with
  | nil => rfl
  | cons row rest ih =>
    obtain ⟨name, isSingle, outside⟩ := single row List.mem_cons_self
    have remains : row.dependants \ row.determinants = {name} := by
      rw [isSingle]
      ext other
      simp only [AttributeSet.mem_diff, AttributeSet.mem_singleton]
      exact ⟨And.left, fun isName => ⟨isName, isName ▸ outside⟩⟩
    have whole : (⟨row.determinants, {name}⟩ : Dependency) = row := by rw [← isSingle]
    have later := ih fun other member => single other (List.mem_cons_of_mem row member)
    unfold split at later ⊢
    rw [List.flatMap_cons, later, remains]
    exact congrArg (· :: rest) whole

section Reducing

variable {behind ahead : List Dependency} {row : Dependency}

/-- Every determinant of a reduced row stays when it is tried. -/
theorem dropDeterminant_eq_self (reduced : Reduced (behind ++ row :: ahead) row) {name : String}
    (determinant : name ∈ row.determinants) : dropDeterminant behind ahead row name = row := by
  unfold dropDeterminant
  exact if_neg fun accepted => reduced accepted.1 name determinant accepted.2

theorem reduceRow_eq_self (reduced : Reduced (behind ++ row :: ahead) row) :
    reduceRow behind ahead row = row := by
  have stays (names : List String) (determinants : ∀ name ∈ names, name ∈ row.determinants) :
      names.foldl (dropDeterminant behind ahead) row = row := by
    induction names with
    | nil => rfl
    | cons name rest ih =>
      rw [List.foldl_cons, dropDeterminant_eq_self reduced (determinants name List.mem_cons_self)]
      exact ih fun other later => determinants other (List.mem_cons_of_mem name later)
  exact stays row.determinants.toList fun _ => AttributeSet.mem_toList.1

/-- Reducing gives back rows that are reduced with respect to all rows. -/
theorem reduceRows_eq_self (reduced : ∀ row ∈ ahead, Reduced (behind ++ ahead) row) :
    reduceRows behind ahead = ahead := by
  induction ahead generalizing behind with
  | nil => rfl
  | cons first rest ih =>
    have same := reduceRow_eq_self (reduced first List.mem_cons_self)
    simp only [reduceRows, same]
    refine congrArg (first :: ·) (ih fun row later => ?_)
    rw [List.append_assoc, List.singleton_append]
    exact reduced row (List.mem_cons_of_mem first later)

end Reducing

/-- Pruning gives back rows that the rows around them do not imply. -/
theorem pruneRows_eq_self {kept ahead : List Dependency}
    (needed : ∀ before row after, ahead = before ++ row :: after →
      ¬Implies (kept ++ (before ++ after)) row) : pruneRows kept ahead = ahead := by
  induction ahead generalizing kept with
  | nil => rfl
  | cons first rest ih =>
    have stays : ¬Implies (kept ++ rest) first := needed [] first rest rfl
    simp only [pruneRows]
    rw [if_neg stays]
    refine congrArg (first :: ·) (ih fun before row after place => ?_)
    rw [List.append_assoc, List.singleton_append]
    exact needed (first :: before) row after (congrArg (first :: ·) place)

/-- **The minimal lists are those that are their own minimal cover.** -/
theorem minimalCover_eq_self_iff {cover : List Dependency} :
    minimalCover cover = cover ↔ IsMinimal cover := by
  constructor
  · intro same
    exact same ▸ isMinimal_minimalCover cover
  · intro minimal
    have unreduced : reduceRows [] cover = cover := reduceRows_eq_self minimal.reduced
    have unpruned : pruneRows [] cover = cover := pruneRows_eq_self minimal.irredundant
    rw [minimalCover, split_eq_self minimal.single, unreduced, unpruned]

/-! ## Minimality -/

/-- **In a minimal cover each row has one dependant, which is not among its determinants,
not fixed by them under the other rows, and not fixed by all but one of several
determinants.** So the minimal cover of a minimal cover is that cover. -/
theorem minimal_minimalCover (rows : List Dependency) :
    (∀ before row after, minimalCover rows = before ++ row :: after →
      ∃ name, row.dependants = {name} ∧ name ∉ row.determinants ∧
        name ∉ closure (before ++ after) row.determinants ∧
        (1 < row.determinants.size → ∀ other ∈ row.determinants,
          name ∉ closure (minimalCover rows) (row.determinants.erase other))) ∧
      minimalCover (minimalCover rows) = minimalCover rows := by
  have minimal := isMinimal_minimalCover rows
  refine ⟨fun before row after place => ?_, minimalCover_eq_self_iff.2 minimal⟩
  have member : row ∈ minimalCover rows := place ▸ List.mem_append_cons_self
  obtain ⟨name, single, outside⟩ := minimal.single row member
  refine ⟨name, single, outside, ?_, fun several other determinant derived => ?_⟩
  · rw [← implies_iff_of_single single]
    exact minimal.irredundant before row after place
  · refine minimal.reduced row member several other determinant fun dependant stated => ?_
    have isName : dependant = name := AttributeSet.mem_singleton.1 (single ▸ stated)
    exact isName ▸ derived

end RelationalDesign
