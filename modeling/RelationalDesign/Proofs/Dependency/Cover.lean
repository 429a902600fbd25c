import RelationalDesign.Dependency.Cover
import RelationalDesign.Proofs.Dependency.Statements

/-!
# Covers keep the closure, and minimal covers are minimal

Splitting, taking determinants out and leaving rows out all keep the closure
(`closure_split`, `closure_reduceRows`, `closure_pruneRows`), so a cover of
either kind has the closure of what it covers (`closure_cover`).

Every row of a cover has one dependant (`single_cover`). In a minimal cover none of
several determinants can be taken out of a row (`reduced_minimalCover`) and no
row is implied by the others (`irredundant_minimalCover`). So a key that fixes all
attributes is never a proper part of the determinants of a row
(`determinants_eq_of_spans`).

Both passes look at rows that still change. What they find stays true all the
same: a test that has failed keeps failing, because determinants and rows only
become fewer while the closure stays the same.
-/

set_option autoImplicit false

namespace RelationalDesign

/-! ## Splitting -/

theorem mem_split {rows : List Dependency} {single : Dependency} :
    single ∈ split rows ↔ ∃ row ∈ rows, ∃ name ∈ row.dependants,
      name ∉ row.determinants ∧ single = ⟨row.determinants, {name}⟩ := by
  simp only [split, List.mem_flatMap, List.mem_map, AttributeSet.mem_toList, AttributeSet.mem_diff,
    and_assoc, eq_comm (b := single)]

/-- **A split has the closure of the rows it splits.** -/
theorem closure_split (rows : List Dependency) : closure (split rows) = closure rows := by
  refine closure_eq_of_implies ?_ ?_
  · intro single member
    obtain ⟨row, inRows, name, dependant, _, rfl⟩ := mem_split.1 member
    intro other isName
    rw [AttributeSet.mem_singleton.1 isName]
    exact implies_of_mem inRows name dependant
  · intro row inRows name dependant
    by_cases trivial : name ∈ row.determinants
    · exact subset_closure (split rows) row.determinants name trivial
    · have single : (⟨row.determinants, {name}⟩ : Dependency) ∈ split rows :=
        mem_split.2 ⟨row, inRows, name, dependant, trivial, rfl⟩
      exact implies_of_mem single name (AttributeSet.mem_singleton.2 rfl)

/-! ## Taking determinants out -/

/-- A dependency with the dependants of another one and no other determinants. -/
structure Dependency.Shortens (shorter row : Dependency) : Prop where
  determinants : shorter.determinants ⊆ row.determinants
  dependants : shorter.dependants = row.dependants

namespace Dependency.Shortens

theorem refl (row : Dependency) : row.Shortens row :=
  ⟨AttributeSet.subset_refl row.determinants, rfl⟩

theorem trans {first second third : Dependency} (shorter : first.Shortens second)
    (longer : second.Shortens third) : first.Shortens third :=
  ⟨AttributeSet.subset_trans shorter.determinants longer.determinants,
    shorter.dependants.trans longer.dependants⟩

theorem implies {rows : List Dependency} {shorter row : Dependency} (less : shorter.Shortens row)
    (implied : Implies rows shorter) : Implies rows row := by
  unfold Implies
  rw [← less.dependants]
  exact AttributeSet.subset_trans implied (closure_mono rows less.determinants)

theorem erase {shorter row : Dependency} (less : shorter.Shortens row) (name : String) :
    Dependency.Shortens ⟨shorter.determinants.erase name, shorter.dependants⟩
      ⟨row.determinants.erase name, row.dependants⟩ := by
  refine ⟨fun other member => ?_, less.dependants⟩
  obtain ⟨determinant, different⟩ := AttributeSet.mem_erase.1 member
  exact AttributeSet.mem_erase.2 ⟨less.determinants other determinant, different⟩

end Dependency.Shortens

/-- No determinant can be taken out of a row that has several. -/
def Reduced (rows : List Dependency) (row : Dependency) : Prop :=
  1 < row.determinants.size →
    ∀ name ∈ row.determinants, ¬Implies rows ⟨row.determinants.erase name, row.dependants⟩

theorem Reduced.congr {first second : List Dependency} {row : Dependency}
    (reduced : Reduced first row) (same : closure first = closure second) : Reduced second row := by
  intro several name determinant implied
  exact reduced several name determinant ((implies_congr same).2 implied)

section DropDeterminant

variable (behind ahead : List Dependency)

theorem dropDeterminant_shortens (row : Dependency) (name : String) :
    (dropDeterminant behind ahead row name).Shortens row := by
  unfold dropDeterminant
  dsimp only
  split
  · exact ⟨fun other member => (AttributeSet.mem_erase.1 member).1, rfl⟩
  · exact .refl row

theorem closure_dropDeterminant (row : Dependency) (name : String) :
    closure (behind ++ dropDeterminant behind ahead row name :: ahead) =
      closure (behind ++ row :: ahead) := by
  have shorter := dropDeterminant_shortens behind ahead row name
  unfold dropDeterminant at shorter ⊢
  dsimp only at shorter ⊢
  split
  · next accepted =>
    rw [if_pos accepted] at shorter
    refine closure_replace accepted.2 (shorter.implies (implies_of_mem ?_))
    exact List.mem_append_cons_self
  · rfl

/-- A determinant that is still there after it has been tried could not be taken out. -/
theorem not_implies_of_mem_dropDeterminant {row : Dependency} {name : String}
    (kept : name ∈ (dropDeterminant behind ahead row name).determinants)
    (several : 1 < row.determinants.size) :
    ¬Implies (behind ++ row :: ahead) ⟨row.determinants.erase name, row.dependants⟩ := by
  intro implied
  unfold dropDeterminant at kept
  dsimp only at kept
  rw [if_pos ⟨several, implied⟩] at kept
  exact (AttributeSet.mem_erase.1 kept).2 rfl

theorem foldl_dropDeterminant_shortens (names : List String) (row : Dependency) :
    (names.foldl (dropDeterminant behind ahead) row).Shortens row := by
  induction names generalizing row with
  | nil => exact .refl row
  | cons name rest ih => exact (ih _).trans (dropDeterminant_shortens behind ahead row name)

theorem closure_foldl_dropDeterminant (names : List String) (row : Dependency) :
    closure (behind ++ names.foldl (dropDeterminant behind ahead) row :: ahead) =
      closure (behind ++ row :: ahead) := by
  induction names generalizing row with
  | nil => rfl
  | cons name rest ih => rw [List.foldl_cons, ih, closure_dropDeterminant]

/-- No determinant that has been tried can be taken out of what remains of the row. -/
theorem not_implies_of_tried {names : List String} {row : Dependency} {name : String}
    (tried : name ∈ names)
    (kept : name ∈ (names.foldl (dropDeterminant behind ahead) row).determinants)
    (several : 1 < (names.foldl (dropDeterminant behind ahead) row).determinants.size) :
    ¬Implies (behind ++ row :: ahead)
      ⟨(names.foldl (dropDeterminant behind ahead) row).determinants.erase name,
        (names.foldl (dropDeterminant behind ahead) row).dependants⟩ := by
  induction names generalizing row with
  | nil => exact absurd tried List.not_mem_nil
  | cons first rest ih =>
    rw [List.foldl_cons] at kept several ⊢
    rcases List.mem_cons.1 tried with equal | later
    · subst equal
      have shorter := foldl_dropDeterminant_shortens behind ahead rest
        (dropDeterminant behind ahead row name)
      have shorterRow := shorter.trans (dropDeterminant_shortens behind ahead row name)
      intro implied
      refine not_implies_of_mem_dropDeterminant behind ahead (shorter.determinants name kept) ?_
        ((shorterRow.erase name).implies implied)
      exact Nat.lt_of_lt_of_le several (AttributeSet.size_le_of_subset shorterRow.determinants)
    · rw [← implies_congr (closure_dropDeterminant behind ahead row first)]
      exact ih later kept several

theorem reduceRow_shortens (row : Dependency) : (reduceRow behind ahead row).Shortens row :=
  foldl_dropDeterminant_shortens behind ahead row.determinants.toList row

theorem closure_reduceRow (row : Dependency) :
    closure (behind ++ reduceRow behind ahead row :: ahead) = closure (behind ++ row :: ahead) :=
  closure_foldl_dropDeterminant behind ahead row.determinants.toList row

theorem reduced_reduceRow (row : Dependency) :
    Reduced (behind ++ row :: ahead) (reduceRow behind ahead row) := by
  intro several name kept
  have determinant := (reduceRow_shortens behind ahead row).determinants name kept
  exact not_implies_of_tried behind ahead (AttributeSet.mem_toList.2 determinant) kept several

end DropDeterminant

theorem closure_append_reduceRows (behind ahead : List Dependency) :
    closure (behind ++ reduceRows behind ahead) = closure (behind ++ ahead) := by
  induction ahead generalizing behind with
  | nil => rfl
  | cons row ahead ih =>
    have rest := ih (behind ++ [reduceRow behind ahead row])
    simp only [List.append_assoc, List.singleton_append] at rest
    simp only [reduceRows]
    rw [rest, closure_reduceRow]

/-- Every row ahead is reduced in the end, whatever happens to the rows after it. -/
theorem reduced_reduceRows (behind ahead : List Dependency) :
    ∀ row ∈ reduceRows behind ahead, Reduced (behind ++ ahead) row := by
  induction ahead generalizing behind with
  | nil =>
    intro row member
    exact absurd member List.not_mem_nil
  | cons first ahead ih =>
    intro row member
    simp only [reduceRows] at member
    rcases List.mem_cons.1 member with equal | later
    · subst equal
      exact reduced_reduceRow behind ahead first
    · have reduced := ih (behind ++ [reduceRow behind ahead first]) row later
      simp only [List.append_assoc, List.singleton_append] at reduced
      exact reduced.congr (closure_reduceRow behind ahead first)

theorem exists_of_mem_reduceRows {behind ahead : List Dependency} {shorter : Dependency}
    (member : shorter ∈ reduceRows behind ahead) : ∃ row ∈ ahead, shorter.Shortens row := by
  induction ahead generalizing behind with
  | nil => exact absurd member List.not_mem_nil
  | cons first ahead ih =>
    simp only [reduceRows] at member
    rcases List.mem_cons.1 member with equal | later
    · subst equal
      exact ⟨first, List.mem_cons_self, reduceRow_shortens behind ahead first⟩
    · obtain ⟨row, inAhead, less⟩ := ih later
      exact ⟨row, List.mem_cons_of_mem first inAhead, less⟩

/-! ## Leaving rows out -/

theorem pruneRows_sublist (kept ahead : List Dependency) :
    (pruneRows kept ahead).Sublist ahead := by
  induction ahead generalizing kept with
  | nil => exact List.Sublist.refl []
  | cons row ahead ih =>
    simp only [pruneRows]
    split
    · exact (ih kept).cons row
    · exact (ih (kept ++ [row])).cons_cons row

theorem closure_append_pruneRows (kept ahead : List Dependency) :
    closure (kept ++ pruneRows kept ahead) = closure (kept ++ ahead) := by
  induction ahead generalizing kept with
  | nil => rfl
  | cons row ahead ih =>
    simp only [pruneRows]
    split
    · next implied => rw [ih, closure_leave_out implied]
    · have rest := ih (kept ++ [row])
      simp only [List.append_assoc, List.singleton_append] at rest
      exact rest

/-- No row is implied by the other rows. -/
def Irredundant (rows : List Dependency) : Prop :=
  ∀ before row after, rows = before ++ row :: after → ¬Implies (before ++ after) row

/-- A row that has been kept is not implied by the rows kept before it and those
kept after it. -/
theorem not_implies_of_pruneRows {kept ahead before after : List Dependency} {row : Dependency}
    (place : pruneRows kept ahead = before ++ row :: after) :
    ¬Implies (kept ++ (before ++ after)) row := by
  induction ahead generalizing kept before with
  | nil => exact absurd place (by simp [pruneRows])
  | cons first ahead ih =>
    simp only [pruneRows] at place
    split at place
    · exact ih place
    · next needed =>
      cases before with
      | nil =>
        obtain ⟨rfl, rest⟩ := List.cons.inj place
        intro implied
        refine needed (implied.mono ?_)
        have later : after.Sublist ahead := rest ▸ pruneRows_sublist (kept ++ [first]) ahead
        exact (later.append_left kept).subset
      | cons earlier before =>
        obtain ⟨rfl, rest⟩ := List.cons.inj place
        have needed := ih rest
        simp only [List.append_assoc, List.singleton_append] at needed
        exact needed

/-! ## The minimal cover -/

/-- **A minimal cover has the closure of the rows it covers.** -/
theorem closure_minimalCover (rows : List Dependency) :
    closure (minimalCover rows) = closure rows := by
  have pruned := closure_append_pruneRows [] (reduceRows [] (split rows))
  have reduced := closure_append_reduceRows [] (split rows)
  simp only [List.nil_append] at pruned reduced
  rw [minimalCover, pruned, reduced, closure_split]

/-- **A cover of either kind has the closure of the rows it covers.** -/
theorem closure_cover (mode : CoverMode) (rows : List Dependency) :
    closure (mode.cover rows) = closure rows := by
  cases mode with
  | minimal => exact closure_minimalCover rows
  | splitOnly => exact closure_split rows

/-- What is covered implies each row of a cover. -/
theorem implies_of_mem_cover {mode : CoverMode} {rows : List Dependency} {row : Dependency}
    (member : row ∈ mode.cover rows) : Implies rows row :=
  (implies_congr (closure_cover mode rows)).1 (implies_of_mem member)

/-- A row of a cover is a row of the split, perhaps with fewer determinants. -/
theorem exists_of_mem_cover {mode : CoverMode} {rows : List Dependency} {row : Dependency}
    (member : row ∈ mode.cover rows) : ∃ single ∈ split rows, row.Shortens single := by
  cases mode with
  | minimal =>
    exact exists_of_mem_reduceRows ((pruneRows_sublist [] (reduceRows [] (split rows))).subset member)
  | splitOnly => exact ⟨row, member, .refl row⟩

/-- A row of a cover has one dependant, which is not among its determinants. -/
theorem single_cover {mode : CoverMode} {rows : List Dependency} {row : Dependency}
    (member : row ∈ mode.cover rows) :
    ∃ name, row.dependants = {name} ∧ name ∉ row.determinants := by
  obtain ⟨single, inSplit, less⟩ := exists_of_mem_cover member
  obtain ⟨_, _, name, _, nontrivial, rfl⟩ := mem_split.1 inSplit
  exact ⟨name, less.dependants, fun determinant => nontrivial (less.determinants name determinant)⟩

theorem single_minimalCover {rows : List Dependency} {row : Dependency}
    (member : row ∈ minimalCover rows) :
    ∃ name, row.dependants = {name} ∧ name ∉ row.determinants := by
  have inCover : row ∈ CoverMode.minimal.cover rows := member
  exact single_cover inCover

/-- **No determinant can be taken out of a row of a minimal cover that has several.** -/
theorem reduced_minimalCover {rows : List Dependency} {row : Dependency}
    (member : row ∈ minimalCover rows) : Reduced rows row := by
  have inReduced := (pruneRows_sublist [] (reduceRows [] (split rows))).subset member
  exact (reduced_reduceRows [] (split rows) row inReduced).congr (closure_split rows)

/-- **No row of a minimal cover is implied by its other rows.** -/
theorem irredundant_minimalCover (rows : List Dependency) : Irredundant (minimalCover rows) := by
  intro before row after place
  have needed := not_implies_of_pruneRows place
  rwa [List.nil_append] at needed

/-- A dependant of a cover is one of a row that it covers, and not among the determinants there. -/
theorem exists_of_dependant_cover {mode : CoverMode} {rows : List Dependency} {row : Dependency}
    (member : row ∈ mode.cover rows) {name : String} (dependant : name ∈ row.dependants) :
    ∃ given ∈ rows, name ∈ given.dependants ∧ name ∉ given.determinants := by
  obtain ⟨single, inSplit, less⟩ := exists_of_mem_cover member
  obtain ⟨given, inRows, only, stated, nontrivial, rfl⟩ := mem_split.1 inSplit
  rw [less.dependants] at dependant
  obtain rfl : name = only := AttributeSet.mem_singleton.1 dependant
  exact ⟨given, inRows, stated, nontrivial⟩

/-- A cover mentions no attribute that the rows it covers do not mention. -/
theorem Mentions.of_cover {mode : CoverMode} {rows : List Dependency} {name : String}
    (mentioned : Mentions (mode.cover rows) name) : Mentions rows name := by
  obtain ⟨shorter, member, named⟩ := mentioned
  obtain ⟨single, inSplit, less⟩ := exists_of_mem_cover member
  obtain ⟨row, inRows, other, dependant, _, rfl⟩ := mem_split.1 inSplit
  refine ⟨row, inRows, Dependency.mem_attributes.2 ?_⟩
  rcases Dependency.mem_attributes.1 named with determinant | isOther
  · exact Or.inl (less.determinants name determinant)
  · rw [less.dependants] at isOther
    exact Or.inr (AttributeSet.mem_singleton.1 isOther ▸ dependant)

/-- **In a minimal cover no row has the attributes of a key and others as determinants.** The
others could be taken out. -/
theorem determinants_eq_of_spans {rows : List Dependency} {row : Dependency}
    (member : row ∈ minimalCover rows) {key : AttributeSet} (nonempty : key ≠ ∅)
    (spans : Spans rows key) (contained : key ⊆ row.determinants) : row.determinants = key := by
  obtain ⟨other, inKey⟩ := key.eq_empty_or_exists_mem.resolve_left nonempty
  have inCover : row ∈ CoverMode.minimal.cover rows := member
  refine AttributeSet.subset_antisymm (fun name determinant => ?_) contained
  refine Decidable.byContradiction fun notInKey => ?_
  have different : other ≠ name := fun same => notInKey (same ▸ inKey)
  have several : 1 < row.determinants.size :=
    AttributeSet.one_lt_size (contained other inKey) determinant different
  have remains : key ⊆ row.determinants.erase name := fun kept isKept =>
    AttributeSet.mem_erase.2 ⟨contained kept isKept, fun same => notInKey (same ▸ isKept)⟩
  refine reduced_minimalCover member several name determinant fun dependant isDependant => ?_
  refine closure_mono rows remains dependant (spans dependant ?_)
  exact (Mentions.of_dependant inCover isDependant).of_cover

/-- What fixes all attributes of the given dependencies fixes those of a cover. -/
theorem Spans.cover {given : List Dependency} {key : AttributeSet} (spans : Spans given key)
    (mode : CoverMode) : Spans (mode.cover given) key := by
  intro name mentioned
  rw [closure_cover]
  exact spans name mentioned.of_cover

end RelationalDesign
