import RelationalDesign.Ddl.Compiler

/-!
# Quoted regions

A text of statements is taken apart from left to right, with nothing known but the quote
character: a region begins at a quote character and ends at the next one that does not
stand twice. What is found are the characters outside and the names in the regions.

Fragments are found again as they are (`scan_renderFragments`) if some text without the
quote character stands between any two names (`Legible`). The names themselves may hold
quote characters: they are written twice.
-/

set_option autoImplicit false

namespace RelationalDesign.Ddl

/-! ## Scanning -/

/-- A piece of a text: a character outside the regions, or a region with the name in it. -/
inductive Piece where
  | plain (c : Char)
  | region (name : String)
deriving DecidableEq

/-- Where a scan stands, with what it has read of a region. -/
inductive Place where
  | outside
  | inside (read : List Char)
  /-- Behind a quote character that ends a region unless another one follows. -/
  | behind (read : List Char)

/-- The pieces of a text from some place on. There are none if it ends in a region. -/
def scan (quote : Char) : Place → List Char → Option (List Piece)
  | .outside, [] => some []
  | .inside _, [] => none
  | .behind read, [] => some [.region (String.ofList read)]
  | .outside, c :: rest =>
    if c = quote then scan quote (.inside []) rest
    else (scan quote .outside rest).map (.plain c :: ·)
  | .inside read, c :: rest =>
    if c = quote then scan quote (.behind read) rest
    else scan quote (.inside (read ++ [c])) rest
  | .behind read, c :: rest =>
    if c = quote then scan quote (.inside (read ++ [quote])) rest
    else (scan quote .outside rest).map ([.region (String.ofList read), .plain c] ++ ·)

/-- The names in the regions, in order. -/
def regions (pieces : List Piece) : List String :=
  pieces.filterMap fun
    | .plain _ => none
    | .region name => some name

/-- The characters outside the regions, with a gap in the place of each region. -/
def outline (pieces : List Piece) : List (Option Char) :=
  pieces.map fun
    | .plain c => some c
    | .region _ => none

section Scan

variable {quote : Char} {rest : List Char}

theorem scan_plain {text : List Char} (noQuote : quote ∉ text) (rest : List Char) :
    scan quote .outside (text ++ rest) =
      (scan quote .outside rest).map (text.map Piece.plain ++ ·) := by
  induction text with
  | nil => simp
  | cons c text ih =>
    rw [List.mem_cons, not_or] at noQuote
    rw [List.cons_append, scan, if_neg (Ne.symm noQuote.1), ih noQuote.2, Option.map_map]
    rfl

theorem scan_double (read text rest : List Char) :
    scan quote (.inside read) (Identifier.double quote text ++ rest) =
      scan quote (.inside (read ++ text)) rest := by
  induction text generalizing read with
  | nil => simp [Identifier.double]
  | cons c text ih =>
    have step : scan quote (.inside read) ((if c = quote then [quote, quote] else [c]) ++
        (Identifier.double quote text ++ rest)) =
        scan quote (.inside (read ++ [c])) (Identifier.double quote text ++ rest) := by
      split
      · next same => simp [scan, same]
      · next other => simp [scan, other]
    rw [Identifier.double, List.flatMap_cons, List.append_assoc, ← Identifier.double, step, ih,
      List.append_assoc, List.singleton_append]

theorem scan_behind (read : List Char) (other : rest.head? ≠ some quote) :
    scan quote (.behind read) rest =
      (scan quote .outside rest).map (.region (String.ofList read) :: ·) := by
  cases rest with
  | nil => rfl
  | cons c rest =>
    have plain : c ≠ quote := fun same => other (congrArg some same)
    rw [scan, scan, if_neg plain, if_neg plain, Option.map_map]
    rfl

end Scan

/-- A quoted name is found as a region with the name in it. -/
theorem scan_quoted {dialect : Dialect} (name : Identifier) {rest : List Char}
    (other : rest.head? ≠ some dialect.quoteCharacter) :
    scan dialect.quoteCharacter .outside (name.quoted dialect ++ rest) =
      (scan dialect.quoteCharacter .outside rest).map (.region name.text :: ·) := by
  rw [Identifier.quoted, List.cons_append, List.append_assoc, List.singleton_append, scan,
    if_pos rfl, scan_double, scan, if_pos rfl, scan_behind _ other, List.nil_append,
    String.ofList_toList]

/-! ## Fragments -/

/-- What fragments are found as. -/
def Fragment.pieces : Fragment → List Piece
  | fixed text => text.toList.map Piece.plain
  | name identifier => [.region identifier.text]

/-- What a list of fragments is found as. -/
def pieces (fragments : List Fragment) : List Piece := fragments.flatMap Fragment.pieces

/-- Some text without the quote character. -/
def Plain (quote : Char) (text : String) : Prop := text ≠ "" ∧ quote ∉ text.toList

instance (quote : Char) (text : String) : Decidable (Plain quote text) :=
  inferInstanceAs (Decidable (_ ∧ _))

/-- Fragments in which some text without the quote character stands between any two names. -/
inductive Legible (quote : Char) : List Fragment → Prop
  | nil : Legible quote []
  | name (identifier : Identifier) : Legible quote [.name identifier]
  | join {before after : List Fragment} {text : String} (front : Legible quote before)
      (between : Plain quote text) (back : Legible quote after) :
      Legible quote (before ++ .fixed text :: after)

namespace Legible

variable {quote : Char} {fragments : List Fragment} {text : String}

theorem fixed (plain : Plain quote text) (later : Legible quote fragments) :
    Legible quote (.fixed text :: fragments) :=
  join nil plain later

theorem nameFixed (identifier : Identifier) (plain : Plain quote text)
    (later : Legible quote fragments) :
    Legible quote (.name identifier :: .fixed text :: fragments) :=
  join (name identifier) plain later

/-- Legible lists are legible with plain text between them. -/
theorem intercalate (plain : Plain quote text) {lists : List (List Fragment)}
    (legible : ∀ list ∈ lists, Legible quote list) :
    Legible quote ([Fragment.fixed text].intercalate lists) := by
  induction lists with
  | nil => exact nil
  | cons first others ih =>
    obtain ⟨front, back⟩ := List.forall_mem_cons.1 legible
    cases others with
    | nil => simpa using front
    | cons second rest =>
      rw [List.intercalate_cons_cons, List.append_assoc]
      exact join front plain (ih back)

end Legible

/-- **Legible fragments are found again**, whatever follows that is not a quote character. -/
theorem scan_renderFragments_append {dialect : Dialect} {fragments : List Fragment}
    (legible : Legible dialect.quoteCharacter fragments) {rest : List Char}
    (other : rest.head? ≠ some dialect.quoteCharacter) :
    scan dialect.quoteCharacter .outside (renderFragments dialect fragments ++ rest) =
      (scan dialect.quoteCharacter .outside rest).map (pieces fragments ++ ·) := by
  induction legible generalizing rest with
  | nil => simp [renderFragments, pieces]
  | name identifier =>
    rw [renderFragments, List.flatMap_singleton]
    exact scan_quoted identifier other
  | @join before after text _ between _ front back =>
    obtain ⟨nonempty, noQuote⟩ := between
    -- the text between is not empty, so no quote character follows what is before it
    have plain : (text.toList ++ (renderFragments dialect after ++ rest)).head? ≠
        some dialect.quoteCharacter := by
      cases chars : text.toList with
      | nil => exact absurd (String.toList_eq_nil_iff.1 chars) nonempty
      | cons c tail =>
        rintro same
        rw [chars] at noQuote
        exact noQuote (Option.some.inj same ▸ List.mem_cons_self)
    rw [renderFragments, List.flatMap_append, List.flatMap_cons, List.append_assoc,
      List.append_assoc, ← renderFragments, ← renderFragments, Fragment.render, front plain,
      scan_plain noQuote, back other, Option.map_map, Option.map_map]
    simp [pieces, Function.comp_def, Fragment.pieces]

theorem scan_renderFragments {dialect : Dialect} {fragments : List Fragment}
    (legible : Legible dialect.quoteCharacter fragments) :
    scan dialect.quoteCharacter .outside (renderFragments dialect fragments) =
      some (pieces fragments) := by
  have last : ([] : List Char).head? ≠ some dialect.quoteCharacter := by simp
  simpa [scan] using scan_renderFragments_append legible last

/-! ## Names and outlines -/

section Fragments

variable {fragments : List Fragment}

@[simp] theorem regions_nil : regions (pieces []) = [] := rfl

@[simp] theorem regions_fixed (text : String) :
    regions (pieces (.fixed text :: fragments)) = regions (pieces fragments) := by
  simp [regions, pieces, Fragment.pieces]

@[simp] theorem regions_name (name : Identifier) :
    regions (pieces (.name name :: fragments)) = name.text :: regions (pieces fragments) := by
  simp [regions, pieces, Fragment.pieces]

@[simp] theorem regions_append (others : List Fragment) :
    regions (pieces (fragments ++ others)) =
      regions (pieces fragments) ++ regions (pieces others) := by
  simp [regions, pieces]

@[simp] theorem outline_nil : outline (pieces []) = [] := rfl

@[simp] theorem outline_fixed (text : String) :
    outline (pieces (.fixed text :: fragments)) =
      text.toList.map some ++ outline (pieces fragments) := by
  simp [outline, pieces, Fragment.pieces]

@[simp] theorem outline_name (name : Identifier) :
    outline (pieces (.name name :: fragments)) = none :: outline (pieces fragments) := by
  simp [outline, pieces, Fragment.pieces]

@[simp] theorem outline_append (others : List Fragment) :
    outline (pieces (fragments ++ others)) =
      outline (pieces fragments) ++ outline (pieces others) := by
  simp [outline, pieces]

/-- What is put together piece by piece is put together with something between. -/
theorem intercalate_of_append {α β : Type} (look : List α → List β) (nil : look [] = [])
    (append : ∀ front back, look (front ++ back) = look front ++ look back)
    (between : List α) (lists : List (List α)) :
    look (between.intercalate lists) = (look between).intercalate (lists.map look) := by
  induction lists with
  | nil => exact nil
  | cons first others ih =>
    cases others with
    | nil => simp
    | cons second rest =>
      rw [List.intercalate_cons_cons, append, append, ih, List.map_cons, List.map_cons,
        List.map_cons, List.intercalate_cons_cons]

/-- With fixed text between lists of fragments, the names are those of the lists. -/
theorem regions_intercalate (between : String) (lists : List (List Fragment)) :
    regions (pieces ([Fragment.fixed between].intercalate lists)) =
      lists.flatMap fun list => regions (pieces list) := by
  induction lists with
  | nil => rfl
  | cons first others ih =>
    cases others with
    | nil => simp
    | cons second rest =>
      rw [List.intercalate_cons_cons, regions_append, regions_append, ih]
      simp

theorem outline_intercalate (between : String) (lists : List (List Fragment)) :
    outline (pieces ([Fragment.fixed between].intercalate lists)) =
      (between.toList.map some).intercalate (lists.map fun list => outline (pieces list)) := by
  have separate := intercalate_of_append (fun list => outline (pieces list)) outline_nil
    (fun _ _ => outline_append _) [Fragment.fixed between] lists
  rwa [outline_fixed, outline_nil, List.append_nil] at separate

theorem renderFragments_intercalate (dialect : Dialect) (between : String)
    (lists : List (List Fragment)) :
    renderFragments dialect ([Fragment.fixed between].intercalate lists) =
      between.toList.intercalate (lists.map (renderFragments dialect)) := by
  have text : renderFragments dialect [Fragment.fixed between] = between.toList :=
    List.flatMap_singleton _ _
  rw [intercalate_of_append (renderFragments dialect) rfl (fun _ _ => List.flatMap_append), text]

theorem regions_nameList (names : List Identifier) :
    regions (pieces (nameList names)) = names.map Identifier.text := by
  unfold nameList commaSeparated
  rw [regions_intercalate, List.flatMap_map, List.map_eq_flatMap]
  simp

/-- The outline of a list of names depends on their number only. -/
theorem outline_nameList {names others : List Identifier} (same : names.length = others.length) :
    outline (pieces (nameList names)) = outline (pieces (nameList others)) := by
  unfold nameList commaSeparated
  rw [outline_intercalate, outline_intercalate, List.map_map, List.map_map]
  simp only [Function.comp_def, outline_name, outline_nil, List.map_const', same]

end Fragments

end RelationalDesign.Ddl
