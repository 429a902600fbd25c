import RelationalDesign.Normalization.Scheme
import RelationalDesign.Proofs.Normalization.Parts

/-!
# Rebuilding a table from its key

Each part of a table depends on its own key. The table is rebuilt from its primary
key if these dependencies lead from the key to all attributes of the table
(`RebuiltFromKey`).

Keeping the key puts the attributes that no row mentions into one part, but it adds
no dependency of the attributes that some row mentions. So the table is rebuilt if
and only if the rows of the decomposition reach from the key all attributes that
they mention (`rebuiltFromKey_iff`). A key that fixes every attribute named in the
dependencies is enough in third normal form. It is enough in second normal form if
the dependencies go round in no circle (`rebuiltFromKey`).

Both conditions matter: the visits to a town whose county depends on the town are
not rebuilt in third normal form, and the accounts whose login and mail depend on
each other are not rebuilt in second normal form (`not_rebuilt`).
-/

set_option autoImplicit false

namespace RelationalDesign

/-- Determinants among the dependants of their own row make no difference. -/
theorem closure_widen (rows : List Dependency) :
    closure (rows.map fun row => ⟨row.determinants, row.attributes⟩) = closure rows := by
  apply closure_eq_of_implies
  · intro _ member
    obtain ⟨row, inRows, rfl⟩ := List.mem_map.1 member
    intro name named
    rcases Dependency.mem_attributes.1 named with determinant | dependant
    · exact subset_closure rows row.determinants name determinant
    · exact implies_of_mem inRows name dependant
  · intro row inRows name dependant
    apply implies_of_mem (List.mem_map_of_mem inRows) name
    exact row.dependants_subset_attributes name dependant

namespace Table

/-- The key of a table reaches all its attributes by way of the keys of its parts. -/
def RebuiltFromKey (settings : Settings) (form : NormalForm) (table : Table) : Prop :=
  table.heading ⊆ closure ((table.decompose settings form).parts.map keyDependency) table.key

section Accepted

variable {table : Table} (accepted : table.violations = []) {settings : Settings}
  (keeps : settings.preserveKey = true)
include accepted keeps

/-- **A table is rebuilt from its key if and only if the rows of its decomposition
reach from the key what they mention.** -/
theorem rebuiltFromKey_iff (form : NormalForm) :
    table.RebuiltFromKey settings form ↔
      Spans (form.decompose (settings.cover.cover table.stated)).rows table.key := by
  unfold RebuiltFromKey
  rw [map_keyDependency_decompose accepted keeps, closure_widen]
  apply subset_closure_keepKey_iff (key_ne_empty accepted)
  exact fun name mentioned => mem_heading_of_mentions accepted (mentions_decompose mentioned)

theorem rebuiltFromKey_third_iff :
    table.RebuiltFromKey settings .third ↔
      ∀ name, Mentions (settings.cover.cover table.stated) name →
        name ∈ closure table.stated table.key := by
  rw [rebuiltFromKey_iff accepted keeps, ← closure_cover settings.cover]
  exact spans_thirdForm

theorem rebuiltFromKey_second {rank : String → Nat}
    (ascending : Ascending rank (split table.stated)) (spans : Spans table.stated table.key) :
    table.RebuiltFromKey settings .second := by
  rw [rebuiltFromKey_iff accepted keeps]
  exact spans_secondForm (ascending.cover settings.cover) (spans.cover settings.cover)

end Accepted

/-- **When the tables of a scheme in first normal form are rebuilt from their keys.** -/
theorem rebuiltFromKey {scheme : Scheme} (accepted : scheme.violations = []) {table : Table}
    (member : table ∈ scheme.tables) {settings : Settings} (keeps : settings.preserveKey = true) :
    (∀ form, table.RebuiltFromKey settings form ↔
      Spans (form.decompose (settings.cover.cover table.stated)).rows table.key) ∧
    (table.RebuiltFromKey settings .third ↔
      ∀ name, Mentions (settings.cover.cover table.stated) name →
        name ∈ closure table.stated table.key) ∧
    ((∀ name ∈ table.namesInDependencies, name ∈ closure table.stated table.key) →
      table.RebuiltFromKey settings .third ∧
        ∀ rank, Ascending rank (split table.stated) → table.RebuiltFromKey settings .second) := by
  have acceptedTable : table.violations = [] := List.flatMap_eq_nil_iff.1 accepted table member
  refine ⟨rebuiltFromKey_iff acceptedTable keeps, rebuiltFromKey_third_iff acceptedTable keeps, ?_⟩
  intro fixed
  have spans : Spans table.stated table.key := fun name mentioned =>
    fixed name (mentions_stated_iff.1 mentioned)
  refine ⟨(rebuiltFromKey_iff acceptedTable keeps .third).2 ?_, fun rank ascending => ?_⟩
  · exact spans_thirdForm.2 (spans.cover settings.cover)
  · exact rebuiltFromKey_second acceptedTable keeps ascending spans

/-- Visits to a town, which is in a county. -/
def visits (dependencies : List DependencyClause) : Table where
  name := "visits"
  attributes := [⟨"visit", .integer, ⟨true, true, false⟩⟩, ⟨"town", .text, ∅⟩, ⟨"county", .text, ∅⟩]
  dependencies := dependencies

/-- Accounts of users, each with a login and a mail address that fix each other. -/
def accounts : Table where
  name := "accounts"
  attributes := [⟨"user", .integer, ⟨true, true, false⟩⟩, ⟨"login", .text, ∅⟩, ⟨"mail", .text, ∅⟩]
  dependencies := [⟨["user"], ["login", "mail"]⟩, ⟨["login"], ["mail"]⟩, ⟨["mail"], ["login"]⟩]

/-- Where the visit fixes the town, visits are rebuilt from their key in both forms. -/
theorem rebuilt_visits :
    let table := visits [⟨["visit"], ["town"]⟩, ⟨["town"], ["county"]⟩]
    let rank := fun name => if name = "visit" then 0 else if name = "town" then 1 else 2
    (⟨[table], []⟩ : Scheme).violations = [] ∧ Settings.usual.preserveKey = true ∧
      (∀ name ∈ table.namesInDependencies, name ∈ closure table.stated table.key) ∧
      Ascending rank (split table.stated) ∧
      table.RebuiltFromKey .usual .third ∧ table.RebuiltFromKey .usual .second := by
  intro table rank
  have accepted : (⟨[table], []⟩ : Scheme).violations = [] := by decide
  have fixed : ∀ name ∈ table.namesInDependencies, name ∈ closure table.stated table.key := by
    decide
  have ascending : Ascending rank (split table.stated) := by decide
  have keeps : Settings.usual.preserveKey = true := rfl
  obtain ⟨_, _, rebuilt⟩ := rebuiltFromKey accepted (List.mem_singleton.2 rfl) keeps
  obtain ⟨third, second⟩ := rebuilt fixed
  exact ⟨accepted, keeps, fixed, ascending, third, second rank ascending⟩

/-- The login absorbs the row that leads from the mail back to it. -/
theorem secondForm_accounts :
    (secondForm (minimalCover accounts.stated)).rows =
      [⟨{"user"}, {"mail"}⟩, ⟨{"login"}, {"mail"}⟩] := by
  let start : Focus := ⟨[⟨{"user"}, {"mail"}⟩], ⟨{"login"}, {"mail"}⟩, [⟨{"mail"}, {"login"}⟩]⟩
  have cover : minimalCover accounts.stated = start.rows := by decide
  have chosen : startingFocus? start.rows = some start := rfl
  have consolidated : consolidate start = [⟨{"user"}, {"mail"}⟩, ⟨{"login"}, {"mail"}⟩] := by
    rw [consolidate, if_neg (by decide), consolidate, if_pos (by decide)]
    decide
  rw [cover, secondForm, chosen]
  dsimp only
  rw [consolidated]
  decide

/-- **Tables that are not rebuilt from their keys.** If nothing says that a visit
fixes the town, no part holds the town with the visit. And as login and mail fix
each other, the second normal form keeps the mail with the user, but no dependency
that leads from the mail to the login. -/
theorem not_rebuilt :
    (⟨[visits [⟨["town"], ["county"]⟩], accounts], []⟩ : Scheme).violations = [] ∧
      Settings.usual.preserveKey = true ∧
      ¬(visits [⟨["town"], ["county"]⟩]).RebuiltFromKey .usual .third ∧
      (∀ name ∈ accounts.namesInDependencies, name ∈ closure accounts.stated accounts.key) ∧
      ¬accounts.RebuiltFromKey .usual .second := by
  refine ⟨by decide, rfl, ?_, by decide, ?_⟩
  · intro rebuilt
    have spans := (rebuiltFromKey_iff (by decide) rfl .third).1 rebuilt
    exact absurd (spans_thirdForm.1 spans) (by decide)
  · rw [rebuiltFromKey_iff (by decide) rfl]
    show ¬Spans (secondForm (minimalCover accounts.stated)).rows accounts.key
    rw [secondForm_accounts]
    decide

end Table

end RelationalDesign
