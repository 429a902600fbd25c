import RelationalDesign.Proofs.Failure.Chains
import RelationalDesign.Proofs.SchemeText.Spelling

/-!
# Bare names

A name is written bare exactly if it can be: a written name reads as one token with the name as
its text, which is a word if the name by itself reads as just this word and is no keyword, and
a quoted text otherwise (`tokenize_writeName`).

Whether a name has the form of a word is a test of its characters alone. It says the same as
reading the name (`spells_word_iff`): a text that reads as a word with its own text has
nothing around the word, and all characters of a word pass the test.
-/

set_option autoImplicit false

namespace RelationalDesign.SchemeText

theorem isWord_ofList {c : Char} (begins : beginsWord c = true) (rest : List Char) :
    isWord (String.ofList (c :: rest.takeWhile continuesWord)) = true := by
  unfold isWord
  rw [String.toList_ofList]
  exact Bool.and_eq_true_iff.2 ⟨begins, List.all_takeWhile⟩

/-- The text of a word that is read has the form of a word. -/
theorem isWord_of_next? {text rest : List Char} {name : String}
    (found : next? text = some ⟨.ok (.word name), rest⟩) : isWord name = true := by
  unfold next? at found
  split at found
  · cases found
  · next c later _ =>
    have read := congrArg Lexeme.result (Option.some.inj found)
    have begins := beginsWord_of_lexeme read
    rw [lexeme_of_beginsWord begins] at read
    cases read
    exact isWord_ofList begins later

/-- A text that spells some tokens begins with the first and goes on with the others. -/
theorem spells_cons_iff {text : List Char} {token : Token} {tokens : List Token} :
    Spells text (token :: tokens) ↔
      ∃ rest, next? text = some ⟨.ok token, rest⟩ ∧ Spells rest tokens := by
  constructor
  · intro spells
    unfold Spells at spells ⊢
    cases first : next? text with
    | none =>
      rw [tokenize_of_none first] at spells
      cases spells
    | some found =>
      rw [tokenize_of_some first] at spells
      obtain ⟨read, isToken, others⟩ := bind_eq_ok_iff.1 spells
      obtain ⟨result, rest⟩ := found
      cases isToken
      cases later : tokenize rest with
      | error error =>
        rw [later] at others
        cases others
      | ok tokens =>
        rw [later] at others
        cases others
        exact ⟨rest, rfl, later⟩
  · rintro ⟨rest, next, later⟩
    exact .cons next later

/-- **A text reads as the word that it is** exactly if it has the form of a word. -/
theorem spells_word_iff (name : String) :
    Spells name.toList [.word name] ↔ isWord name = true := by
  constructor
  · intro spells
    obtain ⟨rest, first, _⟩ := spells_cons_iff.1 spells
    exact isWord_of_next? first
  · intro form
    have spells := Spells.word form (fun _ member => by cases member) .nil
    rwa [List.append_nil] at spells

/-- A name that reads as itself and is no keyword. -/
def StandsBare (name : String) : Prop :=
  tokenize name.toList = .ok [.word name] ∧ name ∉ keywords

theorem standsBare_iff (name : String) : StandsBare name ↔ isWord name = true ∧ name ∉ keywords :=
  and_congr_left' (spells_word_iff name)

instance (name : String) : Decidable (StandsBare name) :=
  decidable_of_iff _ (standsBare_iff name).symm

theorem nameToken_eq (name : String) :
    nameToken name = if StandsBare name then .word name else .quoted name := by
  have bare : (isWord name && !keywords.contains name) = true ↔ StandsBare name := by
    simp [standsBare_iff]
  unfold nameToken
  simp only [bare]

/-- **A name is quoted exactly when it has to be.** As it is written, it reads as one token: as
a word, if the name reads as that word and is no keyword, and otherwise as a quoted text. -/
theorem tokenize_writeName (name : String) :
    tokenize (writeName name).toList =
      .ok [if StandsBare name then .word name else .quoted name] := by
  have spells := Spells.name name (fun _ member => by cases member) .nil
  rw [List.append_nil, nameToken_eq] at spells
  exact spells

example : StandsBare "注文" ∧ ¬StandsBare "pk" ∧ ¬StandsBare "2nd" ∧ ¬StandsBare "order items" := by
  decide +kernel

end RelationalDesign.SchemeText
