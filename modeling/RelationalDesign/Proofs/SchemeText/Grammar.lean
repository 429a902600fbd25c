import RelationalDesign.Proofs.SchemeText.PhraseReaders
import RelationalDesign.Proofs.SchemeText.Phrases
import RelationalDesign.Proofs.SchemeText.Readers

/-!
# The readers take exactly the grammar

The tokens that read as a scheme are those that have a derivation. The derivation is unique
and states the scheme, and all other tokens are refused (`readTokens_exact`).

For each kind of phrase there is a reader that takes these phrases (`reads_names`,
`reads_attribute`, `reads_dependency`, `reads_entry`, `reads_table`, `reads_endpoint`,
`reads_relationship`, `reads_item`), and items are read to the end of the tokens
(`readItems_eq_ok_iff_phrases`).

**What ends a phrase.** No comma may follow names, and no modifier may follow an attribute.
Between the entries of a table this says which entry may precede which
(`endsWell_entries_iff`). Everything else ends with a token of its own.
-/

set_option autoImplicit false

namespace RelationalDesign.SchemeText

/-! ## Names -/

theorem NamePhrase.token_injective : Function.Injective NamePhrase.token := by
  intro first second same
  cases first <;> cases second <;> cases same <;> rfl

theorem NamePhrase.token_eq_word_iff {phrase : NamePhrase} {text : String} :
    phrase.token = .word text ↔ phrase = .bare text := by
  cases phrase <;> simp [NamePhrase.token]

theorem NamePhrase.token_ne_closeBrace (phrase : NamePhrase) : phrase.token ≠ .closeBrace := by
  cases phrase <;> exact Token.noConfusion

theorem readName_token (phrase : NamePhrase) (rest : List Token) :
    readName (phrase.token :: rest) = .ok (phrase.text, rest) := by
  cases phrase <;> rfl

theorem readName_eq_ok_iff_phrase {input rest : List Token} {name : String} :
    readName input = .ok (name, rest) ↔
      ∃ phrase : NamePhrase, input = phrase.token :: rest ∧ name = phrase.text := by
  constructor
  · intro read
    rcases readName_eq_ok_iff.1 read with word | quoted
    · exact ⟨.bare name, word, rfl⟩
    · exact ⟨.quoted name, quoted, rfl⟩
  · rintro ⟨phrase, rfl, rfl⟩
    exact readName_token phrase rest

/-- A list of further names is read up to where no comma follows. -/
theorem readMoreNames_eq_ok_iff {input rest : List Token} {names : List String} :
    readMoreNames input = .ok (names, rest) ↔
      ∃ others, input = furtherTokens others ++ rest ∧ names = others.map NamePhrase.text ∧
        NoComma rest := by
  constructor
  · intro read
    fun_induction readMoreNames input generalizing names with
    | case1 text tail ih =>
      obtain ⟨⟨_, _⟩, inner, equal⟩ := bind_eq_ok.1 read
      cases equal
      obtain ⟨others, rfl, rfl, noComma⟩ := ih inner
      exact ⟨.bare text :: others, rfl, rfl, noComma⟩
    | case2 text tail ih =>
      obtain ⟨⟨_, _⟩, inner, equal⟩ := bind_eq_ok.1 read
      cases equal
      obtain ⟨others, rfl, rfl, noComma⟩ := ih inner
      exact ⟨.quoted text :: others, rfl, rfl, noComma⟩
    | case3 => cases read
    | case4 tail _ _ other =>
      cases read
      refine ⟨[], rfl, rfl, fun comma => ?_⟩
      obtain ⟨behind, same⟩ := List.head?_eq_some_iff.1 comma
      exact other behind same
  · rintro ⟨others, rfl, rfl, noComma⟩
    induction others with
    | nil => exact readMoreNames_of_noComma noComma
    | cons phrase later ih =>
      cases phrase <;> exact bind_eq_ok.2 ⟨_, ih, rfl⟩

theorem furtherTokens_injective : Function.Injective furtherTokens := by
  have separable : Separable (fun name : NamePhrase => [.comma, name.token]) fun _ _ => True := by
    refine ⟨fun {first second rest other} _ _ same => ?_⟩
    obtain ⟨_, tokens⟩ := List.cons.inj same
    obtain ⟨token, behind⟩ := List.cons.inj tokens
    exact ⟨NamePhrase.token_injective token, behind⟩
  exact separable.flatMap_injective (fun _ _ => trivial) fun _ => List.cons_ne_nil _ _

/-- **Names are read** up to where no comma follows. -/
theorem reads_names : Reads readNames NamesPhrase.tokens NamesPhrase.texts fun _ => NoComma where
  accepts := by
    intro input result rest
    constructor
    · intro read
      obtain ⟨⟨_, _⟩, readFirst, read⟩ := bind_eq_ok.1 read
      obtain ⟨⟨_, _⟩, readOthers, equal⟩ := bind_eq_ok.1 read
      cases equal
      obtain ⟨first, rfl, rfl⟩ := readName_eq_ok_iff_phrase.1 readFirst
      obtain ⟨others, rfl, rfl, noComma⟩ := readMoreNames_eq_ok_iff.1 readOthers
      exact ⟨⟨first, others⟩, rfl, rfl, noComma⟩
    · rintro ⟨⟨first, others⟩, rfl, rfl, noComma⟩
      have readOthers := readMoreNames_eq_ok_iff.2 ⟨others, rfl, rfl, noComma⟩
      exact bind_eq_ok.2 ⟨_, readName_token first _, bind_eq_ok.2 ⟨_, readOthers, rfl⟩⟩
  injective := by
    rintro ⟨first, others⟩ ⟨other, more⟩ same
    obtain ⟨token, further⟩ := List.cons.inj same
    obtain rfl : first = other := NamePhrase.token_injective token
    obtain rfl : others = more := furtherTokens_injective further
    rfl

/-! ## Attributes -/

/-- The constraint that a modifier states, added to those of other modifiers. -/
theorem constraintsOf_append (earlier : List Constraint) (modifier : Constraint) :
    constraintsOf (earlier ++ [modifier]) = (constraintsOf earlier).add modifier := by
  cases modifier <;> simp [constraintsOf, Constraints.add]

/-- Modifiers are read up to where no further one begins. -/
theorem readModifiers_eq_ok_iff {earlier : List Constraint} {input rest : List Token}
    {result : Constraints} :
    readModifiers (constraintsOf earlier) input = .ok (result, rest) ↔
      ∃ modifiers, input = modifiers.flatMap modifierWords ++ rest ∧
        result = constraintsOf (earlier ++ modifiers) ∧ NoModifier rest := by
  constructor
  · intro read
    generalize start : constraintsOf earlier = constraints at read
    fun_induction readModifiers constraints input generalizing earlier with
    | case1 constraints tail ih =>
      subst start
      obtain ⟨modifiers, rfl, rfl, noModifier⟩ := ih (constraintsOf_append earlier _) read
      exact ⟨.primaryKey :: modifiers, rfl, by simp, noModifier⟩
    | case2 constraints tail ih =>
      subst start
      obtain ⟨modifiers, rfl, rfl, noModifier⟩ := ih (constraintsOf_append earlier _) read
      exact ⟨.foreignKey :: modifiers, rfl, by simp, noModifier⟩
    | case3 constraints tail ih =>
      subst start
      obtain ⟨modifiers, rfl, rfl, noModifier⟩ := ih (constraintsOf_append earlier _) read
      exact ⟨.notNullable :: modifiers, rfl, by simp, noModifier⟩
    | case4 => cases read
    | case5 constraints tail =>
      cases read
      refine ⟨[], rfl, by simp [start], fun modifier member begins => ?_⟩
      obtain ⟨behind, rfl⟩ := List.head?_eq_some_iff.1 begins
      simp_all
  · rintro ⟨modifiers, rfl, rfl, noModifier⟩
    induction modifiers generalizing earlier with
    | nil =>
      rw [List.append_nil]
      exact readModifiers_of_noModifier noModifier _
    | cons modifier later ih =>
      have behind := @ih (earlier ++ [modifier])
      rw [constraintsOf_append, List.append_assoc] at behind
      cases modifier <;> exact behind

theorem modifierWords_injective :
    Function.Injective fun modifiers : List Constraint => modifiers.flatMap modifierWords := by
  have separable : Separable modifierWords fun _ _ => True := by
    refine ⟨fun {first second rest other} _ _ same => ?_⟩
    cases first <;> cases second <;> simp_all [modifierWords]
  exact separable.flatMap_injective (fun _ _ => trivial) fun modifier => by
    cases modifier <;> exact List.cons_ne_nil _ _

/-- **An attribute is read** up to where no modifier begins. -/
theorem reads_attribute : Reads readAttribute AttributePhrase.tokens AttributePhrase.toAttribute
    fun _ => NoModifier where
  accepts := by
    intro input result rest
    constructor
    · intro read
      obtain ⟨⟨_, _⟩, readFirst, readType⟩ := bind_eq_ok.1 read
      obtain ⟨⟨keyword, _⟩, readKeyword, readRest⟩ := bind_eq_ok.1 readType
      obtain ⟨name, rfl, rfl⟩ := readName_eq_ok_iff_phrase.1 readFirst
      obtain rfl := readWord_eq_ok_iff.1 readKeyword
      dsimp only at readRest
      split at readRest
      · cases readRest
      · next type typed =>
        obtain ⟨⟨_, _⟩, readBehind, equal⟩ := bind_eq_ok.1 readRest
        cases equal
        obtain ⟨modifiers, rfl, rfl, noModifier⟩ := (@readModifiers_eq_ok_iff [] _ _ _).1 readBehind
        exact ⟨⟨name, keyword, type, typed, modifiers⟩, rfl, rfl, noModifier⟩
    · rintro ⟨⟨name, keyword, type, typed, modifiers⟩, rfl, rfl, noModifier⟩
      have readBehind := (@readModifiers_eq_ok_iff [] _ _ _).2 ⟨modifiers, rfl, rfl, noModifier⟩
      refine bind_eq_ok.2 ⟨_, readName_token name _, ?_⟩
      refine bind_eq_ok.2 ⟨(keyword, _), readWord_eq_ok_iff.2 rfl, ?_⟩
      dsimp only
      rw [typed]
      exact bind_eq_ok.2 ⟨_, readBehind, rfl⟩
  injective := by
    rintro ⟨name, keyword, type, typed, modifiers⟩ ⟨other, word, otherType, otherTyped, more⟩ same
    obtain ⟨token, behind⟩ := List.cons.inj same
    obtain ⟨keywords, words⟩ := List.cons.inj behind
    obtain rfl : name = other := NamePhrase.token_injective token
    obtain rfl : keyword = word := Token.word.inj keywords
    obtain rfl : type = otherType := Option.some.inj (typed.symm.trans otherTyped)
    obtain rfl : modifiers = more := modifierWords_injective words
    rfl

/-! ## Entries -/

theorem noComma_token (phrase : NamePhrase) (rest : List Token) :
    NoComma (phrase.token :: rest) := by
  cases phrase <;> exact noComma_cons Token.noConfusion rest

theorem reads_dependency : Reads readDependency DependencyPhrase.tokens DependencyPhrase.toClause
    fun _ => NoComma where
  accepts := by
    intro input result rest
    constructor
    · intro read
      obtain ⟨⟨_, _⟩, readFirst, read⟩ := bind_eq_ok.1 read
      obtain ⟨⟨_, _⟩, readArrow, read⟩ := bind_eq_ok.1 read
      obtain ⟨⟨_, _⟩, readSecond, equal⟩ := bind_eq_ok.1 read
      cases equal
      obtain ⟨determinants, rfl, rfl, _⟩ := reads_names.accepts.1 readFirst
      obtain rfl := readToken_eq_ok_iff.1 readArrow
      obtain ⟨dependants, rfl, rfl, noComma⟩ := reads_names.accepts.1 readSecond
      exact ⟨⟨determinants, dependants⟩, by simp [DependencyPhrase.tokens], rfl, noComma⟩
    · rintro ⟨⟨determinants, dependants⟩, rfl, rfl, noComma⟩
      have readSecond : readNames (dependants.tokens ++ rest) = _ := reads_names.read_append noComma
      have readFirst : readNames (determinants.tokens ++ .arrow :: (dependants.tokens ++ rest)) = _ :=
        reads_names.read_append (noComma_arrow _)
      rw [DependencyPhrase.tokens, List.append_assoc, List.cons_append]
      refine bind_eq_ok.2 ⟨_, readFirst, ?_⟩
      exact bind_eq_ok.2 ⟨((), _), readToken_eq_ok_iff.2 rfl, bind_eq_ok.2 ⟨_, readSecond, rfl⟩⟩
  injective := by
    rintro ⟨determinants, dependants⟩ ⟨otherDeterminants, otherDependants⟩ same
    obtain ⟨rfl, behind⟩ := reads_names.separable.cut (noComma_arrow _) (noComma_arrow _) same
    obtain rfl : dependants = otherDependants := reads_names.injective (List.cons.inj behind).2
    rfl

/-- What ends an entry. -/
def EntryPhrase.Ends : EntryPhrase → List Token → Prop
  | .attr _ _, rest => NoModifier rest
  | .dependency _, rest => NoComma rest

/-- The entry that is read for a phrase. -/
def EntryPhrase.toEntry : EntryPhrase → Entry
  | .attr phrase _ => .attribute phrase.toAttribute
  | .dependency phrase => .dependency phrase.toClause

theorem reads_entry : Reads readEntry EntryPhrase.tokens EntryPhrase.toEntry EntryPhrase.Ends where
  accepts := by
    intro input result rest
    constructor
    · intro read
      unfold readEntry at read
      split at read
      · obtain ⟨⟨_, _⟩, readClause, equal⟩ := bind_eq_ok.1 read
        cases equal
        obtain ⟨phrase, rfl, rfl, noComma⟩ := reads_dependency.accepts.1 readClause
        exact ⟨.dependency phrase, rfl, rfl, noComma⟩
      · next notDep =>
        obtain ⟨⟨_, _⟩, readAttr, equal⟩ := bind_eq_ok.1 read
        cases equal
        obtain ⟨phrase, rfl, rfl, noModifier⟩ := reads_attribute.accepts.1 readAttr
        have other : phrase.name ≠ .bare "dep" := fun isDep =>
          notDep _ (congrArg (· :: _) (NamePhrase.token_eq_word_iff.2 isDep))
        exact ⟨.attr phrase other, rfl, rfl, noModifier⟩
    · rintro ⟨phrase, rfl, rfl, ended⟩
      cases phrase with
      | attr phrase notDep =>
        have other : phrase.name.token ≠ .word "dep" := fun isDep =>
          notDep (NamePhrase.token_eq_word_iff.1 isDep)
        refine (readEntry_of_ne other _).trans ?_
        exact bind_eq_ok.2 ⟨_, reads_attribute.read_append ended, rfl⟩
      | dependency phrase => exact bind_eq_ok.2 ⟨_, reads_dependency.read_append ended, rfl⟩
  injective := by
    intro first second same
    cases first with
    | attr phrase notDep =>
      cases second with
      | attr other _ =>
        obtain rfl : phrase = other := reads_attribute.injective same
        rfl
      | dependency other =>
        exact absurd (NamePhrase.token_eq_word_iff.1 (List.cons.inj same).1) notDep
    | dependency phrase =>
      cases second with
      | attr other notDep =>
        exact absurd (NamePhrase.token_eq_word_iff.1 (List.cons.inj same.symm).1) notDep
      | dependency other =>
        obtain rfl : phrase = other := reads_dependency.injective (List.cons.inj same).2
        rfl

/-- An entry ends where another one begins if it may precede it. -/
theorem EntryPhrase.ends_append_iff (phrase next : EntryPhrase) (rest : List Token) :
    phrase.Ends (next.tokens ++ rest) ↔ phrase.MayPrecede next := by
  cases phrase with
  | attr phrase _ =>
    cases next with
    | attr next _ =>
      show NoModifier (next.name.token :: _) ↔ next.name ∉ _
      simp [NoModifier, NamePhrase.token_eq_word_iff]
    | dependency next => exact iff_of_true (noModifier_cons (by decide) _) trivial
  | dependency phrase =>
    cases next with
    | attr next _ => exact iff_of_true (noComma_token next.name _) trivial
    | dependency next => exact iff_of_true (noComma_cons Token.noConfusion _) trivial

/-- **The entries of a table end well if and only if each may precede the next.** -/
theorem endsWell_entries_iff {entries : List EntryPhrase} {rest : List Token} :
    EndsWell EntryPhrase.tokens EntryPhrase.Ends (.closeBrace :: rest) entries ↔
      entries.IsChain EntryPhrase.MayPrecede := by
  induction entries with
  | nil => exact iff_of_true trivial .nil
  | cons entry later ih =>
    cases later with
    | nil =>
      refine iff_of_true ⟨?_, trivial⟩ (.singleton entry)
      cases entry with
      | attr => exact noModifier_cons (fun _ _ => Token.noConfusion) rest
      | dependency => exact noComma_cons Token.noConfusion rest
    | cons next behind =>
      rw [List.isChain_cons_cons, ← ih, EndsWell, List.flatMap_cons, List.append_assoc,
        EntryPhrase.ends_append_iff]

/-! ## Tables -/

theorem readsBlock_entries : ReadsBlock readEntry readEntries where
  unclosed := by
    intro result read
    rw [readEntries] at read
    cases read
  closed := by
    intro rest
    rw [readEntries]
  cons := readEntries_eq_ok_iff

theorem EntryPhrase.begins (phrase : EntryPhrase) :
    ∃ token rest, phrase.tokens = token :: rest ∧ token ≠ .closeBrace := by
  cases phrase with
  | attr phrase _ => exact ⟨phrase.name.token, _, rfl, phrase.name.token_ne_closeBrace⟩
  | dependency phrase => exact ⟨.word "dep", _, rfl, Token.noConfusion⟩

theorem attributesOf_map_toEntry (entries : List EntryPhrase) :
    attributesOf (entries.map EntryPhrase.toEntry) = entries.filterMap EntryPhrase.attribute? := by
  unfold attributesOf
  rw [List.filterMap_map]
  congr 1
  funext entry
  cases entry <;> rfl

theorem dependenciesOf_map_toEntry (entries : List EntryPhrase) :
    dependenciesOf (entries.map EntryPhrase.toEntry) = entries.filterMap EntryPhrase.clause? := by
  unfold dependenciesOf
  rw [List.filterMap_map]
  congr 1
  funext entry
  cases entry <;> rfl

/-- **A table is read with its entries in order.** -/
theorem reads_table : Reads readTable TablePhrase.tokens TablePhrase.toTable fun _ _ => True where
  accepts := by
    intro input result rest
    constructor
    · intro read
      obtain ⟨⟨_, _⟩, readFirst, readBehind⟩ := bind_eq_ok.1 read
      obtain ⟨⟨_, _⟩, readOpen, readRest⟩ := bind_eq_ok.1 readBehind
      obtain ⟨⟨_, _⟩, readAll, equal⟩ := bind_eq_ok.1 readRest
      cases equal
      obtain ⟨name, rfl, rfl⟩ := readName_eq_ok_iff_phrase.1 readFirst
      obtain rfl := readToken_eq_ok_iff.1 readOpen
      obtain ⟨entries, rfl, rfl, endsWell⟩ :=
        (readsBlock_entries.accepts reads_entry EntryPhrase.begins).1 readAll
      refine ⟨⟨name, entries, endsWell_entries_iff.1 endsWell⟩, ?_, ?_, trivial⟩
      · simp [TablePhrase.tokens]
      · rw [attributesOf_map_toEntry, dependenciesOf_map_toEntry]
        rfl
    · rintro ⟨⟨name, entries, ordered⟩, rfl, rfl, _⟩
      have readAll : readEntries (entries.flatMap EntryPhrase.tokens ++ .closeBrace :: rest) = _ :=
        (readsBlock_entries.accepts reads_entry EntryPhrase.begins).2
          ⟨entries, rfl, rfl, endsWell_entries_iff.2 ordered⟩
      simp only [TablePhrase.tokens, List.cons_append, List.append_assoc, List.nil_append]
      refine bind_eq_ok.2 ⟨_, readName_token name _, ?_⟩
      refine bind_eq_ok.2 ⟨((), _), readToken_eq_ok_iff.2 rfl, bind_eq_ok.2 ⟨_, readAll, ?_⟩⟩
      dsimp only
      rw [attributesOf_map_toEntry, dependenciesOf_map_toEntry]
      rfl
  injective := by
    rintro ⟨name, entries, ordered⟩ ⟨other, others, otherOrdered⟩ same
    obtain ⟨token, behind⟩ := List.cons.inj same
    obtain rfl : name = other := NamePhrase.token_injective token
    obtain rfl : entries = others := reads_entry.separable.block_inj EntryPhrase.begins
      (endsWell_entries_iff.2 ordered) (endsWell_entries_iff.2 otherOrdered) (List.cons.inj behind).2
    rfl

/-! ## Relationships -/

/-- An endpoint ends with a token of its own. -/
theorem reads_endpoint : Reads readEndpoint EndpointPhrase.tokens EndpointPhrase.toEndpoint
    fun _ _ => True where
  accepts := by
    intro input result rest
    constructor
    · intro read
      obtain ⟨⟨_, _⟩, readFirst, readBehind⟩ := bind_eq_ok.1 read
      obtain ⟨⟨_, _⟩, readOpen, readRest⟩ := bind_eq_ok.1 readBehind
      obtain ⟨⟨_, _⟩, readAttributes, readLast⟩ := bind_eq_ok.1 readRest
      obtain ⟨⟨_, _⟩, readClose, equal⟩ := bind_eq_ok.1 readLast
      cases equal
      obtain ⟨table, rfl, rfl⟩ := readName_eq_ok_iff_phrase.1 readFirst
      obtain rfl := readToken_eq_ok_iff.1 readOpen
      obtain ⟨attributes, rfl, rfl, _⟩ := reads_names.accepts.1 readAttributes
      obtain rfl := readToken_eq_ok_iff.1 readClose
      exact ⟨⟨table, attributes⟩, by simp [EndpointPhrase.tokens], rfl, trivial⟩
    · rintro ⟨⟨table, attributes⟩, rfl, rfl, _⟩
      have readAttributes : readNames (attributes.tokens ++ .closeParen :: rest) = _ :=
        reads_names.read_append (noComma_cons Token.noConfusion rest)
      simp only [EndpointPhrase.tokens, List.cons_append, List.append_assoc, List.nil_append]
      refine bind_eq_ok.2 ⟨_, readName_token table _, ?_⟩
      refine bind_eq_ok.2 ⟨((), _), readToken_eq_ok_iff.2 rfl, ?_⟩
      refine bind_eq_ok.2 ⟨_, readAttributes, ?_⟩
      exact bind_eq_ok.2 ⟨((), _), readToken_eq_ok_iff.2 rfl, rfl⟩
  injective := by
    rintro ⟨table, attributes⟩ ⟨other, others⟩ same
    obtain ⟨token, behind⟩ := List.cons.inj same
    obtain rfl : table = other := NamePhrase.token_injective token
    obtain ⟨rfl, _⟩ := reads_names.separable.cut (noComma_cons Token.noConfusion [])
      (noComma_cons Token.noConfusion []) (List.cons.inj behind).2
    rfl

theorem reads_relationship : Reads readRelationship RelationshipPhrase.tokens
    RelationshipPhrase.toRelationship fun _ _ => True where
  accepts := by
    intro input result rest
    constructor
    · intro read
      obtain ⟨⟨_, _⟩, readSource, readBehind⟩ := bind_eq_ok.1 read
      obtain ⟨⟨_, _⟩, readArrow, readRest⟩ := bind_eq_ok.1 readBehind
      obtain ⟨⟨_, _⟩, readTarget, equal⟩ := bind_eq_ok.1 readRest
      cases equal
      obtain ⟨source, rfl, rfl, _⟩ := reads_endpoint.accepts.1 readSource
      obtain rfl := readToken_eq_ok_iff.1 readArrow
      obtain ⟨target, rfl, rfl, _⟩ := reads_endpoint.accepts.1 readTarget
      exact ⟨⟨source, target⟩, by simp [RelationshipPhrase.tokens], rfl, trivial⟩
    · rintro ⟨⟨source, target⟩, rfl, rfl, _⟩
      rw [RelationshipPhrase.tokens, List.append_assoc, List.cons_append]
      refine bind_eq_ok.2 ⟨_, reads_endpoint.read_append trivial, ?_⟩
      refine bind_eq_ok.2 ⟨((), _), readToken_eq_ok_iff.2 rfl, ?_⟩
      exact bind_eq_ok.2 ⟨_, reads_endpoint.read_append trivial, rfl⟩
  injective := by
    rintro ⟨source, target⟩ ⟨otherSource, otherTarget⟩ same
    obtain ⟨rfl, behind⟩ := reads_endpoint.separable.cut trivial trivial same
    obtain rfl : target = otherTarget := reads_endpoint.injective (List.cons.inj behind).2
    rfl

theorem readsBlock_relationships : ReadsBlock readRelationship readRelationships where
  unclosed := by
    intro result read
    rw [readRelationships] at read
    cases read
  closed := by
    intro rest
    rw [readRelationships]
  cons := readRelationships_eq_ok_iff

theorem RelationshipPhrase.begins (phrase : RelationshipPhrase) :
    ∃ token rest, phrase.tokens = token :: rest ∧ token ≠ .closeBrace :=
  ⟨phrase.source.table.token, _, rfl, phrase.source.table.token_ne_closeBrace⟩

/-! ## Schemes -/

/-- The item that is read for a phrase. -/
def ItemPhrase.toItem : ItemPhrase → Item
  | .table phrase => .table phrase.toTable
  | .relationships phrases => .relationships (phrases.map RelationshipPhrase.toRelationship)

/-- **An item is read as a table or as relationships**, by the word it begins with. -/
theorem reads_item : Reads readItem ItemPhrase.tokens ItemPhrase.toItem fun _ _ => True where
  accepts := by
    intro input result rest
    constructor
    · intro read
      unfold readItem at read
      split at read
      · obtain ⟨⟨_, _⟩, readContent, equal⟩ := bind_eq_ok.1 read
        cases equal
        obtain ⟨phrase, rfl, rfl, _⟩ := reads_table.accepts.1 readContent
        exact ⟨.table phrase, rfl, rfl, trivial⟩
      · obtain ⟨⟨_, _⟩, readOpen, readBehind⟩ := bind_eq_ok.1 read
        obtain ⟨⟨_, _⟩, readAll, equal⟩ := bind_eq_ok.1 readBehind
        cases equal
        obtain rfl := readToken_eq_ok_iff.1 readOpen
        obtain ⟨phrases, rfl, rfl, _⟩ :=
          (readsBlock_relationships.accepts reads_relationship RelationshipPhrase.begins).1 readAll
        exact ⟨.relationships phrases, by simp [ItemPhrase.tokens], rfl, trivial⟩
      · cases read
    · rintro ⟨phrase, rfl, rfl, _⟩
      cases phrase with
      | table phrase => exact bind_eq_ok.2 ⟨_, reads_table.read_append trivial, rfl⟩
      | relationships phrases =>
        have readAll : readRelationships
            (phrases.flatMap RelationshipPhrase.tokens ++ .closeBrace :: rest) = _ :=
          (readsBlock_relationships.accepts reads_relationship RelationshipPhrase.begins).2
            ⟨phrases, rfl, rfl, endsWell_of_forall (fun _ _ => trivial) phrases⟩
        simp only [ItemPhrase.tokens, List.cons_append, List.append_assoc, List.nil_append]
        refine bind_eq_ok.2 ⟨((), _), readToken_eq_ok_iff.2 rfl, ?_⟩
        exact bind_eq_ok.2 ⟨_, readAll, rfl⟩
  injective := by
    intro first second same
    cases first with
    | table phrase =>
      cases second with
      | table other =>
        obtain rfl : phrase = other := reads_table.injective (List.cons.inj same).2
        rfl
      | relationships others => simp [ItemPhrase.tokens] at same
    | relationships phrases =>
      cases second with
      | table other => simp [ItemPhrase.tokens] at same
      | relationships others =>
        obtain rfl : phrases = others := reads_relationship.separable.block_inj
          RelationshipPhrase.begins (endsWell_of_forall (fun _ _ => trivial) phrases)
          (endsWell_of_forall (fun _ _ => trivial) others) (List.cons.inj (List.cons.inj same).2).2
        rfl

theorem ItemPhrase.tokens_ne_nil (phrase : ItemPhrase) : phrase.tokens ≠ [] := by
  cases phrase <;> exact List.cons_ne_nil _ _

/-- **Items are read one after the other to the end.** -/
theorem readItems_eq_ok_iff_phrases {input : List Token} {items : List Item} :
    readItems input = .ok items ↔
      ∃ phrases : List ItemPhrase, input = phrases.flatMap ItemPhrase.tokens ∧
        items = phrases.map ItemPhrase.toItem := by
  constructor
  · intro read
    fun_induction readItems input generalizing items with
    | case1 =>
      cases read
      exact ⟨[], rfl, rfl⟩
    | case2 => simp_all
    | case3 token tail item behind first _ ih =>
      obtain ⟨others, readOthers, equal⟩ := bind_eq_ok.1 read
      cases equal
      obtain ⟨phrase, place, rfl, _⟩ := reads_item.accepts.1 first
      obtain ⟨phrases, rfl, rfl⟩ := ih readOthers
      exact ⟨phrase :: phrases, place, rfl⟩
  · rintro ⟨phrases, rfl, rfl⟩
    induction phrases with
    | nil => rw [List.flatMap_nil, readItems, List.map_nil]
    | cons phrase later ih =>
      obtain ⟨token, tail, shape⟩ := List.exists_cons_of_ne_nil phrase.tokens_ne_nil
      have first : readItem (phrase.tokens ++ later.flatMap ItemPhrase.tokens) = _ :=
        reads_item.read_append trivial
      rw [List.flatMap_cons]
      rw [shape, List.cons_append] at first ⊢
      exact readItems_eq_ok_iff.2 ⟨_, _, first, _, ih, rfl⟩

/-- The scheme of a derivation is the scheme of the items that are read for it. -/
theorem schemeOf_map_toItem (phrases : List ItemPhrase) :
    schemeOf (phrases.map ItemPhrase.toItem) = Derivation.scheme ⟨phrases⟩ := by
  unfold schemeOf Derivation.scheme
  rw [List.filterMap_map, List.flatMap_map]
  congr 1
  · congr 1
    funext phrase
    cases phrase <;> rfl
  · congr 1
    funext phrase
    cases phrase <;> rfl

theorem Derivation.tokens_injective : Function.Injective Derivation.tokens := by
  rintro ⟨phrases⟩ ⟨others⟩ same
  exact congrArg Derivation.mk (reads_item.separable.flatMap_injective (fun _ _ => trivial)
    ItemPhrase.tokens_ne_nil same)

theorem readTokens_eq_ok_iff {tokens : List Token} {scheme : Scheme} :
    readTokens tokens = .ok scheme ↔
      ∃ derivation : Derivation, derivation.tokens = tokens ∧ derivation.scheme = scheme := by
  constructor
  · intro read
    obtain ⟨items, readAll, equal⟩ := bind_eq_ok.1 read
    cases equal
    obtain ⟨phrases, rfl, rfl⟩ := readItems_eq_ok_iff_phrases.1 readAll
    exact ⟨⟨phrases⟩, rfl, (schemeOf_map_toItem phrases).symm⟩
  · rintro ⟨⟨phrases⟩, rfl, rfl⟩
    refine bind_eq_ok.2 ⟨_, readItems_eq_ok_iff_phrases.2 ⟨phrases, rfl, rfl⟩, ?_⟩
    exact congrArg Except.ok (schemeOf_map_toItem phrases)

/-- **The tokens that read as a scheme are those that have a derivation.** The derivation is
unique and states the scheme; tokens without a derivation are an error. -/
theorem readTokens_exact (tokens : List Token) :
    (∀ scheme, readTokens tokens = .ok scheme ↔
      ∃ derivation : Derivation, derivation.tokens = tokens ∧ derivation.scheme = scheme) ∧
      (∀ first second : Derivation, first.tokens = tokens → second.tokens = tokens →
        first = second) ∧
      ((∃ error, readTokens tokens = .error error) ↔
        ∀ derivation : Derivation, derivation.tokens ≠ tokens) := by
  refine ⟨fun scheme => readTokens_eq_ok_iff, fun first second isFirst isSecond => ?_, ?_, ?_⟩
  · exact Derivation.tokens_injective (isFirst.trans isSecond.symm)
  · rintro ⟨error, failed⟩ derivation derives
    have read := readTokens_eq_ok_iff.2 ⟨derivation, derives, rfl⟩
    exact nomatch failed.symm.trans read
  · intro underivable
    cases read : readTokens tokens with
    | error error => exact ⟨error, rfl⟩
    | ok scheme =>
      obtain ⟨derivation, derives, _⟩ := readTokens_eq_ok_iff.1 read
      exact absurd derives (underivable derivation)

end RelationalDesign.SchemeText
