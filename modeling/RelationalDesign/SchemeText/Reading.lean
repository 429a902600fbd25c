import RelationalDesign.Scheme.Basic
import RelationalDesign.SchemeText.Token

/-!
# Reading a scheme

A scheme text is a sequence of tables and relationship blocks. A table holds
entries: dependencies, which begin with the word `dep`, and attributes, which
are a name, a type and modifiers. A relationship block holds pairs of
endpoints, which are a table name and attribute names in parentheses. Every
name is a word or a quoted text.

Each reader takes the tokens it needs from the front of a list and gives the
rest, which is shorter. The first thing that does not fit is the error.
-/

set_option autoImplicit false

namespace RelationalDesign.SchemeText

/-! ## Errors -/

/-- What a reader wants to find. -/
inductive Expectation where
  | word
  | name
  | token
  | item
  | null
deriving DecidableEq

/-- How messages name what is wanted. -/
def Expectation.describe : Expectation → String
  | word => "identifier"
  | name => "name"
  | token => "specific token"
  | item => "table or rel"
  | null => "null"

/-- Why a text is not a scheme. -/
inductive ReadError where
  /-- A token cannot be read. -/
  | token (error : TokenError)
  /-- Something else stands in the place of what is wanted; nothing stands at the end. -/
  | unexpected (found : Option Token) (wanted : Expectation)
  /-- The text ends too early. -/
  | unexpectedEnd
  /-- No type has the keyword. -/
  | unknownType (keyword : String)
deriving DecidableEq

/-- The message of an error. -/
def ReadError.message : ReadError → String
  | token error => "Lex error: " ++ error.message
  | unexpected found wanted =>
    "Unexpected token: " ++ describe found ++ ", expected " ++ wanted.describe
  | unexpectedEnd => "Unexpected end of input"
  | unknownType keyword => "Unknown attribute type: " ++ keyword

/-- The error where the tokens do not begin with what is wanted. -/
def missing (wanted : Expectation) : List Token → ReadError
  | [] => .unexpectedEnd
  | found :: _ => .unexpected (some found) wanted

/-- Two readers in a row succeed if the first does and the second does after it. -/
theorem bind_eq_ok {α β : Type} {first : Except ReadError α} {second : α → Except ReadError β}
    {result : β} :
    first >>= second = .ok result ↔ ∃ value, first = .ok value ∧ second value = .ok result := by
  cases first <;> simp [bind, Except.bind]

/-! ## Names -/

/-- A name is a word or a quoted text. -/
def readName : List Token → Except ReadError (String × List Token)
  | .word text :: rest => .ok (text, rest)
  | .quoted text :: rest => .ok (text, rest)
  | tokens => .error (missing .name tokens)

/-- A word that is not quoted. -/
def readWord : List Token → Except ReadError (String × List Token)
  | .word text :: rest => .ok (text, rest)
  | tokens => .error (missing .word tokens)

/-- One certain token. -/
def readToken (token : Token) : List Token → Except ReadError (Unit × List Token)
  | [] => .error .unexpectedEnd
  | found :: rest =>
    if found = token then .ok ((), rest) else .error (.unexpected (some found) .token)

/-- The rest of a list of names: commas, each with a name after it. -/
def readMoreNames : List Token → Except ReadError (List String × List Token)
  | .comma :: .word text :: rest => do
    let (names, rest) ← readMoreNames rest
    return (text :: names, rest)
  | .comma :: .quoted text :: rest => do
    let (names, rest) ← readMoreNames rest
    return (text :: names, rest)
  | .comma :: rest => .error (missing .name rest)
  | rest => .ok ([], rest)

/-- One or more names with commas between them. -/
def readNames (tokens : List Token) : Except ReadError (List String × List Token) := do
  let (first, rest) ← readName tokens
  let (others, rest) ← readMoreNames rest
  return (first :: others, rest)

/-- A name takes at least one token. -/
theorem length_readName_lt {tokens rest : List Token} {name : String}
    (read : readName tokens = .ok (name, rest)) : rest.length < tokens.length := by
  unfold readName at read
  split at read <;> cases read <;> exact Nat.lt_succ_self _

/-- A word takes at least one token. -/
theorem length_readWord_lt {tokens rest : List Token} {name : String}
    (read : readWord tokens = .ok (name, rest)) : rest.length < tokens.length := by
  unfold readWord at read
  split at read <;> cases read
  exact Nat.lt_succ_self _

/-- A certain token takes at least one token. -/
theorem length_readToken_lt {token : Token} {tokens rest : List Token} {found : Unit}
    (read : readToken token tokens = .ok (found, rest)) : rest.length < tokens.length := by
  unfold readToken at read
  split at read
  · cases read
  · split at read <;> cases read
    exact Nat.lt_succ_self _

/-- The rest of a list of names takes nothing but tokens of the list. -/
theorem length_readMoreNames_le {tokens rest : List Token} {names : List String}
    (read : readMoreNames tokens = .ok (names, rest)) : rest.length ≤ tokens.length := by
  fun_induction readMoreNames tokens generalizing names with
  | case1 text tail ih =>
    obtain ⟨⟨others, rest⟩, inner, equal⟩ := bind_eq_ok.1 read
    cases equal
    have := ih inner
    simp only [List.length_cons]
    omega
  | case2 text tail ih =>
    obtain ⟨⟨others, rest⟩, inner, equal⟩ := bind_eq_ok.1 read
    cases equal
    have := ih inner
    simp only [List.length_cons]
    omega
  | case3 => cases read
  | case4 =>
    cases read
    exact Nat.le_refl _

/-- A list of names takes at least one token. -/
theorem length_readNames_lt {tokens rest : List Token} {names : List String}
    (read : readNames tokens = .ok (names, rest)) : rest.length < tokens.length := by
  obtain ⟨⟨first, afterFirst⟩, readFirst, read⟩ := bind_eq_ok.1 read
  obtain ⟨⟨others, afterOthers⟩, readOthers, equal⟩ := bind_eq_ok.1 read
  cases equal
  exact Nat.lt_of_le_of_lt (length_readMoreNames_le readOthers) (length_readName_lt readFirst)

/-! ## Tables -/

/-- The modifiers after a type: `pk`, `not null` and `fk`, in any order and number. -/
def readModifiers (constraints : Constraints) :
    List Token → Except ReadError (Constraints × List Token)
  | .word "pk" :: rest => readModifiers (constraints.add .primaryKey) rest
  | .word "fk" :: rest => readModifiers (constraints.add .foreignKey) rest
  | .word "not" :: .word "null" :: rest => readModifiers (constraints.add .notNullable) rest
  | .word "not" :: rest => .error (.unexpected rest.head? .null)
  | rest => .ok (constraints, rest)

/-- An attribute: a name, a type and modifiers. -/
def readAttribute (tokens : List Token) : Except ReadError (Attribute × List Token) := do
  let (name, rest) ← readName tokens
  let (keyword, rest) ← readWord rest
  match AttributeType.ofKeyword? keyword with
  | none => .error (.unknownType keyword)
  | some type =>
    let (constraints, rest) ← readModifiers ∅ rest
    return (⟨name, type, constraints⟩, rest)

/-- A dependency, behind the word that begins it: names, an arrow and names. -/
def readDependency (tokens : List Token) : Except ReadError (DependencyClause × List Token) := do
  let (determinants, rest) ← readNames tokens
  let ((), rest) ← readToken .arrow rest
  let (dependants, rest) ← readNames rest
  return (⟨determinants, dependants⟩, rest)

/-- Modifiers take nothing but tokens of the list. -/
theorem length_readModifiers_le {constraints result : Constraints} {tokens rest : List Token}
    (read : readModifiers constraints tokens = .ok (result, rest)) :
    rest.length ≤ tokens.length := by
  fun_induction readModifiers constraints tokens with
  | case1 constraints tail ih =>
    have := ih read
    simp only [List.length_cons]
    omega
  | case2 constraints tail ih =>
    have := ih read
    simp only [List.length_cons]
    omega
  | case3 constraints tail ih =>
    have := ih read
    simp only [List.length_cons]
    omega
  | case4 => cases read
  | case5 =>
    cases read
    exact Nat.le_refl _

/-- An attribute takes at least one token. -/
theorem length_readAttribute_lt {tokens rest : List Token} {attr : Attribute}
    (read : readAttribute tokens = .ok (attr, rest)) : rest.length < tokens.length := by
  obtain ⟨⟨name, afterName⟩, readName, read⟩ := bind_eq_ok.1 read
  obtain ⟨⟨keyword, afterWord⟩, readWord, read⟩ := bind_eq_ok.1 read
  have nameShorter := length_readName_lt readName
  have wordShorter := length_readWord_lt readWord
  simp only at read
  split at read
  · cases read
  · obtain ⟨⟨constraints, afterModifiers⟩, readModifiers, equal⟩ := bind_eq_ok.1 read
    cases equal
    have := length_readModifiers_le readModifiers
    simp only at *
    omega

/-- A dependency takes at least one token. -/
theorem length_readDependency_lt {tokens rest : List Token} {clause : DependencyClause}
    (read : readDependency tokens = .ok (clause, rest)) : rest.length < tokens.length := by
  obtain ⟨⟨determinants, afterFirst⟩, readFirst, read⟩ := bind_eq_ok.1 read
  obtain ⟨⟨_, afterArrow⟩, readArrow, read⟩ := bind_eq_ok.1 read
  obtain ⟨⟨dependants, afterSecond⟩, readSecond, equal⟩ := bind_eq_ok.1 read
  cases equal
  have := length_readNames_lt readFirst
  have := length_readToken_lt readArrow
  have := length_readNames_lt readSecond
  simp only at *
  omega

/-- An entry of a table. -/
inductive Entry where
  | attribute (attr : Attribute)
  | dependency (clause : DependencyClause)
deriving DecidableEq

/-- An entry of a table: a dependency if it begins with the word `dep`. -/
def readEntry (tokens : List Token) : Except ReadError (Entry × List Token) :=
  match tokens with
  | .word "dep" :: rest => do
    let (clause, rest) ← readDependency rest
    return (.dependency clause, rest)
  | tokens => do
    let (attr, rest) ← readAttribute tokens
    return (.attribute attr, rest)

/-- An entry takes at least one token. -/
theorem length_readEntry_lt {tokens rest : List Token} {entry : Entry}
    (read : readEntry tokens = .ok (entry, rest)) : rest.length < tokens.length := by
  unfold readEntry at read
  split at read
  · obtain ⟨⟨clause, afterClause⟩, readClause, equal⟩ := bind_eq_ok.1 read
    cases equal
    exact Nat.lt_succ_of_lt (length_readDependency_lt readClause)
  · obtain ⟨⟨attr, afterAttribute⟩, readAttribute, equal⟩ := bind_eq_ok.1 read
    cases equal
    exact length_readAttribute_lt readAttribute

/-- The entries of a table, up to the closing brace. -/
def readEntries (tokens : List Token) : Except ReadError (List Entry × List Token) :=
  match tokens with
  | [] => .error .unexpectedEnd
  | .closeBrace :: rest => .ok ([], rest)
  | token :: tail =>
    match first : readEntry (token :: tail) with
    | .error error => .error error
    | .ok (entry, rest) => do
      have := length_readEntry_lt first
      let (entries, rest) ← readEntries rest
      return (entry :: entries, rest)
termination_by tokens.length
decreasing_by assumption

/-- The entries of a table take at least the closing brace. -/
theorem length_readEntries_lt {tokens rest : List Token} {entries : List Entry}
    (read : readEntries tokens = .ok (entries, rest)) : rest.length < tokens.length := by
  fun_induction readEntries tokens generalizing entries with
  | case1 => cases read
  | case2 =>
    cases read
    exact Nat.lt_succ_self _
  | case3 => simp_all
  | case4 token tail _ entry afterEntry _ shorter ih =>
    obtain ⟨⟨others, afterOthers⟩, readOthers, equal⟩ := bind_eq_ok.1 read
    cases equal
    exact Nat.lt_trans (ih readOthers) shorter

/-- The attributes among some entries, in order. -/
def attributesOf (entries : List Entry) : List Attribute :=
  entries.filterMap fun
    | .attribute attr => some attr
    | .dependency _ => none

/-- The dependencies among some entries, in order. -/
def dependenciesOf (entries : List Entry) : List DependencyClause :=
  entries.filterMap fun
    | .attribute _ => none
    | .dependency clause => some clause

/-- A table, behind the word that begins it: a name and entries in braces. -/
def readTable (tokens : List Token) : Except ReadError (Table × List Token) := do
  let (name, rest) ← readName tokens
  let ((), rest) ← readToken .openBrace rest
  let (entries, rest) ← readEntries rest
  return (⟨name, attributesOf entries, dependenciesOf entries⟩, rest)

/-- A table takes at least one token. -/
theorem length_readTable_lt {tokens rest : List Token} {table : Table}
    (read : readTable tokens = .ok (table, rest)) : rest.length < tokens.length := by
  obtain ⟨⟨name, afterName⟩, readName, read⟩ := bind_eq_ok.1 read
  obtain ⟨⟨_, afterBrace⟩, readBrace, read⟩ := bind_eq_ok.1 read
  obtain ⟨⟨entries, afterEntries⟩, readEntries, equal⟩ := bind_eq_ok.1 read
  cases equal
  have := length_readName_lt readName
  have := length_readToken_lt readBrace
  have := length_readEntries_lt readEntries
  simp only at *
  omega

/-! ## Relationships -/

/-- An endpoint: a table name and attribute names in parentheses. -/
def readEndpoint (tokens : List Token) : Except ReadError (Endpoint × List Token) := do
  let (table, rest) ← readName tokens
  let ((), rest) ← readToken .openParen rest
  let (attributes, rest) ← readNames rest
  let ((), rest) ← readToken .closeParen rest
  return (⟨table, attributes⟩, rest)

/-- A relationship: an endpoint, an arrow and an endpoint. -/
def readRelationship (tokens : List Token) : Except ReadError (Relationship × List Token) := do
  let (source, rest) ← readEndpoint tokens
  let ((), rest) ← readToken .arrow rest
  let (target, rest) ← readEndpoint rest
  return (⟨source, target⟩, rest)

/-- An endpoint takes at least one token. -/
theorem length_readEndpoint_lt {tokens rest : List Token} {endpoint : Endpoint}
    (read : readEndpoint tokens = .ok (endpoint, rest)) : rest.length < tokens.length := by
  obtain ⟨⟨table, afterName⟩, readName, read⟩ := bind_eq_ok.1 read
  obtain ⟨⟨_, afterOpen⟩, readOpen, read⟩ := bind_eq_ok.1 read
  obtain ⟨⟨attributes, afterNames⟩, readNames, read⟩ := bind_eq_ok.1 read
  obtain ⟨⟨_, afterClose⟩, readClose, equal⟩ := bind_eq_ok.1 read
  cases equal
  have := length_readName_lt readName
  have := length_readToken_lt readOpen
  have := length_readNames_lt readNames
  have := length_readToken_lt readClose
  simp only at *
  omega

/-- A relationship takes at least one token. -/
theorem length_readRelationship_lt {tokens rest : List Token} {relationship : Relationship}
    (read : readRelationship tokens = .ok (relationship, rest)) : rest.length < tokens.length := by
  obtain ⟨⟨source, afterSource⟩, readSource, read⟩ := bind_eq_ok.1 read
  obtain ⟨⟨_, afterArrow⟩, readArrow, read⟩ := bind_eq_ok.1 read
  obtain ⟨⟨target, afterTarget⟩, readTarget, equal⟩ := bind_eq_ok.1 read
  cases equal
  have := length_readEndpoint_lt readSource
  have := length_readToken_lt readArrow
  have := length_readEndpoint_lt readTarget
  simp only at *
  omega

/-- The relationships of a block, up to the closing brace. -/
def readRelationships (tokens : List Token) : Except ReadError (List Relationship × List Token) :=
  match tokens with
  | [] => .error .unexpectedEnd
  | .closeBrace :: rest => .ok ([], rest)
  | token :: tail =>
    match first : readRelationship (token :: tail) with
    | .error error => .error error
    | .ok (relationship, rest) => do
      have := length_readRelationship_lt first
      let (relationships, rest) ← readRelationships rest
      return (relationship :: relationships, rest)
termination_by tokens.length
decreasing_by assumption

/-- The relationships of a block take at least the closing brace. -/
theorem length_readRelationships_lt {tokens rest : List Token} {relationships : List Relationship}
    (read : readRelationships tokens = .ok (relationships, rest)) :
    rest.length < tokens.length := by
  fun_induction readRelationships tokens generalizing relationships with
  | case1 => cases read
  | case2 =>
    cases read
    exact Nat.lt_succ_self _
  | case3 => simp_all
  | case4 token tail _ relationship afterFirst _ shorter ih =>
    obtain ⟨⟨others, afterOthers⟩, readOthers, equal⟩ := bind_eq_ok.1 read
    cases equal
    exact Nat.lt_trans (ih readOthers) shorter

/-! ## Schemes -/

/-- An item of a scheme text. -/
inductive Item where
  | table (table : Table)
  | relationships (relationships : List Relationship)
deriving DecidableEq

/-- An item: a table or a block of relationships, by the word it begins with. -/
def readItem (tokens : List Token) : Except ReadError (Item × List Token) :=
  match tokens with
  | .word "table" :: rest => do
    let (table, rest) ← readTable rest
    return (.table table, rest)
  | .word "rel" :: rest => do
    let ((), rest) ← readToken .openBrace rest
    let (relationships, rest) ← readRelationships rest
    return (.relationships relationships, rest)
  | tokens => .error (.unexpected tokens.head? .item)

/-- An item takes at least one token. -/
theorem length_readItem_lt {tokens rest : List Token} {item : Item}
    (read : readItem tokens = .ok (item, rest)) : rest.length < tokens.length := by
  unfold readItem at read
  split at read
  · obtain ⟨⟨table, afterTable⟩, readTable, equal⟩ := bind_eq_ok.1 read
    cases equal
    exact Nat.lt_succ_of_lt (length_readTable_lt readTable)
  · obtain ⟨⟨_, afterBrace⟩, readBrace, read⟩ := bind_eq_ok.1 read
    obtain ⟨⟨relationships, afterBlock⟩, readBlock, equal⟩ := bind_eq_ok.1 read
    cases equal
    have := length_readToken_lt readBrace
    have := length_readRelationships_lt readBlock
    simp only [List.length_cons] at *
    omega
  · cases read

/-- The items up to the end of the tokens. -/
def readItems (tokens : List Token) : Except ReadError (List Item) :=
  match tokens with
  | [] => .ok []
  | token :: tail =>
    match first : readItem (token :: tail) with
    | .error error => .error error
    | .ok (item, rest) => do
      have := length_readItem_lt first
      let items ← readItems rest
      return item :: items
termination_by tokens.length
decreasing_by assumption

/-- The scheme that some items make up. -/
def schemeOf (items : List Item) : Scheme where
  tables := items.filterMap fun
    | .table table => some table
    | .relationships _ => none
  relationships := items.flatMap fun
    | .table _ => []
    | .relationships relationships => relationships

/-- The scheme that a list of tokens states. -/
def readTokens (tokens : List Token) : Except ReadError Scheme := do
  let items ← readItems tokens
  return schemeOf items

/-- The scheme that a text states. -/
def readText (text : List Char) : Except ReadError Scheme :=
  match tokenize text with
  | .error error => .error (.token error)
  | .ok tokens => readTokens tokens

/-- The scheme that a text states. -/
def read (text : String) : Except ReadError Scheme := readText text.toList

end RelationalDesign.SchemeText
