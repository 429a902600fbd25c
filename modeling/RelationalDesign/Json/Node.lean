import RelationalDesign.Json.Token

/-!
# JSON documents, complete or broken off

A document is read as a tree that keeps as much as there is: where the text does
not go on as JSON, the lists and records that are open at that place are left
unclosed, and a value that should have begun there is a broken node. So what a
document is taken for depends on its text in the order of the text, and a fault
behind some place does not hide what stands before it.

The tree is built by a machine with a stack of open lists and records, which
takes one token at a time.
-/

set_option autoImplicit false

namespace RelationalDesign.Json

/-- A part of a document. -/
inductive Node where
  | null
  | boolean (value : Bool)
  | number (literal : Number.Literal)
  /-- A text; without content if its code units do not form characters. -/
  | text (content : Option String)
  /-- The items, and whether the list is closed behind them. -/
  | list (items : List Node) (closed : Bool)
  /-- The keys with their values, and whether the record is closed behind them. -/
  | record (entries : List (Option String × Node)) (closed : Bool)
  /-- No value begins where one should. -/
  | broken

namespace Node

mutual

/-- Whether a node is well-formed JSON, whatever it contains. -/
def wellFormed : Node → Bool
  | null | boolean _ | number _ | text _ => true
  | list items closed => allWellFormed items && closed
  | record entries closed => entriesWellFormed entries && closed
  | broken => false

/-- Whether all nodes of a list are well-formed. -/
def allWellFormed : List Node → Bool
  | [] => true
  | node :: rest => wellFormed node && allWellFormed rest

/-- Whether the values of all entries are well-formed. -/
def entriesWellFormed : List (Option String × Node) → Bool
  | [] => true
  | (_, node) :: rest => wellFormed node && entriesWellFormed rest

end

/-! ## Reading -/

/-- A list or a record that is open, without the node that is being read in it.
What has been read is kept with the last item or entry first. -/
inductive Frame where
  | list (items : List Node)
  | record (entries : List (Option String × Node)) (key : Option String)

/-- What is to be read next. The entries of a record come with the last one first. -/
inductive State where
  /-- A value. -/
  | value
  /-- The first item of a list, or its end. -/
  | firstItem
  /-- The first key of a record, or its end. -/
  | firstKey
  /-- A key, behind some entries. -/
  | key (entries : List (Option String × Node))
  /-- The colon behind a key. -/
  | colon (entries : List (Option String × Node)) (key : Option String)
  /-- What follows a value. -/
  | after (node : Node)

/-- Puts a node into an open list or record and leaves that unclosed or not. -/
def Frame.fill (frame : Frame) (node : Node) (closed : Bool) : Node :=
  match frame with
  | .list items => .list (node :: items).reverse closed
  | .record entries key => .record ((key, node) :: entries).reverse closed

/-- Leaves all open lists and records unclosed. -/
def breakOff : List Frame → Node → Node
  | [], node => node
  | frame :: outer, node => breakOff outer (frame.fill node false)

/-- The innermost node that is left where the text does not go on. -/
def State.remains : State → Node
  | .value => broken
  | .firstItem => list [] false
  | .firstKey => record [] false
  | .key entries => record entries.reverse false
  | .colon entries name => record ((name, broken) :: entries).reverse false
  | .after node => node

/-- Begins a value with a token, if a value can begin with it. -/
def begin (frames : List Frame) : Token → Option (List Frame × State)
  | .null => some (frames, .after null)
  | .boolean value => some (frames, .after (boolean value))
  | .number literal => some (frames, .after (number literal))
  | .text content => some (frames, .after (text content))
  | .openList => some (frames, .firstItem)
  | .openRecord => some (frames, .firstKey)
  | _ => none

/-- Goes on behind a value: to the next one in the innermost list or record, or
to the end of that. -/
def goOn (node : Node) : List Frame → Token → Option (List Frame × State)
  | .list items :: outer, .comma => some (.list (node :: items) :: outer, .value)
  | .list items :: outer, .closeList => some (outer, .after (list (node :: items).reverse true))
  | .record entries name :: outer, .comma => some (outer, .key ((name, node) :: entries))
  | .record entries name :: outer, .closeRecord =>
    some (outer, .after (record ((name, node) :: entries).reverse true))
  | _, _ => none

/-- Takes one token, if the text can go on with it. -/
def step (frames : List Frame) : State → Token → Option (List Frame × State)
  | .value, token => begin frames token
  | .firstItem, .closeList => some (frames, .after (list [] true))
  | .firstItem, token => begin (.list [] :: frames) token
  | .firstKey, .closeRecord => some (frames, .after (record [] true))
  | .firstKey, .text name => some (frames, .colon [] name)
  | .key entries, .text name => some (frames, .colon entries name)
  | .colon entries name, .colon => some (.record entries name :: frames, .value)
  | .after node, token => goOn node frames token
  | _, _ => none

/-- Takes all tokens, and gives the node that they form and whether they are a
document from start to end. -/
def run (frames : List Frame) (state : State) : List Token → Node × Bool
  | [] =>
    match frames, state with
    | [], .after node => (node, true)
    | frames, state => (breakOff frames state.remains, false)
  | token :: rest =>
    match step frames state token with
    | some (frames, state) => run frames state rest
    | none => (breakOff frames state.remains, false)

/-- Reads a document: the node, and whether the text is JSON from start to end. -/
def read (text : List Char) : Node × Bool := run [] .value (tokens text)

end Node

end RelationalDesign.Json
