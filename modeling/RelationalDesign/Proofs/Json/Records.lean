import Mathlib.Data.List.Forall2
import RelationalDesign.Json.Decoding
import RelationalDesign.Proofs.Number.Numerals

/-!
# Documents that hold records

A record with some fields can be written in many ways (`RecordForm`): with a key for each field,
in any order and among any other keys, where some fields may be left out; or as the list of the
fields in their order. A decoder *takes* the nodes by which a value is written for that value
(`Takes`) if every one of them is well-formed and is decoded to the value.

If the fields are taken for their values then the record is taken for the values together
(`takes_decodeTwo`, `takes_decodeThree`), and so it is with lists (`takes_decodeList`). A record
with keys is decoded entry by entry. What each entry does is said field by field: it is the
field's own one, or it leaves what is known of the field as it is (`RecordField.MeetsEntry`).
-/

set_option autoImplicit false

namespace RelationalDesign.Json

/-! ## The ways of writing a record -/

/-- How a field of a record is written. -/
structure FieldForm where
  name : String
  /-- The nodes that are written for the value of the field. -/
  written : Node → Prop
  /-- Whether the field may be left out. -/
  optional : Prop

/-- No entry has the key. -/
def Lacks (entries : List (Option String × Node)) (name : String) : Prop :=
  ∀ entry ∈ entries, entry.1 ≠ some name

/-- A field is among some entries, once, or is left out where it may be. -/
inductive FieldForm.In (field : FieldForm) : List (Option String × Node) → Prop
  | once {before after : List (Option String × Node)} {node : Node}
      (noneBefore : Lacks before field.name) (written : field.written node)
      (noneAfter : Lacks after field.name) :
      field.In (before ++ (some field.name, node) :: after)
  | absent {entries : List (Option String × Node)} (optional : field.optional)
      (noneThere : Lacks entries field.name) : field.In entries

/-- The nodes by which a record with some fields is written. -/
inductive RecordForm (fields : List FieldForm) : Node → Prop
  /-- Each field with its key, in any order. Other keys have any well-formed values. -/
  | keyed {entries : List (Option String × Node)} (known : ∀ field ∈ fields, field.In entries)
      (others : ∀ entry ∈ entries, (∀ field ∈ fields, entry.1 ≠ some field.name) →
        entry.1 ≠ none ∧ entry.2.wellFormed = true) :
      RecordForm fields (.record entries true)
  /-- All fields in their order, without keys. -/
  | listed {items : List Node} (each : List.Forall₂ FieldForm.written fields items) :
      RecordForm fields (.list items true)

namespace FieldForm.In

variable {field : FieldForm} {node : Node} {entries : List (Option String × Node)}

theorem head (written : field.written node) (noneLater : Lacks entries field.name) :
    field.In ((some field.name, node) :: entries) := by
  show field.In ([] ++ (some field.name, node) :: entries)
  exact .once (by simp [Lacks]) written noneLater

theorem cons_of_ne {entry : Option String × Node} (apart : entry.1 ≠ some field.name)
    (later : field.In entries) : field.In (entry :: entries) := by
  have lacks {others : List (Option String × Node)} (noneLater : Lacks others field.name) :
      Lacks (entry :: others) field.name :=
    List.forall_mem_cons.2 ⟨apart, noneLater⟩
  cases later with
  | once noneBefore written noneAfter =>
    rw [← List.cons_append]
    exact .once (lacks noneBefore) written noneAfter
  | absent optional noneThere => exact .absent optional (lacks noneThere)

end FieldForm.In

/-- The entries of a record with its fields in their order. -/
def entriesInOrder (fields : List FieldForm) (nodes : List Node) : List (Option String × Node) :=
  (fields.zip nodes).map fun (field, node) => (some field.name, node)

theorem exists_of_mem_entriesInOrder {fields : List FieldForm} {nodes : List Node}
    {entry : Option String × Node} (member : entry ∈ entriesInOrder fields nodes) :
    ∃ field ∈ fields, entry.1 = some field.name := by
  obtain ⟨⟨field, node⟩, pair, rfl⟩ := List.mem_map.1 member
  exact ⟨field, (List.of_mem_zip pair).1, rfl⟩

theorem in_entriesInOrder {fields : List FieldForm} {nodes : List Node}
    (distinct : (fields.map FieldForm.name).Nodup)
    (each : List.Forall₂ FieldForm.written fields nodes) :
    ∀ field ∈ fields, field.In (entriesInOrder fields nodes) := by
  induction each with
  | nil => simp
  | @cons first node fields nodes written each ih =>
    obtain ⟨apart, distinct⟩ := List.nodup_cons.1 distinct
    have apart : ∀ field ∈ fields, field.name ≠ first.name := fun field member same =>
      apart (List.mem_map.2 ⟨field, member, same⟩)
    refine List.forall_mem_cons.2 ⟨FieldForm.In.head written fun entry member own => ?_,
      fun field member => FieldForm.In.cons_of_ne (fun same => ?_) (ih distinct field member)⟩
    · obtain ⟨field, isField, same⟩ := exists_of_mem_entriesInOrder member
      exact apart field isField (Option.some.inj (same.symm.trans own))
    · exact apart field member (Option.some.inj same).symm

/-- **A record with its fields in their order** is one of those that may be written. -/
theorem RecordForm.inOrder {fields : List FieldForm} {nodes : List Node}
    (distinct : (fields.map FieldForm.name).Nodup)
    (each : List.Forall₂ FieldForm.written fields nodes) :
    RecordForm fields (.record (entriesInOrder fields nodes) true) :=
  .keyed (in_entriesInOrder distinct each) fun _ member other =>
    have ⟨field, isField, own⟩ := exists_of_mem_entriesInOrder member
    absurd own (other field isField)

/-! ## Decoders that take nodes for a value -/

section Takes

variable {α β : Type}

/-- A decoder takes the nodes that are written for a value for that value. -/
def Takes (decode : Decoder α) (written : Node → Prop) (value : α) : Prop :=
  ∀ node, written node → node.wellFormed = true ∧ decode node = .ok value

theorem Takes.map {decode : Decoder α} {written : Node → Prop} {value : α}
    (takes : Takes decode written value) (f : α → β) :
    Takes (fun node => (decode node).map f) written (f value) := by
  intro node form
  obtain ⟨valid, decoded⟩ := takes node form
  exact ⟨valid, congrArg (Except.map f) decoded⟩

/-- The nodes that are written for a text. -/
def TextForm (content : String) (node : Node) : Prop := node = .text (some content)

theorem takes_decodeText (content : String) : Takes decodeText (TextForm content) content := by
  rintro _ rfl
  exact ⟨rfl, rfl⟩

/-- The nodes that are written for an integer of 64 bits. Minus zero is no integer. -/
def IntegerForm (value : Int) (node : Node) : Prop :=
  Number.Fits value ∧ node = .number (.ofInt value)

theorem takes_decodeInteger (value : Int) : Takes decodeInteger (IntegerForm value) value := by
  rintro _ ⟨fits, rfl⟩
  refine ⟨rfl, ?_⟩
  rw [decodeInteger, Number.value?_ofInt fits]
  exact if_pos fits.2

/-- The nodes that are written for a list, by what is written for its items. -/
def ListForm (item : α → Node → Prop) (values : List α) (node : Node) : Prop :=
  ∃ items, node = .list items true ∧ List.Forall₂ item values items

theorem allWellFormed_iff {nodes : List Node} :
    Node.allWellFormed nodes = true ↔ ∀ node ∈ nodes, node.wellFormed = true := by
  induction nodes with
  | nil => simp [Node.allWellFormed]
  | cons node nodes ih => simp [Node.allWellFormed, ih]

theorem entriesWellFormed_iff {entries : List (Option String × Node)} :
    Node.entriesWellFormed entries = true ↔ ∀ entry ∈ entries, entry.2.wellFormed = true := by
  induction entries with
  | nil => simp [Node.entriesWellFormed]
  | cons entry entries ih => simp [Node.entriesWellFormed, ih]

/-- **A list is taken for its items.** -/
theorem takes_decodeList {item : Decoder α} {written : α → Node → Prop} {values : List α}
    (each : ∀ value ∈ values, Takes item (written value) value) :
    Takes (decodeList item) (ListForm written values) values := by
  rintro _ ⟨items, rfl, forms⟩
  have both : Node.allWellFormed items = true ∧ items.mapM item = .ok values := by
    induction forms with
    | nil => exact ⟨rfl, rfl⟩
    | @cons value node values nodes form _ ih =>
      obtain ⟨valid, decoded⟩ := each value List.mem_cons_self node form
      obtain ⟨allValid, later⟩ := ih fun other member => each other (List.mem_cons_of_mem _ member)
      refine ⟨by simp [Node.allWellFormed, valid, allValid], ?_⟩
      rw [List.mapM_cons, decoded, later]
      rfl
  refine ⟨by simp [Node.wellFormed, both.1], ?_⟩
  show (items.mapM item >>= fun values => _) = _
  rw [both.2]
  rfl

/-- A field is taken for its value, and where it is left out it has that value. -/
structure RecordField.Takes (field : RecordField α) (form : FieldForm) (value : α) : Prop where
  sameName : form.name = field.name
  decodes : Json.Takes field.decode form.written value
  absent : form.optional → field.absent = some value

theorem RecordField.Takes.wellFormed {field : RecordField α} {form : FieldForm} {value : α}
    (takes : field.Takes form value) : ∀ node, form.written node → node.wellFormed = true :=
  fun node written => (takes.decodes node written).1

end Takes

/-! ## Entries -/

namespace RecordField

variable {α : Type} {field : RecordField α}

/-- What an entry does to what is known of a field. -/
inductive MeetsEntry (field : RecordField α) :
    Option α → Option String × Node → Option α → Prop
  /-- The entry of the field. -/
  | met {entry : Option String × Node} {value : α} (own : entry.1 = some field.name)
      (decoded : field.decode entry.2 = .ok value) : MeetsEntry field none entry (some value)
  /-- Any other entry. -/
  | passed {known : Option α} {entry : Option String × Node} (apart : entry.1 ≠ some field.name) :
      MeetsEntry field known entry known

theorem MeetsEntry.eq_of_ne {known next : Option α} {entry : Option String × Node}
    (meets : MeetsEntry field known entry next) (apart : entry.1 ≠ some field.name) :
    next = known := by
  cases meets with
  | met own => exact absurd own apart
  | passed => rfl

/-- What some entries do to what is known of a field. -/
inductive Meets (field : RecordField α) :
    Option α → List (Option String × Node) → Option α → Prop
  | nil {known : Option α} : Meets field known [] known
  | cons {known next final : Option α} {entry : Option String × Node}
      {entries : List (Option String × Node)} (first : MeetsEntry field known entry next)
      (later : Meets field next entries final) : Meets field known (entry :: entries) final

theorem Meets.append {known next final : Option α} {before after : List (Option String × Node)}
    (first : Meets field known before next) (later : Meets field next after final) :
    Meets field known (before ++ after) final := by
  induction first with
  | nil => exact later
  | cons entry _ ih => exact .cons entry (ih later)

theorem meets_of_lacks {entries : List (Option String × Node)} (known : Option α)
    (lacks : Lacks entries field.name) : Meets field known entries known := by
  induction entries with
  | nil => exact .nil
  | cons entry entries ih =>
    exact .cons (.passed (lacks entry List.mem_cons_self))
      (ih fun other member => lacks other (List.mem_cons_of_mem _ member))

/-- **A field that is among the entries** has its value behind them. -/
theorem Takes.meets {form : FieldForm} {value : α} {entries : List (Option String × Node)}
    (takes : field.Takes form value) (within : form.In entries) :
    ∃ final, Meets field none entries final ∧ field.value final = .ok value := by
  cases within with
  | once noneBefore written noneAfter =>
    rw [takes.sameName] at noneBefore noneAfter ⊢
    have own : MeetsEntry field none (some field.name, _) (some value) :=
      .met rfl (takes.decodes _ written).2
    exact ⟨some value, (meets_of_lacks none noneBefore).append
      (.cons own (meets_of_lacks (some value) noneAfter)), rfl⟩
  | absent optional noneThere =>
    rw [takes.sameName] at noneThere
    exact ⟨none, meets_of_lacks none noneThere, by rw [RecordField.value, takes.absent optional]⟩

end RecordField

/-- A record is well-formed if what is written for its fields is. -/
theorem RecordForm.wellFormed {fields : List FieldForm} {node : Node}
    (valid : ∀ field ∈ fields, ∀ node, field.written node → node.wellFormed = true)
    (form : RecordForm fields node) : node.wellFormed = true := by
  cases form with
  | @keyed entries known others =>
    have each : ∀ entry ∈ entries, entry.2.wellFormed = true := by
      intro entry member
      by_cases field : ∃ field ∈ fields, entry.1 = some field.name
      · obtain ⟨field, isField, own⟩ := field
        cases known field isField with
        | absent _ noneThere => exact absurd own (noneThere entry member)
        | once noneBefore written noneAfter =>
          rcases List.mem_append.1 member with before | here
          · exact absurd own (noneBefore entry before)
          · rcases List.mem_cons.1 here with rfl | after
            · exact valid field isField _ written
            · exact absurd own (noneAfter entry after)
      · exact (others entry member fun other isField same => field ⟨other, isField, same⟩).2
    simp [Node.wellFormed, entriesWellFormed_iff.2 each]
  | @listed items each =>
    have all : ∀ item ∈ items, item.wellFormed = true := by
      induction each with
      | nil => simp
      | cons written _ ih =>
        exact List.forall_mem_cons.2 ⟨valid _ List.mem_cons_self _ written,
          ih fun field member => valid field (List.mem_cons_of_mem _ member)⟩
    simp [Node.wellFormed, allWellFormed_iff.2 all]

/-! ## Records -/

section Records

variable {α β γ : Type} {name : String} {first : RecordField α} {second : RecordField β}
  {third : RecordField γ}

/-- What a record with two fields makes of an entry, said field by field. -/
theorem meetOfTwo_of_meets (apart : first.name ≠ second.name) {entry : Option String × Node}
    (other : entry.1 ≠ some first.name → entry.1 ≠ some second.name →
      entry.1 ≠ none ∧ entry.2.wellFormed = true)
    {knownFirst nextFirst : Option α} {knownSecond nextSecond : Option β}
    (meetsFirst : first.MeetsEntry knownFirst entry nextFirst)
    (meetsSecond : second.MeetsEntry knownSecond entry nextSecond) :
    meetOfTwo first second (knownFirst, knownSecond) entry = .ok (nextFirst, nextSecond) := by
  unfold meetOfTwo
  cases meetsFirst with
  | met own decoded =>
    obtain rfl := meetsSecond.eq_of_ne fun same => apart (Option.some.inj (own.symm.trans same))
    simp [own, RecordField.meet, decoded, Except.map]
  | passed apartFirst =>
    cases meetsSecond with
    | met own decoded => simp [own, apart.symm, RecordField.meet, decoded, Except.map]
    | passed apartSecond =>
      obtain ⟨someKey, valid⟩ := other apartFirst apartSecond
      obtain ⟨key, isKey⟩ := Option.ne_none_iff_exists'.1 someKey
      rw [isKey] at apartFirst apartSecond
      have notFirst : key ≠ first.name := fun same => apartFirst (congrArg some same)
      have notSecond : key ≠ second.name := fun same => apartSecond (congrArg some same)
      simp [isKey, notFirst, notSecond, passOver, valid, Except.map]

/-- An entry that is not the first one of three fields is left to the other two. -/
theorem meetOfThree_of_ne {entry : Option String × Node} (apart : entry.1 ≠ some first.name)
    (knownFirst : Option α) (later : Option β × Option γ) :
    meetOfThree first second third (knownFirst, later) entry =
      (meetOfTwo second third later entry).map fun next => (knownFirst, next) := by
  obtain ⟨_ | key, node⟩ := entry
  · rfl
  · have notFirst : key ≠ first.name := fun same => apart (congrArg some same)
    simp only [meetOfThree, meetOfTwo, if_neg notFirst]
    split
    · cases second.meet later.1 node <;> rfl
    · split
      · cases third.meet later.2 node <;> rfl
      · cases passOver node <;> rfl

theorem meetOfThree_of_meets (apartSecond : first.name ≠ second.name)
    (apartThird : first.name ≠ third.name) (apart : second.name ≠ third.name)
    {entry : Option String × Node}
    (other : entry.1 ≠ some first.name → entry.1 ≠ some second.name → entry.1 ≠ some third.name →
      entry.1 ≠ none ∧ entry.2.wellFormed = true)
    {knownFirst nextFirst : Option α} {knownSecond nextSecond : Option β}
    {knownThird nextThird : Option γ}
    (meetsFirst : first.MeetsEntry knownFirst entry nextFirst)
    (meetsSecond : second.MeetsEntry knownSecond entry nextSecond)
    (meetsThird : third.MeetsEntry knownThird entry nextThird) :
    meetOfThree first second third (knownFirst, knownSecond, knownThird) entry =
      .ok (nextFirst, nextSecond, nextThird) := by
  cases meetsFirst with
  | met own decoded =>
    obtain rfl := meetsSecond.eq_of_ne fun same =>
      apartSecond (Option.some.inj (own.symm.trans same))
    obtain rfl := meetsThird.eq_of_ne fun same =>
      apartThird (Option.some.inj (own.symm.trans same))
    simp [meetOfThree, own, RecordField.meet, decoded, Except.map]
  | passed apartFirst =>
    rw [meetOfThree_of_ne apartFirst, meetOfTwo_of_meets apart (other apartFirst) meetsSecond
      meetsThird]
    rfl

/-- A record whose entries are passed over unless they are fields. -/
theorem foldlM_meetOfTwo (apart : first.name ≠ second.name) {entries : List (Option String × Node)}
    (others : ∀ entry ∈ entries, entry.1 ≠ some first.name → entry.1 ≠ some second.name →
      entry.1 ≠ none ∧ entry.2.wellFormed = true)
    {knownFirst finalFirst : Option α} {knownSecond finalSecond : Option β}
    (meetsFirst : first.Meets knownFirst entries finalFirst)
    (meetsSecond : second.Meets knownSecond entries finalSecond) :
    entries.foldlM (meetOfTwo first second) (knownFirst, knownSecond) =
      .ok (finalFirst, finalSecond) := by
  induction meetsFirst generalizing knownSecond with
  | nil => cases meetsSecond; rfl
  | cons entryFirst _ ih =>
    cases meetsSecond with
    | cons entrySecond laterSecond =>
      rw [List.foldlM_cons, meetOfTwo_of_meets apart (others _ List.mem_cons_self) entryFirst
        entrySecond]
      exact ih (fun entry member => others entry (List.mem_cons_of_mem _ member)) laterSecond

theorem foldlM_meetOfThree (apartSecond : first.name ≠ second.name)
    (apartThird : first.name ≠ third.name) (apart : second.name ≠ third.name)
    {entries : List (Option String × Node)}
    (others : ∀ entry ∈ entries, entry.1 ≠ some first.name → entry.1 ≠ some second.name →
      entry.1 ≠ some third.name → entry.1 ≠ none ∧ entry.2.wellFormed = true)
    {knownFirst finalFirst : Option α} {knownSecond finalSecond : Option β}
    {knownThird finalThird : Option γ}
    (meetsFirst : first.Meets knownFirst entries finalFirst)
    (meetsSecond : second.Meets knownSecond entries finalSecond)
    (meetsThird : third.Meets knownThird entries finalThird) :
    entries.foldlM (meetOfThree first second third) (knownFirst, knownSecond, knownThird) =
      .ok (finalFirst, finalSecond, finalThird) := by
  induction meetsFirst generalizing knownSecond knownThird with
  | nil => cases meetsSecond; cases meetsThird; rfl
  | cons entryFirst _ ih =>
    cases meetsSecond with
    | cons entrySecond laterSecond =>
      cases meetsThird with
      | cons entryThird laterThird =>
        rw [List.foldlM_cons, meetOfThree_of_meets apartSecond apartThird apart
          (others _ List.mem_cons_self) entryFirst entrySecond entryThird]
        exact ih (fun entry member => others entry (List.mem_cons_of_mem _ member)) laterSecond
          laterThird

variable {firstForm secondForm thirdForm : FieldForm} {a : α} {b : β} {c : γ}

/-- **A record with two fields** is taken for the values of its fields. -/
theorem takes_decodeTwo (takesFirst : first.Takes firstForm a)
    (takesSecond : second.Takes secondForm b) (apart : first.name ≠ second.name) :
    Takes (decodeTwo name first second) (RecordForm [firstForm, secondForm]) (a, b) := by
  intro node form
  refine ⟨form.wellFormed (by simpa using ⟨takesFirst.wellFormed, takesSecond.wellFormed⟩), ?_⟩
  cases form with
  | @keyed entries known others =>
    obtain ⟨finalFirst, meetsFirst, isFirst⟩ := takesFirst.meets (known _ (by simp))
    obtain ⟨finalSecond, meetsSecond, isSecond⟩ := takesSecond.meets (known _ (by simp))
    have passed : ∀ entry ∈ entries, entry.1 ≠ some first.name → entry.1 ≠ some second.name →
        entry.1 ≠ none ∧ entry.2.wellFormed = true := by
      intro entry member apartFirst apartSecond
      exact others entry member
        (by simp [takesFirst.sameName, takesSecond.sameName, apartFirst, apartSecond])
    have met := foldlM_meetOfTwo apart passed meetsFirst meetsSecond
    simp only [decodeTwo, met, isFirst, isSecond, bind, Except.bind]
    rfl
  | listed each =>
    obtain _ | ⟨isFirst, _ | ⟨isSecond, ⟨⟩⟩⟩ := each
    simp only [decodeTwo, Shape.takeField, (takesFirst.decodes _ isFirst).2,
      (takesSecond.decodes _ isSecond).2, Except.map, bind, Except.bind]
    rfl

/-- **A record with three fields** is taken for the values of its fields. -/
theorem takes_decodeThree (takesFirst : first.Takes firstForm a)
    (takesSecond : second.Takes secondForm b) (takesThird : third.Takes thirdForm c)
    (apartSecond : first.name ≠ second.name) (apartThird : first.name ≠ third.name)
    (apart : second.name ≠ third.name) :
    Takes (decodeThree name first second third) (RecordForm [firstForm, secondForm, thirdForm])
      (a, b, c) := by
  intro node form
  refine ⟨form.wellFormed (by
    simpa using ⟨takesFirst.wellFormed, takesSecond.wellFormed, takesThird.wellFormed⟩), ?_⟩
  cases form with
  | @keyed entries known others =>
    obtain ⟨finalFirst, meetsFirst, isFirst⟩ := takesFirst.meets (known _ (by simp))
    obtain ⟨finalSecond, meetsSecond, isSecond⟩ := takesSecond.meets (known _ (by simp))
    obtain ⟨finalThird, meetsThird, isThird⟩ := takesThird.meets (known _ (by simp))
    have passed : ∀ entry ∈ entries, entry.1 ≠ some first.name → entry.1 ≠ some second.name →
        entry.1 ≠ some third.name → entry.1 ≠ none ∧ entry.2.wellFormed = true := by
      intro entry member apartFirst apartSecond apartThird
      exact others entry member (by
        simp [takesFirst.sameName, takesSecond.sameName, takesThird.sameName, apartFirst,
          apartSecond, apartThird])
    have met := foldlM_meetOfThree apartSecond apartThird apart passed meetsFirst meetsSecond
      meetsThird
    simp only [decodeThree, met, isFirst, isSecond, isThird, bind, Except.bind]
    rfl
  | listed each =>
    obtain _ | ⟨isFirst, _ | ⟨isSecond, _ | ⟨isThird, ⟨⟩⟩⟩⟩ := each
    simp only [decodeThree, Shape.takeField, (takesFirst.decodes _ isFirst).2,
      (takesSecond.decodes _ isSecond).2, (takesThird.decodes _ isThird).2, Except.map, bind,
      Except.bind]
    rfl

end Records

end RelationalDesign.Json
