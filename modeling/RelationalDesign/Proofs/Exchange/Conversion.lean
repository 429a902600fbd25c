import Mathlib.Data.List.Dedup
import Mathlib.Data.List.Sort
import RelationalDesign.Exchange.Wire
import RelationalDesign.Proofs.Failure.Chains

/-!
# From codes and back

A scheme in exchange can have codes that mean nothing. A constraint code of that kind is
an error, and the first one in the document is named: its `placedCodes` are all of its
constraint codes with the table and the attribute that they stand at
(`failure?_decode`). A type code of that kind is read as the unknown type.

What is read keeps neither the unknown type codes nor the order of constraints and their
repetitions, so that writing it again gives the `settled` document, and it keeps
everything else (`encode_of_decode`). Constraints are written as their codes in order and
each of them once (`code_toList_ofList`), since this is what an increasing list of the same
codes is.
-/

set_option autoImplicit false

namespace RelationalDesign

/-! ## Codes -/

namespace AttributeType

theorem code_ofCode (code : Int) :
    (ofCode code).code = if 0 ≤ code ∧ code ≤ 3 then code else -1 := by
  unfold ofCode
  grind [AttributeType.code]

end AttributeType

namespace Constraint

theorem ofCode?_eq_none_iff {code : Int} : ofCode? code = none ↔ ¬(0 ≤ code ∧ code ≤ 2) := by
  unfold ofCode?
  grind

theorem code_of_ofCode? {code : Int} {constraint : Constraint}
    (read : ofCode? code = some constraint) : constraint.code = code := by
  unfold ofCode? at read
  grind [Constraint.code]

end Constraint

namespace Constraints

theorem holds_add (constraints : Constraints) (constraint other : Constraint) :
    (constraints.add constraint).holds other =
      (decide (other = constraint) || constraints.holds other) := by
  cases constraint <;> cases other <;> simp [add, holds]

theorem holds_ofList {listed : List Constraint} {constraint : Constraint} :
    (ofList listed).holds constraint = true ↔ constraint ∈ listed := by
  have each (constraints : Constraints) :
      (listed.foldl add constraints).holds constraint = true ↔
        constraint ∈ listed ∨ constraints.holds constraint = true := by
    induction listed generalizing constraints with
    | nil => simp
    | cons first rest ih =>
      rw [List.foldl_cons, ih, holds_add, List.mem_cons]
      simp only [Bool.or_eq_true, decide_eq_true_eq]
      tauto
  rw [ofList, each]
  exact or_iff_left (by cases constraint <;> exact Bool.false_ne_true)

theorem mem_toList {constraints : Constraints} {constraint : Constraint} :
    constraint ∈ constraints.toList ↔ constraints.holds constraint = true := by
  unfold toList
  cases constraint <;> simp

theorem increasing_toList (constraints : Constraints) :
    (constraints.toList.map Constraint.code).Pairwise (· < ·) := by
  have all : ([Constraint.notNullable, .primaryKey, .foreignKey].map Constraint.code).Pairwise
      (· < ·) := by decide
  exact all.sublist (List.filter_sublist.map _)

/-- **Listed constraints are written as their codes**, in order and each of them once. -/
theorem code_toList_ofList (listed : List Constraint) :
    (ofList listed).toList.map Constraint.code =
      (listed.map Constraint.code).dedup.insertionSort (· ≤ ·) := by
  have increasing := increasing_toList (ofList listed)
  have distinct : ((listed.map Constraint.code).dedup.insertionSort (· ≤ ·)).Nodup :=
    (List.perm_insertionSort _ _).nodup_iff.2 (List.nodup_dedup _)
  have same : ((ofList listed).toList.map Constraint.code).Perm
      ((listed.map Constraint.code).dedup.insertionSort (· ≤ ·)) := by
    refine (List.perm_ext_iff_of_nodup (increasing.imp Int.ne_of_lt) distinct).2 fun code => ?_
    simp only [List.mem_insertionSort, List.mem_dedup, List.mem_map, mem_toList, holds_ofList]
  exact same.eq_of_pairwise (fun _ _ _ _ => Int.le_antisymm) (increasing.imp Int.le_of_lt)
    (List.pairwise_insertionSort _ _)

end Constraints

namespace Wire

/-! ## Unknown codes -/

/-- A constraint code in a document, and the table and the attribute that it stands at. -/
structure PlacedCode where
  table : String
  name : String
  code : Int
deriving DecidableEq

namespace PlacedCode

/-- Whether a code is that of a constraint. -/
def Known (placed : PlacedCode) : Prop := 0 ≤ placed.code ∧ placed.code ≤ 2

instance (placed : PlacedCode) : Decidable placed.Known :=
  inferInstanceAs (Decidable (0 ≤ placed.code ∧ placed.code ≤ 2))

/-- The error about an unknown code. -/
def error (placed : PlacedCode) : SchemeError :=
  .unknownConstraint placed.table placed.name placed.code

end PlacedCode

/-- The constraint codes of an attribute of a table. -/
def Attribute.placedCodes (table : String) (attr : Attribute) : List PlacedCode :=
  attr.constraints.map (PlacedCode.mk table attr.name)

/-- The constraint codes of a table, attribute by attribute. -/
def Table.placedCodes (table : Table) : List PlacedCode :=
  table.attributes.flatMap (Attribute.placedCodes table.name)

/-- The constraint codes of a document, table by table. -/
def Scheme.placedCodes (scheme : Scheme) : List PlacedCode :=
  scheme.tables.flatMap Table.placedCodes

theorem failure?_decodeConstraint (placed : PlacedCode) :
    failure? (decodeConstraint placed.table placed.name placed.code) =
      if placed.Known then none else some placed.error := by
  unfold decodeConstraint
  split
  · next constraint read =>
    have known : placed.Known := by
      by_contra unknown
      rw [Constraint.ofCode?_eq_none_iff.2 unknown] at read
      cases read
    rw [if_pos known]
    rfl
  · next unread =>
    rw [if_neg (show ¬placed.Known from Constraint.ofCode?_eq_none_iff.1 unread)]
    rfl

/-- The first unknown code of some, as an error. -/
def firstUnknown? (placed : List PlacedCode) : Option SchemeError :=
  placed.findSome? fun placed => if placed.Known then none else some placed.error

theorem failure?_decode_attribute (table : String) (attr : Attribute) :
    failure? (attr.decode table) = firstUnknown? (attr.placedCodes table) := by
  unfold Attribute.decode
  rw [failure?_bind_pure, failure?_mapM, firstUnknown?, Attribute.placedCodes, List.findSome?_map]
  exact findSome?_congr fun code _ => failure?_decodeConstraint ⟨table, attr.name, code⟩

theorem failure?_decode_table (table : Table) :
    failure? table.decode = firstUnknown? table.placedCodes := by
  unfold Table.decode
  rw [failure?_bind_pure, failure?_mapM, firstUnknown?, Table.placedCodes, findSome?_flatMap]
  exact findSome?_congr fun attr _ => failure?_decode_attribute table.name attr

/-- **A document is refused for its first unknown code.** -/
theorem failure?_decode (scheme : Scheme) :
    failure? scheme.decode = firstUnknown? scheme.placedCodes := by
  unfold Scheme.decode
  rw [failure?_bind_pure, failure?_mapM, firstUnknown?, Scheme.placedCodes, findSome?_flatMap]
  exact findSome?_congr fun table _ => failure?_decode_table table

theorem firstUnknown?_eq_none_iff {places : List PlacedCode} :
    firstUnknown? places = none ↔ ∀ placed ∈ places, placed.Known := by
  unfold firstUnknown?
  simp

theorem firstUnknown?_eq_some_iff {places : List PlacedCode} {error : SchemeError} :
    firstUnknown? places = some error ↔
      ∃ before placed after, places = before ++ placed :: after ∧
        (∀ earlier ∈ before, earlier.Known) ∧ ¬placed.Known ∧ error = placed.error := by
  unfold firstUnknown?
  simp only [List.findSome?_eq_some_iff, Option.ite_none_left_eq_some, Option.some.injEq,
    ite_eq_left_iff, reduceCtorEq, imp_false, not_not]
  constructor
  · rintro ⟨before, placed, after, place, ⟨unknown, rfl⟩, earlier⟩
    exact ⟨before, placed, after, place, earlier, unknown, rfl⟩
  · rintro ⟨before, placed, after, place, earlier, unknown, rfl⟩
    exact ⟨before, placed, after, place, ⟨unknown, rfl⟩, earlier⟩

/-! ## Settled documents -/

/-- An attribute without unknown type codes, and with its constraint codes in order. -/
def Attribute.settled (attr : Attribute) : Attribute :=
  { attr with
    type := if 0 ≤ attr.type ∧ attr.type ≤ 3 then attr.type else -1
    constraints := attr.constraints.dedup.insertionSort (· ≤ ·) }

/-- A table with settled attributes. -/
def Table.settled (table : Table) : Table :=
  { table with attributes := table.attributes.map Attribute.settled }

/-- A scheme with settled tables. -/
def Scheme.settled (scheme : Scheme) : Scheme :=
  { scheme with tables := scheme.tables.map Table.settled }

theorem code_of_decodeConstraint {table name : String} {code : Int} {constraint : Constraint}
    (decoded : decodeConstraint table name code = .ok constraint) : constraint.code = code := by
  unfold decodeConstraint at decoded
  split at decoded
  · next read =>
    cases decoded
    exact Constraint.code_of_ofCode? read
  · cases decoded

theorem encode_of_decode_attribute {table : String} {attr : Attribute}
    {result : RelationalDesign.Attribute} (decoded : attr.decode table = .ok result) :
    Attribute.encode result = attr.settled := by
  obtain ⟨constraints, mapped, same⟩ := bind_eq_ok_iff.1 decoded
  cases same
  have codes : constraints.map Constraint.code = attr.constraints.map id :=
    map_of_mapM_eq_ok (fun _ _ read => code_of_decodeConstraint read) mapped
  rw [List.map_id] at codes
  rw [Attribute.encode, Constraints.code_toList_ofList, AttributeType.code_ofCode, codes]
  rfl

example : (Attribute.decode "orders" ⟨"id", 9, [1, 0, 1]⟩).map Attribute.encode =
    .ok ⟨"id", -1, [0, 1]⟩ := rfl

theorem encode_of_decode_table {table : Table} {result : RelationalDesign.Table}
    (decoded : table.decode = .ok result) : Table.encode result = table.settled := by
  obtain ⟨attributes, mapped, same⟩ := bind_eq_ok_iff.1 decoded
  cases same
  have settled : attributes.map Attribute.encode = table.attributes.map Attribute.settled :=
    map_of_mapM_eq_ok (fun _ _ read => encode_of_decode_attribute read) mapped
  rw [Table.encode, settled]
  rfl

/-- What has been read is written as the settled document. -/
theorem encode_of_decode {scheme : Scheme} {result : RelationalDesign.Scheme}
    (decoded : scheme.decode = .ok result) : Scheme.encode result = scheme.settled := by
  obtain ⟨tables, mapped, same⟩ := bind_eq_ok_iff.1 decoded
  cases same
  have settled : tables.map Table.encode = scheme.tables.map Table.settled :=
    map_of_mapM_eq_ok (fun _ _ read => encode_of_decode_table read) mapped
  rw [Scheme.encode, settled]
  rfl

/-- **Conversion is exact.** It fails if and only if some constraint code is not one of
those from 0 to 2, with an error about the first such code of the document; otherwise what
it gives is written as the settled document. -/
theorem decode_exact (scheme : Scheme) :
    ((∃ error, scheme.decode = .error error) ↔ ∃ placed ∈ scheme.placedCodes, ¬placed.Known) ∧
      (∀ error, scheme.decode = .error error ↔
        ∃ before placed after, scheme.placedCodes = before ++ placed :: after ∧
          (∀ earlier ∈ before, earlier.Known) ∧ ¬placed.Known ∧
          error = .unknownConstraint placed.table placed.name placed.code) ∧
      ((∀ placed ∈ scheme.placedCodes, placed.Known) ↔
        ∃ result, scheme.decode = .ok result ∧ Scheme.encode result = scheme.settled) := by
  have succeeds : (∃ result, scheme.decode = .ok result) ↔
      ∀ placed ∈ scheme.placedCodes, placed.Known := by
    rw [← failure?_eq_none_iff, failure?_decode, firstUnknown?_eq_none_iff]
  have fails (error : SchemeError) :
      failure? scheme.decode = some error ↔ scheme.decode = .error error :=
    failure?_eq_some_iff
  refine ⟨?_, fun error => ?_, ?_⟩
  · simp only [← fails, ← Option.isSome_iff_exists, ← Option.ne_none_iff_isSome, failure?_decode,
      ne_eq, firstUnknown?_eq_none_iff, not_forall, exists_prop]
  · rw [← fails, failure?_decode]
    exact firstUnknown?_eq_some_iff
  · rw [← succeeds]
    constructor
    · rintro ⟨result, decoded⟩
      exact ⟨result, decoded, encode_of_decode decoded⟩
    · rintro ⟨result, decoded, _⟩
      exact ⟨result, decoded⟩

end Wire

end RelationalDesign
