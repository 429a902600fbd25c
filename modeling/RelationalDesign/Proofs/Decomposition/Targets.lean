import RelationalDesign.Proofs.Decomposition.References

/-!
# Which rows refer to which

No two rows of a design have the same determinants (`Table.distinct_design`): merging
leaves none, and the key becomes a row of its own only where no row holds it.

A row refers to another row at most once and never to itself (`Table.aimed_design`). For
the references recorded on a walk this needs that their keys are the determinants found
at the target: a reference that has been recorded before is recognized by its key, too.

Linking keys leaves none out: a row refers to every other row whose determinants it
holds, unless these are none or its own (`exists_reference_linkKeys`).
-/

set_option autoImplicit false

namespace RelationalDesign

/-! ## Members that look different -/

section Nodup

variable {α β : Type} {look : α → β} {members : List α} (distinct : (members.map look).Nodup)
  {first second : α}
include distinct

/-- Where all members look different, those that look the same stand in the same place. -/
theorem position_eq_of_nodup_map {i j : Nat} (found : members[i]? = some first)
    (foundOther : members[j]? = some second) (same : look first = look second) : i = j := by
  have inRange : i < (members.map look).length := by
    rw [List.length_map]
    exact (List.getElem?_eq_some_iff.1 found).1
  refine (List.getElem?_inj inRange distinct).1 ?_
  rw [List.getElem?_map, List.getElem?_map, found, foundOther, Option.map_some, Option.map_some,
    same]

theorem eq_of_nodup_map (member : first ∈ members) (other : second ∈ members)
    (same : look first = look second) : first = second := by
  obtain ⟨i, found⟩ := List.mem_iff_getElem?.1 member
  obtain ⟨j, foundOther⟩ := List.mem_iff_getElem?.1 other
  rw [position_eq_of_nodup_map distinct found foundOther same, foundOther] at found
  exact (Option.some.inj found).symm

end Nodup

/-! ## Distinct determinants -/

theorem DistinctDeterminants.congr {rows others : List Dependency}
    (distinct : DistinctDeterminants rows)
    (same : others.map Dependency.determinants = rows.map Dependency.determinants) :
    DistinctDeterminants others := by
  unfold DistinctDeterminants
  rw [same]
  exact distinct

theorem distinct_decompose (form : NormalForm) (cover : List Dependency) :
    DistinctDeterminants (form.decompose cover).rows := by
  cases form with
  | second => exact distinct_mergeIdentical.congr (map_determinants_separate _)
  | third => exact distinct_mergeIdentical.congr (map_determinants_thirdForm cover)

/-- A key that no row holds is not the determinants of any row. -/
theorem DistinctDeterminants.keepKey {design : Decomposition}
    (distinct : DistinctDeterminants design.rows) (key declared : AttributeSet) :
    DistinctDeterminants (design.keepKey key declared).rows := by
  unfold Decomposition.keepKey
  split
  · exact distinct
  · dsimp only
    split
    · exact distinct.congr (map_determinants_modify_gain _ _ _)
    · next unheld =>
      unfold DistinctDeterminants
      rw [List.map_append]
      refine List.nodup_append.2 ⟨distinct, List.pairwise_singleton _ _, ?_⟩
      rintro _ member last isLast rfl
      obtain ⟨row, inDesign, same⟩ := List.mem_map.1 member
      have isKey : row.determinants = key := same.trans (List.mem_singleton.1 isLast)
      have notHeld := List.findIdx?_eq_none_iff.1 unheld row inDesign
      exact of_decide_eq_false notHeld (isKey ▸ row.determinants_subset_attributes)

theorem Table.distinct_design (table : Table) (settings : Settings) (form : NormalForm)
    (given : List Dependency) : DistinctDeterminants (table.design settings form given).rows := by
  have decomposed := distinct_decompose form (settings.cover.cover given)
  unfold Table.design
  cases settings.preserveKey with
  | true => exact decomposed.keepKey _ _
  | false => exact decomposed

/-! ## References from one row -/

theorem pairwise_lt_zipIdx {α : Type} (members : List α) :
    members.zipIdx.Pairwise fun first second => first.2 < second.2 := by
  have positions : (members.zipIdx.map Prod.snd).Pairwise (· < ·) := by
    rw [List.zipIdx_map_snd]
    exact List.pairwise_lt_range'
  exact List.pairwise_map.1 positions

theorem pairwise_zipIdx {α : Type} (members : List α) :
    members.zipIdx.Pairwise fun first second => first.2 ≠ second.2 :=
  (pairwise_lt_zipIdx members).imp Nat.ne_of_lt

/-- References that may start at a row: they lead to different rows, each to another one
than the row itself, and each has the determinants found there. -/
structure AimedFrom (determinants : List AttributeSet) (position : Nat)
    (fromRow : List Reference) : Prop where
  distinct : (fromRow.map Reference.target).Nodup
  away : ∀ reference ∈ fromRow, reference.target ≠ position
  keyed : ∀ reference ∈ fromRow, determinants[reference.target]? = some reference.key

namespace AimedFrom

variable {determinants more : List AttributeSet} {position : Nat} {fromRow others : List Reference}

theorem nil : AimedFrom determinants position [] :=
  ⟨List.nodup_nil, fun _ member => absurd member List.not_mem_nil,
    fun _ member => absurd member List.not_mem_nil⟩

theorem extend (aimed : AimedFrom determinants position fromRow)
    (extended : determinants <+: more) : AimedFrom more position fromRow := by
  refine ⟨aimed.distinct, aimed.away, fun reference member => ?_⟩
  obtain ⟨inRange, isKey⟩ := List.getElem?_eq_some_iff.1 (aimed.keyed reference member)
  rw [List.prefix_iff_getElem?.1 extended reference.target inRange, isKey]

theorem filter (aimed : AimedFrom determinants position fromRow) (keep : Reference → Bool) :
    AimedFrom determinants position (fromRow.filter keep) :=
  ⟨aimed.distinct.sublist (List.filter_sublist.map _),
    fun reference member => aimed.away reference (List.mem_filter.1 member).1,
    fun reference member => aimed.keyed reference (List.mem_filter.1 member).1⟩

/-- References to rows that no earlier reference leads to may be added. -/
theorem append (aimed : AimedFrom determinants position fromRow)
    (added : AimedFrom determinants position others)
    (fresh : ∀ reference ∈ others, ∀ known ∈ fromRow, known.target ≠ reference.target) :
    AimedFrom determinants position (fromRow ++ others) := by
  refine ⟨?_, List.forall_mem_append.2 ⟨aimed.away, added.away⟩,
    List.forall_mem_append.2 ⟨aimed.keyed, added.keyed⟩⟩
  rw [List.map_append]
  refine List.nodup_append.2 ⟨aimed.distinct, added.distinct, ?_⟩
  rintro _ inKnown _ inAdded
  obtain ⟨known, isKnown, rfl⟩ := List.mem_map.1 inKnown
  obtain ⟨reference, isAdded, rfl⟩ := List.mem_map.1 inAdded
  exact fresh reference isAdded known isKnown

/-- References chosen by going through the rows lead to different rows. -/
theorem filterMap_zipIdx (rows : List Dependency) (chosen : Dependency → Nat → Prop)
    [∀ other target, Decidable (chosen other target)]
    (away : ∀ other target, chosen other target → target ≠ position) :
    AimedFrom (rows.map Dependency.determinants) position
      (rows.zipIdx.filterMap fun (other, target) =>
        if chosen other target then some ⟨other.determinants, target⟩ else none) := by
  refine ⟨?_, fun reference member => ?_, fun reference member => ?_⟩
  · refine List.pairwise_map.2 (List.pairwise_filterMap.2 ?_)
    refine (pairwise_zipIdx rows).imp fun different first isFirst second isSecond => ?_
    obtain ⟨_, equalFirst⟩ := Option.ite_none_right_eq_some.1 isFirst
    obtain ⟨_, equalSecond⟩ := Option.ite_none_right_eq_some.1 isSecond
    cases equalFirst
    cases equalSecond
    exact different
  · obtain ⟨⟨other, target⟩, _, isChosen⟩ := List.mem_filterMap.1 member
    obtain ⟨holds, equal⟩ := Option.ite_none_right_eq_some.1 isChosen
    cases equal
    exact away other target holds
  · obtain ⟨⟨other, target⟩, place, isChosen⟩ := List.mem_filterMap.1 member
    obtain ⟨_, equal⟩ := Option.ite_none_right_eq_some.1 isChosen
    cases equal
    rw [List.getElem?_map, List.mem_zipIdx_iff_getElem?.1 place, Option.map_some]

end AimedFrom

/-! ## The references of a decomposition -/

namespace Decomposition

/-- A row refers to another row at most once, and never to itself. -/
def Aimed (design : Decomposition) : Prop :=
  ∀ position fromRow, design.references[position]? = some fromRow →
    AimedFrom (design.rows.map Dependency.determinants) position fromRow

end Decomposition

theorem aimed_removeOverlaps (rows : List Dependency) : (removeOverlaps rows).Aimed := by
  intro position fromRow found
  have determinants : (removeOverlaps rows).rows.map Dependency.determinants =
      rows.map Dependency.determinants :=
    map_determinants_separate rows
  rw [determinants]
  obtain ⟨row, inRange, rfl⟩ := Option.map_eq_some_iff.1 (List.getElem?_mapIdx ▸ found)
  exact .filterMap_zipIdx rows (fun other target => target ≠ position ∧
    other.determinants ⊆ row.determinants ∧ other.determinants ≠ ∅) fun _ _ chosen => chosen.1

theorem Walk.aimed_moveDependant {walk : Walk} (aimed : walk.Aimed) (start current : Nat)
    (name : String) : (walk.moveDependant start current name).Aimed := by
  intro position fromRow found
  rw [walk.map_determinants_moveDependant]
  rcases walk.moveDependant_cases start current name with same | moved
  · rw [same] at found
    exact aimed position fromRow found
  · obtain ⟨_, _, _, holder, _, _, reached, different, _, _, moved⟩ := moved
    rw [moved] at found
    dsimp only at found
    rw [List.getElem?_modify] at found
    obtain ⟨old, place, rfl⟩ := Option.map_eq_some_iff.1 found
    have before := aimed position old place
    have target : (walk.rows.map Dependency.determinants)[current]? = some holder.determinants := by
      rw [List.getElem?_map, reached, Option.map_some]
    split
    · next isStart =>
      split
      · exact before
      · next new =>
        have single : AimedFrom (walk.rows.map Dependency.determinants) position
            [⟨holder.determinants, current⟩] :=
          ⟨List.pairwise_singleton _ _, List.forall_mem_singleton.2 (isStart ▸ different),
            List.forall_mem_singleton.2 target⟩
        refine before.append single (List.forall_mem_singleton.2 ?_)
        rintro ⟨key, _⟩ isKnown rfl
        -- a reference to the row that has been reached has its determinants
        have sameKey := before.keyed _ isKnown
        rw [target, Option.some.injEq] at sameKey
        exact new (sameKey ▸ isKnown)
    · exact before

theorem aimed_thirdForm (cover : List Dependency) : (thirdForm cover).Aimed := by
  refine thirdForm_induction (fun _ start current name aimed =>
    Walk.aimed_moveDependant aimed start current name) ?_
  intro position fromRow found
  rw [(List.mem_replicate.1 (List.mem_of_getElem? found)).2]
  exact .nil

theorem aimed_decompose (form : NormalForm) (cover : List Dependency) :
    (form.decompose cover).Aimed := by
  cases form with
  | second => exact aimed_removeOverlaps _
  | third => exact aimed_thirdForm cover

/-! ## Keys -/

namespace References

variable {references : References} {count : Nat}

theorem length_resize : (references.resize count).length = count := by
  unfold resize
  rw [List.length_append, List.length_take, List.length_replicate]
  omega

/-- Resized references are the old ones, or none. -/
theorem of_getElem?_resize {position : Nat} {fromRow : List Reference}
    (found : (references.resize count)[position]? = some fromRow) :
    references[position]? = some fromRow ∨ fromRow = [] := by
  unfold resize at found
  rw [List.getElem?_append] at found
  split at found
  · rw [List.getElem?_take] at found
    split at found
    · exact Or.inl found
    · cases found
  · exact Or.inr (List.mem_replicate.1 (List.mem_of_getElem? found)).2

end References

namespace Decomposition

variable {design : Decomposition}

theorem Aimed.keepKey (aimed : design.Aimed) (key declared : AttributeSet) :
    (design.keepKey key declared).Aimed := by
  unfold Decomposition.keepKey
  split
  · exact aimed
  · dsimp only
    split
    · intro position fromRow found
      rw [map_determinants_modify_gain]
      exact aimed position fromRow found
    · intro position fromRow found
      rcases References.of_getElem?_resize found with old | rfl
      · refine (aimed position fromRow old).extend ?_
        rw [List.map_append]
        exact List.prefix_append _ _
      · exact .nil

/-- The references from a row after linking keys: those that are known, and the possible
ones to other rows. -/
theorem getElem?_linkKeys {position : Nat} {fromRow : List Reference} :
    design.linkKeys.references[position]? = some fromRow ↔
      ∃ row known, design.rows[position]? = some row ∧
        (design.references.resize design.rows.length)[position]? = some known ∧
        fromRow = known ++ (possibleReferences design.rows position row).filter fun reference =>
          !known.any fun other => other.target == reference.target := by
  unfold linkKeys
  dsimp only
  rw [List.getElem?_mapIdx, Option.map_eq_some_iff]
  constructor
  · rintro ⟨⟨row, known⟩, found, rfl⟩
    obtain ⟨isRow, isKnown⟩ := List.getElem?_zip_eq_some.1 found
    exact ⟨row, known, isRow, isKnown, rfl⟩
  · rintro ⟨row, known, isRow, isKnown, rfl⟩
    exact ⟨(row, known), List.getElem?_zip_eq_some.2 ⟨isRow, isKnown⟩, rfl⟩

theorem Aimed.linkKeys (aimed : design.Aimed) : design.linkKeys.Aimed := by
  intro position fromRow found
  obtain ⟨row, known, _, isKnown, rfl⟩ := getElem?_linkKeys.1 found
  have old : AimedFrom (design.rows.map Dependency.determinants) position known := by
    rcases References.of_getElem?_resize isKnown with old | rfl
    · exact aimed position known old
    · exact .nil
  have possible : AimedFrom (design.rows.map Dependency.determinants) position
      (possibleReferences design.rows position row) :=
    .filterMap_zipIdx design.rows (fun other target => target ≠ position ∧
      other.determinants ≠ ∅ ∧ other.determinants ≠ row.determinants ∧
      other.determinants ⊆ row.attributes) fun _ _ chosen => chosen.1
  refine old.append (possible.filter _) fun reference member other isKnown => ?_
  have fresh := (List.mem_filter.1 member).2
  rw [Bool.not_eq_true', List.any_eq_false] at fresh
  exact fun same => fresh other isKnown (beq_iff_eq.2 same)

/-- **With keys linked, a row refers to every other row whose determinants it holds**,
unless these are none or its own. -/
theorem exists_reference_linkKeys {position target : Nat} {row other : Dependency}
    (found : design.rows[position]? = some row) (foundOther : design.rows[target]? = some other)
    (nonempty : other.determinants ≠ ∅) (different : other.determinants ≠ row.determinants)
    (holds : other.determinants ⊆ row.attributes) :
    ∃ fromRow, design.linkKeys.references[position]? = some fromRow ∧
      ∃ reference ∈ fromRow, reference.target = target := by
  have inRange : position < (design.references.resize design.rows.length).length := by
    rw [References.length_resize]
    exact (List.getElem?_eq_some_iff.1 found).1
  refine ⟨_, getElem?_linkKeys.2 ⟨row, _, found, List.getElem?_eq_getElem inRange, rfl⟩, ?_⟩
  generalize (design.references.resize design.rows.length)[position] = known
  by_cases isKnown : ∃ reference ∈ known, reference.target = target
  · obtain ⟨reference, member, leads⟩ := isKnown
    exact ⟨reference, List.mem_append_left _ member, leads⟩
  · refine ⟨⟨other.determinants, target⟩, List.mem_append_right _ (List.mem_filter.2 ⟨?_, ?_⟩), rfl⟩
    · have away : target ≠ position := by
        rintro rfl
        rw [found, Option.some.injEq] at foundOther
        exact different (foundOther ▸ rfl)
      refine List.mem_filterMap.2 ⟨(other, target), List.mem_zipIdx_iff_getElem?.2 foundOther, ?_⟩
      exact if_pos ⟨away, nonempty, different, holds⟩
    · rw [Bool.not_eq_true', List.any_eq_false]
      exact fun reference member same => isKnown ⟨reference, member, beq_iff_eq.1 same⟩

end Decomposition

/-- **A row of a design refers to another row at most once, and never to itself.** -/
theorem Table.aimed_design (table : Table) (settings : Settings) (form : NormalForm)
    (given : List Dependency) : (table.design settings form given).Aimed := by
  have decomposed := aimed_decompose form (settings.cover.cover given)
  unfold Table.design
  cases settings.preserveKey with
  | true => exact (decomposed.keepKey _ _).linkKeys
  | false => exact decomposed.linkKeys

/-- **A row of a design refers to every other row whose determinants it holds**, unless
these are none or its own. -/
theorem Table.exists_reference_design {table : Table} {settings : Settings} {form : NormalForm}
    {given : List Dependency} {position target : Nat} {row other : Dependency}
    (found : (table.design settings form given).rows[position]? = some row)
    (foundOther : (table.design settings form given).rows[target]? = some other)
    (nonempty : other.determinants ≠ ∅) (different : other.determinants ≠ row.determinants)
    (holds : other.determinants ⊆ row.attributes) :
    ∃ fromRow, (table.design settings form given).references[position]? = some fromRow ∧
      ∃ reference ∈ fromRow, reference.target = target :=
  Decomposition.exists_reference_linkKeys found foundOther nonempty different holds

end RelationalDesign
