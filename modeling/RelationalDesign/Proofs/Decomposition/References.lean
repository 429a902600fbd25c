import RelationalDesign.Normalization.Parts
import RelationalDesign.Proofs.Decomposition.Rows

/-!
# References between rows

A reference fits the rows if its key are the determinants of the row it leads to, and
there are some (`Reference.Fits`). References are recorded in three places: between rows
with nested determinants, on a walk, and wherever a row holds the determinants of
another. All of them record only what fits (`fit_nestedReferences`, `linked_moveDependant`,
`fits_of_mem_possibleReferences`), so all references of a design fit its rows
(`Table.linked_design`).

On a walk this needs more than the rows: a reference leads to the row that the walk has
reached, and it has reached that row through one of its determinants, or else started
there (`Walk.Step.Founded`).
-/

set_option autoImplicit false

namespace RelationalDesign

/-- The key of a reference are the determinants at its target, and there are some. -/
def Reference.Fits (determinants : List AttributeSet) (reference : Reference) : Prop :=
  determinants[reference.target]? = some reference.key ∧ reference.key ≠ ∅

/-- All references fit. -/
def References.Fit (determinants : List AttributeSet) (references : References) : Prop :=
  ∀ fromRow ∈ references, ∀ reference ∈ fromRow, reference.Fits determinants

/-- The references of a decomposition fit its rows. -/
def Decomposition.Linked (design : Decomposition) : Prop :=
  design.references.Fit (design.rows.map Dependency.determinants)

theorem fits_of_getElem? {rows : List Dependency} {target : Nat} {row : Dependency}
    (found : rows[target]? = some row) (nonempty : row.determinants ≠ ∅) :
    Reference.Fits (rows.map Dependency.determinants) ⟨row.determinants, target⟩ :=
  ⟨by rw [List.getElem?_map, found, Option.map_some], nonempty⟩

theorem References.fit_replicate (determinants : List AttributeSet) (count : Nat) :
    References.Fit determinants (List.replicate count []) := by
  intro fromRow inReferences
  rw [(List.mem_replicate.1 inReferences).2]
  exact fun reference member => absurd member List.not_mem_nil

namespace References.Fit

variable {determinants more : List AttributeSet} {references : References}
  (fit : references.Fit determinants)
include fit

/-- References still fit when rows are added at the end. -/
theorem extend (extended : determinants <+: more) : references.Fit more := by
  intro fromRow inReferences reference member
  obtain ⟨target, nonempty⟩ := fit fromRow inReferences reference member
  obtain ⟨inRange, isKey⟩ := List.getElem?_eq_some_iff.1 target
  refine ⟨?_, nonempty⟩
  rw [List.prefix_iff_getElem?.1 extended reference.target inRange, isKey]

theorem resize (count : Nat) : (references.resize count).Fit determinants := by
  intro fromRow inResized
  rcases List.mem_append.1 inResized with taken | added
  · exact fit fromRow (List.mem_of_mem_take taken)
  · exact fit_replicate determinants _ fromRow added

theorem modify {row : Nat} {change : List Reference → List Reference}
    (changed : ∀ fromRow, (∀ reference ∈ fromRow, reference.Fits determinants) →
      ∀ reference ∈ change fromRow, reference.Fits determinants) :
    Fit determinants (List.modify references row change) := by
  intro fromRow inModified
  obtain ⟨index, found⟩ := List.mem_iff_getElem?.1 inModified
  rw [List.getElem?_modify] at found
  obtain ⟨old, place, rfl⟩ := Option.map_eq_some_iff.1 found
  have fits := fit old (List.mem_of_getElem? place)
  split
  · exact changed old fits
  · exact fits

end References.Fit

/-! ## Nested determinants -/

theorem fit_nestedReferences (rows : List Dependency) :
    (nestedReferences rows).Fit (rows.map Dependency.determinants) := by
  rintro fromRow inReferences ⟨key, target⟩ member
  obtain ⟨position, isList⟩ := List.mem_iff_getElem?.1 inReferences
  obtain ⟨row, found, _⟩ := Option.map_eq_some_iff.1 (List.getElem?_mapIdx ▸ isList)
  obtain ⟨other, atTarget, _, rfl, _, nonempty⟩ := (mem_nestedReferences_iff isList found).1 member
  exact fits_of_getElem? atTarget nonempty

theorem linked_secondForm (cover : List Dependency) : (secondForm cover).Linked := by
  unfold Decomposition.Linked secondForm removeOverlaps
  dsimp only
  rw [map_determinants_separate]
  exact fit_nestedReferences _

/-! ## Walks -/

namespace Walk

/-- The row that a step is about. -/
def Step.row : Step → Nat
  | .enter row => row
  | .reach row _ => row

/-- A step is about the starting row or about a row that is not without determinants. -/
def Step.Founded (determinants : List AttributeSet) (start : Nat) (step : Step) : Prop :=
  step.row = start ∨ determinants[step.row]? ≠ some ∅

variable {walk : Walk} {start current : Nat} {name : String}

theorem founded_arrivals (entered : (Step.enter current).Founded
    (walk.rows.map Dependency.determinants) start) {step : Step}
    (member : step ∈ walk.arrivals current) :
    step.Founded (walk.rows.map Dependency.determinants) start := by
  obtain ⟨_, _, rfl, _⟩ := exists_of_mem_arrivals member
  exact entered

/-- The rows that an attribute leads to are not without determinants. -/
theorem founded_departures {step : Step} (member : step ∈ walk.departures start name) :
    step.Founded (walk.rows.map Dependency.determinants) start := by
  obtain ⟨index, row, rfl, found, determinant⟩ := exists_of_mem_departures member
  right
  show (walk.rows.map Dependency.determinants)[index]? ≠ some ∅
  rw [List.getElem?_map, found, Option.map_some]
  intro empty
  rw [Option.some.inj empty] at determinant
  exact AttributeSet.notMem_empty name determinant

/-- **A move records a reference that fits**, if the row it has reached is not without
determinants. -/
theorem linked_moveDependant (linked : walk.Linked) (reached : (Step.reach current name).Founded
    (walk.rows.map Dependency.determinants) start) :
    (walk.moveDependant start current name).Linked := by
  have determinants := walk.map_determinants_moveDependant start current name
  unfold Decomposition.Linked
  rw [determinants]
  rcases walk.moveDependant_cases start current name with same | moved
  · rw [same]
    exact linked
  · obtain ⟨_, _, _, holder, _, _, found, different, _, _, moved⟩ := moved
    have nonempty : holder.determinants ≠ ∅ := by
      intro empty
      refine (reached.resolve_left different) ?_
      show (walk.rows.map Dependency.determinants)[current]? = some ∅
      rw [List.getElem?_map, found, Option.map_some, empty]
    rw [moved]
    refine linked.modify fun fromRow fits => ?_
    split
    · exact fits
    · intro reference member
      rcases List.mem_append.1 member with old | new
      · exact fits reference old
      · rw [List.mem_singleton.1 new]
        exact fits_of_getElem? found nonempty

/-- What a walk records on founded steps fits. -/
theorem linked_run {steps : List Step} (linked : walk.Linked)
    (founded : ∀ step ∈ steps, step.Founded (walk.rows.map Dependency.determinants) start) :
    (run start walk steps).Linked := by
  fun_induction run start walk steps with
  | case1 walk => exact linked
  | case2 walk row later entered ih =>
    exact ih linked (List.forall_mem_cons.1 founded).2
  | case3 walk row later fresh ih =>
    obtain ⟨entered, laterFounded⟩ := List.forall_mem_cons.1 founded
    refine ih linked fun step member => ?_
    rcases List.mem_append.1 member with arrival | other
    · exact founded_arrivals entered arrival
    · exact laterFounded step other
  | case4 walk current name later ih =>
    obtain ⟨reached, laterFounded⟩ := List.forall_mem_cons.1 founded
    refine ih (linked_moveDependant linked reached) fun step member => ?_
    rcases List.mem_append.1 member with departure | other
    · exact founded_departures departure
    · rw [map_determinants_moveDependant]
      exact laterFounded step other

end Walk

theorem linked_moveTransitive {design : Decomposition} (linked : design.Linked) (row : Nat) :
    (moveTransitive design row).Linked := by
  unfold moveTransitive Walk.follow
  split
  · refine Walk.linked_run linked fun step member => ?_
    exact Walk.founded_arrivals (Or.inl rfl) member
  · exact linked

theorem linked_thirdForm (cover : List Dependency) : (thirdForm cover).Linked :=
  thirdForm_induction_of_walks (fun _ row linked => linked_moveTransitive linked row)
    (References.fit_replicate _ _)

theorem linked_decompose (form : NormalForm) (cover : List Dependency) :
    (form.decompose cover).Linked := by
  cases form with
  | second => exact linked_secondForm cover
  | third => exact linked_thirdForm cover

/-! ## Keys -/

namespace Decomposition.Linked

variable {design : Decomposition} (linked : design.Linked)
include linked

theorem keepKey (key declared : AttributeSet) : (design.keepKey key declared).Linked := by
  unfold Decomposition.keepKey
  split
  · exact linked
  · dsimp only
    split
    · unfold Linked
      rw [map_determinants_modify_gain]
      exact linked
    · refine References.Fit.resize (linked.extend ?_) _
      rw [List.map_append]
      exact List.prefix_append _ _

end Decomposition.Linked

theorem fits_of_mem_possibleReferences {rows : List Dependency} {index : Nat} {row : Dependency}
    {reference : Reference} (member : reference ∈ Decomposition.possibleReferences rows index row) :
    reference.Fits (rows.map Dependency.determinants) := by
  obtain ⟨⟨other, target⟩, place, possible⟩ := List.mem_filterMap.1 member
  obtain ⟨⟨_, nonempty, _⟩, equal⟩ := Option.ite_none_right_eq_some.1 possible
  cases equal
  exact fits_of_getElem? (List.mem_zipIdx_iff_getElem?.1 place) nonempty

theorem Decomposition.Linked.linkKeys {design : Decomposition} (linked : design.Linked) :
    design.linkKeys.Linked := by
  intro fromRow inReferences reference member
  obtain ⟨index, inRange, rfl⟩ := List.mem_mapIdx.1 inReferences
  rcases List.mem_append.1 member with known | added
  · refine linked.resize design.rows.length _ ?_ reference known
    exact (List.of_mem_zip (List.getElem_mem inRange)).2
  · exact fits_of_mem_possibleReferences (List.mem_filter.1 added).1

/-- **All references of a design fit its rows.** -/
theorem Table.linked_design (table : Table) (settings : Settings) (form : NormalForm)
    (given : List Dependency) : (table.design settings form given).Linked := by
  have decomposed := linked_decompose form (settings.cover.cover given)
  unfold Table.design
  cases settings.preserveKey with
  | true => exact (decomposed.keepKey _ _).linkKeys
  | false => exact decomposed.linkKeys

end RelationalDesign
