import RelationalDesign.Proofs.Dependency.Cover
import RelationalDesign.Proofs.Relation.Basic

/-!
# The closure is logical implication

A list of dependencies entails another dependency if every relation that
satisfies the list satisfies it (`Entails`). The closure of a set is exactly what
the list entails of it: it consists of the attributes that every such relation
fixes by the set (`closure_exact`).

What the closure holds is entailed because agreement of two tuples is closed
under the dependencies. Conversely two tuples that agree exactly on the closure
(`Relation.pair`) satisfy the whole list, since the closure is closed, and differ
in every attribute outside it (`not_satisfies_pair`). Their heading can be any set
that has the determinants of the list and the attribute in question, so the
relations over one such heading decide the matter (`mem_closure_of_entailsOver`).

Lists with the same closure are satisfied by the same relations
(`satisfies_congr`), so making a list canonical keeps its meaning
(`closure_canonical`).
-/

set_option autoImplicit false

namespace RelationalDesign

universe u

/-! ## Two tuples that agree on a given set -/

namespace Relation

variable {V : Type u}

/-- One value for the agreed names, and for all others a value that depends on the tuple. -/
def pairValue (agreed : AttributeSet) (values : Bool → V) (index : Bool) (name : String) : V :=
  if name ∈ agreed then values true else values index

/-- Two tuples over a heading that agree exactly on the agreed names. -/
def pair (heading agreed : AttributeSet) (values : Bool → V) : Relation V :=
  ofValues heading (pairValue agreed values)

variable {heading agreed : AttributeSet} {values : Bool → V} {first second : Bool} {name : String}

theorem pairValue_eq_of_mem (member : name ∈ agreed) :
    pairValue agreed values first name = pairValue agreed values second name :=
  (if_pos member).trans (if_pos member).symm

theorem mem_of_pairValue_eq (injective : Function.Injective values) (different : first ≠ second)
    (equal : pairValue agreed values first name = pairValue agreed values second name) :
    name ∈ agreed := by
  refine Decidable.byContradiction fun outside => ?_
  rw [pairValue, pairValue, if_neg outside, if_neg outside] at equal
  exact different (injective equal)

/-- The two tuples satisfy each dependency under which the agreed names are closed. -/
theorem satisfies_pair (injective : Function.Injective values) {row : Dependency}
    (within : row.determinants ⊆ heading)
    (closed : row.determinants ⊆ agreed → row.dependants ⊆ agreed) :
    (pair heading agreed values).Satisfies row := by
  refine satisfies_ofValues within fun first second agree name dependant => ?_
  by_cases same : first = second
  · rw [same]
  · have fixed : row.determinants ⊆ agreed := fun determinant isDeterminant =>
      mem_of_pairValue_eq injective same (agree determinant isDeterminant)
    exact pairValue_eq_of_mem (closed fixed name dependant)

/-- Agreed names do not fix another name in the two tuples. -/
theorem not_satisfies_pair (injective : Function.Injective values) {names : AttributeSet}
    (contained : names ⊆ agreed) (inHeading : name ∈ heading) (outside : name ∉ agreed) :
    ¬(pair heading agreed values).Satisfies ⟨names, {name}⟩ := by
  intro satisfied
  have agree : pairValue agreed values true name = pairValue agreed values false name :=
    satisfied.agree (fun other inNames => pairValue_eq_of_mem (contained other inNames))
      (AttributeSet.mem_singleton.2 rfl) inHeading
  exact outside (mem_of_pairValue_eq injective Bool.noConfusion agree)

end Relation

/-! ## Entailment -/

/-- Every relation over a heading that satisfies the rows satisfies the dependency. -/
def EntailsOver (heading : AttributeSet) (rows : List Dependency) (row : Dependency) : Prop :=
  ∀ (V : Type u) (relation : Relation V), relation.heading = heading →
    (∀ given ∈ rows, relation.Satisfies given) → relation.Satisfies row

/-- Every relation that satisfies the rows satisfies the dependency, whatever its heading. -/
def Entails (rows : List Dependency) (row : Dependency) : Prop :=
  ∀ heading, EntailsOver.{u} heading rows row

section Entailment

variable {rows : List Dependency} {names : AttributeSet} {name : String}

theorem entails_of_implies {row : Dependency} (implied : Implies rows row) :
    Entails.{u} rows row :=
  fun _ _ _ _ satisfied => Relation.Satisfies.of_implies satisfied implied

/-- **The relations over one heading that has the determinants decide what is in a closure.** -/
theorem mem_closure_of_entailsOver {heading : AttributeSet}
    (within : ∀ row ∈ rows, row.determinants ⊆ heading) (inHeading : name ∈ heading)
    (entailed : EntailsOver.{u} heading rows ⟨names, {name}⟩) : name ∈ closure rows names := by
  refine Decidable.byContradiction fun outside => ?_
  -- the values are the truth values, in the universe that is asked for
  have injective : Function.Injective (ULift.up : Bool → ULift.{u} Bool) :=
    fun _ _ equal => congrArg ULift.down equal
  refine Relation.not_satisfies_pair injective (subset_closure rows names) inHeading outside
    (entailed _ _ rfl ?_)
  exact fun row member =>
    Relation.satisfies_pair injective (within row member) (closed_closure rows names row member)

/-- **An attribute is in the closure of a set if and only if the list entails that the
set fixes it.** -/
theorem mem_closure_iff_entails : name ∈ closure rows names ↔ Entails.{u} rows ⟨names, {name}⟩ := by
  constructor
  · exact fun member => entails_of_implies ((implies_iff_of_single rfl).2 member)
  · intro entailed
    have within (row : Dependency) (member : row ∈ rows) : row.determinants ⊆
        insert name (AttributeSet.unions (rows.map Dependency.determinants)) := fun other named =>
      AttributeSet.mem_insert.2 (Or.inr (AttributeSet.mem_unions_map.2 ⟨row, member, named⟩))
    exact mem_closure_of_entailsOver within (AttributeSet.mem_insert.2 (Or.inl rfl)) (entailed _)

end Entailment

/-! ## The closure, exactly -/

/-- **The closure of a set is what the dependencies entail of it, and the least closed set
that contains it.** Sweeping until nothing changes reaches it, and it is extensive, monotone
and idempotent, whatever the order and the repetitions of the dependencies. -/
theorem closure_exact (rows : List Dependency) (names : AttributeSet) :
    (∀ result, Settles rows names result ↔ result = closure rows names) ∧
      (∀ name, name ∈ closure rows names ↔ Entails.{u} rows ⟨names, {name}⟩) ∧
      (∀ heading, (∀ row ∈ rows, row.determinants ⊆ heading) → ∀ name ∈ heading,
        (name ∈ closure rows names ↔ EntailsOver.{u} heading rows ⟨names, {name}⟩)) ∧
      (∀ result, IsLeastClosed rows names result ↔ result = closure rows names) ∧
      (∀ others, (∀ row, row ∈ others ↔ row ∈ rows) →
        closure others names = closure rows names) ∧
      names ⊆ closure rows names ∧
      (∀ more, names ⊆ more → closure rows names ⊆ closure rows more) ∧
      closure rows (closure rows names) = closure rows names := by
  refine ⟨fun _ => settles_iff, fun _ => mem_closure_iff_entails, ?_, fun _ => isLeastClosed_iff,
    ?_, subset_closure rows names, fun _ => closure_mono rows, closure_closure rows names⟩
  · intro heading within name inHeading
    constructor
    · exact fun member => mem_closure_iff_entails.1 member heading
    · exact mem_closure_of_entailsOver within inHeading
  · intro others same
    exact congrFun (closure_congr_mem same) names

/-! ## Canonical rows -/

/-- **Lists with the same closure are satisfied by the same relations.** -/
theorem satisfies_congr {V : Type u} {relation : Relation V} {first second : List Dependency}
    (same : closure first = closure second) :
    (∀ row ∈ first, relation.Satisfies row) ↔ ∀ row ∈ second, relation.Satisfies row := by
  constructor
  · intro satisfied row member
    exact .of_implies satisfied ((implies_congr same).2 (implies_of_mem member))
  · intro satisfied row member
    exact .of_implies satisfied ((implies_congr same).1 (implies_of_mem member))

/-- **Making a list canonical keeps its meaning.** The minimal cover and the split have the
closures of the list. Their rows have one dependant each, and the relations that satisfy
them are those that satisfy the list. -/
theorem closure_canonical (rows : List Dependency) (names : AttributeSet) :
    closure (minimalCover rows) names = closure rows names ∧
      closure (split rows) names = closure rows names ∧
      ∀ mode : CoverMode,
        (∀ row ∈ mode.cover rows, ∃ name, row.dependants = {name} ∧ name ∉ row.determinants) ∧
        ∀ (V : Type u) (relation : Relation V),
          (∀ row ∈ mode.cover rows, relation.Satisfies row) ↔
            ∀ row ∈ rows, relation.Satisfies row := by
  refine ⟨?_, ?_, fun mode => ⟨fun row => single_cover, fun V relation => ?_⟩⟩
  · rw [closure_minimalCover]
  · rw [closure_split]
  · exact satisfies_congr (closure_cover mode rows)

end RelationalDesign
