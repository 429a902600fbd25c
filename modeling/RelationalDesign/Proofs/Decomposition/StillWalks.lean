import RelationalDesign.Proofs.Decomposition.ThirdForm

/-!
# Walks over a minimal cover change nothing

The third normal form of a matrix in the minimal mode consists of the rows of the
minimal cover, grouped by their determinants, and has no references
(`toThirdForm_minimal`). No entry of a grouped row can be derived without that
entry, so no walk finds anything to move, neither from the row that is selected to
start with nor from any other, whatever has been visited and referred to before.
-/

set_option autoImplicit false

namespace RelationalDesign

/-- Rows without references between them. -/
def Decomposition.unlinked (rows : List Dependency) : Decomposition :=
  ⟨rows, List.replicate rows.length []⟩

/-- Where every entry is needed, a walk leaves the matrix and the references as they are. -/
theorem DependencyMatrix.follow_of_tight {matrix : DependencyMatrix} (tight : Tight matrix.rows)
    (references : References) (start current : Nat) (visited : List Nat) :
    (matrix.follow references start current visited).1 = (matrix, references) := by
  have still := Walk.follow_of_tight ⟨⟨matrix.rows, references⟩, visited.eraseDups⟩ tight start
    current
  exact congrArg matrix.withDesign still

/-- **The third normal form of a minimal cover is the cover, grouped, without references.**
It comes out from whatever rows the walks start and in whatever order, and no walk over
it changes a row or records a reference. -/
theorem toThirdForm_minimal (matrix : DependencyMatrix) (minimal : matrix.mode = .minimal) :
    matrix.toThirdForm =
        ({ matrix with rows := grouped (minimalCover matrix.given) },
          List.replicate (grouped (minimalCover matrix.given)).length []) ∧
      (∀ starts : List Nat,
        matrix.withDesign (starts.foldl moveTransitive
          (.unlinked (mergeIdentical (minimalCover matrix.given)))) = matrix.toThirdForm) ∧
      ∀ references start current visited,
        (matrix.toThirdForm.1.follow references start current visited).1 =
          (matrix.toThirdForm.1, references) := by
  have tight : Tight (grouped (minimalCover matrix.given)) :=
    mergeIdentical_eq_grouped _ ▸ tight_mergeIdentical_minimalCover matrix.given
  have form : matrix.toThirdForm =
      matrix.withDesign (.unlinked (grouped (minimalCover matrix.given))) := by
    unfold DependencyMatrix.toThirdForm
    rw [minimal, CoverMode.cover, thirdForm_minimalCover, mergeIdentical_eq_grouped]
    rfl
  refine ⟨form, fun starts => ?_, fun references start current visited => ?_⟩
  · rw [form, mergeIdentical_eq_grouped, foldl_moveTransitive_of_tight tight]
  · rw [form]
    exact DependencyMatrix.follow_of_tight tight references start current visited

/-- Flights: a flight has a gate, a terminal and an airline, a gate is in a terminal, and
airlines and their hubs fix each other. -/
def flights : DependencyMatrix :=
  .ofGiven
    [⟨.ofList ["flight"], .ofList ["airline", "terminal"]⟩,
      ⟨.ofList ["gate"], .ofList ["terminal"]⟩, ⟨.ofList ["airline"], .ofList ["hub"]⟩,
      ⟨.ofList ["flight"], .ofList ["gate"]⟩, ⟨.ofList ["hub"], .ofList ["airline"]⟩] .minimal

/-- The minimal cover of flights, grouped. -/
def flightRows : List Dependency :=
  [⟨.ofList ["flight"], .ofList ["airline", "gate"]⟩, ⟨.ofList ["gate"], .ofList ["terminal"]⟩,
    ⟨.ofList ["airline"], .ofList ["hub"]⟩, ⟨.ofList ["hub"], .ofList ["airline"]⟩]

/-- A walk from flights comes back to the airline by way of the hub, but does not move it. -/
theorem toThirdForm_flights :
    flights.mode = .minimal ∧
      flights.toThirdForm = ({ flights with rows := flightRows }, [[], [], [], []]) ∧
      (flights.toThirdForm.1.follow [[], [], [], []] 0 2 [0]).1 =
        (flights.toThirdForm.1, [[], [], [], []]) := by
  have rows : grouped (minimalCover flights.given) = flightRows := by decide
  obtain ⟨form, _, still⟩ := toThirdForm_minimal flights rfl
  refine ⟨rfl, ?_, still [[], [], [], []] 0 2 [0]⟩
  rw [form, rows]
  rfl

end RelationalDesign
