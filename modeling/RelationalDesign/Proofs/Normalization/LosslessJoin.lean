import RelationalDesign.Proofs.Normalization.Parts
import RelationalDesign.Proofs.Relation.Join

/-!
# Joining the parts of a table

If the key of a table fixes every attribute that the table's dependencies name,
the third normal form loses nothing: each relation over the table that satisfies
the dependencies is the natural join of its projections onto the parts
(`joinAll_decompose`). It does not matter whether the key identifies the tuples.

The join is governed by the rows that the decomposition leaves before the key is
kept. The relation satisfies them, each is within a part, and the part that holds
the key has all other attributes too, so that it fixes the heading
(`joinAll_keepKey`).
-/

set_option autoImplicit false

namespace RelationalDesign

universe u

variable {V : Type u} {relation : Relation V}

/-- **Rows that a relation satisfies split it without loss**, once a key that fixes
what they mention is kept. -/
theorem joinAll_keepKey {design : Decomposition} {key : AttributeSet} (nonempty : key ≠ ∅)
    (satisfied : ∀ row ∈ design.rows, relation.Satisfies row) (spans : Spans design.rows key) :
    Relation.joinAll (((design.keepKey key relation.heading).rows.map Dependency.attributes).map
      relation.project) = relation := by
  obtain ⟨holder, isKept, holdsKey, holdsRest, _⟩ :=
    exists_holder nonempty relation.heading design
  refine Relation.joinAll_project satisfied ?_ (List.mem_map_of_mem isKept) ?_
  · intro row member
    obtain ⟨kept, inKept, same, contained⟩ := exists_of_keepKey nonempty member
    refine ⟨kept.attributes, List.mem_map_of_mem inKept, fun name named => ?_⟩
    apply Dependency.mem_attributes.2
    rw [same]
    exact (Dependency.mem_attributes.1 named).imp id (contained name)
  · intro name inHeading
    by_cases mentioned : Mentions design.rows name
    · exact closure_mono design.rows holdsKey name (spans name mentioned)
    · refine subset_closure design.rows holder.attributes name (holdsRest name ?_)
      exact mem_unmentioned.2 ⟨inHeading, mentioned⟩

namespace Table

/-- **A relation over a table is the natural join of its projections onto the parts
of the third normal form**, if it satisfies the dependencies of the table and the
key fixes every attribute that they name. -/
theorem joinAll_decompose {table : Table} (accepted : table.violations = []) {settings : Settings}
    (keeps : settings.preserveKey = true)
    (fixed : ∀ name ∈ table.namesInDependencies, name ∈ closure table.stated table.key)
    (sameHeading : relation.heading = table.heading)
    (satisfied : ∀ row ∈ table.stated, relation.Satisfies row) :
    Relation.joinAll ((table.decompose settings .third).parts.map fun part =>
      relation.project part.heading) = relation := by
  have spans : Spans (thirdForm (settings.cover.cover table.stated)).rows table.key := by
    refine spans_thirdForm.2 (Spans.cover ?_ settings.cover)
    intro name mentioned
    exact fixed name (mentions_stated_iff.1 mentioned)
  have implied (row : Dependency)
      (member : row ∈ (thirdForm (settings.cover.cover table.stated)).rows) :
      Implies table.stated row := by
    have own := implies_of_mem member
    unfold Implies at own
    rwa [closure_thirdForm, closure_cover] at own
  have headings := map_heading_decompose accepted keeps .third
  calc Relation.joinAll ((table.decompose settings .third).parts.map fun part =>
        relation.project part.heading)
      = Relation.joinAll (((table.decompose settings .third).parts.map heading).map
          relation.project) := by rw [List.map_map]; rfl
    _ = relation := by
        rw [headings, ← sameHeading]
        exact joinAll_keepKey (key_ne_empty accepted)
          (fun row member => Relation.Satisfies.of_implies satisfied (implied row member)) spans

/-- Orders with their customer, the customer's city and a note that nothing names. -/
def orders : Table where
  name := "orders"
  attributes :=
    [⟨"order", .integer, ⟨true, true, false⟩⟩, ⟨"customer", .text, ∅⟩, ⟨"city", .text, ∅⟩,
      ⟨"note", .text, ∅⟩]
  dependencies := [⟨["order"], ["customer"]⟩, ⟨["customer"], ["city"]⟩]

/-- Seven customers order in turn. -/
def orderValue (order : Nat) : String → Nat
  | "order" => order
  | "customer" => order % 7
  | "city" => order % 7 % 2
  | _ => order * order

/-- Infinitely many orders are the join of what the parts of the table hold of them. -/
theorem joinAll_orders :
    orders.violations = [] ∧ Settings.usual.preserveKey = true ∧
      (∀ name ∈ orders.namesInDependencies, name ∈ closure orders.stated orders.key) ∧
      (∀ row ∈ orders.stated, (Relation.ofValues orders.heading orderValue).Satisfies row) ∧
      Relation.joinAll ((orders.decompose .usual .third).parts.map fun part =>
        (Relation.ofValues orders.heading orderValue).project part.heading) =
          Relation.ofValues orders.heading orderValue := by
  have accepted : orders.violations = [] := by decide
  have fixed : ∀ name ∈ orders.namesInDependencies, name ∈ closure orders.stated orders.key := by
    decide
  have satisfied (row : Dependency) (member : row ∈ orders.stated) :
      (Relation.ofValues orders.heading orderValue).Satisfies row := by
    obtain ⟨clause, stated, rfl⟩ := List.mem_map.1 member
    rcases List.mem_cons.1 stated with rfl | stated
    · apply Relation.satisfies_ofValues (by decide)
      intro first second agree name dependant
      have sameOrder : first = second := agree "order" (by decide)
      rw [sameOrder]
    · obtain rfl := List.mem_singleton.1 stated
      apply Relation.satisfies_ofValues (by decide)
      intro first second agree name dependant
      have sameCustomer : first % 7 = second % 7 := agree "customer" (by decide)
      obtain rfl : name = "city" := List.mem_singleton.1 (AttributeSet.mem_ofList.1 dependant)
      exact congrArg (· % 2) sameCustomer
  exact ⟨accepted, rfl, fixed, satisfied, joinAll_decompose accepted rfl fixed rfl satisfied⟩

end Table

end RelationalDesign
