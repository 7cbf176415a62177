import LexicalScope.Value

/-!
A value occurs in a tree when it is the tree itself or stands anywhere below it, under whatever
keys. A tree has a JSON form exactly when no regular expression occurs in it (`isData_iff`).
-/

namespace LexicalScope.Value

/-- The value stands somewhere in another, or is the other. -/
inductive Occurs (u : Value) : Value → Prop where
  | here : Occurs u u
  | item {items : List Value} {v : Value} (member : v ∈ items) (inside : Occurs u v) :
      Occurs u (.arr items)
  | entry {entries : List (String × Value)} {key : String} {v : Value}
      (member : (key, v) ∈ entries) (inside : Occurs u v) : Occurs u (.obj entries)

theorem mem_of_lookup {entries : List (String × Value)} {key : String} {v : Value}
    (found : entries.lookup key = some v) : (key, v) ∈ entries := by
  obtain ⟨before, after, rfl, _⟩ := List.lookup_eq_some_iff.mp found
  simp

theorem sizeOf_of_mem_arr {items : List Value} {v : Value} (member : v ∈ items) :
    sizeOf v < sizeOf (arr items) := by
  have smaller := List.sizeOf_lt_of_mem member
  rw [arr.sizeOf_spec]
  omega

theorem sizeOf_of_mem_obj {entries : List (String × Value)} {key : String} {v : Value}
    (member : (key, v) ∈ entries) : sizeOf v < sizeOf (obj entries) := by
  have smaller := List.sizeOf_lt_of_mem member
  rw [Prod.mk.sizeOf_spec] at smaller
  rw [obj.sizeOf_spec]
  omega

theorem itemsAreData_iff {items : List Value} :
    itemsAreData items = true ↔ ∀ v ∈ items, v.isData = true := by
  induction items with
  | nil => simp [itemsAreData]
  | cons v rest ih => rw [itemsAreData, Bool.and_eq_true_iff, ih, List.forall_mem_cons]

theorem entriesAreData_iff {entries : List (String × Value)} :
    entriesAreData entries = true ↔ ∀ key v, (key, v) ∈ entries → v.isData = true := by
  induction entries with
  | nil => simp [entriesAreData]
  | cons entry rest ih =>
    obtain ⟨name, w⟩ := entry
    rw [entriesAreData, Bool.and_eq_true_iff, ih]
    constructor
    · rintro ⟨here, later⟩ key v member
      rcases List.mem_cons.mp member with same | further
      · cases same
        exact here
      · exact later key v further
    · intro all
      exact ⟨all name w List.mem_cons_self, fun key v member => all key v (List.mem_cons_of_mem _ member)⟩

theorem data_of_not_occurs {v : Value} (absent : ¬ Occurs .regex v) : v.isData = true := by
  match v with
  | .regex => exact absurd .here absent
  | .arr items =>
    rw [isData, itemsAreData_iff]
    intro w member
    exact data_of_not_occurs fun inside => absent (.item member inside)
  | .obj entries =>
    rw [isData, entriesAreData_iff]
    intro key w member
    exact data_of_not_occurs fun inside => absent (.entry member inside)
  | .null | .bool _ | .int _ | .float _ | .str _ => rfl
termination_by sizeOf v
decreasing_by
  · exact sizeOf_of_mem_arr member
  · exact sizeOf_of_mem_obj member

/-- A value has a JSON form exactly when no regular expression occurs in it. -/
theorem isData_iff {v : Value} : v.isData = true ↔ ¬ Occurs .regex v := by
  refine ⟨?_, data_of_not_occurs⟩
  intro data occurs
  induction occurs with
  | here => cases data
  | item member _ ih => exact ih (itemsAreData_iff.mp data _ member)
  | entry member _ ih => exact ih (entriesAreData_iff.mp data _ _ member)

end LexicalScope.Value
