import LexicalScope.Proofs.Descent
import LexicalScope.Proofs.Traversal

/-!
What the reader of patterns makes of a value that need not be a pattern. A descent goes from a value to
its parts (`parts`), so that everything it comes to has an address, and the descent itself is the list
of these places in the order of their addresses (`descent`). The reader fails exactly when it comes to
a list that cannot be gone through, and otherwise gives the names of the identifiers among the places,
one by one and in order (`names_exact`).
-/

namespace LexicalScope

namespace Value

/-- The items of a value that is a list. -/
def items : Value → List Value
  | .arr items => items
  | _ => []

/-- A text or an object: it lists its characters or the names of its fields. -/
def listsTexts : Value → Bool
  | .str _ | .obj _ => true
  | _ => false

/-- The name of an identifier, if it is a text. -/
def spelling? (v : Value) : Option String :=
  if v.nodeType = .identifier then (v.field "name").text? else none

theorem mem_items_iff {v item : Value} : item ∈ v.items ↔ ∃ items, v = .arr items ∧ item ∈ items := by
  cases v <;> simp [items]

/-- What can be gone through is read item by item; what is no list has no items. -/
theorem readListed_of_listable {read : Value → Except Fault (List String)}
    (plain : ∀ s, read (.str s) = .ok []) {v : Value} (listable : v.isUnlisted = false)
    {names : Value → List String} (each : ∀ item ∈ v.items, read item = .ok (names item)) :
    v.readListed read = .ok (v.items.flatMap names) := by
  have listing := v.listed_listing
  cases found : v.listed with
  | error fault =>
    rw [found] at listing
    cases listing with
    | unlisted unlisted => exact absurd (unlisted.symm.trans listable) (by decide)
  | ok items =>
    rw [found] at listing
    cases listing with
    | items list =>
      subst list
      have all : items.mapM read = .ok (items.map names) := Reading.mapM_of_forall each
      rw [readListed, found]
      simp only [bind, Except.bind, all]
      rfl
    | texts noList texts _ =>
      have nothing : v.items = [] := by
        cases v with
        | arr items => exact absurd rfl (noList items)
        | _ => rfl
      rw [← Pattern.noNames_eq plain noList, Pattern.noNames, found, nothing]
      rfl

theorem readListed_of_texts {read : Value → Except Fault (List String)}
    (plain : ∀ s, read (.str s) = .ok []) {v : Value} (texts : v.listsTexts = true) :
    v.readListed read = .ok [] := by
  cases v with
  | obj entries => exact Pattern.readListed_obj plain entries
  | str s =>
    have read : (str s).readListed read = .ok ((str s).items.flatMap fun _ => []) :=
      readListed_of_listable plain rfl nofun
    exact read
  | _ => cases texts

end Value

namespace Pattern

/-! ## Places -/

/-- What a property leads to: a rest element to itself, any other object to its value. -/
def propertyPart? (property : Value) : Option Value :=
  if property.isObject then
    some (if property.nodeType = .restElement then property else property.field "value")
  else none

/-- What a value leads to, from left to right. -/
def parts (v : Value) : List Value :=
  match v.nodeType with
  | .arrayPattern => (v.field "elements").items
  | .objectPattern => (v.field "properties").items.filterMap propertyPart?
  | .assignmentPattern => [v.field "left"]
  | .restElement => [v.field "argument"]
  | _ => []

/-- What a value leads to at an address: which part to take, at every step. -/
def partAt? (v : Value) : Address → Option Value
  | [] => some v
  | i :: rest => (parts v)[i]?.bind (partAt? · rest)

theorem propertyPart?_eq_some_iff {property w : Value} :
    propertyPart? property = some w ↔ property.isObject = true ∧
      ((property.nodeType = .restElement ∧ property = w) ∨
        (property.nodeType ≠ .restElement ∧ property.field "value" = w)) := by
  unfold propertyPart?
  by_cases object : property.isObject = true
  · by_cases rest : property.nodeType = .restElement <;> simp [object, rest]
  · simp [object]

/-- The parts of a value are what the descent goes on to. -/
theorem mem_parts_iff {v w : Value} : w ∈ parts v ↔ Leads v w := by
  constructor
  · intro member
    unfold parts at member
    split at member
    · rename_i type
      obtain ⟨items, list, member⟩ := Value.mem_items_iff.mp member
      exact .element type list member
    · rename_i type
      obtain ⟨property, listed, part⟩ := List.mem_filterMap.mp member
      obtain ⟨items, list, among⟩ := Value.mem_items_iff.mp listed
      obtain ⟨object, ⟨rest, rfl⟩ | ⟨other, rfl⟩⟩ := propertyPart?_eq_some_iff.mp part
      · exact .rest type list among rest
      · exact .value type list among object other
    · rename_i type
      rw [List.mem_singleton.mp member]
      exact .target type
    · rename_i type
      rw [List.mem_singleton.mp member]
      exact .argument type
    · cases member
  · intro leads
    cases leads with
    | element type list member =>
      rw [parts, type]
      exact Value.mem_items_iff.mpr ⟨_, list, member⟩
    | rest type list member rest =>
      have object := Value.isObject_of_known (show w.nodeType ≠ .other by rw [rest]; decide)
      rw [parts, type]
      refine List.mem_filterMap.mpr ⟨w, Value.mem_items_iff.mpr ⟨_, list, member⟩, ?_⟩
      exact propertyPart?_eq_some_iff.mpr ⟨object, .inl ⟨rest, rfl⟩⟩
    | value type list member object other =>
      rw [parts, type]
      refine List.mem_filterMap.mpr ⟨_, Value.mem_items_iff.mpr ⟨_, list, member⟩, ?_⟩
      exact propertyPart?_eq_some_iff.mpr ⟨object, .inr ⟨other, rfl⟩⟩
    | target type => simp [parts, type]
    | argument type => simp [parts, type]

/-- What holds of a value whenever it holds of its parts holds of all values. -/
theorem parts_induction {P : Value → Prop} (step : ∀ v, (∀ w ∈ parts v, P w) → P v) (v : Value) : P v :=
  step v fun w _ => parts_induction step w
termination_by sizeOf v
decreasing_by exact (mem_parts_iff.mp (by assumption)).sizeOf_lt

theorem mem_parts_of_zipIdx {v : Value} {x : Value × Nat} (member : x ∈ (parts v).zipIdx) :
    x.1 ∈ parts v :=
  List.mem_of_getElem? (List.mem_zipIdx_iff_getElem?.mp member)

/-- The descent is a matter of addresses. -/
theorem reaches_iff {v w : Value} : Reaches v w ↔ ∃ a, partAt? v a = some w := by
  constructor
  · intro reached
    induction reached using Relation.ReflTransGen.head_induction_on with
    | refl => exact ⟨[], rfl⟩
    | head leads _ ih =>
      obtain ⟨a, below⟩ := ih
      obtain ⟨i, listed⟩ := List.mem_iff_getElem?.mp (mem_parts_iff.mpr leads)
      exact ⟨i :: a, by rw [partAt?, listed]; exact below⟩
  · rintro ⟨a, place⟩
    induction a generalizing v with
    | nil =>
      obtain rfl := Option.some.inj place
      exact .refl
    | cons i a ih =>
      obtain ⟨part, listed, below⟩ := Option.bind_eq_some_iff.mp place
      exact .head (mem_parts_iff.mp (List.mem_of_getElem? listed)) (ih below)

/-! ## The descent in order -/

/-- Everything that a descent comes to, with its address. -/
def descent (v : Value) : List (Address × Value) :=
  ([], v) :: (parts v).zipIdx.attach.flatMap fun x =>
    (descent x.1.1).map fun place => (x.1.2 :: place.1, place.2)
termination_by sizeOf v
decreasing_by exact (mem_parts_iff.mp (mem_parts_of_zipIdx x.2)).sizeOf_lt

/-- The names of the identifiers that a descent comes to. -/
def spellings (v : Value) : List String := (descent v).filterMap fun place => place.2.spelling?

/-- The list goes through all that the descent reaches, once for each way there is to it, and in the
    order in which it stands in the value. -/
structure Descends (v : Value) (places : List (Address × Value)) : Prop where
  addressed : ∀ a w, (a, w) ∈ places ↔ partAt? v a = some w
  reached : ∀ w, (∃ a, partAt? v a = some w) ↔ Reaches v w
  sorted : (places.map Prod.fst).Pairwise (· < ·)

theorem descent_eq (v : Value) :
    descent v = ([], v) :: (parts v).zipIdx.flatMap fun x =>
      (descent x.1).map fun place => (x.2 :: place.1, place.2) := by
  rw [descent, ← List.flatMap_map Subtype.val fun x : Value × Nat =>
    (descent x.1).map fun place => (x.2 :: place.1, place.2), List.attach_map_subtype_val]

theorem spellings_eq (v : Value) : spellings v = v.spelling?.toList ++ (parts v).flatMap spellings := by
  have below : (parts v).zipIdx.flatMap (fun x => spellings x.1) = (parts v).flatMap spellings := by
    rw [← List.flatMap_map Prod.fst spellings, List.zipIdx_map_fst]
  rw [← below, spellings, descent_eq, List.filterMap_cons, List.filterMap_flatMap]
  simp only [List.filterMap_map]
  cases v.spelling? <;> rfl

theorem mem_descent {v w : Value} {a : Address} : (a, w) ∈ descent v ↔ partAt? v a = some w := by
  induction v using parts_induction generalizing a with
  | step v ih =>
    rw [descent_eq, List.mem_cons, List.mem_flatMap]
    constructor
    · rintro (same | ⟨⟨part, i⟩, listed, member⟩)
      · cases same
        rfl
      · obtain ⟨⟨b, u⟩, below, same⟩ := List.mem_map.mp member
        cases same
        rw [partAt?, List.mem_zipIdx_iff_getElem?.mp listed]
        exact (ih part (mem_parts_of_zipIdx listed)).mp below
    · intro place
      cases a with
      | nil =>
        obtain rfl := Option.some.inj place
        exact .inl rfl
      | cons i a =>
        obtain ⟨part, listed, below⟩ := Option.bind_eq_some_iff.mp place
        have member := (ih part (List.mem_of_getElem? listed)).mpr below
        exact .inr ⟨(part, i), List.mem_zipIdx_iff_getElem?.mpr listed, List.mem_map.mpr ⟨_, member, rfl⟩⟩

theorem descent_sorted (v : Value) : ((descent v).map Prod.fst).Pairwise (· < ·) := by
  induction v using parts_induction with
  | step v ih =>
    rw [descent_eq, List.map_cons, List.pairwise_cons, List.map_flatMap, List.pairwise_flatMap]
    refine ⟨?_, ?_, ?_⟩
    · intro a member
      obtain ⟨x, _, inside⟩ := List.mem_flatMap.mp member
      rw [List.map_map] at inside
      obtain ⟨place, _, rfl⟩ := List.mem_map.mp inside
      exact List.nil_lt_cons _ _
    · intro x listed
      rw [List.map_map]
      have sorted := List.pairwise_map.mp (ih x.1 (mem_parts_of_zipIdx listed))
      exact List.pairwise_map.mpr (sorted.imp fun less => List.cons_lt_cons_iff.mpr (.inr ⟨rfl, less⟩))
    · refine (Walk.zipIdx_sorted (parts v)).imp ?_
      intro x y smaller a left b right
      rw [List.map_map] at left right
      obtain ⟨_, _, rfl⟩ := List.mem_map.mp left
      obtain ⟨_, _, rfl⟩ := List.mem_map.mp right
      exact List.cons_lt_cons_iff.mpr (.inl smaller)

theorem descends_descent (v : Value) : Descends v (descent v) :=
  ⟨fun _ _ => mem_descent, fun _ => reaches_iff.symm, descent_sorted v⟩

/-! ## Reading -/

/-- A property is read as what it leads to. -/
theorem propertyName_eq_part (property : Value) :
    propertyName property =
      match propertyPart? property with
      | some w => names w
      | none => .ok [] := by
  rw [propertyName_eq]
  cases property with
  | obj entries =>
    unfold propertyPart?
    rw [if_pos (show (Value.obj entries).isObject = true from rfl)]
    split <;> rfl
  | _ => rfl

/-- Where no list stands in the way, the names are those of the identifiers in the order of the
    descent. -/
theorem names_of_unblocked {v : Value} (clear : ∀ w, Reaches v w → ¬ Blocked w) :
    names v = .ok (spellings v) := by
  -- Nothing stands in the way of a part when nothing does of the whole.
  induction v using parts_induction with
  | step v ih =>
    have here : ¬ Blocked v := clear v .refl
    have below : ∀ w ∈ parts v, names w = .ok (spellings w) := by
      intro w member
      exact ih w member fun u reached => clear u (.head (mem_parts_iff.mp member) reached)
    rw [names_eq, spellings_eq]
    cases type : v.nodeType with
    | identifier =>
      simp only [parts, type, Value.spelling?, identifierName]
      cases v.field "name" <;> simp [Value.text?]
    | arrayPattern =>
      have listable : (v.field "elements").isUnlisted = false :=
        Bool.eq_false_iff.mpr fun unlisted => here (.elements type unlisted)
      simp only [parts, type, Value.spelling?] at below ⊢
      exact Value.readListed_of_listable (fun s => rfl) listable below
    | objectPattern =>
      have listable : (v.field "properties").isUnlisted = false :=
        Bool.eq_false_iff.mpr fun unlisted => here (.properties type unlisted)
      simp only [parts, type, Value.spelling?] at below ⊢
      have each : ∀ property ∈ (v.field "properties").items,
          propertyName property = .ok ((propertyPart? property).toList.flatMap spellings) := by
        intro property listed
        rw [propertyName_eq_part]
        cases part : propertyPart? property with
        | none => rfl
        | some w =>
          rw [Option.toList_some, List.flatMap_singleton]
          exact below w (List.mem_filterMap.mpr ⟨property, listed, part⟩)
      rw [List.filterMap_eq_flatMap_toList, List.flatMap_assoc]
      exact Value.readListed_of_listable (fun s => rfl) listable each
    | assignmentPattern =>
      simpa [parts, type, Value.spelling?] using below (v.field "left") (by simp [parts, type])
    | restElement =>
      simpa [parts, type, Value.spelling?] using below (v.field "argument") (by simp [parts, type])
    | _ => simp [parts, type, Value.spelling?]

/-- The list of an array pattern or an object pattern is a text or an object. -/
inductive Textual (v : Value) : Prop where
  | elements (type : v.nodeType = .arrayPattern) (texts : (v.field "elements").listsTexts = true)
  | properties (type : v.nodeType = .objectPattern) (texts : (v.field "properties").listsTexts = true)

theorem names_of_textual {v : Value} (textual : Textual v) : names v = .ok [] := by
  rw [names_eq]
  cases textual with
  | elements type texts =>
    rw [type]
    exact Value.readListed_of_texts (fun s => rfl) texts
  | properties type texts =>
    rw [type]
    exact Value.readListed_of_texts (fun s => rfl) texts

/-- What the reader makes of any value. It fails exactly when the descent from the value reaches a list
    that cannot be gone through, and always for that reason. Otherwise it gives the names of the
    identifiers that the descent comes to, each as often as there are ways to it and in the order in
    which they stand in the value. A text or an object in the place of a list adds no name. -/
theorem names_exact (v : Value) :
    (∀ fault, names v = .error fault ↔ fault = .notEnumerable ∧ ∃ w, Reaches v w ∧ Blocked w) ∧
      (∀ bound, names v = .ok bound ↔
        (∀ w, Reaches v w → ¬ Blocked w) ∧
          bound = (descent v).filterMap fun place => place.2.spelling?) ∧
      Descends v (descent v) ∧
      (Textual v → names v = .ok []) := by
  refine ⟨fun fault => names_eq_error_iff, fun bound => ⟨fun read => ?_, ?_⟩, descends_descent v,
    names_of_textual⟩
  · have clear : ∀ w, Reaches v w → ¬ Blocked w := by
      intro w reached blocked
      have failed := names_eq_error_iff.mpr ⟨rfl, w, reached, blocked⟩
      rw [read] at failed
      cases failed
    exact ⟨clear, Except.ok.inj (read.symm.trans (names_of_unblocked clear))⟩
  · rintro ⟨clear, rfl⟩
    exact names_of_unblocked clear

end Pattern

end LexicalScope
