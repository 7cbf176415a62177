import LexicalScope.Declaration
import LexicalScope.Proofs.Occurrences
import Mathlib.Logic.Relation

/-!
Reading a pattern goes down from it: to the elements of an array pattern, to the properties of an
object pattern, to the left side of a default and to the argument of a rest element (`Leads`). The
reader is the same function without the fields in between (`names_eq`), and it fails exactly when
the descent reaches a list that cannot be gone through (`names_eq_error_iff`).
-/

namespace LexicalScope

namespace Reading

variable {ε α β : Type}

theorem ok_of_bind {first : Except ε α} {next : α → Except ε β} {b : β}
    (done : first >>= next = .ok b) : ∃ a, first = .ok a ∧ next a = .ok b := by
  cases first with
  | error e => cases done
  | ok a => exact ⟨a, rfl, done⟩

/-- What is made of a reading fails only with the reading. -/
theorem error_of_map {first : Except ε α} {make : α → β} {e : ε}
    (failed : (do let a ← first; return make a) = .error e) : first = .error e := by
  cases first with
  | error other => exact congrArg Except.error (Except.error.inj failed)
  | ok a => cases failed

theorem mem_of_mapM {read : α → Except ε β} {items : List α} {all : List β}
    (done : items.mapM read = .ok all) : ∀ b ∈ all, ∃ a ∈ items, read a = .ok b := by
  induction items generalizing all with
  | nil =>
    obtain rfl : [] = all := Except.ok.inj done
    simp
  | cons item rest ih =>
    rw [List.mapM_cons] at done
    obtain ⟨first, here, later⟩ := ok_of_bind done
    obtain ⟨others, after, made⟩ := ok_of_bind later
    obtain rfl : first :: others = all := Except.ok.inj made
    rw [List.forall_mem_cons]
    refine ⟨⟨item, List.mem_cons_self, here⟩, fun b member => ?_⟩
    obtain ⟨a, found, read⟩ := ih after b member
    exact ⟨a, List.mem_cons_of_mem item found, read⟩

/-- A list of which every item is read is read item by item. -/
theorem mapM_of_forall {read : α → Except ε β} {items : List α} {make : α → β}
    (each : ∀ a ∈ items, read a = .ok (make a)) : items.mapM read = .ok (items.map make) := by
  induction items with
  | nil => rfl
  | cons item rest ih =>
    obtain ⟨here, later⟩ := List.forall_mem_cons.mp each
    rw [List.mapM_cons, here, ih later]
    rfl

end Reading

namespace Value

/-- The value cannot be gone through: `true`, a number other than zero, or a regular expression. -/
def isUnlisted : Value → Bool
  | .bool b => b
  | .int n => n ≠ 0
  | .float x => !x.isZero
  | .regex => true
  | _ => false

/-- What a value lists, read one by one. -/
def readListed (read : Value → Except Fault (List String)) (v : Value) : Except Fault (List String) := do
  let items ← v.listed
  let names ← items.mapM read
  return names.flatten

theorem namesThrough_eq (v : Value) (list part : String) :
    v.namesThrough list part = (v.field list).readListed fun item => Pattern.names (item.field part) := rfl

/-! ## Lists -/

/-- Only the items of a list are anything but texts. -/
inductive Listing (v : Value) : Except Fault (List Value) → Prop where
  | items {items : List Value} (list : v = .arr items) : Listing v (.ok items)
  | texts {items : List Value} (noList : ∀ items, v ≠ .arr items) (texts : ∀ item ∈ items, ∃ s, item = .str s)
      (listable : v.isUnlisted = false) : Listing v (.ok items)
  | unlisted (unlisted : v.isUnlisted = true) : Listing v (.error .notEnumerable)

theorem listed_listing (v : Value) : v.Listing v.listed := by
  unfold listed
  cases v with
  | null => exact .texts (by simp) (by simp) rfl
  | bool b => cases b with
    | true => exact .unlisted rfl
    | false => exact .texts (by simp) (by simp) rfl
  | int n =>
    by_cases zero : n = 0
    · simp only [isAbsent, zero, decide_true, if_true]
      exact .texts (by simp) (by simp) rfl
    · simp only [isAbsent, zero, decide_false, Bool.false_eq_true, if_false]
      exact .unlisted (by simp [isUnlisted, zero])
  | float x =>
    cases zero : x.isZero with
    | true =>
      simp only [isAbsent, zero, if_true]
      exact .texts (by simp) (by simp) (by simp [isUnlisted, zero])
    | false =>
      simp only [isAbsent, zero, Bool.false_eq_true, if_false]
      exact .unlisted (by simp [isUnlisted, zero])
  | str s =>
    dsimp only
    split
    · exact .texts (by simp) (by simp) rfl
    · exact .texts (by simp) (by simp) rfl
  | regex => exact .unlisted rfl
  | arr items =>
    dsimp only
    split
    · rename_i absent
      obtain rfl : items = [] := List.isEmpty_iff.mp absent
      exact .items rfl
    · exact .items rfl
  | obj entries =>
    dsimp only
    split
    · exact .texts (by simp) (by simp) rfl
    · refine .texts (by simp) ?_ rfl
      intro item member
      obtain ⟨⟨key, _⟩, _, rfl⟩ := List.mem_map.mp member
      exact ⟨key, rfl⟩

theorem mapM_eq_error {read : Value → Except Fault (List String)} {items : List Value} {fault : Fault}
    (failed : items.mapM read = .error fault) : ∃ item ∈ items, read item = .error fault := by
  induction items with
  | nil => cases failed
  | cons item rest ih =>
    rw [List.mapM_cons] at failed
    cases here : read item with
    | error other =>
      rw [here] at failed
      obtain rfl : other = fault := Except.error.inj failed
      exact ⟨item, List.mem_cons_self, here⟩
    | ok names =>
      rw [here] at failed
      obtain ⟨bad, member, reason⟩ := ih (Reading.error_of_map failed)
      exact ⟨bad, List.mem_cons_of_mem item member, reason⟩

theorem mapM_eq_ok {read : Value → Except Fault (List String)} {items : List Value}
    {all : List (List String)} (done : items.mapM read = .ok all) :
    ∀ item ∈ items, ∃ names, read item = .ok names := by
  induction items generalizing all with
  | nil => simp
  | cons item rest ih =>
    rw [List.mapM_cons] at done
    obtain ⟨names, here, later⟩ := Reading.ok_of_bind done
    obtain ⟨more, after, _⟩ := Reading.ok_of_bind later
    rw [List.forall_mem_cons]
    exact ⟨⟨names, here⟩, ih after⟩

/-- A list is read with a fault when it cannot be gone through, or for the fault of an item. -/
theorem readListed_eq_error {read : Value → Except Fault (List String)}
    (plain : ∀ s, read (.str s) = .ok []) {v : Value} {fault : Fault}
    (failed : v.readListed read = .error fault) :
    (v.isUnlisted = true ∧ fault = .notEnumerable) ∨
      ∃ items, v = .arr items ∧ ∃ item ∈ items, read item = .error fault := by
  unfold readListed at failed
  generalize found : v.listed = result at failed
  cases found ▸ v.listed_listing with
  | unlisted unlisted => exact .inl ⟨unlisted, (Except.error.inj failed).symm⟩
  | items list => exact .inr ⟨_, list, mapM_eq_error (Reading.error_of_map failed)⟩
  | texts noList texts listable =>
    obtain ⟨item, member, reason⟩ := mapM_eq_error (Reading.error_of_map failed)
    obtain ⟨s, rfl⟩ := texts item member
    rw [plain s] at reason
    cases reason

theorem readListed_eq_ok {read : Value → Except Fault (List String)} {v : Value} {names : List String}
    (done : v.readListed read = .ok names) :
    v.isUnlisted = false ∧ ∀ items, v = .arr items → ∀ item ∈ items, ∃ names, read item = .ok names := by
  obtain ⟨listed, found, each⟩ := Reading.ok_of_bind done
  obtain ⟨all, reads, _⟩ := Reading.ok_of_bind each
  cases found ▸ v.listed_listing with
  | items list =>
    refine ⟨by rw [list]; rfl, ?_⟩
    rintro items same
    obtain rfl : listed = items := Value.arr.inj (list.symm.trans same)
    exact mapM_eq_ok reads
  | texts noList texts listable => exact ⟨listable, fun items list => absurd list (noList items)⟩

/-! ## Fields -/

/-- A value is larger than what its fields hold. -/
theorem sizeOf_field_lt {v : Value} (object : v.isObject = true) (key : String) :
    sizeOf (v.field key) < sizeOf v := by
  cases v with
  | obj entries =>
    rw [field]
    cases found : entries.lookup key with
    | none =>
      simp only [Option.getD_none, null.sizeOf_spec, obj.sizeOf_spec]
      have : 0 < sizeOf entries := by
        cases entries with
        | nil => decide
        | cons entry rest => rw [List.cons.sizeOf_spec]; omega
      omega
    | some value => exact sizeOf_of_mem_obj (mem_of_lookup found)
  | _ => cases object

theorem isObject_of_known {v : Value} (known : v.nodeType ≠ .other) : v.isObject = true := by
  cases v with
  | obj entries => rfl
  | _ => exact absurd rfl known

end Value

namespace Pattern

/-- The reader for what a field holds. -/
def Part.reader : Part → Value → Except Fault (List String)
  | .pattern => names
  | .elements => elementNames
  | .properties => propertyNames

/-- A field is read as the first with its name, and a field that is not there as an absent one. -/
theorem fieldNames_eq (part : Part) (key : String) (entries : List (String × Value)) :
    fieldNames part key entries = part.reader ((Value.obj entries).field key) := by
  induction entries with
  | nil => cases part <;> rfl
  | cons entry rest ih =>
    obtain ⟨k, v⟩ := entry
    rw [fieldNames.eq_def]
    dsimp only
    by_cases same : k = key
    · cases part <;> simp [same, Value.field, Part.reader]
    · have differ : (key == k) = false := by simp [Ne.symm same]
      rw [if_neg same, ih]
      simp only [Value.field, List.lookup_cons, differ]

/-- Reading from left to right is reading each and joining the names. -/
theorem joined_eq (read : Value → Except Fault (List String))
    (join : List Value → Except Fault (List String)) (empty : join [] = .ok [])
    (step : ∀ item rest, join (item :: rest) = do
      let here ← read item
      let later ← join rest
      return here ++ later) (items : List Value) :
    join items = do let all ← items.mapM read; return all.flatten := by
  induction items with
  | nil => exact empty
  | cons item rest ih =>
    rw [step, ih, List.mapM_cons]
    cases read item with
    | error fault => rfl
    | ok here => cases rest.mapM read <;> rfl

theorem listed_arr (items : List Value) : (Value.arr items).listed = .ok items := by
  unfold Value.listed
  split
  · rename_i absent
    rw [List.isEmpty_iff.mp absent]
  · rfl

/-- What is no list lists texts, and a reader that finds no names in texts finds none there. -/
theorem noNames_eq {read : Value → Except Fault (List String)} (plain : ∀ s, read (.str s) = .ok [])
    {v : Value} (noList : ∀ items, v ≠ .arr items) : noNames v = v.readListed read := by
  unfold noNames Value.readListed
  generalize found : v.listed = result
  cases found ▸ v.listed_listing with
  | unlisted _ => rfl
  | items list => exact absurd list (noList _)
  | @texts items _ texts _ =>
    have none : items.mapM read = .ok (items.map fun _ => []) := by
      refine Reading.mapM_of_forall fun item member => ?_
      obtain ⟨s, rfl⟩ := texts item member
      exact plain s
    simp only [bind, Except.bind, none, pure, Except.pure]
    simp

/-- What an object lists are the names of its fields, which are texts. -/
theorem readListed_obj {read : Value → Except Fault (List String)} (plain : ∀ s, read (.str s) = .ok [])
    (entries : List (String × Value)) : (Value.obj entries).readListed read = .ok [] := by
  rw [← noNames_eq plain (by simp)]
  unfold noNames Value.listed
  split <;> rfl

theorem elementNames_eq (v : Value) : elementNames v = v.readListed names := by
  cases v with
  | arr items =>
    have joined := joined_eq names itemNames (by rw [itemNames]) (fun item rest => by rw [itemNames]) items
    rw [elementNames, joined, Value.readListed, listed_arr]
    rfl
  | _ => exact noNames_eq (fun s => rfl) (by simp)

theorem propertyNames_eq (v : Value) : propertyNames v = v.readListed propertyName := by
  cases v with
  | arr items =>
    have joined := joined_eq propertyName propertyItemNames (by rw [propertyItemNames])
      (fun item rest => by rw [propertyItemNames]) items
    rw [propertyNames, joined, Value.readListed, listed_arr]
    rfl
  | _ => exact noNames_eq (fun s => rfl) (by simp)

/-- The reader without the fields in between. -/
theorem names_eq (v : Value) :
    names v =
      match v.nodeType with
      | .identifier => .ok (identifierName v)
      | .arrayPattern => (v.field "elements").readListed names
      | .objectPattern => (v.field "properties").readListed propertyName
      | .assignmentPattern => names (v.field "left")
      | .restElement => names (v.field "argument")
      | _ => .ok [] := by
  cases v with
  | obj entries =>
    rw [names]
    cases (Value.obj entries).nodeType with
    | arrayPattern => exact (fieldNames_eq .elements "elements" entries).trans (elementNames_eq _)
    | objectPattern => exact (fieldNames_eq .properties "properties" entries).trans (propertyNames_eq _)
    | assignmentPattern => exact fieldNames_eq .pattern "left" entries
    | restElement => exact fieldNames_eq .pattern "argument" entries
    | _ => rfl
  | _ => rfl

/-- A rest element is read as the pattern that it is, any other property by its value. -/
theorem propertyName_eq (v : Value) :
    propertyName v = if v.nodeType = .restElement then names v else names (v.field "value") := by
  cases v with
  | obj entries =>
    rw [propertyName, names_eq (.obj entries)]
    simp only [fieldNames_eq, Part.reader]
    cases (Value.obj entries).nodeType <;> rfl
  | _ => rfl

/-! ## The descent -/

/-- One step down from a pattern. -/
inductive Leads (v : Value) : Value → Prop where
  | element {items : List Value} {item : Value} (type : v.nodeType = .arrayPattern)
      (list : v.field "elements" = .arr items) (member : item ∈ items) : Leads v item
  | rest {items : List Value} {property : Value} (type : v.nodeType = .objectPattern)
      (list : v.field "properties" = .arr items) (member : property ∈ items)
      (rest : property.nodeType = .restElement) : Leads v property
  | value {items : List Value} {property : Value} (type : v.nodeType = .objectPattern)
      (list : v.field "properties" = .arr items) (member : property ∈ items)
      (object : property.isObject = true) (other : property.nodeType ≠ .restElement) :
      Leads v (property.field "value")
  | target (type : v.nodeType = .assignmentPattern) : Leads v (v.field "left")
  | argument (type : v.nodeType = .restElement) : Leads v (v.field "argument")

/-- Any number of steps down. -/
def Reaches : Value → Value → Prop := Relation.ReflTransGen Leads

/-- The list of an array pattern or an object pattern cannot be gone through. -/
inductive Blocked (v : Value) : Prop where
  | elements (type : v.nodeType = .arrayPattern) (unlisted : (v.field "elements").isUnlisted = true)
  | properties (type : v.nodeType = .objectPattern) (unlisted : (v.field "properties").isUnlisted = true)

theorem sizeOf_item_lt {v : Value} (known : v.nodeType ≠ .other) {key : String} {items : List Value}
    (list : v.field key = .arr items) {item : Value} (member : item ∈ items) : sizeOf item < sizeOf v := by
  have inner := Value.sizeOf_field_lt (Value.isObject_of_known known) key
  rw [list] at inner
  exact Nat.lt_trans (Value.sizeOf_of_mem_arr member) inner

/-- Every step leads to something smaller. -/
theorem Leads.sizeOf_lt {v w : Value} (leads : Leads v w) : sizeOf w < sizeOf v := by
  cases leads with
  | element type list member => exact sizeOf_item_lt (by rw [type]; decide) list member
  | rest type list member _ => exact sizeOf_item_lt (by rw [type]; decide) list member
  | value type list member object _ =>
    exact Nat.lt_trans (Value.sizeOf_field_lt object "value")
      (sizeOf_item_lt (by rw [type]; decide) list member)
  | target type => exact Value.sizeOf_field_lt (Value.isObject_of_known (by rw [type]; decide)) "left"
  | argument type => exact Value.sizeOf_field_lt (Value.isObject_of_known (by rw [type]; decide)) "argument"

/-- What stops the reader stands here, or a step further down. -/
theorem names_eq_error_step {v : Value} {fault : Fault} (failed : names v = .error fault) :
    (Blocked v ∧ fault = .notEnumerable) ∨ ∃ w, Leads v w ∧ names w = .error fault := by
  rw [names_eq] at failed
  cases type : v.nodeType <;> rw [type] at failed
  case arrayPattern =>
    rcases Value.readListed_eq_error (fun s => rfl) failed with
      ⟨unlisted, rfl⟩ | ⟨items, list, item, member, bad⟩
    · exact .inl ⟨.elements type unlisted, rfl⟩
    · exact .inr ⟨item, .element type list member, bad⟩
  case objectPattern =>
    rcases Value.readListed_eq_error (fun s => rfl) failed with
      ⟨unlisted, rfl⟩ | ⟨items, list, property, member, bad⟩
    · exact .inl ⟨.properties type unlisted, rfl⟩
    · rw [propertyName_eq] at bad
      split at bad
      · rename_i rest
        exact .inr ⟨property, .rest type list member rest, bad⟩
      · rename_i other
        cases property with
        | obj entries => exact .inr ⟨_, .value type list member rfl other, bad⟩
        | _ => cases bad
  case assignmentPattern => exact .inr ⟨_, .target type, failed⟩
  case restElement => exact .inr ⟨_, .argument type, failed⟩
  all_goals cases failed

theorem not_blocked_of_ok {v : Value} {bound : List String} (read : names v = .ok bound) : ¬ Blocked v := by
  rw [names_eq] at read
  rintro (⟨type, unlisted⟩ | ⟨type, unlisted⟩) <;> rw [type] at read
  · exact Bool.false_ne_true ((Value.readListed_eq_ok read).1.symm.trans unlisted)
  · exact Bool.false_ne_true ((Value.readListed_eq_ok read).1.symm.trans unlisted)

theorem ok_of_leads {v w : Value} {bound : List String} (read : names v = .ok bound) (leads : Leads v w) :
    ∃ names', names w = .ok names' := by
  rw [names_eq] at read
  cases leads with
  | element type list member =>
    rw [type] at read
    exact (Value.readListed_eq_ok read).2 _ list _ member
  | rest type list member rest =>
    rw [type] at read
    obtain ⟨found, here⟩ := (Value.readListed_eq_ok read).2 _ list _ member
    rw [propertyName_eq, if_pos rest] at here
    exact ⟨found, here⟩
  | value type list member object other =>
    rw [type] at read
    obtain ⟨found, here⟩ := (Value.readListed_eq_ok read).2 _ list _ member
    rw [propertyName_eq, if_neg other] at here
    exact ⟨found, here⟩
  | target type => rw [type] at read; exact ⟨bound, read⟩
  | argument type => rw [type] at read; exact ⟨bound, read⟩

theorem ok_of_reaches {v w : Value} (reached : Reaches v w) (read : ∃ bound, names v = .ok bound) :
    ∃ bound, names w = .ok bound := by
  induction reached with
  | refl => exact read
  | tail _ leads ih =>
    obtain ⟨bound, here⟩ := ih
    exact ok_of_leads here leads

theorem reaches_of_error {v : Value} {fault : Fault} (failed : names v = .error fault) :
    fault = .notEnumerable ∧ ∃ w, Reaches v w ∧ Blocked w := by
  rcases names_eq_error_step failed with ⟨blocked, same⟩ | ⟨w, leads, bad⟩
  · exact ⟨same, v, .refl, blocked⟩
  · obtain ⟨same, u, reached, blocked⟩ := reaches_of_error bad
    exact ⟨same, u, .head leads reached, blocked⟩
termination_by sizeOf v
decreasing_by exact leads.sizeOf_lt

/-- A pattern cannot be read exactly when the descent from it reaches a list that cannot be gone
    through. -/
theorem names_eq_error_iff {v : Value} {fault : Fault} :
    names v = .error fault ↔ fault = .notEnumerable ∧ ∃ w, Reaches v w ∧ Blocked w := by
  refine ⟨reaches_of_error, ?_⟩
  rintro ⟨rfl, w, reached, blocked⟩
  cases read : names v with
  | ok bound =>
    obtain ⟨found, here⟩ := ok_of_reaches reached ⟨bound, read⟩
    exact absurd blocked (not_blocked_of_ok here)
  | error fault => rw [(reaches_of_error read).1]

end Pattern

end LexicalScope
