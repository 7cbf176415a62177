import LexicalScope.Tracking
import LexicalScope.Proofs.Forest
import LexicalScope.Proofs.Nodes
import LexicalScope.Proofs.Recording

/-!
What each call does, said once. Entering a node that can be read records its declarations and then
opens its scope, if it has one, with its parameters; it stops only at a node that cannot be read, or
at names while no scope is open (`enter_fault_none_iff`, `enter_scopes`). Leaving closes the
innermost scope for a node that opened one, the program apart (`leave_scopes`). A property of single
calls is carried along a whole run by `Along`.
-/

namespace LexicalScope

/-! ## One step after another -/

namespace Step

theorem andThen_of_fault {a : Step} {fault : Fault} (failed : a.fault = some fault)
    (next : OpenScopes → Step) : a.andThen next = a := by
  unfold andThen
  rw [failed]

theorem andThen_scopes {a : Step} (fine : a.fault = none) (next : OpenScopes → Step) :
    (a.andThen next).scopes = (next a.scopes).scopes := by
  unfold andThen
  rw [fine]

theorem andThen_fault {a : Step} (fine : a.fault = none) (next : OpenScopes → Step) :
    (a.andThen next).fault = (next a.scopes).fault := by
  unfold andThen
  rw [fine]

theorem andThen_fault_none_iff {a : Step} {next : OpenScopes → Step} :
    (a.andThen next).fault = none ↔ a.fault = none ∧ (next a.scopes).fault = none := by
  cases failed : a.fault with
  | none => simp [andThen_fault failed]
  | some fault => simp [andThen_of_fault failed, failed]

theorem andThen_assoc (a : Step) (second third : OpenScopes → Step) :
    (a.andThen second).andThen third = a.andThen fun s => (second s).andThen third := by
  cases failed : a.fault with
  | some fault => rw [andThen_of_fault failed, andThen_of_fault failed, andThen_of_fault failed]
  | none =>
    unfold andThen
    rw [failed]
    cases later : (second a.scopes).fault <;> simp [later, List.append_assoc]

end Step

namespace OpenScopes

/-! ## Declaring -/

theorem declare_nameless (s : OpenScopes) (v : Value) {d : Declaration} (nameless : d.names = []) :
    s.declare v d = .keep s := by
  simp [declare, nameless]

/-- Without a scope to receive them, names are a fault. -/
theorem declare_nil (v : Value) {d : Declaration} (named : d.names ≠ []) :
    declare [] v d = .fail [] (Fault.locating .undeclarable v) := by
  simp [declare, named]

theorem declare_fault (s : OpenScopes) (v : Value) (d : Declaration)
    (allowed : s = [] → d.names = []) : (s.declare v d).fault = none := by
  by_cases nameless : d.names = []
  · rw [declare_nameless s v nameless]
    rfl
  · have opened : s ≠ [] := fun closed => nameless (allowed closed)
    have receiver := List.getElem?_eq_getElem (d.target.distance_lt opened)
    simp [declare, nameless, receiver]

theorem declare_scopes (s : OpenScopes) (v : Value) (d : Declaration) :
    (s.declare v d).scopes = s.receive d := by
  by_cases nameless : d.names = []
  · rw [declare_nameless s v nameless, receive_nameless s nameless]
    rfl
  · by_cases closed : s = []
    · rw [closed, declare_nil v nameless, receive_nil]
      rfl
    · have receiver := List.getElem?_eq_getElem (d.target.distance_lt closed)
      simp [declare, nameless, receiver, receive]

theorem declareOutside_scopes (s : OpenScopes) (v : Value) :
    (s.declareOutside v).scopes = s.receiveAll v.declared := by
  unfold declareOutside Value.declared
  cases read : v.declaration? with
  | error fault => rfl
  | ok d =>
    cases d with
    | none => rfl
    | some d => exact declare_scopes s v d

theorem declareOutside_fault_none_iff (s : OpenScopes) (v : Value) :
    (s.declareOutside v).fault = none ↔
      (∃ d, v.declaration? = .ok d) ∧ (s = [] → v.declaredNames = []) := by
  unfold declareOutside Value.declaredNames Value.declared
  cases read : v.declaration? with
  | error fault => simp [Step.fail]
  | ok d =>
    cases d with
    | none => simp [Step.keep]
    | some d =>
      by_cases allowed : s = [] → d.names = []
      · simpa [declare_fault s v d allowed] using allowed
      · obtain ⟨closed, named⟩ := Classical.not_imp.mp allowed
        simp [closed, declare_nil v named, Step.fail, named]

/-! ## Opening a scope -/

theorem declareOwn_scopes (scope : Scope) (s : OpenScopes) (v : Value) :
    (declareOwn (scope :: s) v).scopes = scope.defineAll v.parameters :: s := by
  unfold declareOwn Value.parameters
  cases own : v.ownNames with
  | error fault => rfl
  | ok names => exact declare_scopes (scope :: s) v ⟨names, .own⟩

theorem openScope_scopes (s : OpenScopes) (v : Value) :
    (s.openScope v).scopes =
      match v.opens with
      | none => s
      | some kind => (Scope.empty (kind = .block)).defineAll v.parameters :: s := by
  unfold openScope
  cases known : v.scopeKind? with
  | error fault =>
    have hidden : v.opens = none := by
      rw [Value.scopeKind?_eq] at known
      split at known
      · rename_i composite
        rw [Value.opens, Value.nodeType_of_composite composite]
        rfl
      · cases known
    rw [hidden]
    rfl
  | ok kind =>
    rw [Value.opens_of_scopeKind? known]
    cases kind with
    | none => rfl
    | some kind =>
      dsimp only
      rw [Step.andThen_scopes rfl]
      exact declareOwn_scopes _ s v

theorem openScope_fault_none_iff (s : OpenScopes) (v : Value) :
    (s.openScope v).fault = none ↔
      (∃ kind, v.scopeKind? = .ok kind) ∧ ∃ names, v.ownNames = .ok names := by
  unfold openScope
  cases known : v.scopeKind? with
  | error fault => simp [Step.fail]
  | ok kind =>
    cases kind with
    | none => simp [Step.keep, Value.ownNames_of_opens_none known]
    | some kind =>
      have opened : (s.push v kind).scopes ≠ [] := List.cons_ne_nil _ _
      dsimp only
      rw [Step.andThen_fault rfl, declareOwn]
      cases own : v.ownNames with
      | error fault => simp [Step.fail]
      | ok names => simp [declare_fault _ v ⟨names, .own⟩ (fun closed => absurd closed opened)]

/-! ## Entering -/

/-- Entering succeeds exactly when the node can be read and no name lacks a scope. -/
theorem enter_fault_none_iff (s : OpenScopes) (v : Value) :
    (s.enter v).fault = none ↔ v.Readable ∧ (s = [] → v.declaredNames = []) := by
  rw [enter, Step.andThen_fault_none_iff, declareOutside_fault_none_iff, openScope_fault_none_iff]
  constructor
  · rintro ⟨⟨declaration, allowed⟩, kind, own⟩
    exact ⟨⟨kind, declaration, own⟩, allowed⟩
  · rintro ⟨⟨kind, declaration, own⟩, allowed⟩
    exact ⟨⟨declaration, allowed⟩, kind, own⟩

/-- The scopes after a node has been entered. -/
theorem enter_scopes {s : OpenScopes} {v : Value} (done : (s.enter v).fault = none) :
    (s.enter v).scopes =
      match v.opens with
      | none => s.receiveAll v.declared
      | some kind =>
        (Scope.empty (kind = .block)).defineAll v.parameters :: s.receiveAll v.declared := by
  obtain ⟨outside, _⟩ := Step.andThen_fault_none_iff.mp done
  rw [enter, Step.andThen_scopes outside, openScope_scopes, declareOutside_scopes]

theorem enter_scopes_of_closed {s : OpenScopes} {v : Value} (simple : v.opens = none)
    (done : (s.enter v).fault = none) : (s.enter v).scopes = s.receiveAll v.declared := by
  rw [enter_scopes done, simple]

theorem enter_scopes_of_opens {s : OpenScopes} {v : Value} {kind : ScopeKind}
    (opens : v.opens = some kind) (done : (s.enter v).fault = none) :
    (s.enter v).scopes =
      (Scope.empty (kind = .block)).defineAll v.parameters :: s.receiveAll v.declared := by
  rw [enter_scopes done, opens]

theorem enter_scopes_ne_nil {s : OpenScopes} {v : Value} (opened : s ≠ [])
    (entered : (s.enter v).fault = none) : (s.enter v).scopes ≠ [] := by
  rw [enter_scopes entered]
  split
  · exact receiveAll_ne_nil opened _
  · exact List.cons_ne_nil _ _

theorem blocks_enter {s : OpenScopes} {v : Value} (entered : (s.enter v).fault = none) :
    (s.enter v).scopes.blocks = (v.opens.map fun kind => decide (kind = .block)).toList ++ s.blocks := by
  rw [enter_scopes entered]
  cases v.opens <;> simp

theorem length_enter {s : OpenScopes} {v : Value} (entered : (s.enter v).fault = none) :
    (s.enter v).scopes.length = s.length + if v.opens.isSome then 1 else 0 := by
  rw [enter_scopes entered]
  cases v.opens <;> simp

/-- Names while no scope is open stop the call, and nothing is open after it. -/
theorem enter_undeclarable {v : Value} (readable : v.Readable) (named : v.declaredNames ≠ []) :
    (enter [] v).fault = some (Fault.locating .undeclarable v) := by
  obtain ⟨d, read⟩ := readable.declaration
  cases d with
  | none => simp [Value.declaredNames, Value.declared, read] at named
  | some d =>
    have nonempty : d.names ≠ [] := by simpa [Value.declaredNames, Value.declared, read] using named
    have outside : declareOutside [] v = .fail [] (Fault.locating .undeclarable v) := by
      rw [declareOutside, read]
      exact declare_nil v nonempty
    rw [enter, Step.andThen_of_fault (by rw [outside]; rfl), outside]
    rfl

/-! ## Leaving -/

/-- Leaving a node that was entered fails only where it would close the last scope. -/
theorem leave_fault (s : OpenScopes) {v : Value} (readable : v.Readable) :
    (s.leave v).fault =
      if v.closes = true ∧ s.length < 2 then some (Fault.locating .unbalanced v) else none := by
  unfold leave
  rw [readable.scopeKind?]
  cases kind : v.opens with
  | none => simp [Value.closes, kind, Step.keep]
  | some kind =>
    by_cases program : v.nodeType = .program
    · simp [Value.closes, program, Step.keep]
    · match s with
      | [] => simp [Value.closes, kind, program, pop, Step.fail]
      | [_] => simp [Value.closes, kind, program, pop, Step.fail]
      | _ :: _ :: _ => simp [program, pop]

theorem leave_scopes_of_stays (s : OpenScopes) {v : Value} (stays : v.closes = false) :
    (s.leave v).scopes = s := by
  unfold leave
  cases known : v.scopeKind? with
  | error fault => rfl
  | ok kind =>
    cases kind with
    | none => rfl
    | some kind =>
      have program : v.nodeType = .program := by
        simpa [Value.closes, Value.opens_of_scopeKind? known] using stays
      simp [program, Step.keep]

theorem leave_scopes_of_closes (scope : Scope) {s : OpenScopes} (opened : s ≠ []) {v : Value}
    (readable : v.Readable) (closes : v.closes = true) : (leave (scope :: s) v).scopes = s := by
  obtain ⟨next, rest, rfl⟩ := List.exists_cons_of_ne_nil opened
  obtain ⟨kind, program⟩ : v.opens.isSome = true ∧ ¬ v.nodeType = .program := by
    simpa [Value.closes] using closes
  obtain ⟨kind, known⟩ := Option.isSome_iff_exists.mp kind
  simp [leave, readable.scopeKind?, known, program, pop]

/-- Where enough scopes are open, leaving a node takes back what entering it added. -/
theorem length_leave (s : OpenScopes) {v : Value} (readable : v.Readable)
    (enough : v.closes = true → 2 ≤ s.length) :
    (s.leave v).fault = none ∧ (s.leave v).scopes.length = s.length - if v.closes then 1 else 0 := by
  cases closes : v.closes with
  | false =>
    rw [leave_fault s readable, leave_scopes_of_stays s closes, closes]
    simp
  | true =>
    have two := enough closes
    rw [leave_fault s readable, closes]
    match s, two with
    | scope :: next :: rest, _ =>
      rw [leave_scopes_of_closes scope (List.cons_ne_nil next rest) readable closes]
      simp

/-! ## Runs -/

theorem run_cons (s : OpenScopes) (event : Event) (rest : List Event) :
    s.run (event :: rest) = (s.step event).andThen (run · rest) := rfl

theorem run_append (s : OpenScopes) (first second : List Event) :
    s.run (first ++ second) = (s.run first).andThen (run · second) := by
  induction first generalizing s with
  | nil => simp [run, Step.keep, Step.andThen]
  | cons event rest ih =>
    rw [List.cons_append, run_cons, run_cons, Step.andThen_assoc]
    congr 1
    funext t
    exact ih t

/-- A node is entered, what is below it run, the node left, and then the rest run. -/
theorem run_node (s : OpenScopes) (v : Value) (below rest : Forest) :
    s.run (Forest.node v below rest).events =
      (s.enter v).andThen fun entered => (entered.run below.events).andThen fun inside =>
        (inside.leave v).andThen fun left => left.run rest.events := by
  rw [Forest.events_node, run_cons]
  congr 1
  funext entered
  rw [run_append]
  rfl

theorem run_node_fault_none {s : OpenScopes} {v : Value} {below rest : Forest}
    (done : (s.run (Forest.node v below rest).events).fault = none) :
    (s.enter v).fault = none ∧ ((s.enter v).scopes.run below.events).fault = none ∧
      (((s.enter v).scopes.run below.events).scopes.leave v).fault = none ∧
      ((((s.enter v).scopes.run below.events).scopes.leave v).scopes.run rest.events).fault = none := by
  rw [run_node] at done
  obtain ⟨entered, inside⟩ := Step.andThen_fault_none_iff.mp done
  obtain ⟨inside, left⟩ := Step.andThen_fault_none_iff.mp inside
  obtain ⟨left, later⟩ := Step.andThen_fault_none_iff.mp left
  exact ⟨entered, inside, left, later⟩

/-- Once a node is left without a fault, the run goes on with the rest. -/
theorem run_node_of_left {s : OpenScopes} {v : Value} {below : Forest}
    (entered : (s.enter v).fault = none) (inside : ((s.enter v).scopes.run below.events).fault = none)
    (left : (((s.enter v).scopes.run below.events).scopes.leave v).fault = none) (rest : Forest) :
    (s.run (Forest.node v below rest).events).fault =
        ((((s.enter v).scopes.run below.events).scopes.leave v).scopes.run rest.events).fault ∧
      (s.run (Forest.node v below rest).events).scopes =
        ((((s.enter v).scopes.run below.events).scopes.leave v).scopes.run rest.events).scopes := by
  rw [run_node, Step.andThen_scopes entered, Step.andThen_scopes inside, Step.andThen_scopes left,
    Step.andThen_fault entered, Step.andThen_fault inside, Step.andThen_fault left]
  exact ⟨rfl, rfl⟩

theorem run_take_fault_none {s : OpenScopes} {events : List Event} (done : (s.run events).fault = none)
    (i : Nat) : (s.run (events.take i)).fault = none := by
  rw [← List.take_append_drop i events, run_append] at done
  exact (Step.andThen_fault_none_iff.mp done).1

/-- What stops the run below a node stops the run. -/
theorem run_node_of_stopped {s : OpenScopes} {v : Value} {below : Forest} {fault : Fault}
    (entered : (s.enter v).fault = none)
    (stopped : ((s.enter v).scopes.run below.events).fault = some fault) (rest : Forest) :
    (s.run (Forest.node v below rest).events).fault = some fault := by
  rw [run_node, Step.andThen_fault entered, Step.andThen_of_fault stopped, stopped]

/-- A node that cannot be left stops the run. -/
theorem run_node_of_unleft {s : OpenScopes} {v : Value} {below : Forest} {fault : Fault}
    (entered : (s.enter v).fault = none) (inside : ((s.enter v).scopes.run below.events).fault = none)
    (unleft : (((s.enter v).scopes.run below.events).scopes.leave v).fault = some fault) (rest : Forest) :
    (s.run (Forest.node v below rest).events).fault = some fault := by
  rw [run_node, Step.andThen_fault entered, Step.andThen_fault inside, Step.andThen_of_fault unleft,
    unleft]

/-- One event more, when nothing stops it. -/
theorem run_take_succ {s : OpenScopes} {events : List Event} {i : Nat} {event : Event}
    (here : events[i]? = some event) (done : (s.run (events.take (i + 1))).fault = none) :
    (s.run (events.take i)).fault = none ∧ ((s.run (events.take i)).scopes.step event).fault = none ∧
      (s.run (events.take (i + 1))).scopes = ((s.run (events.take i)).scopes.step event).scopes := by
  have cut : events.take (i + 1) = events.take i ++ [event] := by
    rw [List.take_add_one, here]
    rfl
  rw [cut, run_append] at done ⊢
  obtain ⟨before, last⟩ := Step.andThen_fault_none_iff.mp done
  rw [run_cons] at last
  obtain ⟨stepped, _⟩ := Step.andThen_fault_none_iff.mp last
  refine ⟨before, stepped, ?_⟩
  rw [Step.andThen_scopes before, run_cons, Step.andThen_scopes stepped]
  rfl

/-- The property holds at every moment reached, of the scopes open before it. -/
def Along (P : OpenScopes → Moment → Prop) (s : OpenScopes) : List Moment → Prop
  | [] => True
  | m :: rest => P s m ∧ ((s.step m.event).fault = none → Along P (s.step m.event).scopes rest)

theorem along_append {P : OpenScopes → Moment → Prop} {s : OpenScopes} {first second : List Moment} :
    Along P s (first ++ second) ↔
      Along P s first ∧ ((s.run (first.map Moment.event)).fault = none →
        Along P (s.run (first.map Moment.event)).scopes second) := by
  induction first generalizing s with
  | nil => simp [Along, run, Step.keep]
  | cons m rest ih =>
    rw [List.cons_append, Along, Along, List.map_cons, run_cons, ih, Step.andThen_fault_none_iff]
    constructor
    · rintro ⟨here, later⟩
      refine ⟨⟨here, fun fine => (later fine).1⟩, ?_⟩
      rintro ⟨fine, reached⟩
      rw [Step.andThen_scopes fine]
      exact (later fine).2 reached
    · rintro ⟨⟨here, inner⟩, outer⟩
      refine ⟨here, fun fine => ⟨inner fine, fun reached => ?_⟩⟩
      have end_ := outer ⟨fine, reached⟩
      rwa [Step.andThen_scopes fine] at end_

theorem along_node {P : OpenScopes → Moment → Prop} {s : OpenScopes} {v : Value} {below rest : Forest}
    {around : List Value} :
    Along P s ((Forest.node v below rest).moments around) ↔
      P s ⟨.enter, v, around⟩ ∧ ((s.enter v).fault = none →
        Along P (s.enter v).scopes (below.moments (v :: around)) ∧
          (((s.enter v).scopes.run below.events).fault = none →
            P ((s.enter v).scopes.run below.events).scopes ⟨.leave, v, around⟩ ∧
              ((((s.enter v).scopes.run below.events).scopes.leave v).fault = none →
                Along P (((s.enter v).scopes.run below.events).scopes.leave v).scopes
                  (rest.moments around)))) := by
  rw [Forest.moments, Along, along_append, Forest.moments_map_event]
  rfl

/-- What holds along a run holds at each of its moments that is reached. -/
theorem Along.at {P : OpenScopes → Moment → Prop} {s : OpenScopes} {ms : List Moment}
    (along : Along P s ms) {i : Nat} {m : Moment} (here : ms[i]? = some m)
    (reached : (s.run ((ms.map Moment.event).take i)).fault = none) :
    P (s.run ((ms.map Moment.event).take i)).scopes m := by
  have cut : ms = ms.take i ++ m :: ms.drop (i + 1) := by
    obtain ⟨inside, rfl⟩ := List.getElem?_eq_some_iff.mp here
    rw [← List.drop_eq_getElem_cons inside, List.take_append_drop]
  rw [cut, along_append] at along
  rw [← List.map_take] at reached ⊢
  exact (along.2 reached).1

/-- The same for the events of a tree. -/
theorem Along.at_trace {P : OpenScopes → Moment → Prop} {s : OpenScopes} {tree : Value}
    (along : Along P s (Walk.moments tree)) {i : Nat} {m : Moment}
    (here : (Walk.moments tree)[i]? = some m)
    (reached : (s.run ((Walk.trace tree).take i)).fault = none) :
    P (s.run ((Walk.trace tree).take i)).scopes m := by
  rw [Walk.trace_eq_moments] at reached ⊢
  exact along.at here reached

/-! ## The program -/

/-- Entering a program opens the only scope that nothing closes. -/
theorem enter_program {tree : Value} (program : tree.nodeType = .program) :
    (enter [] tree).fault = none ∧ (enter [] tree).scopes = [Scope.empty false] := by
  obtain ⟨readable, declared, parameters, opens⟩ := Value.readable_of_program program
  have entered : (enter [] tree).fault = none := by
    rw [enter_fault_none_iff]
    exact ⟨readable, fun _ => by rw [Value.declaredNames, declared]; rfl⟩
  refine ⟨entered, ?_⟩
  rw [enter_scopes_of_opens opens entered, declared, parameters]
  rfl

theorem leave_program {tree : Value} (program : tree.nodeType = .program) (s : OpenScopes) :
    (s.leave tree).fault = none ∧ (s.leave tree).scopes = s := by
  have stays : tree.closes = false := by simp [Value.closes, program]
  refine ⟨?_, leave_scopes_of_stays s stays⟩
  rw [leave_fault s (Value.readable_of_program program).1, stays]
  simp

/-- A tree whose root is a program: its scope is opened, and the rest is run in it. -/
theorem walk_program {tree : Value} (program : tree.nodeType = .program) :
    (walk [] tree).fault = (run [Scope.empty false] (Walk.below tree).events).fault ∧
      (walk [] tree).scopes = (run [Scope.empty false] (Walk.below tree).events).scopes := by
  obtain ⟨entered, scopes⟩ := enter_program program
  have typed := Value.hasField_of_program program
  rw [walk, Walk.trace_eq_events, Walk.forest_node typed, run_node, Step.andThen_fault entered,
    Step.andThen_scopes entered, scopes]
  cases inside : (run [Scope.empty false] (Walk.below tree).events).fault with
  | some fault =>
    rw [Step.andThen_of_fault inside]
    exact ⟨inside, rfl⟩
  | none =>
    obtain ⟨left, stays⟩ := leave_program program (run [Scope.empty false] (Walk.below tree).events).scopes
    rw [Step.andThen_fault inside, Step.andThen_scopes inside, Step.andThen_fault left,
      Step.andThen_scopes left, stays]
    exact ⟨rfl, rfl⟩

end OpenScopes

end LexicalScope
