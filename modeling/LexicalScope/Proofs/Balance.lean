import LexicalScope.Proofs.Encapsulation

/-!
When a walk that starts with nothing open calls the hooks out of turn. Once a scope is open no call
fails for want of one, and the number of open scopes grows by the programs visited, for the scope of
a program is never closed (`run_depth`). So everything is decided at the first visited node that has
names to declare or a scope to open: names find no scope, and a scope that no program keeps company
cannot be closed (`walk_outOfTurn_iff`).
-/

namespace LexicalScope

namespace Value

def isProgram (v : Value) : Bool := v.nodeType = .program

/-- The node opens a scope, or has names to declare. -/
def binds (v : Value) : Bool := v.opens.isSome || !v.declaredNames.isEmpty

/-- The location of a node and the start of its location are objects, where they are present. -/
structure Located (v : Value) : Prop where
  location : (v.field "loc").isAbsent = true ∨ (v.field "loc").isObject = true
  start : ((v.field "loc").field "start").isAbsent = true ∨
    ((v.field "loc").field "start").isObject = true

/-- With nothing open, the node calls the hooks out of turn: it has names to declare, or it opens a
    scope that it cannot close, not being a program and having none below it. -/
def Strands (v : Value) : Prop :=
  v.declaredNames ≠ [] ∨
    v.opens.isSome = true ∧ v.nodeType ≠ .program ∧
      ∀ w ∈ Walk.visited v, w.nodeType ≠ .program

/-- Every scope is that of a program, or is closed again. -/
theorem scopes_count (v : Value) :
    (if v.opens.isSome then 1 else 0) =
      (if v.closes then 1 else 0) + (if v.isProgram then 1 else 0) := by
  by_cases program : v.nodeType = .program
  · have opens := (readable_of_program program).2.2.2
    simp [closes, isProgram, program, opens]
  · simp [closes, isProgram, program]

/-- Without names, a node is stranded when it closes its scope and no program stands below it. -/
theorem strands_iff {v : Value} {below : List Value} (visited : Walk.visited v = v :: below)
    (nameless : v.declaredNames = []) :
    v.Strands ↔ v.closes = true ∧ below.countP isProgram = 0 := by
  rw [Strands, visited, List.countP_eq_zero]
  simp only [nameless, ne_eq, not_true_eq_false, false_or, closes, isProgram, Bool.and_eq_true,
    decide_eq_true_eq, List.mem_cons, forall_eq_or_imp]
  constructor
  · rintro ⟨scope, ordinary, _, others⟩
    exact ⟨⟨scope, ordinary⟩, others⟩
  · rintro ⟨⟨scope, ordinary⟩, others⟩
    exact ⟨scope, ordinary, ordinary, others⟩

theorem binds_of_isProgram {v : Value} (program : v.isProgram = true) : v.binds = true := by
  have type : v.nodeType = .program := of_decide_eq_true program
  rw [binds, (readable_of_program type).2.2.2]
  rfl

end Value

theorem Forest.countP_of_unbound {f : Forest} (unbound : f.nodes.find? Value.binds = none) :
    f.nodes.countP Value.isProgram = 0 := by
  rw [List.countP_eq_zero]
  intro v member program
  exact List.find?_eq_none.mp unbound v member (Value.binds_of_isProgram program)

namespace Position

/-- A location that cannot be read is the only obstacle to reading a place. -/
theorem ofNode?_cases (v : Value) :
    (v.Located ∧ ∃ position, ofNode? v = .ok position) ∨
      (¬ v.Located ∧ ofNode? v = .error .notAnObject) := by
  unfold ofNode?
  dsimp only
  split
  · rename_i bad
    refine .inr ⟨?_, rfl⟩
    rintro ⟨location, _⟩
    rcases location with h | h <;> simp [h] at bad
  · rename_i location
    split
    · rename_i bad
      refine .inr ⟨?_, rfl⟩
      rintro ⟨_, start⟩
      rcases start with h | h <;> simp [h] at bad
    · rename_i start
      refine .inl ⟨⟨?_, ?_⟩, ?_⟩
      · simpa [Classical.or_iff_not_imp_left] using location
      · simpa [Classical.or_iff_not_imp_left] using start
      · split <;> exact ⟨_, rfl⟩

end Position

namespace Fault

/-- The faults of hooks called out of turn, at a node. -/
inductive OutOfTurn (node : Value) : Fault → Prop where
  | undeclarable (position : Option Position) : OutOfTurn node (.undeclarable node position)
  | unbalanced (position : Option Position) : OutOfTurn node (.unbalanced node position)

theorem locating_of_located {v : Value} (located : v.Located)
    (fault : Value → Option Position → Fault) : ∃ position, locating fault v = fault v position := by
  rcases Position.ofNode?_cases v with ⟨_, position, read⟩ | ⟨unlocated, _⟩
  · exact ⟨position, by rw [locating, read]⟩
  · exact absurd located unlocated

end Fault

/-- A block around a program. -/
def Sample.enclosing : Value := block [.obj [("type", .str "Program")]]

namespace OpenScopes

/-! ## Depth -/

/-- With a scope open, readable nodes are run without a fault, and each program adds a scope. -/
theorem run_depth {f : Forest} (readable : ∀ v ∈ f.nodes, v.Readable) {s : OpenScopes} (opened : s ≠ []) :
    (s.run f.events).fault = none ∧
      (s.run f.events).scopes.length = s.length + f.nodes.countP Value.isProgram := by
  induction f generalizing s with
  | nil => exact ⟨rfl, rfl⟩
  | node v below rest ihBelow ihRest =>
    obtain ⟨here, beneath, after⟩ := Forest.forall_nodes_node.mp readable
    have entered := (enter_fault_none_iff s v).mpr ⟨here, fun closed => absurd closed opened⟩
    have positive : 0 < s.length := List.length_pos_iff.mpr opened
    obtain ⟨inside, depth⟩ := ihBelow beneath (enter_scopes_ne_nil opened entered)
    rw [length_enter entered] at depth
    have count := v.scopes_count
    have enough : v.closes = true → 2 ≤ ((s.enter v).scopes.run below.events).scopes.length := by
      intro closes
      rw [if_pos closes] at count
      omega
    obtain ⟨left, shorter⟩ := length_leave _ here enough
    have still : (((s.enter v).scopes.run below.events).scopes.leave v).scopes ≠ [] := by
      rw [← List.length_pos_iff]
      omega
    obtain ⟨later, further⟩ := ihRest after still
    obtain ⟨fault, scopes⟩ := run_node_of_left entered inside left rest
    rw [fault, scopes, Forest.nodes, List.countP_cons, List.countP_append]
    exact ⟨later, by omega⟩

/-! ## The first binding node -/

/-- How a forest ends that is run with nothing open: nothing in it binds, its first binding node is
    stranded, or a program has left a scope open. -/
inductive Ending (f : Forest) (outcome : Step) : Prop where
  | nothing (unbound : f.nodes.find? Value.binds = none) (fine : outcome.fault = none)
      (closed : outcome.scopes = [])
  | stranded (first : Value) (found : f.nodes.find? Value.binds = some first)
      (strands : first.Strands) (fault : Fault) (failed : outcome.fault = some fault)
      (turn : Fault.OutOfTurn first fault)
  | settled (first : Value) (found : f.nodes.find? Value.binds = some first)
      (safe : ¬ first.Strands) (fine : outcome.fault = none) (opened : outcome.scopes ≠ [])
      (depth : outcome.scopes.length = f.nodes.countP Value.isProgram)

/-- A node that declares nothing and opens nothing is as if it were not there. -/
theorem ending_of_unbound {v : Value} {below rest : Forest} (readable : v.Readable)
    (readableRest : ∀ w ∈ rest.nodes, w.Readable) (unbound : v.binds = false)
    (endBelow : Ending below (run [] below.events)) (endRest : Ending rest (run [] rest.events)) :
    Ending (.node v below rest) (run [] (Forest.node v below rest).events) := by
  obtain ⟨opens, nameless⟩ : v.opens = none ∧ v.declaredNames = [] := by
    simpa [Value.binds] using unbound
  have ordinary : v.isProgram = false := by
    cases program : v.isProgram with
    | false => rfl
    | true => rw [Value.binds_of_isProgram program] at unbound; cases unbound
  have stays : v.closes = false := by simp [Value.closes, opens]
  have entered : (enter [] v).fault = none := (enter_fault_none_iff [] v).mpr ⟨readable, fun _ => nameless⟩
  have empty : (enter [] v).scopes = [] := by
    rw [← List.length_eq_zero_iff, length_enter entered, opens]
    rfl
  have left (s : OpenScopes) := length_leave s readable (by simp [stays])
  have found : (Forest.node v below rest).nodes.find? Value.binds =
      (below.nodes.find? Value.binds).or (rest.nodes.find? Value.binds) := by
    simp [Forest.nodes, unbound, List.find?_append]
  have counted : (Forest.node v below rest).nodes.countP Value.isProgram =
      below.nodes.countP Value.isProgram + rest.nodes.countP Value.isProgram := by
    simp [Forest.nodes, ordinary]
  cases endBelow with
  | nothing absent fine closed =>
    have inside : (run (enter [] v).scopes below.events).fault = none := by rw [empty]; exact fine
    obtain ⟨fault, scopes⟩ := run_node_of_left entered inside (left _).1 rest
    rw [empty, leave_scopes_of_stays _ stays, closed] at fault scopes
    rw [absent, Option.none_or] at found
    rw [Forest.countP_of_unbound absent, Nat.zero_add] at counted
    cases endRest with
    | nothing absent fine closed =>
      exact .nothing (found.trans absent) (fault.trans fine) (scopes.trans closed)
    | stranded first here strands cause failed turn =>
      exact .stranded first (found.trans here) strands cause (fault.trans failed) turn
    | settled first here safe fine opened depth =>
      refine .settled first (found.trans here) safe (fault.trans fine) ?_ ?_
      · rw [scopes]
        exact opened
      · rw [scopes, counted]
        exact depth
  | stranded first here strands cause failed turn =>
    rw [here, Option.some_or] at found
    have stopped := run_node_of_stopped entered (by rw [empty]; exact failed) rest
    exact .stranded first found strands cause stopped turn
  | settled first here safe fine opened depth =>
    have inside : (run (enter [] v).scopes below.events).fault = none := by rw [empty]; exact fine
    obtain ⟨fault, scopes⟩ := run_node_of_left entered inside (left _).1 rest
    rw [empty, leave_scopes_of_stays _ stays] at fault scopes
    rw [here, Option.some_or] at found
    obtain ⟨later, further⟩ := run_depth readableRest opened
    have more : 0 < (run [] below.events).scopes.length := List.length_pos_iff.mpr opened
    refine .settled first found safe (fault.trans later) ?_ ?_
    · rw [scopes, ← List.length_pos_iff]
      omega
    · rw [scopes, counted, further, depth]

/-- A node that declares nothing but opens a scope decides how the run ends. -/
theorem ending_of_scope {v : Value} {below rest : Forest} (faithful : (Forest.node v below rest).Faithful)
    (readable : ∀ w ∈ (Forest.node v below rest).nodes, w.Readable) (located : v.Located)
    (nameless : v.declaredNames = []) (opens : v.opens.isSome = true) :
    Ending (.node v below rest) (run [] (Forest.node v below rest).events) := by
  obtain ⟨here, beneath, after⟩ := Forest.forall_nodes_node.mp readable
  have entered : (enter [] v).fault = none := (enter_fault_none_iff [] v).mpr ⟨here, fun _ => nameless⟩
  have one := length_enter entered
  rw [if_pos opens, List.length_nil] at one
  obtain ⟨inside, depth⟩ := run_depth beneath
    (List.length_pos_iff.mp (by omega) : (enter [] v).scopes ≠ [])
  have found : (Forest.node v below rest).nodes.find? Value.binds = some v := by
    have binds : v.binds = true := by
      rw [Value.binds, opens]
      rfl
    rw [Forest.nodes, List.find?_cons_of_pos binds]
  have visited : Walk.visited v = v :: below.nodes := by
    rw [Walk.visited_eq_nodes, faithful.forest_first, Forest.nodes, Forest.nodes, List.append_nil]
  have count := v.scopes_count
  rw [if_pos opens] at count
  by_cases strands : v.Strands
  · obtain ⟨closes, lonely⟩ := (Value.strands_iff visited nameless).mp strands
    have unleft := leave_fault (run (enter [] v).scopes below.events).scopes here
    obtain ⟨position, located⟩ := Fault.locating_of_located located .unbalanced
    rw [if_pos ⟨closes, by omega⟩, located] at unleft
    exact .stranded v found strands _ (run_node_of_unleft entered inside unleft rest) (.unbalanced position)
  · have company : v.closes = true → below.nodes.countP Value.isProgram ≠ 0 := by
      intro closes lonely
      exact strands ((Value.strands_iff visited nameless).mpr ⟨closes, lonely⟩)
    obtain ⟨left, shorter⟩ := length_leave (run (enter [] v).scopes below.events).scopes here
      (fun closes => by have := company closes; omega)
    have length : ((run (enter [] v).scopes below.events).scopes.leave v).scopes.length =
        below.nodes.countP Value.isProgram + if v.isProgram then 1 else 0 := by omega
    have still : ((run (enter [] v).scopes below.events).scopes.leave v).scopes ≠ [] := by
      rw [← List.length_pos_iff, length]
      cases closes : v.closes with
      | true => have := company closes; omega
      | false => simp only [closes, Bool.false_eq_true, if_false] at count; omega
    obtain ⟨later, further⟩ := run_depth after still
    obtain ⟨fault, scopes⟩ := run_node_of_left entered inside left rest
    have counted : (Forest.node v below rest).nodes.countP Value.isProgram =
        below.nodes.countP Value.isProgram + rest.nodes.countP Value.isProgram +
          if v.isProgram then 1 else 0 := by
      rw [Forest.nodes, List.countP_cons, List.countP_append]
    have positive := List.length_pos_iff.mpr still
    refine .settled v found strands (fault.trans later) ?_ ?_
    · rw [scopes, ← List.length_pos_iff]
      omega
    · rw [scopes]
      omega

/-- Every run that starts with nothing open ends in one of the three ways. -/
theorem run_ending {f : Forest} (faithful : f.Faithful) (readable : ∀ v ∈ f.nodes, v.Readable)
    (located : ∀ v ∈ f.nodes, v.Located) : Ending f (run [] f.events) := by
  induction f with
  | nil => exact .nothing rfl rfl rfl
  | node v below rest ihBelow ihRest =>
    obtain ⟨readableHere, readableBelow, readableRest⟩ := Forest.forall_nodes_node.mp readable
    obtain ⟨locatedHere, locatedBelow, locatedRest⟩ := Forest.forall_nodes_node.mp located
    by_cases nameless : v.declaredNames = []
    · cases opens : v.opens.isSome with
      | true => exact ending_of_scope faithful readable locatedHere nameless opens
      | false =>
        have unbound : v.binds = false := by
          rw [Value.binds, opens, nameless]
          rfl
        obtain ⟨_, _, inner, later⟩ := faithful
        have endBelow := ihBelow inner readableBelow locatedBelow
        have endRest := ihRest later readableRest locatedRest
        exact ending_of_unbound readableHere readableRest unbound endBelow endRest
    · have found : (Forest.node v below rest).nodes.find? Value.binds = some v := by
        rw [Forest.nodes, List.find?_cons_of_pos]
        simp [Value.binds, nameless]
      have stopped := enter_undeclarable readableHere nameless
      obtain ⟨position, located⟩ := Fault.locating_of_located locatedHere .undeclarable
      rw [located] at stopped
      have failed : (run [] (Forest.node v below rest).events).fault = some (.undeclarable v position) := by
        rw [run_node, Step.andThen_of_fault stopped, stopped]
      exact .stranded v found (.inl nameless) _ failed (.undeclarable position)

/-- Balance. Where every visited node can be read and tells its place properly, a walk that starts
    with nothing open stops exactly when its first binding node is stranded, and then because the
    hooks are called out of turn at that node. A walk that does not stop leaves one scope open for
    each program visited. -/
theorem walk_outOfTurn_iff {tree : Value} (readable : ∀ v ∈ Walk.visited tree, v.Readable)
    (located : ∀ v ∈ Walk.visited tree, v.Located) :
    ((∃ fault node, (walk [] tree).fault = some fault ∧ Fault.OutOfTurn node fault) ↔
        ∃ first, (Walk.visited tree).find? Value.binds = some first ∧ first.Strands) ∧
      (∀ fault, (walk [] tree).fault = some fault →
        ∃ first, (Walk.visited tree).find? Value.binds = some first ∧ Fault.OutOfTurn first fault) ∧
      ((walk [] tree).fault = none →
        (walk [] tree).scopes.length = (Walk.visited tree).countP Value.isProgram) := by
  rw [walk, Walk.trace_eq_events]
  rw [Walk.visited_eq_nodes] at readable located ⊢
  cases run_ending (Walk.forest_faithful tree) readable located with
  | nothing unbound fine closed =>
    rw [fine, unbound, closed, Forest.countP_of_unbound unbound]
    simp
  | stranded first found strands fault failed turn =>
    rw [failed, found]
    refine ⟨⟨fun _ => ⟨first, rfl, strands⟩, fun _ => ⟨fault, first, rfl, turn⟩⟩, ?_, ?_⟩
    · intro other same
      obtain rfl : fault = other := Option.some.inj same
      exact ⟨first, rfl, turn⟩
    · intro impossible
      cases impossible
  | settled first found safe fine opened depth =>
    rw [fine, found]
    simpa [safe] using depth

/-- The block is left although nothing was open before it: the program below it keeps a scope. -/
theorem sample_balanced :
    (walk [] Sample.enclosing).fault = none ∧ (walk [] Sample.enclosing).scopes.length = 1 := by
  have visited : Walk.visited Sample.enclosing = [Sample.enclosing, .obj [("type", .str "Program")]] := rfl
  have readable : ∀ v ∈ Walk.visited Sample.enclosing, v.Readable := by
    simp only [visited, List.mem_cons, List.not_mem_nil, or_false, forall_eq_or_imp, forall_eq]
    exact ⟨⟨⟨_, rfl⟩, ⟨_, rfl⟩, ⟨_, rfl⟩⟩, ⟨⟨_, rfl⟩, ⟨_, rfl⟩, ⟨_, rfl⟩⟩⟩
  have located : ∀ v ∈ Walk.visited Sample.enclosing, v.Located := by
    simp only [visited, List.mem_cons, List.not_mem_nil, or_false, forall_eq_or_imp, forall_eq]
    exact ⟨⟨.inl rfl, .inl rfl⟩, ⟨.inl rfl, .inl rfl⟩⟩
  have fine : (walk [] Sample.enclosing).fault = none := Option.isNone_iff_eq_none.mp (by decide +kernel)
  exact ⟨fine, (walk_outOfTurn_iff readable located).2.2 fine⟩

end OpenScopes

end LexicalScope
