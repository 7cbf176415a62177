import LexicalScope.Proofs.Encapsulation

/-!
Which scopes are open at a moment of a walk, and what a scope holds when it is closed. A tree whose
only program is its root keeps one open scope for each node on the way from the root that opens one
(`open_flavours`), and a scope ends up with its parameters and the names that the nodes inside its
node declare for it (`closed_scopes`). Both are read off the tree alone: a place tells the visited
nodes around it, and so the nearest of them that opens a scope.
-/

namespace LexicalScope

namespace Value

/-- The node opens a scope. -/
def isScope (v : Value) : Bool := v.opens.isSome

/-- The node opens the scope of a function. -/
def isFunctionScope (v : Value) : Bool := v.opens = some .function

end Value

namespace Place

/-- The nodes on the way from the root to the node of a place. -/
def path (place : Place) : List Value := (place.node :: place.around).reverse

/-- The flavours of the scopes that the nodes on the way to a place open. -/
def flavours (place : Place) : List Bool := (place.path.filterMap Value.opens).map (· = .block)

/-- For a place inside `outer`, with the nodes between the two around it: `outer` is the nearest
    node around the place that has the property. -/
def nearest (outer : Value) (property : Value → Bool) (place : Place) : Bool :=
  property outer && place.around.all fun v => !property v

/-- A declaration made at a place inside `outer` is for the scope of `outer`. -/
def declaresFor (outer : Value) (place : Place) : Target → Bool
  | .current => place.nearest outer Value.isScope
  | .function => place.nearest outer Value.isFunctionScope
  | .outermost => outer.nodeType = .program
  | .own => false

/-- The names declared at a place inside `outer` for the scope of `outer`. -/
def namesFor (outer : Value) (place : Place) : List String :=
  match place.node.declaration? with
  | .ok (some d) => if place.declaresFor outer d.target then d.names else []
  | _ => []

end Place

namespace Walk

/-- The places of the nodes visited strictly inside a node, in order; around each place, the nodes
    between the two. -/
def inside (v : Value) : List Place := (below v).places []

end Walk

/-! ## The names kept by a scope -/

namespace Target

theorem leaves_current (v : Value) : leaves v .current = !v.isScope := by
  unfold leaves Value.isScope
  cases v.opens <;> rfl

theorem leaves_function (v : Value) : leaves v .function = !v.isFunctionScope := by
  unfold leaves Value.isFunctionScope
  cases v.opens with
  | none => rfl
  | some kind => cases kind <;> rfl

end Target

namespace Place

/-- A declaration is for a scope when it goes past all scopes in between, and not past this one; the
    scope of a program is the outermost. -/
theorem declaresFor_eq {outer : Value} {kind : ScopeKind} (opens : outer.opens = some kind)
    (place : Place) {target : Target} (foreign : target ≠ .own) :
    place.declaresFor outer target =
      ((place.around.all fun v => target.leaves v) &&
        (decide (outer.nodeType = .program) || !target.passes (kind = .block))) := by
  have scope : outer.isScope = true := by rw [Value.isScope, opens]; rfl
  cases target with
  | own => exact absurd rfl foreign
  | current =>
    simp only [declaresFor, nearest, scope, Target.leaves_current, Target.passes]
    simp
  | function =>
    have same : outer.isFunctionScope = decide (kind = .function) := by
      rw [Value.isFunctionScope, opens]
      simp
    simp only [declaresFor, nearest, same, Target.leaves_function, Target.passes]
    cases kind with
    | function => simp
    | block =>
      have ordinary : outer.nodeType ≠ .program := by
        intro program
        rw [Value.opens, program] at opens
        cases opens
      simp [ordinary]
  | outermost => simp [declaresFor, Target.leaves_outermost, Target.passes]

end Place

/-- What a scope keeps of the declarations that leave the nodes below it is what these nodes declare
    for it. -/
theorem Forest.kept_names {outer : Value} {kind : ScopeKind} (opens : outer.opens = some kind)
    (f : Forest) :
    (f.escaping.filter fun d =>
        decide (outer.nodeType = .program) || !d.target.passes (kind = .block)).flatMap (·.names) =
      (f.places []).flatMap (Place.namesFor outer) := by
  rw [escaping, escapingFrom, List.filter_flatMap, List.flatMap_assoc]
  congr 1
  funext place
  rw [List.filter_filter]
  unfold Place.namesFor
  cases read : place.node.declaration? with
  | error fault => simp [Value.declared, read]
  | ok d =>
    cases d with
    | none => simp [Value.declared, read]
    | some d =>
      have declared : place.node.declared = [d] := by simp [Value.declared, read]
      have foreign := (Value.declaration?_eq_some_iff.mp read).target_ne_own
      dsimp only
      rw [declared, Place.declaresFor_eq opens place foreign, Bool.and_comm]
      split
      · rename_i passing
        simp [passing]
      · rename_i held
        simp [held]

namespace OpenScopes

/-! ## From single nodes to a whole walk -/

/-- What carries a property `P` of moments through a forest: a property `I` of the open scopes and
    the nodes around them that recordings keep and that entering a node takes inwards. -/
structure Carried (I : OpenScopes → List Value → Prop) (P : OpenScopes → Moment → Prop) : Prop where
  kept : ∀ (s : OpenScopes) around ds, I s around → I (s.receiveAll ds) around
  inward : ∀ (s : OpenScopes) v around, (s.enter v).fault = none → I s around →
    I (s.enter v).scopes (v :: around)
  entering : ∀ (s : OpenScopes) v around, I s around → P s ⟨.enter, v, around⟩
  leaving : ∀ (s : OpenScopes) v around, s ≠ [] → v.nodeType ≠ .program →
    (∀ w ∈ (Walk.below v).nodes, w.nodeType ≠ .program) → (s.enter v).fault = none →
    ((s.enter v).scopes.run (Walk.below v).events).fault = none → I s around →
    P ((s.enter v).scopes.run (Walk.below v).events).scopes ⟨.leave, v, around⟩

theorem Carried.along {I : OpenScopes → List Value → Prop} {P : OpenScopes → Moment → Prop}
    (carried : Carried I P) {f : Forest} (faithful : f.Faithful)
    (ordinary : ∀ v ∈ f.nodes, v.nodeType ≠ .program) {s : OpenScopes} (opened : s ≠ [])
    {around : List Value} (holds : I s around) : Along P s (f.moments around) := by
  induction f generalizing s around with
  | nil => trivial
  | node v below rest ihBelow ihRest =>
    obtain ⟨_, rfl, inner, later⟩ := faithful
    obtain ⟨here, beneath, after⟩ := Forest.forall_nodes_node.mp ordinary
    rw [along_node]
    refine ⟨carried.entering s v around holds, fun entered => ?_⟩
    have nonempty := enter_scopes_ne_nil opened entered
    refine ⟨ihBelow inner beneath nonempty (carried.inward s v around entered holds), fun inside => ?_⟩
    refine ⟨carried.leaving s v around opened here beneath entered inside holds, fun _ => ?_⟩
    rw [visit_scopes opened here entered (run_events nonempty beneath inside)]
    exact ihRest later after (receiveAll_ne_nil opened _) (carried.kept s around _ holds)

/-! ## Below a program -/

/-- What is carried through the nodes below a program holds along the walk of the whole tree. -/
theorem Carried.along_program {I : OpenScopes → List Value → Prop} {P : OpenScopes → Moment → Prop}
    (carried : Carried I P) {tree : Value} (program : tree.nodeType = .program)
    (alone : ∀ v ∈ (Walk.visited tree).tail, v.nodeType ≠ .program)
    (entering : P [] ⟨.enter, tree, []⟩) (start : I [Scope.empty false] [tree])
    (leaving : (run [Scope.empty false] (Walk.below tree).events).fault = none →
      P (run [Scope.empty false] (Walk.below tree).events).scopes ⟨.leave, tree, []⟩) :
    Along P [] (Walk.moments tree) := by
  have typed := Value.hasField_of_program program
  rw [Walk.visited_node typed, List.tail_cons] at alone
  rw [Walk.moments, Walk.forest_node typed, along_node, (enter_program program).2]
  refine ⟨entering, fun _ => ⟨?_, fun inside => ⟨leaving inside, fun _ => trivial⟩⟩⟩
  exact carried.along (Walk.below_faithful tree) alone (List.cons_ne_nil _ _) start

/-- The terminal stack of a program. -/
theorem walk_program_scopes {tree : Value} (program : tree.nodeType = .program)
    (alone : ∀ v ∈ (Walk.visited tree).tail, v.nodeType ≠ .program)
    (done : (run [Scope.empty false] (Walk.below tree).events).fault = none) :
    (run [Scope.empty false] (Walk.below tree).events).scopes =
      [(Scope.empty false).defineAll ((Walk.inside tree).flatMap (Place.namesFor tree))] := by
  obtain ⟨_, _, _, opens⟩ := Value.readable_of_program program
  rw [Walk.visited_node (Value.hasField_of_program program), List.tail_cons] at alone
  rw [run_events (List.cons_ne_nil _ _) alone done, receiveAll_single]
  have kept := Forest.kept_names opens (Walk.below tree)
  rw [List.filter_eq_self.mpr (by simp [program])] at kept
  rw [kept, Walk.inside]

/-! ## Which scopes are open -/

/-- The open scopes are those of the nodes around a moment, its own node included. -/
def Mirrors (s : OpenScopes) (m : Moment) : Prop :=
  match m.phase with
  | .enter => (s.enter m.place.node).fault = none →
    (s.enter m.place.node).scopes.blocks.reverse = m.place.flavours
  | .leave => s.blocks.reverse = m.place.flavours

/-- The flavours of the scopes of nodes, in their order. -/
def flavoursOf (nodes : List Value) : List Bool := (nodes.filterMap Value.opens).map (· = .block)

theorem flavours_eq (v : Value) (around : List Value) :
    Place.flavours ⟨v, around⟩ = (flavoursOf (v :: around)).reverse := by
  rw [Place.flavours, Place.path, List.filterMap_reverse, List.map_reverse, flavoursOf]

theorem blocks_enter_flavours {s : OpenScopes} {v : Value} {around : List Value}
    (entered : (s.enter v).fault = none) (same : s.blocks = flavoursOf around) :
    (s.enter v).scopes.blocks = flavoursOf (v :: around) := by
  rw [blocks_enter entered, same]
  cases opens : v.opens <;> simp [flavoursOf, opens]

theorem mirrors_carried : Carried (fun s around => s.blocks = flavoursOf around) Mirrors := by
  refine ⟨?_, fun s v around entered same => blocks_enter_flavours entered same, ?_, ?_⟩
  · intro s around ds same
    rw [blocks_receiveAll, same]
  · intro s v around same entered
    rw [flavours_eq, blocks_enter_flavours entered same]
  · intro s v around opened ordinary beneath entered inside same
    show (run _ _).scopes.blocks.reverse = _
    -- Everything opened below the node is closed again, and recordings keep the flavours.
    rw [flavours_eq, run_events (enter_scopes_ne_nil opened entered) beneath inside, blocks_receiveAll,
      blocks_enter_flavours entered same]

/-- The open scopes mirror the way from the root. At every moment up to which nothing has gone wrong,
    after entering a node as before leaving it, the flavours of the open scopes, outermost first, are
    those of the nodes that open scopes from the root to this node. After the walk only the scope of
    the program is open. -/
theorem open_flavours {tree : Value} (program : tree.nodeType = .program)
    (alone : ∀ v ∈ (Walk.visited tree).tail, v.nodeType ≠ .program) :
    (∀ i m, (Walk.moments tree)[i]? = some m →
      (Walk.trace tree)[i]? = some m.event ∧
        (m.phase = .enter → (run [] ((Walk.trace tree).take (i + 1))).fault = none →
          (run [] ((Walk.trace tree).take (i + 1))).scopes.blocks.reverse = m.place.flavours) ∧
        (m.phase = .leave → (run [] ((Walk.trace tree).take i)).fault = none →
          (run [] ((Walk.trace tree).take i)).scopes.blocks.reverse = m.place.flavours)) ∧
      ((walk [] tree).fault = none → ∃ scope, (walk [] tree).scopes = [scope] ∧ scope.block = false) := by
  obtain ⟨_, _, _, opens⟩ := Value.readable_of_program program
  have root : Place.flavours ⟨tree, []⟩ = [false] := by simp [flavours_eq, flavoursOf, opens]
  have terminal := walk_program_scopes program alone
  have along : Along Mirrors [] (Walk.moments tree) := by
    apply mirrors_carried.along_program program alone
    · intro _
      rw [root, (enter_program program).2]
      rfl
    · simp [flavoursOf, opens]
    · intro inside
      rw [Mirrors, root, terminal inside]
      simp
  constructor
  · intro i m here
    have event : (Walk.trace tree)[i]? = some m.event := by
      rw [Walk.trace_eq_moments, List.getElem?_map, here]
      rfl
    refine ⟨event, fun entering done => ?_, fun leaving reached => ?_⟩
    · obtain ⟨reached, stepped, scopes⟩ := run_take_succ event done
      have mirrors := along.at_trace here reached
      rw [Mirrors, entering] at mirrors
      have call : (run [] ((Walk.trace tree).take i)).scopes.step m.event =
          (run [] ((Walk.trace tree).take i)).scopes.enter m.place.node := by
        rw [step, Moment.event, entering]
      rw [call] at stepped scopes
      rw [scopes]
      exact mirrors stepped
    · have mirrors := along.at_trace here reached
      rw [Mirrors, leaving] at mirrors
      exact mirrors
  · intro done
    obtain ⟨fault, scopes⟩ := walk_program program
    rw [fault] at done
    rw [scopes, terminal done]
    exact ⟨_, rfl, Scope.block_defineAll _ _⟩

/-- At the declaration in the inner block the program, the function and two blocks are open. -/
theorem sample_flavours :
    (run [] ((Walk.trace Sample.program).take 21)).scopes.blocks.reverse = [false, false, true, true] := by
  have here : (Walk.moments Sample.program)[20]? =
      some ⟨.enter, Sample.declaration "let" "b",
        [Sample.inner, Sample.body, Sample.function, Sample.program]⟩ := rfl
  have reached : (run [] ((Walk.trace Sample.program).take 21)).fault = none :=
    Option.isNone_iff_eq_none.mp (by decide +kernel)
  exact ((open_flavours rfl (by decide)).1 20 _ here).2.1 rfl reached

/-! ## What a scope holds in the end -/

/-- The innermost scope is that of the node, with the names that the tree gives it. -/
def HoldsNames (v : Value) (s : OpenScopes) : Prop :=
  ∀ kind, v.opens = some kind → ∃ own scope outer, v.ownNames = .ok own ∧ s = scope :: outer ∧
    scope.block = decide (kind = .block) ∧
    scope.names = (own ++ (Walk.inside v).flatMap (Place.namesFor v)).eraseDups

theorem holdsNames_carried :
    Carried (fun _ _ => True) fun s m => m.phase = .leave → HoldsNames m.place.node s := by
  refine ⟨fun _ _ _ _ => trivial, fun _ _ _ _ _ => trivial, fun _ _ _ _ impossible => ?_, ?_⟩
  · cases impossible
  · intro s v around opened ordinary beneath entered inside _ _ kind opens
    obtain ⟨readable, _⟩ := (enter_fault_none_iff s v).mp entered
    obtain ⟨own, read⟩ := readable.own
    have outside := receiveAll_ne_nil opened v.declared
    have kept := Forest.kept_names opens (Walk.below v)
    simp only [ordinary, decide_false, Bool.false_or] at kept
    rw [run_events (enter_scopes_ne_nil opened entered) beneath inside,
      enter_scopes_of_opens opens entered, receiveAll_cons _ outside]
    refine ⟨own, _, _, read, rfl, by simp, ?_⟩
    rw [← Scope.defineAll_append, Scope.names_defineAll_empty, Value.parameters_eq read, Walk.inside, ← kept]
    simp

/-- Lexical scoping. In a tree whose only program is its root and that is walked without a fault, the
    innermost scope just before a node is left that opens one is the scope of that node, with its
    parameters and then the names that the nodes inside it declare for it, each where it comes first.
    The scope of the program is the only one left in the end. -/
theorem closed_scopes {tree : Value} (program : tree.nodeType = .program)
    (alone : ∀ v ∈ (Walk.visited tree).tail, v.nodeType ≠ .program)
    (done : (walk [] tree).fault = none) :
    (∀ i v kind, (Walk.trace tree)[i]? = some ⟨.leave, v⟩ → v.scopeKind? = .ok (some kind) →
      ∃ own scope outer, v.ownNames = .ok own ∧
        (run [] ((Walk.trace tree).take i)).scopes = scope :: outer ∧
        scope.block = decide (kind = .block) ∧
        scope.names = (own ++ (Walk.inside v).flatMap (Place.namesFor v)).eraseDups) ∧
      ∃ own scope, tree.ownNames = .ok own ∧ (walk [] tree).scopes = [scope] ∧ scope.block = false ∧
        scope.names = (own ++ (Walk.inside tree).flatMap (Place.namesFor tree)).eraseDups := by
  obtain ⟨readable, _, parameters, opens⟩ := Value.readable_of_program program
  obtain ⟨own, read⟩ := readable.own
  have terminal := walk_program_scopes program alone
  have names : ((Scope.empty false).defineAll ((Walk.inside tree).flatMap (Place.namesFor tree))).names =
      (own ++ (Walk.inside tree).flatMap (Place.namesFor tree)).eraseDups := by
    rw [Scope.names_defineAll_empty, ← Value.parameters_eq read, parameters, List.nil_append]
  have along : Along (fun s m => m.phase = .leave → HoldsNames m.place.node s) []
      (Walk.moments tree) := by
    apply holdsNames_carried.along_program program alone
    · intro impossible
      cases impossible
    · trivial
    · intro inside _ kind known
      obtain rfl : ScopeKind.function = kind := Option.some.inj (opens.symm.trans known)
      exact ⟨own, _, [], read, terminal inside, Scope.block_defineAll _ _, names⟩
  constructor
  · intro i v kind here known
    rw [Walk.trace_eq_moments, List.getElem?_map, Option.map_eq_some_iff] at here
    obtain ⟨m, moment, event⟩ := here
    have leaving : m.phase = .leave := congrArg Event.phase event
    obtain rfl : m.place.node = v := congrArg Event.node event
    exact along.at_trace moment (run_take_fault_none done i) leaving kind (Value.opens_of_scopeKind? known)
  · obtain ⟨fault, scopes⟩ := walk_program program
    rw [fault] at done
    refine ⟨own, _, read, scopes.trans (terminal done), Scope.block_defineAll _ _, names⟩

/-- The function ends up with its parameter and the name that its block hoists, the program with the
    name of the function and the import. -/
theorem sample_names :
    (∃ scope outer, (run [] ((Walk.trace Sample.program).take 28)).scopes = scope :: outer ∧
        scope.names = ["p", "a"]) ∧
      ∃ scope, (walk [] Sample.program).scopes = [scope] ∧ scope.names = ["f", "x"] := by
  have done : (walk [] Sample.program).fault = none := Option.isNone_iff_eq_none.mp (by decide +kernel)
  have here : (Walk.trace Sample.program)[28]? = some ⟨.leave, Sample.function⟩ := rfl
  obtain ⟨closed, own, scope, read, only, _, names⟩ := closed_scopes rfl (by decide) done
  obtain ⟨parameters, inside, outer, bound, top, _, kept⟩ :=
    closed 28 Sample.function .function here rfl
  obtain rfl : ["p"] = parameters := Except.ok.inj bound
  obtain rfl : [] = own := Except.ok.inj read
  exact ⟨⟨inside, outer, top, kept.trans (by decide)⟩, scope, only, names.trans (by decide)⟩

end OpenScopes

end LexicalScope
