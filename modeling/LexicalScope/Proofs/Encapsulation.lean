import LexicalScope.Proofs.Calls

/-!
The declarations that leave a forest are those that go past the scopes of all visited nodes around
them. Running a forest without programs from open scopes does nothing but record these, in order
(`run_events`): every scope opened on the way is closed again, with the names that stayed in it. So a
function changes the scopes around it by its own name and its imports only, and a block only where
hoisted names go.
-/

namespace LexicalScope

namespace Target

/-- The names go past the scope of this node, if it opens one. -/
def leaves (v : Value) (target : Target) : Bool :=
  match v.opens with
  | none => true
  | some kind => target.passes (kind = .block)

theorem leaves_outermost (v : Value) : leaves v .outermost = true := by
  unfold leaves
  cases v.opens <;> rfl

end Target

namespace Forest

/-- The declarations made in a forest that stands inside `around`, of those that go past the scopes
    of all visited nodes around them. -/
def escapingFrom (around : List Value) (f : Forest) : List Declaration :=
  (f.places around).flatMap fun place =>
    place.node.declared.filter fun d => place.around.all fun v => d.target.leaves v

/-- The declarations that leave a forest. -/
def escaping (f : Forest) : List Declaration := f.escapingFrom []

theorem escapingFrom_node (around : List Value) (v : Value) (below rest : Forest) :
    (node v below rest).escapingFrom around =
      (v.declared.filter fun d => around.all fun v => d.target.leaves v) ++
        (below.escapingFrom (v :: around) ++ rest.escapingFrom around) := by
  simp [escapingFrom, places]

/-- Nodes further out only hold declarations back. -/
theorem escapingFrom_eq_filter (f : Forest) (around : List Value) :
    f.escapingFrom around = f.escaping.filter fun d => around.all fun v => d.target.leaves v := by
  induction f generalizing around with
  | nil => rfl
  | node v below rest ihBelow ihRest =>
    rw [escaping, escapingFrom_node, escapingFrom_node, ihBelow, ihRest, ihBelow [v]]
    simp only [List.filter_append, List.filter_filter, List.all_cons, List.all_nil,
      Bool.true_and, Bool.and_comm, escaping]

theorem escaping_node (v : Value) (below rest : Forest) :
    (node v below rest).escaping =
      v.declared ++ ((below.escaping.filter fun d => d.target.leaves v) ++ rest.escaping) := by
  rw [escaping, escapingFrom_node, escapingFrom_eq_filter below, ← escaping]
  simp

end Forest

namespace OpenScopes

/-- A node that opens no scope, or closes the one it opens, leaves behind what escapes it. -/
theorem visit_scopes {s : OpenScopes} {v : Value} {below : Forest} (opened : s ≠ [])
    (ordinary : v.nodeType ≠ .program) (entered : (s.enter v).fault = none)
    (inside : ((s.enter v).scopes.run below.events).scopes =
      (s.enter v).scopes.receiveAll below.escaping) :
    (((s.enter v).scopes.run below.events).scopes.leave v).scopes =
      s.receiveAll (v.declared ++ below.escaping.filter fun d => d.target.leaves v) := by
  obtain ⟨readable, _⟩ := (enter_fault_none_iff s v).mp entered
  rw [inside, receiveAll_append]
  cases opens : v.opens with
  | none =>
    have stays : v.closes = false := by simp [Value.closes, opens]
    have all : (below.escaping.filter fun d => d.target.leaves v) = below.escaping := by
      simp [Target.leaves, opens]
    rw [enter_scopes_of_closed opens entered, leave_scopes_of_stays _ stays, all]
  | some kind =>
    have closes : v.closes = true := by simp [Value.closes, opens, ordinary]
    have around := receiveAll_ne_nil opened v.declared
    rw [enter_scopes_of_opens opens entered, receiveAll_cons _ around,
      leave_scopes_of_closes _ (receiveAll_ne_nil around _) readable closes]
    simp [Target.leaves, opens]

/-- Running a forest without programs records what escapes it, and nothing else. -/
theorem run_events {f : Forest} {s : OpenScopes} (opened : s ≠ [])
    (ordinary : ∀ v ∈ f.nodes, v.nodeType ≠ .program) (done : (s.run f.events).fault = none) :
    (s.run f.events).scopes = s.receiveAll f.escaping := by
  induction f generalizing s with
  | nil => rfl
  | node v below rest ihBelow ihRest =>
    obtain ⟨entered, inside, left, later⟩ := run_node_fault_none done
    obtain ⟨here, beneath, after⟩ := Forest.forall_nodes_node.mp ordinary
    have belowRun := ihBelow (enter_scopes_ne_nil opened entered) beneath inside
    have visit := visit_scopes opened here entered belowRun
    rw [(run_node_of_left entered inside left rest).2]
    rw [visit] at later ⊢
    rw [ihRest (receiveAll_ne_nil opened _) after later, ← receiveAll_append,
      Forest.escaping_node, List.append_assoc]

/-! ## The scopes that stay as they are -/

/-- Imports are recorded in the outermost scope, as if they were one. -/
theorem receiveAll_outermost {ds : List Declaration} (imports : ∀ d ∈ ds, d.target = .outermost)
    (s : OpenScopes) :
    s.receiveAll ds = s.modify (s.length - 1) (·.defineAll (ds.flatMap (·.names))) := by
  induction ds generalizing s with
  | nil => exact (List.modify_id (s.length - 1) s).symm
  | cons d rest ih =>
    have last : s.receive d = s.modify (s.length - 1) (·.defineAll d.names) := by
      rw [receive, imports d List.mem_cons_self]
      rfl
    rw [receiveAll_step, ih (fun other member => imports other (List.mem_cons_of_mem _ member)), last,
      List.length_modify, List.modify_modify_eq]
    congr 1
    funext scope
    rw [List.flatMap_cons, Scope.defineAll_append]
    rfl

/-- A scope that receives none of several declarations stays as it is. -/
theorem getElem?_receiveAll_ne {s : OpenScopes} {ds : List Declaration} {i : Nat}
    (others : ∀ d ∈ ds, i ≠ d.target.distance s) : (s.receiveAll ds)[i]? = s[i]? := by
  induction ds generalizing s with
  | nil => rfl
  | cons d rest ih =>
    have later : ∀ other ∈ rest, i ≠ other.target.distance (s.receive d) := by
      intro other member
      rw [other.target.distance_congr (blocks_receive s d)]
      exact others other (List.mem_cons_of_mem _ member)
    rw [receiveAll_step, ih later, getElem?_receive_ne s d (others d List.mem_cons_self)]

end OpenScopes

/-! ## A function in a block, as a tree -/

namespace Sample

def identifier (name : String) : Value := .obj [("type", .str "Identifier"), ("name", .str name)]

def declaration (kind name : String) : Value :=
  .obj [("type", .str "VariableDeclaration"), ("kind", .str kind),
    ("declarations", .arr [.obj [("type", .str "VariableDeclarator"), ("id", identifier name)]])]

def imported (name : String) : Value :=
  .obj [("type", .str "ImportDeclaration"),
    ("specifiers", .arr [.obj [("type", .str "ImportSpecifier"), ("local", identifier name)]])]

def block (body : List Value) : Value := .obj [("type", .str "BlockStatement"), ("body", .arr body)]

/-- A block with one name by `var` and one by `let`. -/
def inner : Value := block [declaration "var" "a", declaration "let" "b"]

def body : Value := block [imported "x", inner]

/-- A function `f` of `p` with an import and a block in it. -/
def function : Value :=
  .obj [("type", .str "FunctionDeclaration"), ("id", identifier "f"), ("params", .arr [identifier "p"]),
    ("body", body)]

/-- A block inside a function of a program. -/
def around : OpenScopes := [.empty true, .empty false, .empty false]

def program : Value := .obj [("type", .str "Program"), ("body", .arr [function])]

end Sample

/-! ## Functions and blocks -/

namespace Walk

/-- The local names of all imports visited in a tree, in order. -/
def imports (tree : Value) : List String := (visited tree).flatMap Value.importedNames

end Walk

namespace Forest

/-- No scope holds an import back. -/
theorem escaping_imports (f : Forest) :
    (f.escaping.filter fun d => d.target = .outermost).flatMap (·.names) =
      f.nodes.flatMap Value.importedNames := by
  induction f with
  | nil => rfl
  | node v below rest ihBelow ihRest =>
    have through : ((below.escaping.filter fun d => d.target.leaves v).filter
        fun d => d.target = .outermost) = below.escaping.filter fun d => d.target = .outermost := by
      rw [List.filter_filter]
      apply List.filter_congr
      intro d _
      by_cases outer : d.target = .outermost
      · simp [outer, Target.leaves_outermost]
      · simp [outer]
    rw [escaping_node, List.filter_append, List.filter_append, List.flatMap_append,
      List.flatMap_append, through, ihBelow, ihRest, Value.declared_outermost]
    simp [nodes]

end Forest

namespace OpenScopes

theorem walk_scopes {s : OpenScopes} {tree : Value} (opened : s ≠ [])
    (ordinary : ∀ v ∈ Walk.visited tree, v.nodeType ≠ .program) (done : (s.walk tree).fault = none) :
    (s.walk tree).scopes = s.receiveAll (Walk.forest tree).escaping := by
  rw [walk, Walk.trace_eq_events] at done ⊢
  rw [Walk.visited_eq_nodes] at ordinary
  exact run_events opened ordinary done

/-- A node walked alone records its declarations, then what leaves its scope. -/
theorem walk_scopes_of_node {s : OpenScopes} {v : Value} (typed : v.hasField "type" = true)
    (opened : s ≠ []) (ordinary : ∀ w ∈ Walk.visited v, w.nodeType ≠ .program)
    (done : (s.walk v).fault = none) :
    (s.walk v).scopes =
      (s.receiveAll v.declared).receiveAll
        ((Walk.below v).escaping.filter fun d => d.target.leaves v) := by
  have nothing : Forest.nil.escaping = [] := rfl
  rw [walk_scopes opened ordinary done, Walk.forest_node typed, Forest.escaping_node, nothing,
    List.append_nil, receiveAll_append]

theorem walk_readable {s : OpenScopes} {v : Value} (typed : v.hasField "type" = true)
    (done : (s.walk v).fault = none) : v.Readable := by
  rw [walk, Walk.trace_eq_events, Walk.forest_node typed] at done
  exact ((enter_fault_none_iff s v).mp (run_node_fault_none done).1).1

/-- A function leaves behind its own declarations, and its imports in the outermost scope. -/
theorem walk_function {s : OpenScopes} {v : Value} (opened : s ≠ [])
    (ordinary : ∀ w ∈ Walk.visited v, w.nodeType ≠ .program) (done : (s.walk v).fault = none)
    (function : v.opens = some .function) :
    (s.walk v).scopes =
      (s.receiveAll v.declared).modify (s.length - 1) (·.extend (Walk.imports v)) := by
  have typed := Value.hasField_type (Value.known_of_opens function)
  have own : v.importedNames = [] := by
    unfold Value.importedNames
    rw [if_neg]
    intro imported
    rw [Value.opens, imported] at function
    cases function
  have kept : ((Walk.below v).escaping.filter fun d => d.target.leaves v) =
      (Walk.below v).escaping.filter fun d => d.target = .outermost := by
    apply List.filter_congr
    intro d _
    rw [Target.leaves, function]
    cases d.target <;> rfl
  have all : Walk.imports v = (Walk.below v).nodes.flatMap Value.importedNames := by
    rw [Walk.imports, Walk.visited_node typed, List.flatMap_cons, own, List.nil_append]
  have outer : ∀ d ∈ (Walk.below v).escaping.filter fun d => d.target = .outermost,
      d.target = .outermost := by
    intro d member
    simpa using (List.mem_filter.mp member).2
  rw [walk_scopes_of_node typed opened ordinary done, kept, receiveAll_outermost outer,
    Forest.escaping_imports, length_receiveAll, ← all]
  simp only [Scope.defineAll_eq_extend]

/-- A block leaves behind nothing but hoisted names and imports. -/
theorem walk_block {s : OpenScopes} {v : Value} (opened : s ≠ [])
    (ordinary : ∀ w ∈ Walk.visited v, w.nodeType ≠ .program) (done : (s.walk v).fault = none)
    (block : v.opens = some .block) {i : Nat} (inner : i ≠ Target.function.distance s)
    (outer : i ≠ s.length - 1) : (s.walk v).scopes[i]? = s[i]? := by
  have typed := Value.hasField_type (Value.known_of_opens block)
  rw [walk_scopes_of_node typed opened ordinary done,
    Value.declared_of_block (walk_readable typed done) block, receiveAll_nil]
  apply getElem?_receiveAll_ne
  intro d member
  have passing : d.target.leaves v = true := (List.mem_filter.mp member).2
  rw [Target.leaves, block] at passing
  cases target : d.target with
  | current => rw [target] at passing; cases passing
  | own => rw [target] at passing; cases passing
  | function => exact inner
  | outermost => exact outer

/-- Encapsulation. Walking a tree without programs keeps the open scopes and their flavours. A
    function changes them by two recordings at most: its own name, hoisted for a declaration and
    kept by the innermost scope for an expression, and then its imports, in the outermost scope. A
    block changes at most the scope that hoisted names go to and the outermost one. -/
theorem walk_encapsulated {s : OpenScopes} {v : Value} (opened : s ≠ [])
    (ordinary : ∀ w ∈ Walk.visited v, w.nodeType ≠ .program) (done : (s.walk v).fault = none) :
    (s.walk v).scopes.length = s.length ∧ (s.walk v).scopes.blocks = s.blocks ∧
      (v.nodeType = .functionDeclaration →
        ∃ i names, s.HoistsTo i ∧ Pattern.names (v.field "id") = .ok names ∧
          (s.walk v).scopes =
            (s.modify i (·.extend names)).modify (s.length - 1) (·.extend (Walk.imports v))) ∧
      (v.nodeType = .functionExpression →
        ∃ names, Pattern.names (v.field "id") = .ok names ∧
          (s.walk v).scopes =
            (s.modify 0 (·.extend names)).modify (s.length - 1) (·.extend (Walk.imports v))) ∧
      (v.nodeType = .arrowFunction →
        (s.walk v).scopes = s.modify (s.length - 1) (·.extend (Walk.imports v))) ∧
      (v.opens = some .block →
        ∃ i, s.HoistsTo i ∧
          ∀ j, j ≠ i → j ≠ s.length - 1 → (s.walk v).scopes[j]? = s[j]?) := by
  have scopes := walk_scopes opened ordinary done
  have function (kind : v.opens = some .function) := walk_function opened ordinary done kind
  have readable (known : v.nodeType ≠ .other) := walk_readable (Value.hasField_type known) done
  refine ⟨by rw [scopes, length_receiveAll], by rw [scopes, blocks_receiveAll], ?_, ?_, ?_, ?_⟩
  · intro type
    obtain ⟨names, bound, declared⟩ :=
      Value.declared_functionDeclaration (readable (by rw [type]; decide)) type
    refine ⟨_, names, distance_hoistsTo opened, bound, ?_⟩
    rw [function (by rw [Value.opens, type]; rfl), declared]
    simp only [receiveAll, List.foldl_cons, List.foldl_nil, receive, Scope.defineAll_eq_extend]
  · intro type
    obtain ⟨names, bound, declared⟩ :=
      Value.declared_functionExpression (readable (by rw [type]; decide)) type
    refine ⟨names, bound, ?_⟩
    rw [function (by rw [Value.opens, type]; rfl), declared]
    simp only [receiveAll, List.foldl_cons, List.foldl_nil, receive, Scope.defineAll_eq_extend,
      Target.distance]
  · intro type
    rw [function (by rw [Value.opens, type]; rfl),
      Value.declared_arrowFunction (readable (by rw [type]; decide)) type, receiveAll_nil]
  · intro block
    refine ⟨_, distance_hoistsTo opened, ?_⟩
    intro j inner outer
    exact walk_block opened ordinary done block inner outer

/-- The name of the sample function is hoisted out of the block, and its import goes outermost. -/
theorem sample_encapsulated :
    ∃ i names, Sample.around.HoistsTo i ∧ Pattern.names (Sample.function.field "id") = .ok names ∧
      (Sample.around.walk Sample.function).scopes =
        (Sample.around.modify i (·.extend names)).modify (Sample.around.length - 1)
          (·.extend (Walk.imports Sample.function)) := by
  have done : (Sample.around.walk Sample.function).fault = none :=
    Option.isNone_iff_eq_none.mp (by decide +kernel)
  exact (walk_encapsulated (List.cons_ne_nil _ _) (by decide) done).2.2.1 rfl

end OpenScopes

end LexicalScope
