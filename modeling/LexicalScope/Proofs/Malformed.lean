import LexicalScope.Proofs.Balance
import LexicalScope.Proofs.Descent

/-!
A node cannot be read when its type is a list or an object, when the field that lists what it binds
cannot be gone through, or when one of its patterns leads to such a list (`readable_iff`). Below a
program a scope is always open, so nothing but a malformed node stops a walk there
(`run_fault_shape`), and every malformed node does (`run_readable`).
-/

namespace LexicalScope

namespace NodeType

/-- The field in which a node lists what it binds. -/
def listField? : NodeType → Option String
  | .variableDeclaration => some "declarations"
  | .importDeclaration => some "specifiers"
  | .functionDeclaration | .functionExpression | .arrowFunction => some "params"
  | _ => none

end NodeType

/-- The faults of a tree's shape. -/
inductive Fault.OfShape : Fault → Prop where
  | compositeType : OfShape .compositeType
  | notEnumerable : OfShape .notEnumerable

namespace Value

/-- The patterns that a node binds, around itself or in its own scope. -/
inductive BindsPattern (v : Value) : Value → Prop where
  | declarator {items : List Value} {item : Value} (type : v.nodeType = .variableDeclaration)
      (list : v.field "declarations" = .arr items) (member : item ∈ items)
      (object : item.isObject = true) : BindsPattern v (item.field "id")
  | specifier {items : List Value} {item : Value} (type : v.nodeType = .importDeclaration)
      (list : v.field "specifiers" = .arr items) (member : item ∈ items)
      (object : item.isObject = true) : BindsPattern v (item.field "local")
  | id (type : v.nodeType ∈
        [.functionDeclaration, .functionExpression, .classDeclaration, .classExpression]) :
      BindsPattern v (v.field "id")
  | parameter {items : List Value} {item : Value}
      (type : v.nodeType ∈ [.functionDeclaration, .functionExpression, .arrowFunction])
      (list : v.field "params" = .arr items) (member : item ∈ items) : BindsPattern v item
  | caught (type : v.nodeType = .catchClause) : BindsPattern v (v.field "param")

/-- A node that cannot be read. -/
inductive Malformed (v : Value) : Prop where
  | type (composite : v.hasCompositeType = true)
  | list {key : String} (lists : v.nodeType.listField? = some key)
      (unlisted : (v.field key).isUnlisted = true)
  | pattern {pattern inner : Value} (binds : v.BindsPattern pattern)
      (reached : Pattern.Reaches pattern inner) (blocked : Pattern.Blocked inner)

/-! ## What cannot be read is malformed -/

theorem scopeKind?_eq_error {v : Value} {fault : Fault} (failed : v.scopeKind? = .error fault) :
    fault.OfShape ∧ v.Malformed := by
  rw [scopeKind?_eq] at failed
  split at failed
  · rename_i composite
    cases failed
    exact ⟨.compositeType, .type composite⟩
  · cases failed

theorem malformed_of_pattern {v pattern : Value} {fault : Fault} (binds : v.BindsPattern pattern)
    (failed : Pattern.names pattern = .error fault) : fault.OfShape ∧ v.Malformed := by
  obtain ⟨rfl, inner, reached, blocked⟩ := Pattern.names_eq_error_iff.mp failed
  exact ⟨.notEnumerable, .pattern binds reached blocked⟩

/-- A list of patterns in the field that lists what a node binds. -/
theorem malformed_of_list {v : Value} {fault : Fault} {key : String}
    {read : Value → Except Fault (List String)} (plain : ∀ s, read (.str s) = .ok [])
    (lists : v.nodeType.listField? = some key)
    (binds : ∀ items item, v.field key = .arr items → item ∈ items → read item = .error fault →
      fault.OfShape ∧ v.Malformed)
    (failed : (v.field key).readListed read = .error fault) : fault.OfShape ∧ v.Malformed := by
  rcases readListed_eq_error plain failed with ⟨unlisted, rfl⟩ | ⟨items, list, item, member, bad⟩
  · exact ⟨.notEnumerable, .list lists unlisted⟩
  · exact binds items item list member bad

/-- A part of every item of the list, which only an object has. -/
theorem malformed_of_through {v : Value} {fault : Fault} {key part : String}
    (lists : v.nodeType.listField? = some key)
    (binds : ∀ items item, v.field key = .arr items → item ∈ items → item.isObject = true →
      v.BindsPattern (item.field part))
    (failed : v.namesThrough key part = .error fault) : fault.OfShape ∧ v.Malformed := by
  apply malformed_of_list (fun s => rfl) lists ?_ failed
  intro items item list member bad
  cases item with
  | obj entries => exact malformed_of_pattern (binds items _ list member rfl) bad
  | _ => cases bad

theorem declaration?_eq_error {v : Value} {fault : Fault} (failed : v.declaration? = .error fault) :
    fault.OfShape ∧ v.Malformed := by
  by_cases composite : v.hasCompositeType = true
  · rw [declaration?, lookupType, if_pos composite] at failed
    cases failed
    exact ⟨.compositeType, .type composite⟩
  rw [declaration?, lookupType, if_neg composite] at failed
  cases type : v.nodeType <;> rw [type] at failed
  case variableDeclaration =>
    exact malformed_of_through (by rw [type]; rfl) (fun _ _ => .declarator type)
      (Reading.error_of_map failed)
  case importDeclaration =>
    exact malformed_of_through (by rw [type]; rfl) (fun _ _ => .specifier type)
      (Reading.error_of_map failed)
  case functionDeclaration | functionExpression | classDeclaration | classExpression =>
    exact malformed_of_pattern (.id (by simp [type])) (Reading.error_of_map failed)
  all_goals cases failed

theorem ownNames_eq_error {v : Value} {fault : Fault} (failed : v.ownNames = .error fault) :
    fault.OfShape ∧ v.Malformed := by
  by_cases composite : v.hasCompositeType = true
  · rw [ownNames, lookupType, if_pos composite] at failed
    cases failed
    exact ⟨.compositeType, .type composite⟩
  rw [ownNames, lookupType, if_neg composite] at failed
  cases type : v.nodeType <;> rw [type] at failed
  case functionDeclaration | functionExpression | arrowFunction =>
    apply malformed_of_list (fun s => rfl) (by rw [type]; rfl) ?_ failed
    intro items item list member bad
    exact malformed_of_pattern (.parameter (by simp [type]) list member) bad
  case catchClause => exact malformed_of_pattern (.caught type) failed
  all_goals cases failed

/-! ## What is malformed cannot be read -/

theorem Readable.namesThrough {v : Value} (readable : v.Readable) {key part : String}
    (lists : (v.nodeType, key, part) ∈
      [(.variableDeclaration, "declarations", "id"), (.importDeclaration, "specifiers", "local")]) :
    ∃ names, v.namesThrough key part = .ok names := by
  obtain ⟨d, read⟩ := readable.declaration
  obtain ⟨_, known, read⟩ := Reading.ok_of_bind read
  rw [readable.lookupType] at known
  simp only [List.mem_cons, Prod.mk.injEq, List.not_mem_nil, or_false] at lists
  rcases lists with ⟨type, rfl, rfl⟩ | ⟨type, rfl, rfl⟩ <;> rw [type] at known <;> cases known <;>
    · obtain ⟨names, bound, _⟩ := Reading.ok_of_bind read
      exact ⟨names, bound⟩

theorem Readable.names_id {v : Value} (readable : v.Readable)
    (type : v.nodeType ∈ [.functionDeclaration, .functionExpression, .classDeclaration, .classExpression]) :
    ∃ names, Pattern.names (v.field "id") = .ok names := by
  obtain ⟨d, read⟩ := readable.declaration
  obtain ⟨_, known, read⟩ := Reading.ok_of_bind read
  rw [readable.lookupType] at known
  simp only [List.mem_cons, List.not_mem_nil, or_false] at type
  rcases type with type | type | type | type <;> rw [type] at known <;> cases known <;>
    · obtain ⟨names, bound, _⟩ := Reading.ok_of_bind read
      exact ⟨names, bound⟩

theorem Readable.readListed_params {v : Value} (readable : v.Readable)
    (type : v.nodeType ∈ [.functionDeclaration, .functionExpression, .arrowFunction]) :
    ∃ names, (v.field "params").readListed Pattern.names = .ok names := by
  obtain ⟨names, read⟩ := readable.own
  rw [ownNames, readable.lookupType] at read
  simp only [List.mem_cons, List.not_mem_nil, or_false] at type
  rcases type with type | type | type <;> rw [type] at read <;> exact ⟨names, read⟩

theorem Readable.listed {v : Value} (readable : v.Readable) {key : String}
    (lists : v.nodeType.listField? = some key) : (v.field key).isUnlisted = false := by
  cases type : v.nodeType <;> rw [type] at lists <;> cases lists
  case variableDeclaration =>
    obtain ⟨names, read⟩ := readable.namesThrough (by rw [type]; exact .head _)
    exact (readListed_eq_ok read).1
  case importDeclaration =>
    obtain ⟨names, read⟩ := readable.namesThrough (by rw [type]; exact .tail _ (.head _))
    exact (readListed_eq_ok read).1
  all_goals
    obtain ⟨names, read⟩ := readable.readListed_params (by simp [type])
    exact (readListed_eq_ok read).1

theorem Readable.names_bound {v pattern : Value} (readable : v.Readable) (binds : v.BindsPattern pattern) :
    ∃ names, Pattern.names pattern = .ok names := by
  cases binds with
  | declarator type list member _ =>
    obtain ⟨names, read⟩ := readable.namesThrough (by rw [type]; exact .head _)
    exact (readListed_eq_ok read).2 _ list _ member
  | specifier type list member _ =>
    obtain ⟨names, read⟩ := readable.namesThrough (by rw [type]; exact .tail _ (.head _))
    exact (readListed_eq_ok read).2 _ list _ member
  | id type => exact readable.names_id type
  | parameter type list member =>
    obtain ⟨names, read⟩ := readable.readListed_params type
    exact (readListed_eq_ok read).2 _ list _ member
  | caught type =>
    obtain ⟨names, read⟩ := readable.own
    rw [ownNames, readable.lookupType, type] at read
    exact ⟨names, read⟩

theorem readable_iff {v : Value} : v.Readable ↔ ¬ v.Malformed := by
  constructor
  · rintro readable (composite | ⟨lists, unlisted⟩ | ⟨binds, reached, blocked⟩)
    · obtain ⟨kind, known⟩ := readable.kind
      rw [scopeKind?_eq, if_pos composite] at known
      cases known
    · exact Bool.false_ne_true ((readable.listed lists).symm.trans unlisted)
    · obtain ⟨names, here⟩ := Pattern.ok_of_reaches reached (readable.names_bound binds)
      exact Pattern.not_blocked_of_ok here blocked
  · intro sound
    refine ⟨?_, ?_, ?_⟩
    · cases read : v.scopeKind? with
      | ok kind => exact ⟨kind, rfl⟩
      | error fault => exact absurd (scopeKind?_eq_error read).2 sound
    · cases read : v.declaration? with
      | ok d => exact ⟨d, rfl⟩
      | error fault => exact absurd (declaration?_eq_error read).2 sound
    · cases read : v.ownNames with
      | ok names => exact ⟨names, rfl⟩
      | error fault => exact absurd (ownNames_eq_error read).2 sound

end Value

namespace OpenScopes

theorem declareOutside_fault_shape {s : OpenScopes} (opened : s ≠ []) {v : Value} {fault : Fault}
    (failed : (s.declareOutside v).fault = some fault) : fault.OfShape := by
  unfold declareOutside at failed
  split at failed
  · rename_i read
    cases failed
    exact (Value.declaration?_eq_error read).1
  · cases failed
  · rw [declare_fault s v _ (fun closed => absurd closed opened)] at failed
    cases failed

theorem openScope_fault_shape {s : OpenScopes} {v : Value} {fault : Fault}
    (failed : (s.openScope v).fault = some fault) : fault.OfShape := by
  unfold openScope at failed
  cases known : v.scopeKind? with
  | error other =>
    rw [known] at failed
    cases failed
    exact (Value.scopeKind?_eq_error known).1
  | ok kind =>
    rw [known] at failed
    cases kind with
    | none => cases failed
    | some kind =>
      have opened : (s.push v kind).scopes ≠ [] := List.cons_ne_nil _ _
      dsimp only at failed
      rw [Step.andThen_fault rfl, declareOwn] at failed
      cases own : v.ownNames with
      | error other =>
        rw [own] at failed
        cases failed
        exact (Value.ownNames_eq_error own).1
      | ok names =>
        rw [own] at failed
        dsimp only at failed
        rw [declare_fault _ v ⟨names, .own⟩ (fun closed => absurd closed opened)] at failed
        cases failed

/-- With a scope open, entering a node stops only for its shape. -/
theorem enter_fault_shape {s : OpenScopes} (opened : s ≠ []) {v : Value} {fault : Fault}
    (failed : (s.enter v).fault = some fault) : fault.OfShape := by
  rw [enter] at failed
  cases outside : (s.declareOutside v).fault with
  | some other =>
    rw [Step.andThen_of_fault outside] at failed
    exact declareOutside_fault_shape opened failed
  | none =>
    rw [Step.andThen_fault outside] at failed
    exact openScope_fault_shape failed

theorem run_readable {f : Forest} {s : OpenScopes} (done : (s.run f.events).fault = none) :
    ∀ v ∈ f.nodes, v.Readable := by
  induction f generalizing s with
  | nil => simp [Forest.nodes]
  | node v below rest ihBelow ihRest =>
    obtain ⟨entered, inside, _, later⟩ := run_node_fault_none done
    rw [Forest.forall_nodes_node]
    exact ⟨((enter_fault_none_iff s v).mp entered).1, ihBelow inside, ihRest later⟩

/-- With a scope open, a run stops only for the shape of a node. -/
theorem run_fault_shape {f : Forest} {s : OpenScopes} (opened : s ≠ []) {fault : Fault}
    (failed : (s.run f.events).fault = some fault) : fault.OfShape := by
  induction f generalizing s with
  | nil => cases failed
  | node v below rest ihBelow ihRest =>
    cases entered : (s.enter v).fault with
    | some other =>
      rw [run_node, Step.andThen_of_fault entered] at failed
      exact enter_fault_shape opened failed
    | none =>
      have around := enter_scopes_ne_nil opened entered
      cases inside : ((s.enter v).scopes.run below.events).fault with
      | some other =>
        rw [run_node_of_stopped entered inside rest] at failed
        exact ihBelow around (inside.trans failed)
      | none =>
        -- A node that was entered, with all below it, is left as well, and something stays open.
        have here := ((enter_fault_none_iff s v).mp entered).1
        have all : ∀ w ∈ (Forest.node v below .nil).nodes, w.Readable :=
          Forest.forall_nodes_node.mpr ⟨here, run_readable inside, by simp [Forest.nodes]⟩
        obtain ⟨done, depth⟩ := run_depth all opened
        obtain ⟨_, _, left, _⟩ := run_node_fault_none done
        rw [(run_node_of_left entered inside left .nil).2] at depth
        rw [(run_node_of_left entered inside left rest).1] at failed
        refine ihRest ?_ failed
        have positive : 0 < s.length := List.length_pos_iff.mpr opened
        apply List.length_pos_iff.mp
        exact Nat.lt_of_lt_of_le positive (depth ▸ Nat.le_add_right _ _)

end OpenScopes

namespace Sample

/-- A function of one parameter with a default, an array pattern of `true`. -/
def arrow : Value :=
  .obj [("type", .str "ArrowFunctionExpression"),
    ("params", .arr [.obj [("type", .str "AssignmentPattern"),
      ("left", .obj [("type", .str "ArrayPattern"), ("elements", .bool true)])]])]

/-- A program with a program and the function in it. -/
def nested : Value :=
  .obj [("type", .str "Program"), ("body", .arr [.obj [("type", .str "Program")], arrow])]

end Sample

namespace OpenScopes

/-- In a tree whose root is a program, other programs inside it or not, a walk stops exactly when one
    of the visited nodes is malformed, and then for the shape of that node: no name lacks a scope, no
    scope is closed that was not opened, and no location is asked for. -/
theorem walk_stops_iff {tree : Value} (program : tree.nodeType = .program) :
    ((∃ fault, (walk [] tree).fault = some fault) ↔ ∃ v ∈ Walk.visited tree, v.Malformed) ∧
      ∀ fault, (walk [] tree).fault = some fault → fault.OfShape := by
  have opened : [Scope.empty false] ≠ [] := List.cons_ne_nil _ _
  have root : ¬ tree.Malformed := Value.readable_iff.mp (Value.readable_of_program program).1
  rw [(walk_program program).1, Walk.visited_node (Value.hasField_of_program program)]
  refine ⟨⟨?_, ?_⟩, fun fault => run_fault_shape opened⟩
  · rintro ⟨fault, failed⟩
    apply Classical.byContradiction
    intro sound
    have readable : ∀ v ∈ (Walk.below tree).nodes, v.Readable := by
      intro v member
      exact Value.readable_iff.mpr fun bad => sound ⟨v, List.mem_cons_of_mem tree member, bad⟩
    rw [(run_depth readable opened).1] at failed
    cases failed
  · rintro ⟨v, member, bad⟩
    cases outcome : (run [Scope.empty false] (Walk.below tree).events).fault with
    | some fault => exact ⟨fault, rfl⟩
    | none =>
      rcases List.mem_cons.mp member with rfl | inside
      · exact absurd bad root
      · exact absurd bad (Value.readable_iff.mp (run_readable outcome v inside))

/-- The walk stops at the arrow, after the inner program has been left. -/
theorem sample_stops : ∃ fault, (walk [] Sample.nested).fault = some fault ∧ fault.OfShape := by
  have visited : Sample.arrow ∈ Walk.visited Sample.nested := .tail _ (.tail _ (.head _))
  have malformed : Sample.arrow.Malformed := by
    apply Value.Malformed.pattern (.parameter (by decide) rfl (.head _))
    · exact .single (.target rfl)
    · exact .elements rfl rfl
  obtain ⟨stops, shape⟩ := walk_stops_iff (show Sample.nested.nodeType = .program from rfl)
  obtain ⟨fault, failed⟩ := stops.mpr ⟨Sample.arrow, visited, malformed⟩
  exact ⟨fault, failed, shape fault failed⟩

end OpenScopes

end LexicalScope
