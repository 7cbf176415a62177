import LexicalScope.Walk

/-!
What a walk visits, without the rest of the tree: the nodes that come first, each with the nodes
visited below it. The events of a walk are those of the forest (`observe_eq_observed`), so that a
statement about walks is one induction over forests. A visited node also has its place, the visited
nodes around it, and every event is a moment at a place (`moments_map_event`).
-/

namespace LexicalScope

/-- Visited nodes: none, or a first node with those below it and those after both. -/
inductive Forest where
  | nil
  | node (first : Value) (below rest : Forest)
deriving Inhabited

/-- A visited node and the visited nodes around it, innermost first. -/
structure Place where
  node : Value
  around : List Value
deriving Inhabited

/-- An event in its place. -/
structure Moment where
  phase : Phase
  place : Place
deriving Inhabited

namespace Moment

def event (m : Moment) : Event := ⟨m.phase, m.place.node⟩

end Moment

namespace Forest

def append : Forest → Forest → Forest
  | nil, later => later
  | node first below rest, later => node first below (rest.append later)

/-- The nodes, each before those below it. -/
def nodes : Forest → List Value
  | nil => []
  | node first below rest => first :: (below.nodes ++ rest.nodes)

/-- The events of the phases asked for. -/
def observed (hooks : Hooks) : Forest → List Event
  | nil => []
  | node first below rest =>
    (if hooks.enter then [⟨.enter, first⟩] else []) ++
      (below.observed hooks ++
        ((if hooks.leave then [⟨.leave, first⟩] else []) ++ rest.observed hooks))

def events (f : Forest) : List Event := f.observed ⟨true, true⟩

/-- The places of the nodes, in a forest that itself stands inside `around`. -/
def places (around : List Value) : Forest → List Place
  | nil => []
  | node first below rest =>
    ⟨first, around⟩ :: (below.places (first :: around) ++ rest.places around)

/-- The moments of a forest that itself stands inside `around`. -/
def moments (around : List Value) : Forest → List Moment
  | nil => []
  | node first below rest =>
    ⟨.enter, first, around⟩ ::
      (below.moments (first :: around) ++ ⟨.leave, first, around⟩ :: rest.moments around)

@[simp]
theorem events_nil : nil.events = [] := rfl

@[simp]
theorem events_node (first : Value) (below rest : Forest) :
    (node first below rest).events =
      ⟨.enter, first⟩ :: (below.events ++ ⟨.leave, first⟩ :: rest.events) := by
  simp [events, observed]

theorem observed_append (hooks : Hooks) (f g : Forest) :
    (f.append g).observed hooks = f.observed hooks ++ g.observed hooks := by
  induction f with
  | nil => rfl
  | node first below rest _ ih => simp [append, observed, ih]

theorem forall_nodes_node {P : Value → Prop} {first : Value} {below rest : Forest} :
    (∀ v ∈ (node first below rest).nodes, P v) ↔
      P first ∧ (∀ v ∈ below.nodes, P v) ∧ ∀ v ∈ rest.nodes, P v := by
  simp only [nodes, List.forall_mem_cons, List.forall_mem_append]

/-- Entering alone shows the nodes in their order. -/
theorem observed_enter (f : Forest) :
    (f.observed ⟨true, false⟩).map Event.node = f.nodes := by
  induction f with
  | nil => rfl
  | node first below rest ihBelow ihRest => simp [observed, nodes, ihBelow, ihRest]

theorem moments_map_event (f : Forest) (around : List Value) :
    (f.moments around).map Moment.event = f.events := by
  induction f generalizing around with
  | nil => rfl
  | node first below rest ihBelow ihRest => simp [moments, Moment.event, ihBelow, ihRest]

end Forest

namespace Walk

mutual

/-- The nodes visited in a tree. -/
def forest : Value → Forest
  | .arr items => itemsForest items
  | .obj entries =>
    if (Value.obj entries).hasField "type" then .node (.obj entries) (entriesForest entries) .nil
    else .nil
  | _ => .nil

def itemsForest : List Value → Forest
  | [] => .nil
  | v :: rest => (forest v).append (itemsForest rest)

def entriesForest : List (String × Value) → Forest
  | [] => .nil
  | (key, v) :: rest =>
    (if metadata.contains key then .nil else forest v).append (entriesForest rest)

end

/-- The nodes visited below a node. -/
def below : Value → Forest
  | .obj entries => entriesForest entries
  | _ => .nil

/-- The visited nodes of a tree, in the order in which they are entered. -/
def visited (tree : Value) : List Value := (observe ⟨true, false⟩ tree).map Event.node

/-- The events of a tree, each in its place. -/
def moments (tree : Value) : List Moment := (forest tree).moments []

mutual

theorem observe_eq_observed (hooks : Hooks) (v : Value) :
    observe hooks v = (forest v).observed hooks := by
  match v with
  | .arr items =>
    rw [observe, forest]
    exact observeItems_eq_observed hooks items
  | .obj entries =>
    rw [observe, forest]
    by_cases typed : (Value.obj entries).hasField "type" = true
    · rw [if_pos typed, if_pos typed, observeEntries_eq_observed hooks entries]
      simp [Forest.observed]
    · rw [if_neg typed, if_neg typed]
      rfl
  | .null | .bool _ | .int _ | .float _ | .str _ | .regex => rfl

theorem observeItems_eq_observed (hooks : Hooks) (items : List Value) :
    observeItems hooks items = (itemsForest items).observed hooks := by
  match items with
  | [] => rfl
  | v :: rest =>
    rw [observeItems, itemsForest, Forest.observed_append, observe_eq_observed hooks v,
      observeItems_eq_observed hooks rest]

theorem observeEntries_eq_observed (hooks : Hooks) (entries : List (String × Value)) :
    observeEntries hooks entries = (entriesForest entries).observed hooks := by
  match entries with
  | [] => rfl
  | (key, v) :: rest =>
    rw [observeEntries, entriesForest, Forest.observed_append, observeEntries_eq_observed hooks rest]
    split
    · rfl
    · rw [observe_eq_observed hooks v]

end

theorem trace_eq_events (tree : Value) : trace tree = (forest tree).events :=
  observe_eq_observed _ tree

theorem visited_eq_nodes (tree : Value) : visited tree = (forest tree).nodes := by
  rw [visited, observe_eq_observed, Forest.observed_enter]

/-- The moments of a tree are its events, one by one. -/
theorem trace_eq_moments (tree : Value) : trace tree = (moments tree).map Moment.event := by
  rw [trace_eq_events, moments, Forest.moments_map_event]

/-! ## A node alone -/

theorem forest_node {v : Value} (typed : v.hasField "type" = true) :
    forest v = .node v (below v) .nil := by
  cases v with
  | obj entries => rw [forest, if_pos typed, below]
  | _ => cases typed

theorem visited_node {v : Value} (typed : v.hasField "type" = true) :
    visited v = v :: (below v).nodes := by
  rw [visited_eq_nodes, forest_node typed, Forest.nodes, Forest.nodes, List.append_nil]

end Walk

namespace Forest

/-- What stands below a node of the forest is what the node's own fields hold. -/
def Faithful : Forest → Prop
  | nil => True
  | node first below rest =>
    first.hasField "type" = true ∧ below = Walk.below first ∧ below.Faithful ∧ rest.Faithful

theorem Faithful.append {f g : Forest} (left : f.Faithful) (right : g.Faithful) :
    (f.append g).Faithful := by
  induction f with
  | nil => exact right
  | node first below rest _ ih =>
    obtain ⟨typed, held, inner, later⟩ := left
    exact ⟨typed, held, inner, ih later⟩

/-- A node of a faithful forest, walked alone, is visited with what stands below it. -/
theorem Faithful.forest_first {first : Value} {below rest : Forest}
    (faithful : (node first below rest).Faithful) : Walk.forest first = node first below nil := by
  obtain ⟨typed, held, _, _⟩ := faithful
  rw [Walk.forest_node typed, held]

end Forest

namespace Walk

mutual

theorem forest_faithful (v : Value) : (forest v).Faithful := by
  match v with
  | .arr items =>
    rw [forest]
    exact itemsForest_faithful items
  | .obj entries =>
    rw [forest]
    split
    · rename_i typed
      exact ⟨typed, rfl, entriesForest_faithful entries, trivial⟩
    · trivial
  | .null | .bool _ | .int _ | .float _ | .str _ | .regex => trivial

theorem itemsForest_faithful (items : List Value) : (itemsForest items).Faithful := by
  match items with
  | [] => trivial
  | v :: rest =>
    rw [itemsForest]
    exact (forest_faithful v).append (itemsForest_faithful rest)

theorem entriesForest_faithful (entries : List (String × Value)) :
    (entriesForest entries).Faithful := by
  match entries with
  | [] => trivial
  | (key, v) :: rest =>
    rw [entriesForest]
    refine Forest.Faithful.append ?_ (entriesForest_faithful rest)
    split
    · trivial
    · exact forest_faithful v

end

theorem below_faithful (v : Value) : (below v).Faithful := by
  cases v with
  | obj entries => exact entriesForest_faithful entries
  | _ => trivial

end Walk

end LexicalScope
