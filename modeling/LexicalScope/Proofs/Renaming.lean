import LexicalScope.Proofs.Metadata

/-!
Every identifier of a tree may be given another spelling, the same one for several identifiers even.
A pattern then binds the names spelled otherwise (`names_rename`), and so does every node
(`declaration?_rename`, `ownNames_rename`). A name that is new to a scope may have been spelled like
one that is not, so a scope gains fewer names; what it has in the end are its names spelled otherwise,
each where it stands first (`defineAll_rename`). Which scope a name goes to depends on flavours alone,
so the two walks go side by side (`walk_rename`).
-/

namespace LexicalScope

namespace Value

/-- A text spelled otherwise; any other value is left alone. -/
def respell (r : String → String) : Value → Value
  | .str s => .str (r s)
  | v => v

mutual

/-- The value with the name of every identifier spelled otherwise, at any depth. -/
def rename (r : String → String) : Value → Value
  | .arr items => .arr (renameItems r items)
  | .obj entries =>
    .obj (renameEntries r ((Value.obj entries).nodeType == .identifier) entries)
  | v => v

def renameItems (r : String → String) : List Value → List Value
  | [] => []
  | v :: rest => rename r v :: renameItems r rest

/-- The entries of an object with every identifier spelled otherwise, its own name among them if it
    is an identifier. -/
def renameEntries (r : String → String) (identifier : Bool) :
    List (String × Value) → List (String × Value)
  | [] => []
  | (key, v) :: rest =>
    (key, if identifier && key == "name" then (rename r v).respell r else rename r v) ::
      renameEntries r identifier rest

end

variable (r : String → String)

/-! ## Fields -/

theorem renameItems_eq (items : List Value) : renameItems r items = items.map (rename r) := by
  induction items with
  | nil => rfl
  | cons v rest ih => rw [renameItems, ih, List.map_cons]

theorem lookup_renameEntries (identifier : Bool) (entries : List (String × Value)) (key : String) :
    (renameEntries r identifier entries).lookup key =
      (entries.lookup key).map fun v =>
        if identifier && key == "name" then (v.rename r).respell r else v.rename r := by
  induction entries with
  | nil => rfl
  | cons entry rest ih =>
    obtain ⟨name, v⟩ := entry
    rw [renameEntries, List.lookup_cons, List.lookup_cons]
    by_cases same : key = name
    · subst same
      simp
    · have differ : (key == name) = false := by simp [same]
      rw [differ]
      exact ih

theorem field_rename (v : Value) {key : String} (other : key ≠ "name") :
    (v.rename r).field key = (v.field key).rename r := by
  cases v with
  | obj entries =>
    have plain : (key == "name") = false := by simp [other]
    rw [rename, field, field, lookup_renameEntries]
    cases entries.lookup key <;> simp [plain, rename]
  | _ => rfl

theorem field_name_rename {v : Value} (identifier : v.nodeType = .identifier) :
    (v.rename r).field "name" = ((v.field "name").rename r).respell r := by
  cases v with
  | obj entries =>
    rw [rename, field, field, lookup_renameEntries, identifier]
    cases entries.lookup "name" <;> rfl
  | _ => cases identifier

theorem hasField_rename (v : Value) (key : String) : (v.rename r).hasField key = v.hasField key := by
  cases v with
  | obj entries =>
    rw [rename, hasField, hasField, lookup_renameEntries]
    cases entries.lookup key <;> rfl
  | _ => rfl

theorem isObject_rename (v : Value) : (v.rename r).isObject = v.isObject := by
  cases v <;> rfl

theorem isAbsent_rename (v : Value) : (v.rename r).isAbsent = v.isAbsent := by
  cases v with
  | arr items => cases items <;> rfl
  | obj entries => cases entries <;> rfl
  | _ => rfl

/-! ## Types -/

/-- A type that is a text stays what it is, and so does every type that matters. -/
theorem nodeType_rename (v : Value) : (v.rename r).nodeType = v.nodeType := by
  unfold nodeType
  rw [field_rename r v (by decide)]
  cases v.field "type" <;> rfl

theorem type_rename {v : Value} (known : v.nodeType ≠ .other) :
    (v.rename r).field "type" = v.field "type" := by
  rw [field_rename r v (by decide)]
  unfold nodeType at known
  cases type : v.field "type" with
  | str name => rfl
  | _ => simp [type] at known

theorem hasCompositeType_rename (v : Value) : (v.rename r).hasCompositeType = v.hasCompositeType := by
  unfold hasCompositeType
  rw [field_rename r v (by decide)]
  cases v.field "type" <;> rfl

theorem lookupType_rename (v : Value) : (v.rename r).lookupType = v.lookupType := by
  rw [lookupType, lookupType, hasCompositeType_rename, nodeType_rename]

theorem scopeKind?_rename (v : Value) : (v.rename r).scopeKind? = v.scopeKind? := by
  rw [scopeKind?, scopeKind?, lookupType_rename]

end Value

/-! ## Readings -/

namespace Reading

variable {ε α β : Type}

/-- Where every reading changes in one way, the list of the readings does. -/
theorem mapM_map {read : α → Except ε β} {move : α → α} {change : β → β} {items : List α}
    (each : ∀ a ∈ items, read (move a) = (read a).map change) :
    (items.map move).mapM read = (items.mapM read).map (List.map change) := by
  induction items with
  | nil => rfl
  | cons a rest ih =>
    rw [List.forall_mem_cons] at each
    rw [List.map_cons, List.mapM_cons, List.mapM_cons, each.1, ih each.2]
    cases read a with
    | error e => rfl
    | ok b => cases rest.mapM read <;> rfl

end Reading

namespace Value

variable (r : String → String)

/-- What a value lists that is no list are texts, which are read as they were. -/
theorem readListed_rename {read : Value → Except Fault (List String)} (plain : ∀ s, read (.str s) = .ok [])
    {v : Value} (each : ∀ items, v = .arr items → ∀ item ∈ items,
      read (item.rename r) = (read item).map (List.map r)) :
    (v.rename r).readListed read = (v.readListed read).map (List.map r) := by
  cases v with
  | arr items =>
    have moved := Reading.mapM_map (each items rfl)
    rw [rename, readListed, readListed, Pattern.listed_arr, Pattern.listed_arr, renameItems_eq]
    simp only [bind, Except.bind, moved]
    cases items.mapM read with
    | error f => rfl
    | ok all => simp [Except.map, pure, Except.pure, List.map_flatten]
  | obj entries =>
    rw [rename, Pattern.readListed_obj plain, Pattern.readListed_obj plain]
    rfl
  | _ =>
    rw [rename, ← Pattern.noNames_eq plain (by simp)]
    · unfold Pattern.noNames
      cases listed _ <;> rfl
    all_goals simp

end Value

/-! ## Patterns and declarations -/

namespace Pattern

variable (r : String → String)

theorem identifierName_rename {v : Value} (identifier : v.nodeType = .identifier) :
    identifierName (v.rename r) = (identifierName v).map r := by
  unfold identifierName
  rw [Value.field_name_rename r identifier]
  cases v.field "name" <;> rfl

/-- A pattern binds the same names in the same order, each spelled otherwise. -/
theorem names_rename (v : Value) : names (v.rename r) = (names v).map (List.map r) := by
  rw [names_eq (v.rename r), names_eq v, v.nodeType_rename r]
  cases type : v.nodeType
  case identifier =>
    dsimp only
    rw [identifierName_rename r type]
    rfl
  case arrayPattern =>
    dsimp only
    rw [v.field_rename r (by decide)]
    apply Value.readListed_rename r (fun s => rfl)
    intro items list item member
    have leads : Leads v item := .element type list member
    exact names_rename item
  case objectPattern =>
    dsimp only
    rw [v.field_rename r (by decide)]
    apply Value.readListed_rename r (fun s => rfl)
    intro items list property member
    rw [propertyName_eq, propertyName_eq, property.nodeType_rename r]
    by_cases rest : property.nodeType = .restElement
    · have leads : Leads v property := .rest type list member rest
      rw [if_pos rest, if_pos rest]
      exact names_rename property
    · rw [if_neg rest, if_neg rest]
      cases property with
      | obj entries =>
        have leads : Leads v _ := .value type list member rfl rest
        rw [Value.field_rename r _ (by decide)]
        exact names_rename _
      | _ => rfl
  case assignmentPattern =>
    have leads : Leads v _ := .target type
    dsimp only
    rw [v.field_rename r (by decide)]
    exact names_rename _
  case restElement =>
    have leads : Leads v _ := .argument type
    dsimp only
    rw [v.field_rename r (by decide)]
    exact names_rename _
  all_goals rfl
termination_by sizeOf v
decreasing_by all_goals exact leads.sizeOf_lt

end Pattern

def Declaration.rename (r : String → String) (d : Declaration) : Declaration :=
  ⟨d.names.map r, d.target⟩

namespace Value

variable (r : String → String)

theorem namesThrough_rename (v : Value) {list part : String} (first : list ≠ "name")
    (second : part ≠ "name") :
    (v.rename r).namesThrough list part = (v.namesThrough list part).map (List.map r) := by
  rw [namesThrough_eq, namesThrough_eq, field_rename r v first]
  apply readListed_rename r (fun s => rfl)
  intro items _ item _
  rw [field_rename r item second, Pattern.names_rename]

theorem declaresId_rename (v : Value) (target : Target) :
    (v.rename r).declaresId target = (v.declaresId target).map (Option.map (Declaration.rename r)) := by
  rw [declaresId, declaresId, field_rename r v (by decide), Pattern.names_rename]
  cases Pattern.names (v.field "id") <;> rfl

theorem variableTarget_rename (v : Value) : (v.rename r).variableTarget = v.variableTarget := by
  unfold variableTarget
  rw [field_rename r v (by decide)]
  cases v.field "kind" <;> rfl

/-- A node makes the same declaration for the same scope, of the names spelled otherwise. -/
theorem declaration?_rename (v : Value) :
    (v.rename r).declaration? = v.declaration?.map (Option.map (Declaration.rename r)) := by
  unfold declaration?
  rw [lookupType_rename]
  cases v.lookupType with
  | error f => rfl
  | ok type =>
    cases type
    case variableDeclaration =>
      simp only [bind, Except.bind, variableTarget_rename,
        namesThrough_rename r v (show "declarations" ≠ "name" by decide) (show "id" ≠ "name" by decide)]
      cases v.namesThrough "declarations" "id" <;> rfl
    case importDeclaration =>
      simp only [bind, Except.bind,
        namesThrough_rename r v (show "specifiers" ≠ "name" by decide) (show "local" ≠ "name" by decide)]
      cases v.namesThrough "specifiers" "local" <;> rfl
    case functionDeclaration | functionExpression | classDeclaration | classExpression =>
      exact declaresId_rename r v _
    all_goals rfl

theorem ownNames_rename (v : Value) : (v.rename r).ownNames = v.ownNames.map (List.map r) := by
  have params : ((v.rename r).field "params").readListed Pattern.names =
      ((v.field "params").readListed Pattern.names).map (List.map r) := by
    rw [field_rename r v (by decide)]
    exact readListed_rename r (fun s => rfl) fun items _ item _ => Pattern.names_rename r item
  unfold ownNames
  rw [lookupType_rename]
  cases v.lookupType with
  | error f => rfl
  | ok type =>
    cases type
    case functionDeclaration | functionExpression | arrowFunction => exact params
    case catchClause =>
      simp only [bind, Except.bind, field_rename r v (show "param" ≠ "name" by decide),
        Pattern.names_rename]
    all_goals rfl

end Value

/-! ## Scopes -/

namespace Scope

/-- The scope with its names spelled otherwise, each where it stands first. -/
def rename (r : String → String) (s : Scope) : Scope := ofNames s.block (s.names.map r).eraseDups

variable (r : String → String)

@[simp]
theorem block_rename (s : Scope) : (s.rename r).block = s.block := rfl

theorem names_rename (s : Scope) : (s.rename r).names = (s.names.map r).eraseDups := rfl

/-- A name is declared as any name of the same spelling. -/
theorem define_rename (s : Scope) (name : String) :
    (s.define name).rename r = (s.rename r).define (r name) := by
  apply ext_names
  · simp
  · rw [names_rename, names_define, names_define, names_rename]
    by_cases known : name ∈ s.names
    · have spelled : r name ∈ (s.names.map r).eraseDups :=
        List.mem_eraseDups.mpr (List.mem_map_of_mem known)
      rw [if_pos known, if_pos spelled]
    · rw [if_neg known, List.map_append, List.eraseDups_append, List.map_singleton]
      generalize s.names.map r = spelled
      by_cases twice : r name ∈ spelled
      · simp [twice, List.cons_removeAll]
      · simp [twice, List.cons_removeAll, List.eraseDups_cons]

theorem defineAll_rename (s : Scope) (names : List String) :
    (s.defineAll names).rename r = (s.rename r).defineAll (names.map r) := by
  induction names generalizing s with
  | nil => rfl
  | cons name rest ih =>
    have first := ih (s.define name)
    rw [define_rename] at first
    exact first

end Scope

namespace OpenScopes

/-- The scopes with their names spelled otherwise. -/
def rename (r : String → String) (s : OpenScopes) : OpenScopes := s.map (Scope.rename r)

variable (r : String → String)

theorem blocks_rename (s : OpenScopes) : (s.rename r).blocks = s.blocks := by
  simp [blocks, rename]

theorem receive_rename (s : OpenScopes) (d : Declaration) :
    (s.receive d).rename r = (s.rename r).receive (d.rename r) := by
  have place : d.target.distance (s.rename r) = d.target.distance s :=
    d.target.distance_congr (blocks_rename r s)
  apply List.ext_getElem?
  intro i
  simp only [rename, receive, Declaration.rename, List.getElem?_map, List.getElem?_modify]
  rw [rename] at place
  rw [place]
  cases s[i]? with
  | none => rfl
  | some scope =>
    by_cases here : d.target.distance s = i
    · simp [here, Scope.defineAll_rename]
    · simp [here]

end OpenScopes

/-! ## Faults -/

namespace Position

/-- The place with every identifier in it spelled otherwise. -/
def rename (r : String → String) (p : Position) : Position := ⟨p.line.rename r, p.column.rename r⟩

variable (r : String → String)

theorem ofNode?_rename (v : Value) :
    ofNode? (v.rename r) = (ofNode? v).map (Option.map (rename r)) := by
  unfold ofNode?
  rw [v.field_rename r (show "loc" ≠ "name" by decide)]
  generalize v.field "loc" = location
  simp only [Value.isAbsent_rename, Value.isObject_rename,
    location.field_rename r (show "start" ≠ "name" by decide)]
  generalize location.field "start" = start
  simp only [start.field_rename r (show "line" ≠ "name" by decide),
    start.field_rename r (show "column" ≠ "name" by decide)]
  split
  · rfl
  split
  · rfl
  -- A place needs both its parts, and a part that is missing is still missing.
  cases start.field "line" <;> cases start.field "column" <;> rfl

end Position

namespace Fault

/-- The fault at the same node, with every identifier in the node spelled otherwise. -/
def rename (r : String → String) : Fault → Fault
  | .undeclarable v position => .undeclarable (v.rename r) (position.map (Position.rename r))
  | .unbalanced v position => .unbalanced (v.rename r) (position.map (Position.rename r))
  | f => f

variable (r : String → String)

theorem locating_rename (fault : Value → Option Position → Fault) (v : Value)
    (same : ∀ position, (fault v position).rename r = fault (v.rename r) (position.map (Position.rename r))) :
    locating fault (v.rename r) = (locating fault v).rename r := by
  rw [locating, locating, Position.ofNode?_rename]
  rcases Position.ofNode?_cases v with ⟨_, position, read⟩ | ⟨_, read⟩
  · rw [read]
    exact (same position).symm
  · rw [read]
    rfl

end Fault

/-! ## Calls -/

def Event.rename (r : String → String) (e : Event) : Event := ⟨e.phase, e.node.rename r⟩

/-- The same step among scopes whose names are spelled otherwise. -/
structure Step.Renamed (r : String → String) (a b : Step) : Prop where
  scopes : b.scopes = a.scopes.rename r
  fault : b.fault = a.fault.map (Fault.rename r)

variable (r : String → String)

namespace Step

theorem renamed_keep (s : OpenScopes) : Renamed r (.keep s) (.keep (s.rename r)) := ⟨rfl, rfl⟩

theorem renamed_fail (s : OpenScopes) {f g : Fault} (same : g = f.rename r) :
    Renamed r (.fail s f) (.fail (s.rename r) g) :=
  ⟨rfl, congrArg some same⟩

theorem Renamed.andThen {r : String → String} {a b : Step} {next other : OpenScopes → Step}
    (first : Renamed r a b) (second : Renamed r (next a.scopes) (other (a.scopes.rename r))) :
    Renamed r (a.andThen next) (b.andThen other) := by
  obtain ⟨scopes, fault⟩ := first
  cases outcome : a.fault with
  | some f =>
    rw [outcome] at fault
    rw [andThen_of_fault outcome, andThen_of_fault fault]
    exact ⟨scopes, by rw [fault, outcome]⟩
  | none =>
    rw [outcome] at fault
    constructor
    · rw [andThen_scopes outcome, andThen_scopes fault, scopes]
      exact second.scopes
    · rw [andThen_fault outcome, andThen_fault fault, scopes]
      exact second.fault

end Step

namespace OpenScopes

theorem declare_rename (s : OpenScopes) (v : Value) (d : Declaration) :
    Step.Renamed r (s.declare v d) ((s.rename r).declare (v.rename r) (d.rename r)) := by
  constructor
  · rw [declare_scopes, declare_scopes, receive_rename]
  · by_cases allowed : s = [] → d.names = []
    · have still : s.rename r = [] → (d.rename r).names = [] := by
        simpa [rename, Declaration.rename] using allowed
      rw [declare_fault _ _ _ allowed, declare_fault _ _ _ still]
      rfl
    · obtain ⟨rfl, named⟩ := Classical.not_imp.mp allowed
      have spelled : (d.rename r).names ≠ [] := by simpa [Declaration.rename] using named
      have located := Fault.locating_rename r .undeclarable v fun _ => rfl
      rw [declare_nil v named]
      show (declare [] (v.rename r) (d.rename r)).fault = _
      rw [declare_nil _ spelled, located]
      rfl

theorem declareOutside_rename (s : OpenScopes) (v : Value) :
    Step.Renamed r (s.declareOutside v) ((s.rename r).declareOutside (v.rename r)) := by
  unfold declareOutside
  rw [v.declaration?_rename r]
  cases read : v.declaration? with
  | error f => exact Step.renamed_fail r s (by cases (Value.declaration?_eq_error read).1 <;> rfl)
  | ok d =>
    cases d with
    | none => exact Step.renamed_keep r s
    | some d => exact declare_rename r s v d

theorem openScope_rename (s : OpenScopes) (v : Value) :
    Step.Renamed r (s.openScope v) ((s.rename r).openScope (v.rename r)) := by
  unfold openScope
  rw [v.scopeKind?_rename r]
  cases read : v.scopeKind? with
  | error f => exact Step.renamed_fail r s (by cases (Value.scopeKind?_eq_error read).1 <;> rfl)
  | ok kind =>
    cases kind with
    | none => exact Step.renamed_keep r s
    | some kind =>
      have pushed : Step.Renamed r (s.push v kind) ((s.rename r).push (v.rename r) kind) := ⟨rfl, rfl⟩
      refine pushed.andThen ?_
      unfold declareOwn
      rw [v.ownNames_rename r]
      cases own : v.ownNames with
      | error f => exact Step.renamed_fail r _ (by cases (Value.ownNames_eq_error own).1 <;> rfl)
      | ok names => exact declare_rename r _ v ⟨names, .own⟩

theorem pop_rename (s : OpenScopes) (v : Value) :
    Step.Renamed r (s.pop v) ((s.rename r).pop (v.rename r)) := by
  have located := Fault.locating_rename r .unbalanced v fun _ => rfl
  match s with
  | [] => exact Step.renamed_fail r [] located
  | [scope] => exact Step.renamed_fail r [scope] located
  | scope :: next :: rest => exact ⟨rfl, rfl⟩

theorem leave_rename (s : OpenScopes) (v : Value) :
    Step.Renamed r (s.leave v) ((s.rename r).leave (v.rename r)) := by
  unfold leave
  rw [v.scopeKind?_rename r, v.nodeType_rename r]
  cases read : v.scopeKind? with
  | error f => exact Step.renamed_fail r s (by cases (Value.scopeKind?_eq_error read).1 <;> rfl)
  | ok kind =>
    cases kind with
    | none => exact Step.renamed_keep r s
    | some kind =>
      by_cases program : v.nodeType = .program
      · simp only [program, if_true]
        exact Step.renamed_keep r s
      · simp only [program, if_false]
        exact pop_rename r s v

theorem step_rename (s : OpenScopes) (e : Event) :
    Step.Renamed r (s.step e) ((s.rename r).step (e.rename r)) := by
  obtain ⟨phase, v⟩ := e
  cases phase with
  | enter =>
    have opened := openScope_rename r (s.declareOutside v).scopes v
    show Step.Renamed r ((s.declareOutside v).andThen (openScope · v)) (enter (s.rename r) (v.rename r))
    exact (declareOutside_rename r s v).andThen opened
  | leave => exact leave_rename r s v

/-! ## Walks -/

theorem run_rename (s : OpenScopes) (events : List Event) :
    Step.Renamed r (s.run events) ((s.rename r).run (events.map (Event.rename r))) := by
  induction events generalizing s with
  | nil => exact Step.renamed_keep r s
  | cons e rest ih => exact (step_rename r s e).andThen (ih _)

theorem history_rename (s : OpenScopes) (events : List Event) :
    history (s.rename r) (events.map (Event.rename r)) =
      (s.history events).map fun (scopes, e) => (scopes.rename r, e.rename r) := by
  induction events generalizing s with
  | nil => rfl
  | cons e rest ih =>
    obtain ⟨scopes, fault⟩ := step_rename r s e
    rw [List.map_cons, history, history, List.map_cons, fault, scopes]
    cases (s.step e).fault with
    | some f => rfl
    | none => simpa using ih (s.step e).scopes

end OpenScopes

def Closing.rename (r : String → String) (c : Closing) : Closing :=
  ⟨c.type, c.depth, c.scope.rename r⟩

namespace OpenScopes

theorem closing?_rename (s : OpenScopes) (e : Event) :
    (s.rename r).closing? (e.rename r) = (s.closing? e).map (Closing.rename r) := by
  obtain ⟨phase, v⟩ := e
  unfold closing? Event.rename
  dsimp only
  rw [v.scopeKind?_rename r]
  cases phase with
  | enter => rfl
  | leave =>
    cases read : v.scopeKind? with
    | error f => rfl
    | ok kind =>
      cases kind with
      | none => rfl
      | some kind =>
        have known := Value.known_of_opens (Value.opens_of_scopeKind? read)
        cases s with
        | nil => rfl
        | cons scope rest => simp [rename, Closing.rename, Value.type_rename r known]

end OpenScopes

namespace Walk

theorem observe_respell (hooks : Hooks) (v : Value) : observe hooks (v.respell r) = observe hooks v := by
  cases v <;> rfl

mutual

theorem observe_rename (hooks : Hooks) (v : Value) :
    observe hooks (v.rename r) = (observe hooks v).map (Event.rename r) := by
  match v with
  | .arr items =>
    rw [Value.rename, observe, observe]
    exact observeItems_rename hooks items
  | .obj entries =>
    have typed := Value.hasField_rename r (.obj entries) "type"
    rw [Value.rename] at typed ⊢
    rw [observe, observe, typed, observeEntries_rename hooks _ entries]
    split
    · cases hooks.enter <;> cases hooks.leave <;> simp [Event.rename, Value.rename]
    · rfl
  | .null | .bool _ | .int _ | .float _ | .str _ | .regex => rfl

theorem observeItems_rename (hooks : Hooks) (items : List Value) :
    observeItems hooks (Value.renameItems r items) = (observeItems hooks items).map (Event.rename r) := by
  match items with
  | [] => rfl
  | v :: rest =>
    rw [Value.renameItems, observeItems, observeItems, observe_rename hooks v, observeItems_rename hooks rest,
      List.map_append]

/-- The name of an identifier is a text or holds the nodes that it held. -/
theorem observeEntries_rename (hooks : Hooks) (identifier : Bool) (entries : List (String × Value)) :
    observeEntries hooks (Value.renameEntries r identifier entries) =
      (observeEntries hooks entries).map (Event.rename r) := by
  match entries with
  | [] => rfl
  | (key, v) :: rest =>
    have inner := observe_rename hooks v
    have same : observe hooks (if identifier && key == "name" then (v.rename r).respell r else v.rename r) =
        (observe hooks v).map (Event.rename r) := by
      split
      · rw [observe_respell, inner]
      · exact inner
    rw [Value.renameEntries, observeEntries, observeEntries, same, observeEntries_rename hooks identifier rest,
      List.map_append]
    split <;> rfl

end

theorem trace_rename (tree : Value) : trace (tree.rename r) = (trace tree).map (Event.rename r) :=
  observe_rename r _ tree

end Walk

namespace OpenScopes

/-- Spelling does not concern scopes. With every identifier of a tree spelled otherwise, several of
    them alike or not, a walk reaches the same events, each with the same scopes open but for the
    spelling of their names: as many, of the same flavours, each with its names spelled otherwise, a
    repetition left out. The same scopes are closed and the same are open in the end. One walk stops
    where the other does, for the same cause at the same node. -/
theorem walk_rename (tree : Value) :
    history [] (Walk.trace (tree.rename r)) =
        (history [] (Walk.trace tree)).map (fun (scopes, e) => (scopes.rename r, e.rename r)) ∧
      closings [] (tree.rename r) = (closings [] tree).map (Closing.rename r) ∧
      (walk [] (tree.rename r)).scopes = (walk [] tree).scopes.rename r ∧
      (walk [] (tree.rename r)).fault = (walk [] tree).fault.map (Fault.rename r) := by
  obtain ⟨scopes, fault⟩ := run_rename r [] (Walk.trace tree)
  have reached := history_rename r [] (Walk.trace tree)
  rw [← Walk.trace_rename] at scopes fault reached
  refine ⟨reached, ?_, scopes, fault⟩
  rw [closings, closings, List.map_filterMap]
  show (history (rename r []) (Walk.trace (tree.rename r))).filterMap _ = _
  rw [reached, List.filterMap_map]
  congr 1
  funext pair
  exact closing?_rename r pair.1 pair.2

end OpenScopes

end LexicalScope
