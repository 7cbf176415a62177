import LexicalScope.Declaration

/-!
The readings of a node that the calls go by: the scope it opens, the declarations it makes around
itself and its parameters. A node is readable when none of the three is a fault. `Declares` lists
the declarations that a node can make, and for which scope it makes them.
-/

namespace LexicalScope

namespace Value

/-- The flavour of the scope that a node opens. -/
def opens (v : Value) : Option ScopeKind := v.nodeType.scopeKind?

/-- Leaving the node closes its scope: every scope but that of a program. -/
def closes (v : Value) : Bool := v.opens.isSome && v.nodeType ≠ .program

/-- The declarations of a node, none when they cannot be read. -/
def declared (v : Value) : List Declaration :=
  match v.declaration? with
  | .ok (some d) => [d]
  | _ => []

/-- The names that a node declares for the scopes around it. -/
def declaredNames (v : Value) : List String := v.declared.flatMap (·.names)

/-- The parameters of a node, none when they cannot be read. -/
def parameters (v : Value) : List String :=
  match v.ownNames with
  | .ok names => names
  | .error _ => []

/-- The type of a node, its declarations and its parameters can be read. -/
structure Readable (v : Value) : Prop where
  kind : ∃ kind, v.scopeKind? = .ok kind
  declaration : ∃ d, v.declaration? = .ok d
  own : ∃ names, v.ownNames = .ok names

/-- The declarations that a node can make. -/
inductive Declares (v : Value) : Declaration → Prop where
  | vars {names : List String} (type : v.nodeType = .variableDeclaration)
      (bound : v.namesThrough "declarations" "id" = .ok names) : Declares v ⟨names, v.variableTarget⟩
  | function {names : List String} (type : v.nodeType = .functionDeclaration)
      (bound : Pattern.names (v.field "id") = .ok names) : Declares v ⟨names, .function⟩
  | expression {names : List String}
      (type : v.nodeType ∈ [.functionExpression, .classDeclaration, .classExpression])
      (bound : Pattern.names (v.field "id") = .ok names) : Declares v ⟨names, .current⟩
  | imports {names : List String} (type : v.nodeType = .importDeclaration)
      (bound : v.namesThrough "specifiers" "local" = .ok names) : Declares v ⟨names, .outermost⟩

/-- The local names of an import, none for any other node. -/
def importedNames (v : Value) : List String :=
  if v.nodeType = .importDeclaration then
    match v.namesThrough "specifiers" "local" with
    | .ok names => names
    | .error _ => []
  else []

/-! ## Types -/

theorem nodeType_of_composite {v : Value} (composite : v.hasCompositeType = true) :
    v.nodeType = .other := by
  unfold hasCompositeType at composite
  unfold nodeType
  split at composite <;> simp_all

theorem parameters_eq {v : Value} {own : List String} (read : v.ownNames = .ok own) :
    v.parameters = own := by
  rw [parameters, read]

/-- Every type of node that matters is written in the node. -/
theorem hasField_type {v : Value} (known : v.nodeType ≠ .other) : v.hasField "type" = true := by
  cases v with
  | obj entries =>
    cases found : entries.lookup "type" with
    | none => exact absurd (by simp [nodeType, field, found]) known
    | some type => simp [hasField, found]
  | _ => exact absurd rfl known

theorem lookupType_of_known {v : Value} (known : v.nodeType ≠ .other) :
    v.lookupType = .ok v.nodeType := by
  rw [lookupType, if_neg]
  intro composite
  exact known (nodeType_of_composite composite)

theorem scopeKind?_eq (v : Value) :
    v.scopeKind? = if v.hasCompositeType then .error .compositeType else .ok v.opens := by
  unfold scopeKind? lookupType
  split <;> rfl

theorem lookupType_of_scopeKind? {v : Value} {kind : Option ScopeKind}
    (known : v.scopeKind? = .ok kind) : v.lookupType = .ok v.nodeType := by
  rw [scopeKind?_eq] at known
  rw [lookupType]
  split at known
  · cases known
  · rw [if_neg (by assumption)]

theorem opens_of_scopeKind? {v : Value} {kind : Option ScopeKind}
    (known : v.scopeKind? = .ok kind) : v.opens = kind := by
  rw [scopeKind?, lookupType_of_scopeKind? known] at known
  exact Except.ok.inj known

theorem Readable.scopeKind? {v : Value} (readable : v.Readable) : v.scopeKind? = .ok v.opens := by
  obtain ⟨kind, known⟩ := readable.kind
  rw [known, opens_of_scopeKind? known]

theorem Readable.lookupType {v : Value} (readable : v.Readable) : v.lookupType = .ok v.nodeType :=
  lookupType_of_scopeKind? readable.scopeKind?

/-- A type that opens a scope is a type that matters. -/
theorem known_of_opens {v : Value} {kind : ScopeKind} (opens : v.opens = some kind) :
    v.nodeType ≠ .other := by
  intro other
  rw [Value.opens, other] at opens
  cases opens

theorem hasField_of_program {v : Value} (program : v.nodeType = .program) :
    v.hasField "type" = true := by
  apply hasField_type
  rw [program]
  decide

/-- A program declares nothing around it and has no parameters. -/
theorem readable_of_program {v : Value} (program : v.nodeType = .program) :
    v.Readable ∧ v.declared = [] ∧ v.parameters = [] ∧ v.opens = some .function := by
  have type : v.lookupType = .ok .program := by
    rw [lookupType_of_known (by rw [program]; decide), program]
  have declaration : v.declaration? = .ok none := by rw [declaration?, type]; rfl
  have own : v.ownNames = .ok [] := by rw [ownNames, type]; rfl
  have kind : v.scopeKind? = .ok (some .function) := by rw [Value.scopeKind?, type]; rfl
  refine ⟨⟨⟨_, kind⟩, ⟨_, declaration⟩, ⟨_, own⟩⟩, ?_, ?_, ?_⟩
  · rw [declared, declaration]
  · rw [parameters, own]
  · exact opens_of_scopeKind? kind

/-- Only a node that opens a scope has parameters to read. -/
theorem ownNames_of_opens_none {v : Value} (simple : v.scopeKind? = .ok none) :
    v.ownNames = .ok [] := by
  have none : v.nodeType.scopeKind? = none := opens_of_scopeKind? simple
  rw [ownNames, lookupType_of_scopeKind? simple]
  cases type : v.nodeType <;> rw [type] at none <;> first | rfl | cases none

/-! ## Declarations -/

theorem declaresId_eq_some_iff {v : Value} {target : Target} {d : Declaration} :
    v.declaresId target = .ok (some d) ↔
      ∃ names, Pattern.names (v.field "id") = .ok names ∧ d = ⟨names, target⟩ := by
  unfold declaresId
  cases bound : Pattern.names (v.field "id") with
  | error fault => simp [bind, Except.bind]
  | ok names => simp [bind, Except.bind, pure, Except.pure, eq_comm]

/-- A node makes exactly the declarations that are read off it. -/
theorem declaration?_eq_some_iff {v : Value} {d : Declaration} :
    v.declaration? = .ok (some d) ↔ v.Declares d := by
  constructor
  · intro read
    by_cases composite : v.hasCompositeType = true
    · simp [declaration?, lookupType, composite, bind, Except.bind] at read
    rw [declaration?, lookupType, if_neg composite] at read
    cases type : v.nodeType <;> rw [type] at read
    case variableDeclaration =>
      cases bound : v.namesThrough "declarations" "id" <;> rw [bound] at read <;> cases read
      exact .vars type bound
    case importDeclaration =>
      cases bound : v.namesThrough "specifiers" "local" <;> rw [bound] at read <;> cases read
      exact .imports type bound
    case functionDeclaration =>
      obtain ⟨names, bound, rfl⟩ := declaresId_eq_some_iff.mp read
      exact .function type bound
    case functionExpression | classDeclaration | classExpression =>
      obtain ⟨names, bound, rfl⟩ := declaresId_eq_some_iff.mp read
      exact .expression (by simp [type]) bound
    all_goals cases read
  · intro declares
    cases declares with
    | vars type bound =>
      rw [declaration?, lookupType_of_known (by rw [type]; decide), type]
      simp [bind, Except.bind, pure, Except.pure, bound]
    | imports type bound =>
      rw [declaration?, lookupType_of_known (by rw [type]; decide), type]
      simp [bind, Except.bind, pure, Except.pure, bound]
    | function type bound =>
      rw [declaration?, lookupType_of_known (by rw [type]; decide), type]
      exact declaresId_eq_some_iff.mpr ⟨_, bound, rfl⟩
    | expression type bound =>
      have known : v.nodeType ≠ .other := by intro other; simp [other] at type
      rw [declaration?, lookupType_of_known known]
      simp only [List.mem_cons, List.not_mem_nil, or_false] at type
      rcases type with type | type | type <;> rw [type] <;>
        exact declaresId_eq_some_iff.mpr ⟨_, bound, rfl⟩

theorem mem_declared_iff {v : Value} {d : Declaration} : d ∈ v.declared ↔ v.Declares d := by
  rw [← declaration?_eq_some_iff, declared]
  cases read : v.declaration? with
  | error fault => simp
  | ok made => cases made <;> simp [eq_comm]

theorem Declares.declared_eq {v : Value} {d : Declaration} (declares : v.Declares d) :
    v.declared = [d] := by
  rw [declared, declaration?_eq_some_iff.mpr declares]

/-- A node whose declarations can be read has a type that can be looked up. -/
theorem scopeKind?_of_declaration? {v : Value} {made : Option Declaration}
    (read : v.declaration? = .ok made) : v.scopeKind? = .ok v.opens := by
  rw [scopeKind?_eq, if_neg]
  intro composite
  rw [declaration?, lookupType, if_pos composite] at read
  cases read

theorem Declares.target_ne_own {v : Value} {d : Declaration} (declares : v.Declares d) :
    d.target ≠ .own := by
  cases declares with
  | vars => simp only [variableTarget]; split <;> simp
  | _ => simp

/-- The names that a node declares for the outermost scope are those that it imports. -/
theorem declared_outermost (v : Value) :
    (v.declared.filter fun d => d.target = .outermost).flatMap (·.names) = v.importedNames := by
  cases read : v.declared with
  | nil =>
    unfold importedNames
    split
    · rename_i type
      cases bound : v.namesThrough "specifiers" "local" with
      | error fault => rfl
      | ok names =>
        have member := mem_declared_iff.mpr (Declares.imports type bound)
        rw [read] at member
        cases member
    · rfl
  | cons d rest =>
    have single : rest = [] := by
      unfold declared at read
      split at read <;> cases read
      rfl
    have declares : v.Declares d := mem_declared_iff.mp (by rw [read]; exact List.mem_cons_self)
    rw [single]
    unfold importedNames
    cases declares with
    | imports type bound => simp [type, bound]
    | vars type =>
      have inner : v.variableTarget ≠ .outermost := by unfold variableTarget; split <;> simp
      simp [type, inner]
    | function type => simp [type]
    | expression type =>
      have other : v.nodeType ≠ .importDeclaration := by intro same; simp [same] at type
      simp [other]

theorem declared_of_id {v : Value} {target : Target} (readable : v.Readable)
    (read : v.declaration? = v.declaresId target) :
    ∃ names, Pattern.names (v.field "id") = .ok names ∧ v.declared = [⟨names, target⟩] := by
  obtain ⟨d, known⟩ := readable.declaration
  unfold declared
  rw [read, declaresId] at known ⊢
  cases bound : Pattern.names (v.field "id") with
  | error fault => rw [bound] at known; cases known
  | ok names => exact ⟨names, rfl, rfl⟩

theorem declared_functionDeclaration {v : Value} (readable : v.Readable)
    (type : v.nodeType = .functionDeclaration) :
    ∃ names, Pattern.names (v.field "id") = .ok names ∧ v.declared = [⟨names, .function⟩] := by
  apply declared_of_id readable
  rw [declaration?, readable.lookupType, type]
  rfl

theorem declared_functionExpression {v : Value} (readable : v.Readable)
    (type : v.nodeType = .functionExpression) :
    ∃ names, Pattern.names (v.field "id") = .ok names ∧ v.declared = [⟨names, .current⟩] := by
  apply declared_of_id readable
  rw [declaration?, readable.lookupType, type]
  rfl

theorem declared_arrowFunction {v : Value} (readable : v.Readable)
    (type : v.nodeType = .arrowFunction) : v.declared = [] := by
  rw [declared, declaration?, readable.lookupType, type]
  rfl

/-- A block declares nothing around it. -/
theorem declared_of_block {v : Value} (readable : v.Readable) (block : v.opens = some .block) :
    v.declared = [] := by
  rw [declared, declaration?, readable.lookupType]
  unfold opens at block
  cases type : v.nodeType <;> rw [type] at block <;> first | rfl | cases block

end Value

end LexicalScope
