import LexicalScope.Proofs.Malformed

/-!
A call does up to three things: it records the declarations of the node, opens its scope, and
records the parameters there; leaving does one, closing a scope. It can stop before each of them.
`Entering` and `Leaving` list the ways in which the two calls can end, with the scopes and the fault
that each way leaves, in terms of what the node declares and of which open scope a target means. Every
call ends in exactly one of these ways, and with just that outcome (`call_exact`).
-/

namespace LexicalScope

/-! ## Which scope receives a name -/

namespace OpenScopes

/-- Hoisted names go to one scope only. -/
theorem HoistsTo.eq_distance {s : OpenScopes} {i : Nat} (hoists : s.HoistsTo i) :
    i = Target.function.distance s := by
  cases hoists with
  | function scope here opens inner =>
    obtain ⟨inside, rfl⟩ := List.getElem?_eq_some_iff.mp here
    have first : s.findIdx (fun scope => !scope.block) = i := by
      rw [List.findIdx_eq inside]
      refine ⟨by simp [opens], ?_⟩
      intro j before
      have passed := inner s[j] (List.mem_take_iff_getElem.mpr ⟨j, by omega, rfl⟩)
      simp [passed]
    simp only [Target.distance, first]
    omega
  | outermost nowhere last =>
    have none : s.findIdx (fun scope => !scope.block) = s.length := by
      rw [List.findIdx_eq_length]
      intro scope member
      simp [nowhere scope member]
    simp only [Target.distance, none]
    omega

end OpenScopes

namespace Target

/-- The open scope that a target means, counted from the innermost. -/
inductive Means (s : OpenScopes) : Target → Nat → Prop where
  | current (opened : s ≠ []) : Means s .current 0
  | function {i : Nat} (hoists : s.HoistsTo i) : Means s .function i
  | outermost {i : Nat} (last : i + 1 = s.length) : Means s .outermost i

theorem Means.eq_distance {s : OpenScopes} {target : Target} {i : Nat} (means : target.Means s i) :
    i = target.distance s := by
  cases means with
  | current => rfl
  | function hoists => exact hoists.eq_distance
  | outermost last => simp only [distance]; omega

theorem Means.opened {s : OpenScopes} {target : Target} {i : Nat} (means : target.Means s i) :
    s ≠ [] := by
  rintro rfl
  cases means with
  | current opened => exact opened rfl
  | function hoists =>
    cases hoists with
    | function scope here => cases here
    | outermost _ last => cases last
  | outermost last => cases last

theorem means_distance {s : OpenScopes} (opened : s ≠ []) {target : Target} (around : target ≠ .own) :
    target.Means s (target.distance s) := by
  have positive : 0 < s.length := List.length_pos_iff.mpr opened
  cases target with
  | current => exact .current opened
  | function => exact .function (OpenScopes.distance_hoistsTo opened)
  | outermost => exact .outermost (by simp only [distance]; omega)
  | own => exact absurd rfl around

end Target

/-! ## Hooks called out of turn -/

namespace Fault

/-- The fault of a hook called out of turn at a node: it tells the node and its place, unless the
    location of the node cannot be read. -/
inductive Misplaced (turn : Value → Option Position → Fault) (v : Value) : Fault → Prop where
  | placed {position : Option Position} (read : Position.ofNode? v = .ok position) :
      Misplaced turn v (turn v position)
  | unlocated (malformed : ¬ v.Located) : Misplaced turn v .notAnObject

theorem misplaced_iff {turn : Value → Option Position → Fault} {v : Value} {fault : Fault} :
    Misplaced turn v fault ↔ fault = locating turn v := by
  rcases Position.ofNode?_cases v with ⟨located, position, read⟩ | ⟨unlocated, read⟩
  · rw [locating, read]
    constructor
    · rintro (again | malformed)
      · rw [read] at again
        cases again
        rfl
      · exact absurd located malformed
    · rintro rfl
      exact .placed read
  · rw [locating, read]
    constructor
    · rintro (again | malformed)
      · rw [read] at again
        cases again
      · rfl
    · rintro rfl
      exact .unlocated unlocated

end Fault

namespace OpenScopes

/-! ## Declarations -/

/-- The scopes once the declarations of a node have been made: those of before, but for the names that
    the receiving scope lacked and now has at its end. -/
inductive Recorded (s : OpenScopes) (v : Value) : OpenScopes → Prop where
  | nothing (read : v.declaration? = .ok none) : Recorded s v s
  | nameless {d : Declaration} (declares : v.Declares d) (nameless : d.names = []) : Recorded s v s
  | names {d : Declaration} {i : Nat} (declares : v.Declares d) (named : d.names ≠ [])
      (means : d.target.Means s i) : Recorded s v (s.modify i (·.extend d.names))

theorem receive_eq_extend (s : OpenScopes) (d : Declaration) :
    s.receive d = s.modify (d.target.distance s) (·.extend d.names) := by
  simp only [receive, Scope.defineAll_eq_extend]

/-- Making the declarations of a node succeeds exactly when they are recorded. -/
theorem recorded_iff {s t : OpenScopes} {v : Value} :
    Recorded s v t ↔ (s.declareOutside v).fault = none ∧ t = s.receiveAll v.declared := by
  constructor
  · rintro (read | ⟨declares, nameless⟩ | ⟨declares, named, means⟩)
    · refine ⟨?_, by rw [Value.declared, read]; rfl⟩
      rw [declareOutside, read]
      rfl
    · have read := Value.declaration?_eq_some_iff.mpr declares
      refine ⟨?_, ?_⟩
      · rw [declareOutside, read]
        exact declare_fault s v _ fun _ => nameless
      · rw [declares.declared_eq]
        exact (receive_nameless s nameless).symm
    · have read := Value.declaration?_eq_some_iff.mpr declares
      refine ⟨?_, ?_⟩
      · rw [declareOutside, read]
        exact declare_fault s v _ fun closed => absurd closed means.opened
      · rw [declares.declared_eq, means.eq_distance]
        exact (receive_eq_extend s _).symm
  · rintro ⟨fine, rfl⟩
    obtain ⟨⟨made, read⟩, allowed⟩ := (declareOutside_fault_none_iff s v).mp fine
    cases made with
    | none =>
      have nothing : v.declared = [] := by rw [Value.declared, read]
      rw [nothing]
      exact .nothing read
    | some d =>
      have declares := Value.declaration?_eq_some_iff.mp read
      rw [declares.declared_eq]
      by_cases nameless : d.names = []
      · have same : s.receiveAll [d] = s := receive_nameless s nameless
        rw [same]
        exact .nameless declares nameless
      · have opened : s ≠ [] := by
          intro closed
          have none := allowed closed
          rw [Value.declaredNames, declares.declared_eq] at none
          exact nameless (by simpa using none)
        have extended : s.receiveAll [d] = _ := receive_eq_extend s d
        rw [extended]
        exact .names declares nameless (Target.means_distance opened declares.target_ne_own)

/-! ## Entering -/

/-- How entering a node can end. -/
inductive Entrance where
  /-- The call returns. -/
  | done
  /-- The type or the declarations of the node cannot be read. -/
  | unread
  /-- There are names, and no scope to receive them. -/
  | homeless
  /-- The parameters cannot be read, and the scope is open already. -/
  | halfway
deriving DecidableEq

/-- What entering a node leaves, for every way in which it can end. -/
inductive Entering (s : OpenScopes) (v : Value) : Entrance → OpenScopes → Option Fault → Prop where
  | simple {t : OpenScopes} (recorded : Recorded s v t) (closed : v.scopeKind? = .ok none) :
      Entering s v .done t none
  | scope {t : OpenScopes} {kind : ScopeKind} {own : List String} (recorded : Recorded s v t)
      (opens : v.scopeKind? = .ok (some kind)) (read : v.ownNames = .ok own) :
      Entering s v .done (.ofNames (kind = .block) own.eraseDups :: t) none
  | unread {fault : Fault} (failed : v.declaration? = .error fault) (shape : fault.OfShape) :
      Entering s v .unread s (some fault)
  | homeless {d : Declaration} {fault : Fault} (closed : s = []) (declares : v.Declares d)
      (named : d.names ≠ []) (turn : Fault.Misplaced .undeclarable v fault) :
      Entering s v .homeless [] (some fault)
  | halfway {t : OpenScopes} {kind : ScopeKind} {fault : Fault} (recorded : Recorded s v t)
      (opens : v.scopeKind? = .ok (some kind)) (failed : v.ownNames = .error fault)
      (shape : fault.OfShape) : Entering s v .halfway (.empty (kind = .block) :: t) (some fault)

/-- Which way it is, told by where the call stops. -/
def entrance (s : OpenScopes) (v : Value) : Entrance :=
  match v.declaration?, (s.declareOutside v).fault, v.ownNames with
  | .error _, _, _ => .unread
  | .ok _, some _, _ => .homeless
  | .ok _, none, .error _ => .halfway
  | .ok _, none, .ok _ => .done

theorem enter_unread {s : OpenScopes} {v : Value} {fault : Fault}
    (failed : v.declaration? = .error fault) : s.enter v = .fail s fault := by
  have outside : s.declareOutside v = .fail s fault := by rw [declareOutside, failed]
  rw [enter, Step.andThen_of_fault (by rw [outside]; rfl), outside]

theorem declareOutside_homeless {v : Value} {d : Declaration} (declares : v.Declares d)
    (named : d.names ≠ []) :
    declareOutside [] v = .fail [] (Fault.locating .undeclarable v) := by
  rw [declareOutside, Value.declaration?_eq_some_iff.mpr declares]
  exact declare_nil v named

theorem enter_homeless {v : Value} {d : Declaration} (declares : v.Declares d) (named : d.names ≠ []) :
    enter [] v = .fail [] (Fault.locating .undeclarable v) := by
  have outside := declareOutside_homeless declares named
  rw [enter, Step.andThen_of_fault (by rw [outside]; rfl), outside]

/-- Once the declarations are recorded, the scope is opened. -/
theorem enter_recorded {s t : OpenScopes} {v : Value} (recorded : Recorded s v t) :
    (s.enter v).scopes = (t.openScope v).scopes ∧ (s.enter v).fault = (t.openScope v).fault := by
  obtain ⟨fine, rfl⟩ := recorded_iff.mp recorded
  rw [enter, Step.andThen_scopes fine, Step.andThen_fault fine, declareOutside_scopes]
  exact ⟨rfl, rfl⟩

theorem openScope_opens {s : OpenScopes} {v : Value} {kind : ScopeKind}
    (opens : v.scopeKind? = .ok (some kind)) :
    (s.openScope v).scopes = (declareOwn (.empty (kind = .block) :: s) v).scopes ∧
      (s.openScope v).fault = (declareOwn (.empty (kind = .block) :: s) v).fault := by
  rw [openScope, opens]
  exact ⟨Step.andThen_scopes rfl _, Step.andThen_fault rfl _⟩

/-- The parameters of a new scope are its names, each once. -/
theorem declareOwn_new {s : OpenScopes} {v : Value} {block : Bool} {own : List String}
    (read : v.ownNames = .ok own) :
    (declareOwn (.empty block :: s) v).scopes = .ofNames block own.eraseDups :: s ∧
      (declareOwn (.empty block :: s) v).fault = none := by
  constructor
  · rw [declareOwn_scopes, Value.parameters_eq read, Scope.defineAll_eq_extend]
    simp [Scope.extend]
  · rw [declareOwn, read]
    exact declare_fault _ v _ fun closed => absurd closed (List.cons_ne_nil _ _)

/-- Once the declarations are recorded, only the parameters can stop the call. -/
theorem entrance_recorded {s t : OpenScopes} {v : Value} (recorded : Recorded s v t) :
    s.entrance v =
      match v.ownNames with
      | .error _ => .halfway
      | .ok _ => .done := by
  obtain ⟨fine, _⟩ := recorded_iff.mp recorded
  obtain ⟨⟨made, read⟩, _⟩ := (declareOutside_fault_none_iff s v).mp fine
  rw [entrance, read, fine]
  cases v.ownNames <;> rfl

theorem Entering.exact {s t : OpenScopes} {v : Value} {way : Entrance} {fault : Option Fault}
    (entering : Entering s v way t fault) :
    way = s.entrance v ∧ t = (s.enter v).scopes ∧ fault = (s.enter v).fault := by
  cases entering with
  | simple recorded closed =>
    obtain ⟨scopes, fault⟩ := enter_recorded recorded
    rw [scopes, fault, openScope, closed, entrance_recorded recorded,
      Value.ownNames_of_opens_none closed]
    exact ⟨rfl, rfl, rfl⟩
  | scope recorded opens own =>
    obtain ⟨scopes, fault⟩ := enter_recorded recorded
    rw [scopes, fault, (openScope_opens opens).1, (openScope_opens opens).2, (declareOwn_new own).1,
      (declareOwn_new own).2, entrance_recorded recorded, own]
    exact ⟨rfl, rfl, rfl⟩
  | unread failed =>
    rw [enter_unread failed, entrance, failed]
    exact ⟨rfl, rfl, rfl⟩
  | homeless closed declares named turn =>
    rw [closed, enter_homeless declares named, Fault.misplaced_iff.mp turn, entrance,
      Value.declaration?_eq_some_iff.mpr declares, declareOutside_homeless declares named]
    exact ⟨rfl, rfl, rfl⟩
  | halfway recorded opens failed =>
    obtain ⟨scopes, fault⟩ := enter_recorded recorded
    rw [scopes, fault, (openScope_opens opens).1, (openScope_opens opens).2,
      entrance_recorded recorded, declareOwn, failed]
    exact ⟨rfl, rfl, rfl⟩

/-- Every call ends in one of the ways. -/
theorem exists_entering (s : OpenScopes) (v : Value) : ∃ way t fault, Entering s v way t fault := by
  cases read : v.declaration? with
  | error fault => exact ⟨_, _, _, .unread read (Value.declaration?_eq_error read).1⟩
  | ok made =>
    cases outside : (s.declareOutside v).fault with
    | none =>
      have recorded := recorded_iff.mpr ⟨outside, rfl⟩
      have kind := Value.scopeKind?_of_declaration? read
      cases opens : v.opens with
      | none => exact ⟨_, _, _, .simple recorded (opens ▸ kind)⟩
      | some flavour =>
        cases own : v.ownNames with
        | ok names => exact ⟨_, _, _, .scope recorded (opens ▸ kind) own⟩
        | error fault =>
          exact ⟨_, _, _, .halfway recorded (opens ▸ kind) own (Value.ownNames_eq_error own).1⟩
    | some fault =>
      -- The declarations can be read, so that only names without a scope are left.
      have homeless : ¬ (s = [] → v.declaredNames = []) := by
        intro allowed
        have fine := (declareOutside_fault_none_iff s v).mpr ⟨⟨made, read⟩, allowed⟩
        rw [fine] at outside
        cases outside
      obtain ⟨closed, named⟩ := Classical.not_imp.mp homeless
      cases made with
      | none => simp [Value.declaredNames, Value.declared, read] at named
      | some d =>
        have names : d.names ≠ [] := by simpa [Value.declaredNames, Value.declared, read] using named
        exact ⟨_, _, _, .homeless closed (Value.declaration?_eq_some_iff.mp read) names
          (Fault.misplaced_iff.mpr rfl)⟩

theorem entering_iff {s t : OpenScopes} {v : Value} {way : Entrance} {fault : Option Fault} :
    Entering s v way t fault ↔
      way = s.entrance v ∧ t = (s.enter v).scopes ∧ fault = (s.enter v).fault := by
  constructor
  · exact Entering.exact
  · obtain ⟨way', t', fault', entering⟩ := exists_entering s v
    obtain ⟨rfl, rfl, rfl⟩ := entering.exact
    rintro ⟨rfl, rfl, rfl⟩
    exact entering

/-! ## Leaving -/

/-- How leaving a node can end. -/
inductive Departure where
  /-- There is no scope to close. -/
  | kept
  /-- The innermost scope is closed. -/
  | closed
  /-- The type of the node cannot be read. -/
  | unread
  /-- The scope to be closed would be the last one, or there is none. -/
  | unbalanced
deriving DecidableEq

/-- What leaving a node leaves, for every way in which it can end. -/
inductive Leaving (s : OpenScopes) (v : Value) : Departure → OpenScopes → Option Fault → Prop where
  | simple (closed : v.scopeKind? = .ok none) : Leaving s v .kept s none
  | program (type : v.nodeType = .program) : Leaving s v .kept s none
  | closed {kind : ScopeKind} {scope : Scope} {t : OpenScopes} (opens : v.scopeKind? = .ok (some kind))
      (ordinary : v.nodeType ≠ .program) (inner : s = scope :: t) (around : t ≠ []) :
      Leaving s v .closed t none
  | unread {fault : Fault} (failed : v.scopeKind? = .error fault) (shape : fault.OfShape) :
      Leaving s v .unread s (some fault)
  | unbalanced {kind : ScopeKind} {fault : Fault} (opens : v.scopeKind? = .ok (some kind))
      (ordinary : v.nodeType ≠ .program) (few : s.length < 2)
      (turn : Fault.Misplaced .unbalanced v fault) : Leaving s v .unbalanced s (some fault)

/-- Which way it is, told by the node and the number of open scopes. -/
def departure (s : OpenScopes) (v : Value) : Departure :=
  match v.scopeKind? with
  | .error _ => .unread
  | .ok none => .kept
  | .ok (some _) =>
    if v.nodeType = .program then .kept else if s.length < 2 then .unbalanced else .closed

theorem pop_few {s : OpenScopes} (few : s.length < 2) (v : Value) :
    s.pop v = .fail s (Fault.locating .unbalanced v) := by
  match s, few with
  | [], _ => rfl
  | [_], _ => rfl

theorem Leaving.exact {s t : OpenScopes} {v : Value} {way : Departure} {fault : Option Fault}
    (leaving : Leaving s v way t fault) :
    way = s.departure v ∧ t = (s.leave v).scopes ∧ fault = (s.leave v).fault := by
  cases leaving with
  | simple closed =>
    rw [leave, departure, closed]
    exact ⟨rfl, rfl, rfl⟩
  | program type =>
    obtain ⟨fine, same⟩ := leave_program type s
    obtain ⟨readable, _, _, opens⟩ := Value.readable_of_program type
    rw [fine, same, departure, readable.scopeKind?, opens]
    exact ⟨(if_pos type).symm, rfl, rfl⟩
  | @closed kind scope t opens ordinary inner around =>
    obtain ⟨next, rest, rfl⟩ := List.exists_cons_of_ne_nil around
    simp [inner, leave, departure, opens, ordinary, pop]
  | unread failed =>
    rw [leave, departure, failed]
    exact ⟨rfl, rfl, rfl⟩
  | unbalanced opens ordinary few turn =>
    simp [leave, departure, opens, ordinary, few, pop_few, Fault.misplaced_iff.mp turn, Step.fail]

theorem exists_leaving (s : OpenScopes) (v : Value) : ∃ way t fault, Leaving s v way t fault := by
  cases known : v.scopeKind? with
  | error fault => exact ⟨_, _, _, .unread known (Value.scopeKind?_eq_error known).1⟩
  | ok kind =>
    cases kind with
    | none => exact ⟨_, _, _, .simple known⟩
    | some kind =>
      by_cases program : v.nodeType = .program
      · exact ⟨_, _, _, .program program⟩
      · match s with
        | [] => exact ⟨_, _, _, .unbalanced known program (by simp) (Fault.misplaced_iff.mpr rfl)⟩
        | [_] => exact ⟨_, _, _, .unbalanced known program (by simp) (Fault.misplaced_iff.mpr rfl)⟩
        | scope :: next :: rest => exact ⟨_, _, _, .closed known program rfl (List.cons_ne_nil _ _)⟩

theorem leaving_iff {s t : OpenScopes} {v : Value} {way : Departure} {fault : Option Fault} :
    Leaving s v way t fault ↔
      way = s.departure v ∧ t = (s.leave v).scopes ∧ fault = (s.leave v).fault := by
  constructor
  · exact Leaving.exact
  · obtain ⟨way', t', fault', leaving⟩ := exists_leaving s v
    obtain ⟨rfl, rfl, rfl⟩ := leaving.exact
    rintro ⟨rfl, rfl, rfl⟩
    exact leaving

/-- The effect of a single call. Whatever scopes are open and whatever value is given as the node,
    entering it ends in exactly one of the ways of `Entering` and leaving it in exactly one of those of
    `Leaving`, and what that way says about the scopes and the fault is what the call leaves. -/
theorem call_exact (s : OpenScopes) (v : Value) :
    (∃ way, ∀ other t fault, Entering s v other t fault ↔
      other = way ∧ t = (s.enter v).scopes ∧ fault = (s.enter v).fault) ∧
    ∃ way, ∀ other t fault, Leaving s v other t fault ↔
      other = way ∧ t = (s.leave v).scopes ∧ fault = (s.leave v).fault :=
  ⟨⟨s.entrance v, fun _ _ _ => entering_iff⟩, ⟨s.departure v, fun _ _ _ => leaving_iff⟩⟩

end OpenScopes

end LexicalScope
