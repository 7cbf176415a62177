import LexicalScope.Proofs.Encapsulation

/-!
The open scopes can be told from the log alone, without the tree: a push opens an empty frame, a
reported name is appended to the frame it is reported for, and a pop drops a frame. These frames are
the open scopes after every call, also where a call stops midway, and what the records say besides
agrees with them (`walk_replays`).
-/

namespace LexicalScope

/-- A scope as the log shows it. -/
structure Frame where
  block : Bool
  names : List String
deriving DecidableEq

/-- The frame that a record of a name speaks of, counted from the innermost. -/
def Target.receiver (frames : List Frame) : Target → Nat
  | .current | .own => 0
  | .function => (frames.findIdx? fun frame => !frame.block).getD (frames.length - 1)
  | .outermost => frames.length - 1

namespace Record

/-- The frames after a record, innermost first. Without a frame there is nothing to add a name to and
    nothing to drop. -/
def replay (frames : List Frame) : Record → Option (List Frame)
  | .push kind _ _ => some (⟨kind = .block, []⟩ :: frames)
  | .define name target =>
    if frames.isEmpty then none
    else some (frames.modify (target.receiver frames) fun frame => ⟨frame.block, frame.names ++ [name]⟩)
  | .pop _ _ => frames.tail?
  | .walked _ _ | .cached _ _ => some frames

def replayAll (frames : List Frame) (log : List Record) : Option (List Frame) := log.foldlM replay frames

/-- What a record says besides is right: the number of open scopes, that a name is new to its scope,
    and the names of a scope that is closed. Other records have no place in a walk. -/
def Accurate (before after : List Frame) : Record → Prop
  | .push _ _ depth => depth = after.length
  | .define name target => ∃ frame, before[target.receiver before]? = some frame ∧ name ∉ frame.names
  | .pop _ names => ∃ frame, before.head? = some frame ∧ frame.names = names
  | .walked _ _ | .cached _ _ => False

/-- Accurate records, one after another, lead from some frames to others. -/
inductive Accounts : List Frame → List Record → List Frame → Prop where
  | done (frames : List Frame) : Accounts frames [] frames
  | next {frames between last : List Frame} {r : Record} {rest : List Record}
      (replayed : r.replay frames = some between) (accurate : r.Accurate frames between)
      (later : Accounts between rest last) : Accounts frames (r :: rest) last

theorem Accounts.append {first second third : List Frame} {log more : List Record}
    (before : Accounts first log second) (after : Accounts second more third) :
    Accounts first (log ++ more) third := by
  induction before with
  | done => exact after
  | next replayed accurate _ ih => exact .next replayed accurate (ih after)

theorem Accounts.replayAll {frames last : List Frame} {log : List Record} (accounts : Accounts frames log last) :
    replayAll frames log = some last := by
  induction accounts with
  | done => rfl
  | next replayed _ _ ih =>
    rw [Record.replayAll, List.foldlM_cons, replayed]
    exact ih

theorem Accounts.accurate {frames last : List Frame} {before : List Record} {r : Record}
    {after : List Record} (accounts : Accounts frames (before ++ r :: after) last) :
    ∃ here next, Record.replayAll frames before = some here ∧ r.replay here = some next ∧
      r.Accurate here next := by
  induction before generalizing frames with
  | nil =>
    cases accounts with
    | next replayed accurate _ => exact ⟨frames, _, rfl, replayed, accurate⟩
  | cons first rest ih =>
    cases accounts with
    | next replayed _ later =>
      obtain ⟨here, next, reached, rest⟩ := ih later
      refine ⟨here, next, ?_, rest⟩
      rw [Record.replayAll, List.foldlM_cons, replayed]
      exact reached

end Record

/-- A scope without the set beside its names. -/
def Scope.frame (s : Scope) : Frame := ⟨s.block, s.names⟩

namespace OpenScopes

def frames (s : OpenScopes) : List Frame := s.map Scope.frame

@[simp]
theorem length_frames (s : OpenScopes) : s.frames.length = s.length := List.length_map _

/-- The record of a name and the call that makes it agree on the scope. -/
theorem receiver_frames (s : OpenScopes) (target : Target) : target.receiver s.frames = target.distance s := by
  cases target with
  | current => rfl
  | own => rfl
  | outermost => simp [Target.receiver, Target.distance]
  | function =>
    have found : (s.frames.findIdx? fun frame => !frame.block) = s.findIdx? fun scope => !scope.block := by
      rw [frames, List.findIdx?_map]
      rfl
    simp only [Target.receiver, Target.distance, found, length_frames]
    cases first : s.findIdx? fun scope => !scope.block with
    | none =>
      have last : (s.findIdx fun scope => !scope.block) = s.length := by
        rw [List.findIdx_eq_length]
        exact List.findIdx?_eq_none_iff.mp first
      simp [last]
    | some i =>
      obtain ⟨inside, here⟩ := List.findIdx?_eq_some_iff_findIdx_eq.mp first
      simp only [here, Option.getD_some]
      omega

/-- The log of a step leads from the frames before it to the frames after it. -/
def Logged (s : OpenScopes) (step : Step) : Prop := Record.Accounts s.frames step.log step.scopes.frames

theorem logged_keep (s : OpenScopes) : s.Logged (.keep s) := .done _

theorem logged_fail (s : OpenScopes) (f : Fault) : s.Logged (.fail s f) := .done _

theorem Logged.andThen {s : OpenScopes} {first : Step} {second : OpenScopes → Step}
    (before : s.Logged first) (after : first.scopes.Logged (second first.scopes)) :
    s.Logged (first.andThen second) := by
  unfold Step.andThen
  cases first.fault with
  | some f => exact before
  | none => exact before.append after

/-! ## Names -/

/-- Names are recorded one by one, in the same scope. -/
theorem receive_cons_names (s : OpenScopes) (name : String) (rest : List String) (target : Target) :
    s.receive ⟨name :: rest, target⟩ = (s.receive ⟨[name], target⟩).receive ⟨rest, target⟩ := by
  have still := distance_receive s ⟨[name], target⟩ target
  calc s.receive ⟨name :: rest, target⟩
      = (s.receive ⟨[name], target⟩).modify (target.distance s) (·.defineAll rest) := by
        rw [receive, receive, List.modify_modify_eq]
        rfl
    _ = (s.receive ⟨[name], target⟩).receive ⟨rest, target⟩ := by
        rw [← still]
        rfl

theorem receive_known {s : OpenScopes} {target : Target} {scope : Scope} {name : String}
    (here : s[target.distance s]? = some scope) (known : scope.declares name = true) :
    s.receive ⟨[name], target⟩ = s := by
  apply List.ext_getElem?
  intro i
  by_cases same : i = target.distance s
  · rw [same, getElem?_receive_self here, here]
    simp [Scope.defineAll, Scope.define, known]
  · exact getElem?_receive_ne s _ same

theorem frames_receive_new {s : OpenScopes} {target : Target} {scope : Scope} {name : String}
    (here : s[target.distance s]? = some scope) (new : name ∉ scope.names) :
    (s.receive ⟨[name], target⟩).frames =
      s.frames.modify (target.distance s) fun frame => ⟨frame.block, frame.names ++ [name]⟩ := by
  apply List.ext_getElem?
  intro i
  rw [frames, List.getElem?_map]
  by_cases same : i = target.distance s
  · rw [same, getElem?_receive_self here]
    simp [frames, here, Scope.frame, Scope.defineAll, Scope.names_define, new]
  · rw [getElem?_receive_ne s _ same, List.getElem?_modify_ne _ _ (Ne.symm same), frames, List.getElem?_map]

theorem replay_define {s : OpenScopes} {target : Target} {scope : Scope} {name : String}
    (here : s[target.distance s]? = some scope) (new : name ∉ scope.names) :
    Record.replay s.frames (.define name target) = some (s.receive ⟨[name], target⟩).frames ∧
      Record.Accurate s.frames (s.receive ⟨[name], target⟩).frames (.define name target) := by
  have opened : s.frames.isEmpty = false := by
    cases s with
    | nil => cases here
    | cons _ _ => rfl
  constructor
  · rw [frames_receive_new here new, Record.replay, receiver_frames, opened]
    rfl
  · refine ⟨scope.frame, ?_, new⟩
    rw [receiver_frames, frames, List.getElem?_map, here]
    rfl

/-- One record for each name that is new, from left to right. -/
theorem fresh_accounts {s : OpenScopes} {target : Target} {scope : Scope}
    (here : s[target.distance s]? = some scope) (names : List String) :
    Record.Accounts s.frames ((scope.fresh names).map (.define · target))
      (s.receive ⟨names, target⟩).frames := by
  induction names generalizing s scope with
  | nil =>
    rw [receive_nameless s rfl]
    exact .done _
  | cons name rest ih =>
    rw [receive_cons_names, Scope.fresh]
    by_cases known : scope.declares name = true
    · rw [if_pos known, receive_known here known]
      exact ih here
    · have new : name ∉ scope.names := fun member => known (Scope.declares_iff.mpr member)
      have there : (s.receive ⟨[name], target⟩)[target.distance (s.receive ⟨[name], target⟩)]? =
          some (scope.define name) := by
        rw [distance_receive]
        exact getElem?_receive_self here
      obtain ⟨replayed, accurate⟩ := replay_define here new
      rw [if_neg known, List.map_cons]
      exact .next replayed accurate (ih there)

theorem declare_logged (s : OpenScopes) (v : Value) (d : Declaration) : s.Logged (s.declare v d) := by
  unfold declare
  split
  · exact logged_keep s
  · dsimp only
    split
    · exact logged_fail s _
    · rename_i here
      exact fresh_accounts here d.names

/-! ## Calls -/

theorem push_logged (s : OpenScopes) (v : Value) (kind : ScopeKind) : s.Logged (s.push v kind) := by
  refine .next rfl ?_ (.done _)
  simp [Record.Accurate]

theorem declareOutside_logged (s : OpenScopes) (v : Value) : s.Logged (s.declareOutside v) := by
  unfold declareOutside
  split
  · exact logged_fail s _
  · exact logged_keep s
  · exact declare_logged s v _

theorem declareOwn_logged (s : OpenScopes) (v : Value) : s.Logged (s.declareOwn v) := by
  unfold declareOwn
  split
  · exact logged_fail s _
  · exact declare_logged s v _

theorem openScope_logged (s : OpenScopes) (v : Value) : s.Logged (s.openScope v) := by
  unfold openScope
  split
  · exact logged_fail s _
  · exact logged_keep s
  · exact (push_logged s v _).andThen (declareOwn_logged _ v)

theorem pop_logged (s : OpenScopes) (v : Value) : s.Logged (s.pop v) := by
  unfold pop
  split
  · refine .next rfl ?_ (.done _)
    exact ⟨_, rfl, rfl⟩
  · exact logged_fail s _

theorem leave_logged (s : OpenScopes) (v : Value) : s.Logged (s.leave v) := by
  unfold leave
  split
  · exact logged_fail s _
  · exact logged_keep s
  · split
    · exact logged_keep s
    · exact pop_logged s v

theorem step_logged (s : OpenScopes) (event : Event) : s.Logged (s.step event) := by
  unfold step
  split
  · exact (declareOutside_logged s _).andThen (openScope_logged _ _)
  · exact leave_logged s _

theorem run_logged (s : OpenScopes) (events : List Event) : s.Logged (s.run events) := by
  induction events generalizing s with
  | nil => exact logged_keep s
  | cons event rest ih => exact (step_logged s event).andThen (ih _)

end OpenScopes

/-- A variable, and a function whose parameters cannot be read. -/
def Sample.interrupted : Value :=
  .obj [("type", .str "Program"), ("body", .arr [declaration "var" "a",
    .obj [("type", .str "FunctionDeclaration"), ("id", identifier "f"), ("params", .int 5)]])]

namespace OpenScopes

/-- The log is a faithful record. Of any tree, gone through to its end or not, the records replayed
    from no frame at all give the scopes that are open in the end; and each of them, read where it
    stands, counts the scopes rightly, names what its scope lacks, or lists what the closed scope has. -/
theorem walk_replays (tree : Value) :
    Record.replayAll [] (walk [] tree).log = some (walk [] tree).scopes.frames ∧
      ∀ before r after, (walk [] tree).log = before ++ r :: after →
        ∃ here next, Record.replayAll [] before = some here ∧ r.replay here = some next ∧
          r.Accurate here next := by
  have accounts : Record.Accounts [] (walk [] tree).log (walk [] tree).scopes.frames :=
    run_logged [] (Walk.trace tree)
  refine ⟨accounts.replayAll, ?_⟩
  intro before r after split
  rw [split] at accounts
  exact accounts.accurate

/-- The walk stops with the scope of the function open and empty, as its last record tells. -/
theorem sample_replays :
    (walk [] Sample.interrupted).fault.isSome = true ∧
      Record.replayAll [] (walk [] Sample.interrupted).log = some [⟨false, []⟩, ⟨false, ["a", "f"]⟩] ∧
      ∃ here next, Record.replayAll [] ((walk [] Sample.interrupted).log.take 3) = some here ∧
        Record.replay here (.push .function "FunctionDeclaration" 2) = some next ∧
        Record.Accurate here next (.push .function "FunctionDeclaration" 2) := by
  obtain ⟨whole, each⟩ := walk_replays Sample.interrupted
  have frames : (walk [] Sample.interrupted).scopes.frames = [⟨false, []⟩, ⟨false, ["a", "f"]⟩] := by
    decide +kernel
  have log : (walk [] Sample.interrupted).log = (walk [] Sample.interrupted).log.take 3 ++
      Record.push .function "FunctionDeclaration" 2 :: [] := by
    decide +kernel
  exact ⟨by decide +kernel, whole.trans (congrArg some frames), each _ _ _ log⟩

end OpenScopes

end LexicalScope
