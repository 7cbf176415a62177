import LexicalScope.Proofs.Encapsulation
import Mathlib.Data.List.Forall2

/-!
Nodes entered and left in any order, on and on after calls that fail, each from whatever scopes the
one before it has left. A call leaves the open scopes with names added at their ends, or opens one
scope more on top of them, or closes the innermost one, which is not the last (`step_change`). So a
scope lasts as long as the scopes stay deeper than it, and in that time its flavour stays and its
names are only added to (`calls_grows`).
-/

namespace LexicalScope

namespace Scope

/-- The same scope later on: of the same flavour, with names added at its end only. -/
structure Grows (earlier later : Scope) : Prop where
  block : later.block = earlier.block
  names : earlier.names <+: later.names

theorem Grows.refl (s : Scope) : s.Grows s := ⟨rfl, List.prefix_rfl⟩

theorem Grows.trans {s t u : Scope} (first : s.Grows t) (second : t.Grows u) : s.Grows u :=
  ⟨second.block.trans first.block, first.names.trans second.names⟩

theorem grows_defineAll (s : Scope) (names : List String) : s.Grows (s.defineAll names) := by
  refine ⟨block_defineAll s names, ?_⟩
  rw [names_defineAll]
  exact List.prefix_append _ _

/-- Each name is listed once. -/
def Distinct (s : Scope) : Prop := s.names.Nodup

theorem distinct_define {s : Scope} (distinct : s.Distinct) (name : String) :
    (s.define name).Distinct := by
  unfold Distinct
  rw [names_define]
  split
  · exact distinct
  · rename_i new
    rw [List.nodup_append]
    refine ⟨distinct, by simp, ?_⟩
    rintro known member other last rfl
    exact new (List.mem_singleton.mp last ▸ member)

theorem distinct_defineAll {s : Scope} (distinct : s.Distinct) (names : List String) :
    (s.defineAll names).Distinct := by
  induction names generalizing s with
  | nil => exact distinct
  | cons name rest ih => exact ih (distinct_define distinct name)

/-- The set beside the names is the set of the names. -/
theorem seen_eq_ofList (s : Scope) : s.seen = .ofList s.names := by
  apply Std.ExtTreeSet.ext_mem
  intro name
  rw [s.mem_seen, Std.ExtTreeSet.mem_ofList, List.contains_iff_mem, names, Array.mem_toList_iff]

end Scope

namespace Sample

/-- A function whose parameters cannot be read: entering it stops after its scope is opened. -/
def broken : Value :=
  .obj [("type", .str "FunctionDeclaration"), ("id", identifier "f"), ("params", .int 5)]

def mishap : List Event := [⟨.enter, .obj [("type", .str "Program")]⟩, ⟨.enter, broken⟩]

def sequel : List Event := [⟨.leave, broken⟩, ⟨.leave, broken⟩, ⟨.enter, declaration "var" "a"⟩]

end Sample

namespace OpenScopes

/-- The scopes after a list of calls, each made whatever became of those before it. -/
def calls (s : OpenScopes) (events : List Event) : OpenScopes :=
  events.foldl (fun scopes event => (scopes.step event).scopes) s

/-- The scope with so many others around it. -/
def atHeight (s : OpenScopes) (height : Nat) : Option Scope := s.reverse[height]?

/-- What one call can make of the open scopes. -/
inductive Change (s : OpenScopes) : OpenScopes → Prop where
  | kept {t : OpenScopes} (grown : List.Forall₂ Scope.Grows s t) : Change s t
  | opened {t : OpenScopes} (scope : Scope) (grown : List.Forall₂ Scope.Grows s t) :
      Change s (scope :: t)
  | closed {t : OpenScopes} (scope : Scope) (around : t ≠ []) (inner : s = scope :: t) : Change s t

/-! ## One call -/

theorem grows_receive (s : OpenScopes) (d : Declaration) :
    List.Forall₂ Scope.Grows s (s.receive d) := by
  rw [List.forall₂_iff_get]
  have length : s.length = (s.receive d).length := by
    rw [← length_blocks, ← length_blocks, blocks_receive]
  refine ⟨length, ?_⟩
  intro i inside later
  simp only [List.get_eq_getElem, receive, List.getElem_modify]
  split
  · exact Scope.grows_defineAll _ _
  · exact Scope.Grows.refl _

theorem grows_refl (s : OpenScopes) : List.Forall₂ Scope.Grows s s :=
  List.forall₂_same.mpr fun scope _ => Scope.Grows.refl scope

/-- A node declares at most once for the scopes around it. -/
theorem grows_declared (s : OpenScopes) (v : Value) :
    List.Forall₂ Scope.Grows s (s.receiveAll v.declared) := by
  unfold Value.declared
  split
  · exact grows_receive s _
  · exact grows_refl s

/-- Entering a node records its declarations, and may open a scope with its parameters, whether or not
    a fault stops it on the way. -/
theorem enter_leaves (s : OpenScopes) (v : Value) :
    (s.enter v).scopes = s.receiveAll v.declared ∨
      ∃ kind : ScopeKind, (s.enter v).scopes =
        (Scope.empty (kind = .block)).defineAll v.parameters :: s.receiveAll v.declared := by
  cases outside : (s.declareOutside v).fault with
  | some fault =>
    left
    rw [enter, Step.andThen_of_fault outside, declareOutside_scopes]
  | none =>
    rw [enter, Step.andThen_scopes outside, openScope_scopes, declareOutside_scopes]
    cases v.opens with
    | none => exact .inl rfl
    | some kind => exact .inr ⟨kind, rfl⟩

/-- Leaving a node closes the innermost scope or nothing, and never the last scope. -/
theorem leave_leaves (s : OpenScopes) (v : Value) :
    (s.leave v).scopes = s ∨ ∃ scope t, t ≠ [] ∧ s = scope :: t ∧ (s.leave v).scopes = t := by
  unfold leave
  split
  · exact .inl rfl
  · exact .inl rfl
  · split
    · exact .inl rfl
    · match s with
      | [] => exact .inl rfl
      | [_] => exact .inl rfl
      | scope :: next :: rest => exact .inr ⟨scope, next :: rest, List.cons_ne_nil _ _, rfl, rfl⟩

theorem step_change (s : OpenScopes) (event : Event) : Change s (s.step event).scopes := by
  have grown := grows_declared s event.node
  unfold step
  split
  · rcases enter_leaves s event.node with recorded | ⟨kind, opened⟩
    · rw [recorded]
      exact .kept grown
    · rw [opened]
      exact .opened _ grown
  · rcases leave_leaves s event.node with same | ⟨scope, t, around, inner, left⟩
    · rw [same]
      exact .kept (grows_refl s)
    · rw [left]
      exact .closed scope around inner

theorem Change.length {s t : OpenScopes} (change : Change s t) :
    t.length ≤ s.length + 1 ∧ s.length ≤ t.length + 1 := by
  cases change with
  | kept grown => have := grown.length_eq; omega
  | opened scope grown => have := grown.length_eq; simp only [List.length_cons]; omega
  | closed scope around inner => rw [inner, List.length_cons]; omega

theorem Change.ne_nil {s t : OpenScopes} (change : Change s t) (opened : s ≠ []) : t ≠ [] := by
  cases change with
  | kept grown =>
    rintro rfl
    exact opened (List.forall₂_nil_right_iff.mp grown)
  | opened scope grown => exact List.cons_ne_nil _ _
  | closed scope around inner => exact around

/-! ## A scope at its height -/

theorem atHeight_cons (scope : Scope) (s : OpenScopes) {height : Nat} (below : height < s.length) :
    atHeight (scope :: s) height = s.atHeight height := by
  rw [atHeight, List.reverse_cons, List.getElem?_append_left (by simpa using below), atHeight]

theorem atHeight_grows {s t : OpenScopes} (grown : List.Forall₂ Scope.Grows s t) {height : Nat}
    (inside : height < s.length) :
    ∃ earlier later, s.atHeight height = some earlier ∧ t.atHeight height = some later ∧
      earlier.Grows later := by
  have reversed : List.Forall₂ Scope.Grows s.reverse t.reverse := List.forall₂_reverse_iff.mpr grown
  have first : height < s.reverse.length := by simpa using inside
  have second : height < t.reverse.length := reversed.length_eq ▸ first
  exact ⟨_, _, List.getElem?_eq_getElem first, List.getElem?_eq_getElem second,
    reversed.get first second⟩

/-- A scope that is open before a call and after it. -/
theorem Change.grows {s t : OpenScopes} (change : Change s t) {height : Nat}
    (before : height < s.length) (after : height < t.length) :
    ∃ earlier later, s.atHeight height = some earlier ∧ t.atHeight height = some later ∧
      earlier.Grows later := by
  cases change with
  | kept grown => exact atHeight_grows grown before
  | @opened t scope grown =>
    rw [atHeight_cons scope t (grown.length_eq ▸ before)]
    exact atHeight_grows grown before
  | closed scope around inner =>
    rw [inner, atHeight_cons scope t after]
    exact atHeight_grows (grows_refl t) after

/-! ## Any number of calls -/

theorem calls_append (s : OpenScopes) (first second : List Event) :
    s.calls (first ++ second) = (s.calls first).calls second :=
  List.foldl_append

theorem calls_ne_nil {s : OpenScopes} (opened : s ≠ []) (events : List Event) : s.calls events ≠ [] := by
  induction events generalizing s with
  | nil => exact opened
  | cons event rest ih => exact ih ((step_change s event).ne_nil opened)

/-- A scope that stays open throughout keeps its flavour, and its names are only added to. -/
theorem calls_grows {s : OpenScopes} {events : List Event} {height : Nat}
    (stays : ∀ n, height < (s.calls (events.take n)).length) :
    ∃ earlier later, s.atHeight height = some earlier ∧ (s.calls events).atHeight height = some later ∧
      earlier.Grows later := by
  induction events generalizing s with
  | nil => exact atHeight_grows (grows_refl s) (stays 0)
  | cons event rest ih =>
    obtain ⟨earlier, next, here, there, grows⟩ := (step_change s event).grows (stays 0) (stays 1)
    obtain ⟨same, later, found, final, more⟩ := ih fun n => stays (n + 1)
    obtain rfl : next = same := Option.some.inj (there.symm.trans found)
    exact ⟨earlier, later, here, final, grows.trans more⟩

theorem distinct_receiveAll {s : OpenScopes} (distinct : ∀ scope ∈ s, scope.Distinct)
    (ds : List Declaration) : ∀ scope ∈ s.receiveAll ds, scope.Distinct := by
  induction ds generalizing s with
  | nil => exact distinct
  | cons d rest ih =>
    apply ih
    intro scope member
    obtain ⟨i, inside, rfl⟩ := List.mem_iff_getElem.mp member
    simp only [receive, List.getElem_modify]
    split
    · exact Scope.distinct_defineAll (distinct _ (List.getElem_mem _)) d.names
    · exact distinct _ (List.getElem_mem _)

theorem distinct_step {s : OpenScopes} (distinct : ∀ scope ∈ s, scope.Distinct) (event : Event) :
    ∀ scope ∈ (s.step event).scopes, scope.Distinct := by
  have recorded := distinct_receiveAll distinct event.node.declared
  unfold step
  split
  · rcases enter_leaves s event.node with same | ⟨kind, opened⟩
    · rw [same]
      exact recorded
    · rw [opened, List.forall_mem_cons]
      have fresh : (Scope.empty (kind = .block)).Distinct := List.nodup_nil
      exact ⟨Scope.distinct_defineAll fresh _, recorded⟩
  · rcases leave_leaves s event.node with same | ⟨scope, t, _, inner, left⟩
    · rw [same]
      exact distinct
    · rw [left]
      rw [inner, List.forall_mem_cons] at distinct
      exact distinct.2

theorem distinct_calls {s : OpenScopes} (distinct : ∀ scope ∈ s, scope.Distinct) (events : List Event) :
    ∀ scope ∈ s.calls events, scope.Distinct := by
  induction events generalizing s with
  | nil => exact distinct
  | cons event rest ih => exact ih (distinct_step distinct event)

/-- Nodes entered and left in any order, after faults as before them. However the scopes were reached,
    each lists its names once and keeps their set beside them; a call opens or closes one scope at
    most; what is not empty never becomes so, with the same outermost scope; and a scope that stays
    open, the scopes never being as few as those around it, keeps its flavour and its names, to which
    others are added at the end. -/
theorem calls_invariant (events : List Event) :
    (∀ scope ∈ calls [] events, scope.names.Nodup ∧ scope.seen = .ofList scope.names) ∧
      (∀ event, (calls [] (events ++ [event])).length ≤ (calls [] events).length + 1 ∧
        (calls [] events).length ≤ (calls [] (events ++ [event])).length + 1) ∧
      ∀ more, (calls [] events ≠ [] → calls [] (events ++ more) ≠ []) ∧
        (∀ outermost, (calls [] events).getLast? = some outermost →
          ∃ later, (calls [] (events ++ more)).getLast? = some later ∧ outermost.Grows later) ∧
        ∀ height, (∀ n, height < (calls [] (events ++ more.take n)).length) →
          ∃ earlier later, (calls [] events).atHeight height = some earlier ∧
            (calls [] (events ++ more)).atHeight height = some later ∧ earlier.Grows later := by
  simp only [calls_append]
  refine ⟨?_, fun event => (step_change _ event).length, fun more => ⟨?_, ?_, fun height => calls_grows⟩⟩
  · intro scope member
    exact ⟨distinct_calls (by simp) events scope member, scope.seen_eq_ofList⟩
  · intro opened
    exact calls_ne_nil opened more
  · intro outermost last
    have opened : calls [] events ≠ [] := by
      rintro closed
      rw [closed] at last
      cases last
    have stays : ∀ n, 0 < ((calls [] events).calls (more.take n)).length := by
      intro n
      exact List.length_pos_iff.mpr (calls_ne_nil opened _)
    obtain ⟨earlier, later, before, after, grows⟩ := calls_grows stays
    rw [atHeight, ← List.head?_eq_getElem?, List.head?_reverse] at before after
    obtain rfl : earlier = outermost := Option.some.inj (before.symm.trans last)
    exact ⟨later, after, grows⟩

/-- The function is left twice, the second time in vain; its name is still there when a variable is
    declared after that. -/
theorem sample_persists :
    ∃ earlier later, (calls [] Sample.mishap).atHeight 0 = some earlier ∧
      (calls [] (Sample.mishap ++ Sample.sequel)).atHeight 0 = some later ∧ earlier.Grows later ∧
      earlier.names = ["f"] ∧ later.names = ["f", "a"] := by
  have opened : calls [] Sample.mishap ≠ [] := by decide +kernel
  have stays : ∀ n, 0 < (calls [] (Sample.mishap ++ Sample.sequel.take n)).length := by
    intro n
    exact List.length_pos_iff.mpr (((calls_invariant Sample.mishap).2.2 (Sample.sequel.take n)).1 opened)
  obtain ⟨earlier, later, before, after, grows⟩ :=
    ((calls_invariant Sample.mishap).2.2 Sample.sequel).2.2 0 stays
  have first : ((calls [] Sample.mishap).atHeight 0).map Scope.names = some ["f"] := by decide +kernel
  have last : ((calls [] (Sample.mishap ++ Sample.sequel)).atHeight 0).map Scope.names =
      some ["f", "a"] := by decide +kernel
  rw [before] at first
  rw [after] at last
  exact ⟨earlier, later, before, after, grows, Option.some.inj first, Option.some.inj last⟩

end OpenScopes

end LexicalScope
