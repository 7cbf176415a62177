import LexicalScope.OpenScopes

/-!
What a declaration does to the open scopes: one of them gains the names that it lacks, in the order
of the declaration, and no other scope changes. Which one gains them depends only on the flavours of
the open scopes, so a list of declarations splits at every scope into those that it keeps and those
that go on to the scopes around it (`receiveAll_cons`).
-/

namespace LexicalScope

namespace Scope

@[simp]
theorem defineAll_nil (s : Scope) : s.defineAll [] = s := rfl

theorem defineAll_append (s : Scope) (first second : List String) :
    s.defineAll (first ++ second) = (s.defineAll first).defineAll second :=
  List.foldl_append

@[simp]
theorem block_defineAll (s : Scope) (names : List String) : (s.defineAll names).block = s.block := by
  induction names generalizing s with
  | nil => rfl
  | cons name rest ih => exact (ih (s.define name)).trans (block_define s name)

/-- Names are appended where the scope lacks them, each once. -/
theorem names_defineAll (s : Scope) (names : List String) :
    (s.defineAll names).names = s.names ++ (names.removeAll s.names).eraseDups := by
  induction names generalizing s with
  | nil => simp
  | cons name rest ih =>
    have step : (s.defineAll (name :: rest)).names =
        (s.define name).names ++ (rest.removeAll (s.define name).names).eraseDups := ih (s.define name)
    rw [step, names_define]
    by_cases known : name ∈ s.names
    · simp [known, List.cons_removeAll]
    · have later : rest.removeAll (s.names ++ [name]) =
          (rest.removeAll s.names).filter fun other => !other == name := by
        simp only [List.removeAll, List.filter_filter]
        congr 1
        funext other
        by_cases same : other = name <;> simp [same]
      have front : (name :: rest).removeAll s.names = name :: rest.removeAll s.names := by
        simp [List.cons_removeAll, known]
      rw [if_neg known, later, front, List.eraseDups_cons, List.append_assoc, List.singleton_append]

/-- The scope with the names that it lacks at its end, each once. -/
def extend (s : Scope) (names : List String) : Scope :=
  ofNames s.block (s.names ++ (names.removeAll s.names).eraseDups)

theorem defineAll_eq_extend (s : Scope) (names : List String) : s.defineAll names = s.extend names := by
  apply Scope.ext
  · simp [extend]
  · apply Array.toList_inj.mp
    exact (names_defineAll s names).trans (names_ofNames _ _).symm

theorem names_defineAll_empty (block : Bool) (names : List String) :
    ((empty block).defineAll names).names = names.eraseDups := by
  rw [names_defineAll, names_empty, List.removeAll_nil, List.nil_append]

end Scope

namespace OpenScopes

/-- The flavours of the open scopes, innermost first. -/
def blocks (s : OpenScopes) : List Bool := s.map Scope.block

@[simp]
theorem blocks_nil : blocks [] = [] := rfl

@[simp]
theorem blocks_cons (scope : Scope) (s : OpenScopes) : blocks (scope :: s) = scope.block :: s.blocks :=
  rfl

@[simp]
theorem length_blocks (s : OpenScopes) : s.blocks.length = s.length := List.length_map _

/-- The scopes with a declaration recorded in the one that it is meant for. -/
def receive (s : OpenScopes) (d : Declaration) : OpenScopes :=
  s.modify (d.target.distance s) (·.defineAll d.names)

/-- The scopes with several declarations recorded, from left to right. -/
def receiveAll (s : OpenScopes) (ds : List Declaration) : OpenScopes := ds.foldl receive s

@[simp]
theorem receiveAll_nil (s : OpenScopes) : s.receiveAll [] = s := rfl

theorem receiveAll_step (s : OpenScopes) (d : Declaration) (rest : List Declaration) :
    s.receiveAll (d :: rest) = (s.receive d).receiveAll rest := rfl

theorem receiveAll_append (s : OpenScopes) (first second : List Declaration) :
    s.receiveAll (first ++ second) = (s.receiveAll first).receiveAll second :=
  List.foldl_append

/-- Where a hoisted name goes: to the innermost function, or, where every open scope is a block, to
    the outermost scope. -/
inductive HoistsTo (s : OpenScopes) (i : Nat) : Prop where
  | function (scope : Scope) (here : s[i]? = some scope) (opens : scope.block = false)
      (inner : ∀ other ∈ s.take i, other.block = true)
  | outermost (nowhere : ∀ scope ∈ s, scope.block = true) (last : i + 1 = s.length)

end OpenScopes

/-! ## Which scope receives a name -/

namespace Target

/-- The names go past a scope of this flavour, to those around it. -/
def passes (block : Bool) : Target → Bool
  | .current | .own => false
  | .function => block
  | .outermost => true

theorem distance_eq (target : Target) (s : OpenScopes) :
    target.distance s =
      match target with
      | .current | .own => 0
      | .function => min (s.blocks.findIdx (!·)) (s.blocks.length - 1)
      | .outermost => s.blocks.length - 1 := by
  cases target <;> simp [distance, OpenScopes.blocks, List.findIdx_map, Function.comp_def]

/-- Only the flavours matter. -/
theorem distance_congr (target : Target) {s t : OpenScopes} (same : s.blocks = t.blocks) :
    target.distance s = target.distance t := by
  rw [distance_eq, distance_eq, same]

theorem distance_lt (target : Target) {s : OpenScopes} (opened : s ≠ []) :
    target.distance s < s.length := by
  have positive : 0 < s.length := List.length_pos_iff.mpr opened
  cases target <;> simp only [distance] <;> omega

/-- Past its innermost scope, a declaration looks for its receiver as if that scope were not open. -/
theorem distance_cons (target : Target) (scope : Scope) {s : OpenScopes} (opened : s ≠ []) :
    target.distance (scope :: s) =
      if target.passes scope.block then target.distance s + 1 else 0 := by
  have positive : 0 < s.length := List.length_pos_iff.mpr opened
  cases target with
  | current => rfl
  | own => rfl
  | outermost => simp only [distance, passes, List.length_cons, if_true]; omega
  | function =>
    simp only [distance, passes, List.findIdx_cons, List.length_cons]
    cases scope.block
    · simp
    · simp only [Bool.not_true, cond_false, if_true]; omega

end Target

namespace OpenScopes

theorem distance_hoistsTo {s : OpenScopes} (opened : s ≠ []) :
    s.HoistsTo (Target.function.distance s) := by
  induction s with
  | nil => exact absurd rfl opened
  | cons scope outer ih =>
    cases flavour : scope.block with
    | false =>
      have here : Target.function.distance (scope :: outer) = 0 := by
        simp [Target.distance, List.findIdx_cons, flavour]
      rw [here]
      exact .function scope rfl flavour (by simp)
    | true =>
      cases outer with
      | nil => exact .outermost (by simpa using flavour) (by simp [Target.distance])
      | cons next rest =>
        have further : Target.function.distance (scope :: next :: rest) =
            Target.function.distance (next :: rest) + 1 := by
          rw [Target.distance_cons .function scope (List.cons_ne_nil next rest), flavour]
          rfl
        rw [further]
        cases ih (List.cons_ne_nil next rest) with
        | function found here opens inner =>
          exact .function found here opens (by simpa [flavour] using inner)
        | outermost nowhere last =>
          exact .outermost (by simpa [flavour] using nowhere) (by simpa using last)

/-! ## One declaration -/

theorem receive_nameless (s : OpenScopes) {d : Declaration} (nameless : d.names = []) :
    s.receive d = s := by
  have same : (fun scope : Scope => scope.defineAll d.names) = id := by
    funext scope
    rw [nameless]
    rfl
  rw [receive, same, List.modify_id]

@[simp]
theorem receive_nil (d : Declaration) : receive [] d = [] := by
  simp [receive]

@[simp]
theorem blocks_receive (s : OpenScopes) (d : Declaration) : (s.receive d).blocks = s.blocks := by
  apply List.ext_getElem?
  intro i
  simp only [blocks, receive, List.getElem?_map, List.getElem?_modify]
  split
  · cases s[i]? <;> simp
  · simp

theorem distance_receive (s : OpenScopes) (d : Declaration) (target : Target) :
    target.distance (s.receive d) = target.distance s :=
  target.distance_congr (blocks_receive s d)

theorem getElem?_receive_self {s : OpenScopes} {d : Declaration} {scope : Scope}
    (here : s[d.target.distance s]? = some scope) :
    (s.receive d)[d.target.distance s]? = some (scope.defineAll d.names) := by
  simp [receive, here]

/-- The scopes that do not receive a declaration stay as they are. -/
theorem getElem?_receive_ne (s : OpenScopes) (d : Declaration) {i : Nat}
    (other : i ≠ d.target.distance s) : (s.receive d)[i]? = s[i]? := by
  rw [receive, List.getElem?_modify_ne _ _ (Ne.symm other)]

theorem receive_cons (scope : Scope) {s : OpenScopes} (opened : s ≠ []) (d : Declaration) :
    receive (scope :: s) d =
      if d.target.passes scope.block then scope :: s.receive d else scope.defineAll d.names :: s := by
  rw [receive, d.target.distance_cons scope opened]
  split
  · rw [List.modify_succ_cons, receive]
  · rw [List.modify_zero_cons]

theorem receive_single (scope : Scope) (d : Declaration) :
    receive [scope] d = [scope.defineAll d.names] := by
  have here : d.target.distance [scope] = 0 := by
    have bound := d.target.distance_lt (List.cons_ne_nil scope [])
    simpa using bound
  rw [receive, here, List.modify_zero_cons]

/-! ## Several declarations -/

@[simp]
theorem blocks_receiveAll (s : OpenScopes) (ds : List Declaration) :
    (s.receiveAll ds).blocks = s.blocks := by
  induction ds generalizing s with
  | nil => rfl
  | cons d rest ih => exact (ih (s.receive d)).trans (blocks_receive s d)

@[simp]
theorem length_receiveAll (s : OpenScopes) (ds : List Declaration) :
    (s.receiveAll ds).length = s.length := by
  rw [← length_blocks, blocks_receiveAll, length_blocks]

theorem receiveAll_ne_nil {s : OpenScopes} (opened : s ≠ []) (ds : List Declaration) :
    s.receiveAll ds ≠ [] := by
  intro empty
  have none := length_receiveAll s ds
  rw [empty] at none
  exact opened (List.length_eq_zero_iff.mp none.symm)

/-- Declarations split at the innermost scope into those that stay in it and those that pass. -/
theorem receiveAll_cons (scope : Scope) {s : OpenScopes} (opened : s ≠ []) (ds : List Declaration) :
    receiveAll (scope :: s) ds =
      scope.defineAll ((ds.filter fun d => !d.target.passes scope.block).flatMap (·.names)) ::
        s.receiveAll (ds.filter fun d => d.target.passes scope.block) := by
  induction ds generalizing scope s with
  | nil => rfl
  | cons d rest ih =>
    rw [receiveAll_step, receive_cons scope opened]
    cases passing : d.target.passes scope.block with
    | true =>
      have still : s.receive d ≠ [] := receiveAll_ne_nil opened [d]
      rw [if_pos rfl, ih scope still]
      simp [passing, receiveAll]
    | false =>
      rw [if_neg (by simp), ih _ opened]
      simp [passing, Scope.defineAll_append]

/-- The only open scope keeps every name. -/
theorem receiveAll_single (scope : Scope) (ds : List Declaration) :
    receiveAll [scope] ds = [scope.defineAll (ds.flatMap (·.names))] := by
  induction ds generalizing scope with
  | nil => rfl
  | cons d rest ih =>
    rw [receiveAll_step, receive_single, ih, List.flatMap_cons, Scope.defineAll_append]

end OpenScopes

end LexicalScope
