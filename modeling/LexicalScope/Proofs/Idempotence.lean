import LexicalScope.Proofs.Malformed
import LexicalScope.Proofs.Persistence

/-!
Names that the receiving scope has already change nothing. Once recorded, the names of a declaration
stay where they are (`Knows.receive`), and which scope receives them does not depend on what the
scopes list. So after a list of declarations all of them are known, and recording them again leaves
every scope as it is (`receiveAll_again`). A walk is such a list, whatever it opens and closes on its
way (`walk_again`).
-/

namespace LexicalScope

namespace Scope

theorem define_known {s : Scope} {name : String} (known : name ∈ s.names) : s.define name = s := by
  rw [define, if_pos (declares_iff.mpr known)]

theorem defineAll_known {s : Scope} {names : List String} (known : ∀ name ∈ names, name ∈ s.names) :
    s.defineAll names = s := by
  induction names with
  | nil => rfl
  | cons name rest ih =>
    obtain ⟨here, later⟩ := List.forall_mem_cons.mp known
    calc s.defineAll (name :: rest)
        = (s.define name).defineAll rest := rfl
      _ = s := by rw [define_known here, ih later]

theorem mem_defineAll {s : Scope} {names : List String} {name : String} (member : name ∈ names) :
    name ∈ (s.defineAll names).names := by
  rw [names_defineAll, List.mem_append, List.mem_eraseDups]
  by_cases known : name ∈ s.names
  · exact .inl known
  · exact .inr (by simp [List.removeAll, member, known])

end Scope

namespace OpenScopes

/-- The scope that a declaration is meant for has its names already. -/
def Knows (s : OpenScopes) (d : Declaration) : Prop :=
  ∀ scope, s[d.target.distance s]? = some scope → ∀ name ∈ d.names, name ∈ scope.names

theorem knows_receive (s : OpenScopes) (d : Declaration) : (s.receive d).Knows d := by
  intro later there name member
  rw [distance_receive] at there
  cases here : s[d.target.distance s]? with
  | none => simp [receive, here] at there
  | some scope =>
    rw [getElem?_receive_self here] at there
    obtain rfl := Option.some.inj there
    exact Scope.mem_defineAll member

/-- What is known stays known, whatever else is recorded. -/
theorem Knows.receive {s : OpenScopes} {d : Declaration} (known : s.Knows d) (other : Declaration) :
    (s.receive other).Knows d := by
  intro later there name member
  rw [distance_receive] at there
  obtain ⟨inside, rfl⟩ := List.getElem?_eq_some_iff.mp there
  have grown := grows_receive s other
  have before : d.target.distance s < s.length := grown.length_eq ▸ inside
  have earlier := known _ (List.getElem?_eq_getElem before) name member
  exact (grown.get before inside).names.subset earlier

theorem receive_of_knows {s : OpenScopes} {d : Declaration} (known : s.Knows d) :
    s.receive d = s := by
  apply List.ext_getElem?
  intro i
  by_cases same : i = d.target.distance s
  · cases here : s[d.target.distance s]? with
    | none => simp [OpenScopes.receive, same, here]
    | some scope =>
      rw [same, getElem?_receive_self here, here, Scope.defineAll_known (known scope here)]
  · exact getElem?_receive_ne s d same

/-! ## Several declarations -/

theorem Knows.receiveAll {s : OpenScopes} {d : Declaration} (known : s.Knows d)
    (ds : List Declaration) : (s.receiveAll ds).Knows d := by
  induction ds generalizing s with
  | nil => exact known
  | cons other rest ih => exact ih (known.receive other)

theorem knows_receiveAll {ds : List Declaration} (s : OpenScopes) :
    ∀ d ∈ ds, (s.receiveAll ds).Knows d := by
  induction ds generalizing s with
  | nil => simp
  | cons first rest ih =>
    intro d member
    rcases List.mem_cons.mp member with rfl | later
    · exact (knows_receive s d).receiveAll rest
    · exact ih (s.receive first) d later

theorem receiveAll_of_knows {s : OpenScopes} {ds : List Declaration} (known : ∀ d ∈ ds, s.Knows d) :
    s.receiveAll ds = s := by
  induction ds with
  | nil => rfl
  | cons d rest ih =>
    obtain ⟨here, later⟩ := List.forall_mem_cons.mp known
    rw [receiveAll_step, receive_of_knows here, ih later]

/-- Recording the same declarations again changes nothing. -/
theorem receiveAll_again (s : OpenScopes) (ds : List Declaration) :
    (s.receiveAll ds).receiveAll ds = s.receiveAll ds :=
  receiveAll_of_knows (knows_receiveAll s)

/-! ## Walks -/

/-- Walking a tree a second time is without effect: where scopes are open and no program is visited, a
    walk that succeeds can be repeated from the scopes that it leaves, and leaves the same scopes, with
    the same names in the same order. -/
theorem walk_again {s : OpenScopes} {tree : Value} (opened : s ≠ [])
    (ordinary : ∀ v ∈ Walk.visited tree, v.nodeType ≠ .program) (done : (s.walk tree).fault = none) :
    ((s.walk tree).scopes.walk tree).fault = none ∧
      ((s.walk tree).scopes.walk tree).scopes = (s.walk tree).scopes := by
  have first := walk_scopes opened ordinary done
  have still : (s.walk tree).scopes ≠ [] := by
    rw [first]
    exact receiveAll_ne_nil opened _
  have again : ((s.walk tree).scopes.walk tree).fault = none := by
    rw [walk, Walk.trace_eq_events] at done
    rw [walk, Walk.trace_eq_events]
    exact (run_depth (run_readable done) still).1
  refine ⟨again, ?_⟩
  rw [walk_scopes still ordinary again, first, receiveAll_again]

/-- The first walk hoists a name and an import out of the block, and the second finds both. -/
theorem sample_again :
    (Sample.around.walk Sample.function).scopes.map Scope.names = [[], ["f"], ["x"]] ∧
      ((Sample.around.walk Sample.function).scopes.walk Sample.function).fault = none ∧
      ((Sample.around.walk Sample.function).scopes.walk Sample.function).scopes =
        (Sample.around.walk Sample.function).scopes := by
  have done : (Sample.around.walk Sample.function).fault = none :=
    Option.isNone_iff_eq_none.mp (by decide +kernel)
  exact ⟨by decide +kernel, walk_again (List.cons_ne_nil _ _) (by decide) done⟩

end OpenScopes

end LexicalScope
