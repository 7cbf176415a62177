import LexicalScope.Proofs.Recording

/-!
The set beside the names of a scope saves going through them, and nothing else. A roll is a scope that
has no set. Called with the same names in the same order, the two give the same answers and end with
the same names, and two scopes are equal exactly when their rolls are (`enlists_as_roll`).
-/

namespace LexicalScope

/-- Calls made one after another: the answer to each, and what they end with. -/
def inTurn {σ : Type} (call : σ → String → Bool × σ) (s : σ) : List String → List Bool × σ
  | [] => ([], s)
  | name :: rest =>
    let first := call s name
    let later := inTurn call first.2 rest
    (first.1 :: later.1, later.2)

/-- A view that is kept by every call is kept by all of them. -/
theorem inTurn_view {σ τ : Type} {call : σ → String → Bool × σ} {other : τ → String → Bool × τ}
    {view : σ → τ} (step : ∀ s name, other (view s) name = ((call s name).1, view (call s name).2))
    (s : σ) (names : List String) :
    inTurn other (view s) names = ((inTurn call s names).1, view (inTurn call s names).2) := by
  induction names generalizing s with
  | nil => rfl
  | cons name rest ih => simp only [inTurn, step, ih]

/-- A scope that has no set, and goes through its names to find one. -/
structure Roll where
  block : Bool
  names : List String
deriving DecidableEq

namespace Roll

/-- Puts a name at the end unless it is there, and tells whether it was not. -/
def enlist (r : Roll) (name : String) : Bool × Roll :=
  if r.names.contains name then (false, r) else (true, { r with names := r.names ++ [name] })

theorem mem_enlist {r : Roll} {name other : String} :
    other ∈ (r.enlist name).2.names ↔ other = name ∨ other ∈ r.names := by
  unfold enlist
  split
  · rename_i known
    have member : name ∈ r.names := List.contains_iff_mem.mp known
    constructor
    · exact .inr
    · rintro (rfl | before)
      · exact member
      · exact before
  · simp [or_comm]

/-- A name is new when it is on the roll neither at first nor by an earlier call. -/
theorem inTurn_enlist_answers (r : Roll) (calls : List String) (i : Nat) :
    (inTurn enlist r calls).1[i]? =
      calls[i]?.map fun name => decide (name ∉ r.names ∧ name ∉ calls.take i) := by
  induction calls generalizing r i with
  | nil => rfl
  | cons name rest ih =>
    cases i with
    | zero =>
      have new : (r.enlist name).1 = decide (name ∉ r.names) := by
        unfold enlist
        split <;> simp_all
      simp [inTurn, new]
    | succ i =>
      have earlier : ∀ other, (other ∉ (r.enlist name).2.names ∧ other ∉ rest.take i) ↔
          (other ∉ r.names ∧ other ∉ (name :: rest).take (i + 1)) := by
        intro other
        rw [mem_enlist, List.take_succ_cons, List.mem_cons, not_or, not_or, and_assoc, and_left_comm]
      simp only [inTurn, List.getElem?_cons_succ, ih, earlier]

end Roll

namespace Scope

/-- The scope without its set. -/
def roll (s : Scope) : Roll := ⟨s.block, s.names⟩

theorem roll_inj {s t : Scope} : s.roll = t.roll ↔ s = t := by
  constructor
  · intro same
    exact ext_names (congrArg Roll.block same) (congrArg Roll.names same)
  · rintro rfl
    rfl

/-- Looking a name up in the set is going through the names. -/
theorem roll_enlist (s : Scope) (name : String) :
    s.roll.enlist name = ((s.enlist name).1, (s.enlist name).2.roll) := by
  by_cases known : name ∈ s.names
  · simp [Roll.enlist, enlist, roll, names_define, declares_iff.mpr known, known]
  · have lacking : s.declares name = false := by
      rw [← Bool.not_eq_true, declares_iff]
      exact known
    simp [Roll.enlist, enlist, roll, names_define, lacking, known]

theorem inTurn_enlist_scope (s : Scope) (calls : List String) :
    (inTurn enlist s calls).2 = s.defineAll calls := by
  induction calls generalizing s with
  | nil => rfl
  | cons name rest ih => exact ih (s.define name)

/-- The names found to be new on the way are those that were answered as new. -/
theorem fresh_eq_answered (s : Scope) (calls : List String) :
    s.fresh calls =
      ((calls.zip (inTurn enlist s calls).1).filter fun x => x.2).map fun x => x.1 := by
  induction calls generalizing s with
  | nil => rfl
  | cons name rest ih =>
    rw [fresh]
    cases known : s.declares name with
    | true =>
      have same : s.define name = s := by rw [define, if_pos known]
      simp [inTurn, enlist, known, same, ih]
    | false => simp [inTurn, enlist, known, ih]

/-- A scope answers as its roll does. Built from any names, repetitions among them, and called with any
    names in turn, it finds a name new exactly when it had it neither at first nor from an earlier call;
    it ends with the names of the beginning, followed by those that were new, in the order of their
    first calls; a roll gives the same answers and ends with the same names; the new names are those
    that are logged; and wherever calls have led two scopes, comparing them comes out as comparing their
    rolls. -/
theorem enlists_as_roll (block : Bool) (initial calls : List String) :
    (∀ i, (inTurn enlist (ofNames block initial) calls).1[i]? =
        calls[i]?.map fun name => decide (name ∉ initial ∧ name ∉ calls.take i)) ∧
      (inTurn enlist (ofNames block initial) calls).2.block = block ∧
      (inTurn enlist (ofNames block initial) calls).2.names =
        initial ++ (calls.removeAll initial).eraseDups ∧
      inTurn Roll.enlist ⟨block, initial⟩ calls =
        ((inTurn enlist (ofNames block initial) calls).1,
          (inTurn enlist (ofNames block initial) calls).2.roll) ∧
      (ofNames block initial).fresh calls =
        ((calls.zip (inTurn Roll.enlist ⟨block, initial⟩ calls).1).filter fun x => x.2).map (fun x => x.1) ∧
      ∀ block' initial' calls',
        decide ((inTurn enlist (ofNames block initial) calls).2 =
            (inTurn enlist (ofNames block' initial') calls').2) =
          decide ((inTurn Roll.enlist ⟨block, initial⟩ calls).2 =
            (inTurn Roll.enlist ⟨block', initial'⟩ calls').2) := by
  have agree : ∀ block initial calls, inTurn Roll.enlist ⟨block, initial⟩ calls =
      ((inTurn enlist (ofNames block initial) calls).1,
        (inTurn enlist (ofNames block initial) calls).2.roll) :=
    fun block initial calls => inTurn_view roll_enlist (ofNames block initial) calls
  refine ⟨fun i => ?_, ?_, ?_, agree block initial calls, ?_, fun block' initial' calls' => ?_⟩
  · have scanned := Roll.inTurn_enlist_answers ⟨block, initial⟩ calls i
    rw [agree] at scanned
    exact scanned
  · rw [inTurn_enlist_scope, block_defineAll, block_ofNames]
  · rw [inTurn_enlist_scope, names_defineAll, names_ofNames]
  · rw [agree, fresh_eq_answered]
  · rw [agree, agree, decide_eq_decide, roll_inj]

end Scope

end LexicalScope
