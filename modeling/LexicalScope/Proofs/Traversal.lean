import LexicalScope.Proofs.Forest
import LexicalScope.Proofs.Occurrences
import Mathlib.Data.List.Basic

/-!
A node has an address: the number of the item or of the entry to take at every list and every object
on the way to it. The nodes of a tree are the objects with a type that can be reached through lists
and through the fields, other than metadata, of such objects (`NodeAt`). A walk enters and leaves each
of them once, by address. Nodes are entered in the order of their addresses and left in the order that
puts what is inside another node before it; between the two events of a node lie the whole traces of
its children and nothing else (`trace_traverses`).
-/

namespace LexicalScope

/-- A place in a tree: which item or entry to take at every list and object on the way. -/
abbrev Address := List Nat

/-- A node entered or left at its address. -/
structure Visit where
  phase : Phase
  address : Address
  node : Value

namespace Visit

def event (x : Visit) : Event := ⟨x.phase, x.node⟩

/-- The visit as it is seen from further out. -/
def under (i : Nat) (x : Visit) : Visit := ⟨x.phase, i :: x.address, x.node⟩

end Visit

namespace Walk

/-! ## The nodes of a tree -/

/-- What a walk gets to, and where. -/
inductive Reaches : Value → Address → Value → Prop where
  | here (v : Value) : Reaches v [] v
  | item {items : List Value} {i : Nat} {v u : Value} {a : Address} (listed : items[i]? = some v)
      (inside : Reaches v a u) : Reaches (.arr items) (i :: a) u
  | entry {entries : List (String × Value)} {i : Nat} {key : String} {v u : Value} {a : Address}
      (typed : (Value.obj entries).hasField "type" = true) (listed : entries[i]? = some (key, v))
      (followed : key ∉ metadata) (inside : Reaches v a u) : Reaches (.obj entries) (i :: a) u

/-- There is a node at this address. -/
structure NodeAt (tree : Value) (a : Address) (v : Value) : Prop where
  reached : Reaches tree a v
  typed : v.hasField "type" = true

mutual

/-- The outermost nodes of a value: itself, or for a list those of its items in order. -/
def outermost : Value → List Value
  | .arr items => outermostItems items
  | .obj entries => if (Value.obj entries).hasField "type" then [.obj entries] else []
  | _ => []

def outermostItems : List Value → List Value
  | [] => []
  | v :: rest => outermost v ++ outermostItems rest

end

/-- The visited children of a node: the outermost nodes of its fields, metadata apart, in the order of
    the fields. -/
def children : Value → List Value
  | .obj entries =>
    (entries.filter fun entry => !metadata.contains entry.1).flatMap fun entry => outermost entry.2
  | _ => []

/-- One node is left before another: it stands inside the other, or to the left of it. -/
def LeavesBefore (a b : Address) : Prop := (b <+: a ∧ a ≠ b) ∨ (a < b ∧ ¬ a <+: b)

/-- The addresses of the visits of one phase, in order. -/
def addresses (phase : Phase) (visits : List Visit) : List Address :=
  (visits.filter fun x => x.phase = phase).map Visit.address

/-- The visits go through the tree. -/
structure Traverses (tree : Value) (visits : List Visit) : Prop where
  /-- The nodes of the tree are entered and left, and nothing else is. -/
  nodes : ∀ phase a v, ⟨phase, a, v⟩ ∈ visits ↔ NodeAt tree a v
  /-- Every node is entered once, before what is inside it and before what is to the right of it. -/
  preorder : (addresses .enter visits).Pairwise (· < ·)
  /-- Every node is left once, after what is inside it. -/
  postorder : (addresses .leave visits).Pairwise LeavesBefore
  /-- Between entering and leaving a node lie all the visits inside it, and these are the traces of
      its children. -/
  brackets : ∀ a v, NodeAt tree a v →
    ∃ before inside after, visits = before ++ ⟨.enter, a, v⟩ :: (inside ++ ⟨.leave, a, v⟩ :: after) ∧
      inside.map Visit.event = (children v).flatMap trace ∧
      (∀ x ∈ inside, a <+: x.address ∧ x.address ≠ a) ∧ ∀ x ∈ before ++ after, ¬ a <+: x.address

/-! ## Branches -/

/-- What a walk goes on to from a value, with the numbers that addresses have for it. -/
def branches : Value → List (Nat × Value)
  | .arr items => items.zipIdx.map fun x => (x.2, x.1)
  | .obj entries =>
    if (Value.obj entries).hasField "type" then
      (entries.zipIdx.filter fun x => !metadata.contains x.1.1).map fun x => (x.2, x.1.2)
    else []
  | _ => []

theorem mem_branches_arr {items : List Value} {i : Nat} {v : Value} :
    (i, v) ∈ branches (.arr items) ↔ items[i]? = some v := by
  rw [branches, List.mem_map]
  constructor
  · rintro ⟨⟨w, j⟩, member, same⟩
    cases same
    exact List.mem_zipIdx_iff_getElem?.mp member
  · intro listed
    exact ⟨(v, i), List.mem_zipIdx_iff_getElem?.mpr listed, rfl⟩

theorem mem_branches_obj {entries : List (String × Value)} {i : Nat} {v : Value} :
    (i, v) ∈ branches (.obj entries) ↔
      (Value.obj entries).hasField "type" = true ∧
        ∃ key, entries[i]? = some (key, v) ∧ key ∉ metadata := by
  by_cases typed : (Value.obj entries).hasField "type" = true
  · rw [branches, if_pos typed, List.mem_map]
    constructor
    · rintro ⟨⟨⟨key, w⟩, j⟩, member, same⟩
      cases same
      obtain ⟨listed, followed⟩ := List.mem_filter.mp member
      exact ⟨typed, key, List.mem_zipIdx_iff_getElem?.mp listed, by simpa using followed⟩
    · rintro ⟨_, key, listed, followed⟩
      refine ⟨((key, v), i), List.mem_filter.mpr ⟨List.mem_zipIdx_iff_getElem?.mpr listed, ?_⟩, rfl⟩
      simpa using followed
  · rw [branches, if_neg typed]
    simp [typed]

theorem zipIdx_sorted {α : Type} (l : List α) : l.zipIdx.Pairwise fun x y => x.2 < y.2 := by
  have numbers : (l.zipIdx.map Prod.snd).Pairwise (· < ·) := by
    rw [List.zipIdx_map_snd]
    exact List.pairwise_lt_range'
  exact List.pairwise_map.mp numbers

/-- The numbers of the branches increase. -/
theorem branches_sorted (t : Value) : (branches t).Pairwise fun x y => x.1 < y.1 := by
  cases t with
  | arr items => exact List.pairwise_map.mpr (zipIdx_sorted items)
  | obj entries =>
    by_cases typed : (Value.obj entries).hasField "type" = true
    · rw [branches, if_pos typed]
      exact List.pairwise_map.mpr ((zipIdx_sorted entries).filter _)
    · rw [branches, if_neg typed]
      exact List.Pairwise.nil
  | _ => exact List.Pairwise.nil

theorem sizeOf_branch_lt {t v : Value} {i : Nat} (branch : (i, v) ∈ branches t) :
    sizeOf v < sizeOf t := by
  cases t with
  | arr items => exact Value.sizeOf_of_mem_arr (List.mem_of_getElem? (mem_branches_arr.mp branch))
  | obj entries =>
    obtain ⟨_, key, listed, _⟩ := mem_branches_obj.mp branch
    exact Value.sizeOf_of_mem_obj (List.mem_of_getElem? listed)
  | _ => cases branch

/-- What holds of a value whenever it holds of its branches holds of all values. -/
theorem branch_induction {P : Value → Prop} (step : ∀ t, (∀ i v, (i, v) ∈ branches t → P v) → P t)
    (t : Value) : P t :=
  step t fun _ v _ => branch_induction step v
termination_by sizeOf t
decreasing_by exact sizeOf_branch_lt (by assumption)

theorem reaches_nil {t u : Value} : Reaches t [] u ↔ u = t := by
  constructor
  · rintro ⟨⟩
    rfl
  · rintro rfl
    exact .here u

theorem reaches_cons {t u : Value} {i : Nat} {a : Address} :
    Reaches t (i :: a) u ↔ ∃ v, (i, v) ∈ branches t ∧ Reaches v a u := by
  constructor
  · intro reaches
    cases reaches with
    | item listed inside => exact ⟨_, mem_branches_arr.mpr listed, inside⟩
    | entry typed listed followed inside =>
      exact ⟨_, mem_branches_obj.mpr ⟨typed, _, listed, followed⟩, inside⟩
  · rintro ⟨v, branch, inside⟩
    cases t with
    | arr items => exact .item (mem_branches_arr.mp branch) inside
    | obj entries =>
      obtain ⟨typed, key, listed, followed⟩ := mem_branches_obj.mp branch
      exact .entry typed listed followed inside
    | _ => cases branch

theorem nodeAt_nil {t u : Value} : NodeAt t [] u ↔ u = t ∧ t.hasField "type" = true := by
  constructor
  · rintro ⟨reached, typed⟩
    obtain rfl := reaches_nil.mp reached
    exact ⟨rfl, typed⟩
  · rintro ⟨rfl, typed⟩
    exact ⟨.here u, typed⟩

theorem nodeAt_cons {t u : Value} {i : Nat} {a : Address} :
    NodeAt t (i :: a) u ↔ ∃ v, (i, v) ∈ branches t ∧ NodeAt v a u := by
  constructor
  · rintro ⟨reached, typed⟩
    obtain ⟨v, branch, inside⟩ := reaches_cons.mp reached
    exact ⟨v, branch, inside, typed⟩
  · rintro ⟨v, branch, reached, typed⟩
    exact ⟨reaches_cons.mpr ⟨v, branch, reached⟩, typed⟩

/-! ## Traces -/

theorem observeItems_eq_flatMap (hooks : Hooks) (items : List Value) :
    observeItems hooks items = items.flatMap (observe hooks) := by
  induction items with
  | nil => rfl
  | cons v rest ih => rw [observeItems, ih, List.flatMap_cons]

theorem observeEntries_eq_flatMap (hooks : Hooks) (entries : List (String × Value)) :
    observeEntries hooks entries =
      (entries.filter fun entry => !metadata.contains entry.1).flatMap fun entry =>
        observe hooks entry.2 := by
  induction entries with
  | nil => rfl
  | cons entry rest ih =>
    obtain ⟨key, v⟩ := entry
    rw [observeEntries, ih, List.filter_cons]
    cases metadata.contains key <;> rfl

theorem values_branches_arr (items : List Value) : (branches (.arr items)).map Prod.snd = items := by
  rw [branches, List.map_map]
  exact List.zipIdx_map_fst 0 items

theorem values_branches_obj {entries : List (String × Value)}
    (typed : (Value.obj entries).hasField "type" = true) :
    (branches (.obj entries)).map Prod.snd =
      (entries.filter fun entry => !metadata.contains entry.1).map Prod.snd := by
  have kept := List.filter_map (p := fun entry : String × Value => !metadata.contains entry.1)
    (f := Prod.fst) (l := entries.zipIdx)
  rw [List.zipIdx_map_fst] at kept
  rw [branches, if_pos typed, kept, List.map_map, List.map_map]
  rfl

/-- The trace of a value is made of the traces of its branches, with the events of the value around
    them when it is a node. -/
theorem trace_eq_branches (t : Value) :
    trace t =
      if t.hasField "type" then
        ⟨.enter, t⟩ :: ((branches t).flatMap (fun b => trace b.2) ++ [⟨.leave, t⟩])
      else (branches t).flatMap fun b => trace b.2 := by
  rw [← List.flatMap_map Prod.snd trace]
  cases t with
  | arr items =>
    rw [values_branches_arr, trace, observe, observeItems_eq_flatMap]
    rfl
  | obj entries =>
    rw [trace, observe]
    split
    · rename_i typed
      rw [values_branches_obj typed, observeEntries_eq_flatMap, List.flatMap_map]
      rfl
    · rename_i untyped
      rw [branches, if_neg untyped]
      rfl
  | _ => rfl

theorem outermostItems_eq_flatMap (items : List Value) :
    outermostItems items = items.flatMap outermost := by
  induction items with
  | nil => rfl
  | cons v rest ih => rw [outermostItems, ih, List.flatMap_cons]

/-- A trace is the traces of the outermost nodes, one after another. -/
theorem trace_outermost (t : Value) : (outermost t).flatMap trace = trace t := by
  induction t using branch_induction with
  | step t ih =>
    cases t with
    | arr items =>
      rw [outermost, outermostItems_eq_flatMap, List.flatMap_assoc, trace, observe,
        observeItems_eq_flatMap]
      apply List.flatMap_congr
      intro v member
      obtain ⟨i, listed⟩ := List.mem_iff_getElem?.mp member
      exact ih i v (mem_branches_arr.mpr listed)
    | obj entries =>
      rw [outermost]
      split
      · simp
      · rename_i untyped
        rw [trace, observe, if_neg untyped]
        rfl
    | _ => rfl

theorem trace_children {t : Value} (typed : t.hasField "type" = true) :
    (branches t).flatMap (fun b => trace b.2) = (children t).flatMap trace := by
  cases t with
  | obj entries =>
    rw [← List.flatMap_map Prod.snd trace, values_branches_obj typed, List.flatMap_map, children,
      List.flatMap_assoc]
    simp only [trace_outermost]
  | _ => cases typed

/-! ## Visits -/

/-- The visits of a walk, each with the address of its node. -/
def visits (t : Value) : List Visit :=
  let inside := (branches t).attach.flatMap fun b => (visits b.1.2).map (Visit.under b.1.1)
  if t.hasField "type" then ⟨.enter, [], t⟩ :: (inside ++ [⟨.leave, [], t⟩]) else inside
termination_by sizeOf t
decreasing_by exact sizeOf_branch_lt b.2

/-- The visits in branches, seen from the value that they belong to. -/
def branchVisits (bs : List (Nat × Value)) : List Visit :=
  bs.flatMap fun b => (visits b.2).map (Visit.under b.1)

theorem visits_eq (t : Value) :
    visits t =
      if t.hasField "type" then ⟨.enter, [], t⟩ :: (branchVisits (branches t) ++ [⟨.leave, [], t⟩])
      else branchVisits (branches t) := by
  have inside : ((branches t).attach.flatMap fun b => (visits b.1.2).map (Visit.under b.1.1)) =
      branchVisits (branches t) := by
    rw [← List.flatMap_map Subtype.val fun b : Nat × Value => (visits b.2).map (Visit.under b.1),
      List.attach_map_subtype_val]
    rfl
  rw [visits, inside]

theorem mem_branchVisits {t : Value} {x : Visit} :
    x ∈ branchVisits (branches t) ↔ ∃ i v y, (i, v) ∈ branches t ∧ y ∈ visits v ∧ y.under i = x := by
  simp only [branchVisits, List.mem_flatMap, List.mem_map, Prod.exists]
  constructor
  · rintro ⟨i, v, branch, y, member, rfl⟩
    exact ⟨i, v, y, branch, member, rfl⟩
  · rintro ⟨i, v, y, branch, member, rfl⟩
    exact ⟨i, v, branch, y, member, rfl⟩

theorem address_ne_nil {t : Value} {x : Visit} (inside : x ∈ branchVisits (branches t)) :
    x.address ≠ [] := by
  obtain ⟨i, v, y, _, _, rfl⟩ := mem_branchVisits.mp inside
  exact List.cons_ne_nil i y.address

theorem visits_map_event (t : Value) : (visits t).map Visit.event = trace t := by
  induction t using branch_induction with
  | step t ih =>
    have inside : (branchVisits (branches t)).map Visit.event =
        (branches t).flatMap fun b => trace b.2 := by
      rw [branchVisits, List.map_flatMap]
      apply List.flatMap_congr
      intro b member
      rw [← ih b.1 b.2 member, List.map_map]
      rfl
    rw [visits_eq, trace_eq_branches]
    split
    · rw [List.map_cons, List.map_append, inside]
      rfl
    · exact inside

theorem mem_visits {t : Value} {phase : Phase} {a : Address} {v : Value} :
    ⟨phase, a, v⟩ ∈ visits t ↔ NodeAt t a v := by
  induction t using branch_induction generalizing a with
  | step t ih =>
    cases a with
    | nil =>
      have outside : (⟨phase, [], v⟩ : Visit) ∉ branchVisits (branches t) :=
        fun inside => address_ne_nil inside rfl
      rw [visits_eq, nodeAt_nil]
      by_cases typed : t.hasField "type" = true
      · cases phase <;> simp [typed, outside]
      · simp [typed, outside]
    | cons i a =>
      have around : (⟨phase, i :: a, v⟩ : Visit) ∈ visits t ↔
          ⟨phase, i :: a, v⟩ ∈ branchVisits (branches t) := by
        rw [visits_eq]
        split <;> simp
      rw [around, mem_branchVisits, nodeAt_cons]
      constructor
      · rintro ⟨j, w, ⟨phase', a', u⟩, branch, member, same⟩
        cases same
        exact ⟨w, branch, (ih i w branch).mp member⟩
      · rintro ⟨w, branch, node⟩
        exact ⟨i, w, ⟨phase, a, v⟩, branch, (ih i w branch).mpr node, rfl⟩

/-! ## Orders -/

theorem addresses_branchVisits (phase : Phase) (t : Value) :
    addresses phase (branchVisits (branches t)) =
      (branches t).flatMap fun b => (addresses phase (visits b.2)).map (b.1 :: ·) := by
  rw [addresses, branchVisits, List.filter_flatMap, List.map_flatMap]
  apply List.flatMap_congr
  intro b _
  rw [addresses, List.filter_map, List.map_map, List.map_map]
  rfl

/-- An order that compares two addresses where they part puts the visits of the branches in order when
    it puts those of each branch in order. -/
theorem pairwise_branchVisits {R : Address → Address → Prop}
    (within : ∀ i a b, R a b → R (i :: a) (i :: b))
    (across : ∀ i j a b, i < j → R (i :: a) (j :: b)) {phase : Phase} {t : Value}
    (each : ∀ i v, (i, v) ∈ branches t → (addresses phase (visits v)).Pairwise R) :
    (addresses phase (branchVisits (branches t))).Pairwise R := by
  rw [addresses_branchVisits, List.pairwise_flatMap]
  constructor
  · intro b member
    exact List.pairwise_map.mpr ((each b.1 b.2 member).imp (within b.1 _ _))
  · refine (branches_sorted t).imp ?_
    intro b c smaller x left y right
    obtain ⟨a, _, rfl⟩ := List.mem_map.mp left
    obtain ⟨a', _, rfl⟩ := List.mem_map.mp right
    exact across _ _ _ _ smaller

theorem mem_addresses_ne_nil {phase : Phase} {t : Value} {a : Address}
    (member : a ∈ addresses phase (branchVisits (branches t))) : a ≠ [] := by
  obtain ⟨x, visited, rfl⟩ := List.mem_map.mp member
  exact address_ne_nil (List.mem_of_mem_filter visited)

theorem visits_preorder (t : Value) : (addresses .enter (visits t)).Pairwise (· < ·) := by
  induction t using branch_induction with
  | step t ih =>
    have inside : (addresses .enter (branchVisits (branches t))).Pairwise (· < ·) := by
      apply pairwise_branchVisits ?_ ?_ ih
      · intro i a b less
        exact List.cons_lt_cons_iff.mpr (.inr ⟨rfl, less⟩)
      · intro i j a b less
        exact List.cons_lt_cons_iff.mpr (.inl less)
    rw [visits_eq]
    split
    · have first :
          addresses .enter (⟨.enter, [], t⟩ :: (branchVisits (branches t) ++ [⟨.leave, [], t⟩])) =
            [] :: addresses .enter (branchVisits (branches t)) := by simp [addresses]
      rw [first, List.pairwise_cons]
      refine ⟨?_, inside⟩
      intro a member
      obtain ⟨i, b, rfl⟩ := List.exists_cons_of_ne_nil (mem_addresses_ne_nil member)
      exact List.nil_lt_cons i b
    · exact inside

theorem visits_postorder (t : Value) : (addresses .leave (visits t)).Pairwise LeavesBefore := by
  induction t using branch_induction with
  | step t ih =>
    have inside : (addresses .leave (branchVisits (branches t))).Pairwise LeavesBefore := by
      apply pairwise_branchVisits ?_ ?_ ih
      · rintro i a b (⟨within, other⟩ | ⟨less, apart⟩)
        · exact .inl ⟨List.cons_prefix_cons.mpr ⟨rfl, within⟩, by simpa using other⟩
        · exact .inr ⟨List.cons_lt_cons_iff.mpr (.inr ⟨rfl, less⟩), by simpa using apart⟩
      · intro i j a b less
        refine .inr ⟨List.cons_lt_cons_iff.mpr (.inl less), ?_⟩
        intro deeper
        exact Nat.ne_of_lt less (List.cons_prefix_cons.mp deeper).1
    rw [visits_eq]
    split
    · have last :
          addresses .leave (⟨.enter, [], t⟩ :: (branchVisits (branches t) ++ [⟨.leave, [], t⟩])) =
            addresses .leave (branchVisits (branches t)) ++ [[]] := by simp [addresses]
      rw [last, List.pairwise_append]
      refine ⟨inside, by simp, ?_⟩
      intro a member b root
      rw [List.mem_singleton.mp root]
      exact .inl ⟨List.nil_prefix, mem_addresses_ne_nil member⟩
    · exact inside

/-! ## Brackets -/

/-- The visits of a value with those of one branch singled out: none of the others is inside it. -/
theorem visits_branch {t v : Value} {i : Nat} (branch : (i, v) ∈ branches t) :
    ∃ before after, visits t = before ++ ((visits v).map (Visit.under i) ++ after) ∧
      ∀ x ∈ before ++ after, ∀ a, ¬ (i :: a) <+: x.address := by
  obtain ⟨left, right, split⟩ := List.append_of_mem branch
  have sorted := branches_sorted t
  rw [split, List.pairwise_append, List.pairwise_cons] at sorted
  obtain ⟨_, ⟨later, _⟩, earlier⟩ := sorted
  have apart : ∀ b ∈ left ++ right, b.1 ≠ i := by
    intro b member
    rcases List.mem_append.mp member with before | after
    · exact Nat.ne_of_lt (earlier b before (i, v) List.mem_cons_self)
    · exact Nat.ne_of_gt (later b after)
  have inside : branchVisits (branches t) =
      branchVisits left ++ ((visits v).map (Visit.under i) ++ branchVisits right) := by
    rw [branchVisits, split, List.flatMap_append, List.flatMap_cons]
    rfl
  have elsewhere : ∀ x ∈ branchVisits left ++ branchVisits right, ∀ a, ¬ (i :: a) <+: x.address := by
    intro x member a deeper
    rw [branchVisits, branchVisits, ← List.flatMap_append] at member
    obtain ⟨b, other, seen⟩ := List.mem_flatMap.mp member
    obtain ⟨y, _, rfl⟩ := List.mem_map.mp seen
    exact apart b other (List.cons_prefix_cons.mp deeper).1.symm
  rw [visits_eq, inside]
  split
  · refine ⟨⟨.enter, [], t⟩ :: branchVisits left, branchVisits right ++ [⟨.leave, [], t⟩], by simp, ?_⟩
    intro x member
    simp only [List.cons_append, List.mem_cons, List.mem_append, List.not_mem_nil, or_false] at member
    rcases member with rfl | before | after | rfl
    · simp
    · exact elsewhere x (List.mem_append_left _ before)
    · exact elsewhere x (List.mem_append_right _ after)
    · simp
  · exact ⟨branchVisits left, branchVisits right, rfl, elsewhere⟩

theorem visits_brackets {t v : Value} {a : Address} (node : NodeAt t a v) :
    ∃ before inside after, visits t = before ++ ⟨.enter, a, v⟩ :: (inside ++ ⟨.leave, a, v⟩ :: after) ∧
      inside.map Visit.event = (children v).flatMap trace ∧
      (∀ x ∈ inside, a <+: x.address ∧ x.address ≠ a) ∧ ∀ x ∈ before ++ after, ¬ a <+: x.address := by
  induction a generalizing t with
  | nil =>
    obtain ⟨rfl, typed⟩ := nodeAt_nil.mp node
    refine ⟨[], branchVisits (branches v), [], by rw [visits_eq, if_pos typed]; rfl, ?_, ?_, by simp⟩
    · have whole := visits_map_event v
      rw [visits_eq, trace_eq_branches, if_pos typed, if_pos typed, trace_children typed] at whole
      simpa [Visit.event] using whole
    · intro x member
      exact ⟨List.nil_prefix, address_ne_nil member⟩
  | cons i a ih =>
    obtain ⟨w, branch, below⟩ := nodeAt_cons.mp node
    obtain ⟨before, inside, after, split, traces, within, apart⟩ := ih below
    obtain ⟨left, right, whole, elsewhere⟩ := visits_branch branch
    refine ⟨left ++ before.map (Visit.under i), inside.map (Visit.under i),
      after.map (Visit.under i) ++ right, ?_, ?_, ?_, ?_⟩
    · rw [whole, split]
      simp [Visit.under]
    · rw [← traces, List.map_map]
      rfl
    · intro x member
      obtain ⟨y, seen, rfl⟩ := List.mem_map.mp member
      obtain ⟨deeper, other⟩ := within y seen
      exact ⟨List.cons_prefix_cons.mpr ⟨rfl, deeper⟩, by simpa [Visit.under] using other⟩
    · intro x member
      simp only [List.mem_append, List.mem_map] at member
      rcases member with (outer | ⟨y, inner, rfl⟩) | (⟨y, inner, rfl⟩ | outer)
      · exact elsewhere x (List.mem_append_left _ outer) a
      · exact fun deeper => apart y (List.mem_append_left _ inner) (List.cons_prefix_cons.mp deeper).2
      · exact fun deeper => apart y (List.mem_append_right _ inner) (List.cons_prefix_cons.mp deeper).2
      · exact elsewhere x (List.mem_append_right _ outer) a

end Walk

/-! ## Single phases -/

namespace Forest

/-- Asking for one phase only leaves out the events of the other. -/
theorem observed_eq_filter (hooks : Hooks) (f : Forest) :
    f.observed hooks = f.events.filter fun e =>
      match e.phase with
      | .enter => hooks.enter
      | .leave => hooks.leave := by
  induction f with
  | nil => rfl
  | node first below rest ihBelow ihRest =>
    rw [observed, ihBelow, ihRest, events_node]
    obtain ⟨enter, leave⟩ := hooks
    cases enter <;> cases leave <;> simp

end Forest

namespace Walk

theorem observe_phase (phase : Phase) (tree : Value) :
    observe ⟨phase = .enter, phase = .leave⟩ tree = (trace tree).filter fun e => e.phase = phase := by
  rw [observe_eq_observed, Forest.observed_eq_filter, trace_eq_events]
  congr 1
  funext e
  cases phase <;> cases e.phase <;> rfl

/-- Walks are depth first. The events of a tree, each given the address of its node, go through the
    tree: they enter and leave exactly the nodes that can be reached, each once, enter them in
    pre-order and leave them in post-order, and have nothing but the traces of a node's children
    between its two events. The whole trace is that of the outermost nodes, and a walk that is asked
    for one phase only shows the events of that phase. -/
theorem trace_traverses (tree : Value) :
    (∃ visits : List Visit, visits.map Visit.event = trace tree ∧ Traverses tree visits) ∧
      trace tree = (outermost tree).flatMap trace ∧
      observe ⟨true, false⟩ tree = ((trace tree).filter fun e => e.phase = .enter) ∧
      observe ⟨false, true⟩ tree = (trace tree).filter fun e => e.phase = .leave := by
  refine ⟨⟨visits tree, visits_map_event tree, ?_⟩, (trace_outermost tree).symm,
    observe_phase .enter tree, observe_phase .leave tree⟩
  exact ⟨fun _ _ _ => mem_visits, visits_preorder tree, visits_postorder tree,
    fun _ _ => visits_brackets⟩

end Walk

end LexicalScope
