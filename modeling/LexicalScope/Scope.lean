import Std.Data.ExtTreeSet

/-!
A scope lists the names declared in it, in the order of their first declaration. It keeps the set
of these names beside the list, so that a repeated declaration is found without going through it.
-/

namespace LexicalScope

/-- A function scope or a block scope, with the names declared in it. -/
structure Scope where
  /-- A block, rather than a function. -/
  block : Bool
  /-- The names, first declared first. -/
  defined : Array String
  /-- The same names as a set. -/
  seen : Std.ExtTreeSet String
  mem_seen : ∀ name, name ∈ seen ↔ name ∈ defined

namespace Scope

/-- The scope with given names; a repetition among them stays. -/
def ofNames (block : Bool) (names : List String) : Scope where
  block := block
  defined := names.toArray
  seen := .ofList names
  mem_seen := by simp [Std.ExtTreeSet.mem_ofList]

def empty (block : Bool) : Scope := ofNames block []

instance : Inhabited Scope := ⟨empty false⟩

/-- The names of a scope, first declared first. -/
def names (s : Scope) : List String := s.defined.toList

/-- Looks a name up in the set. -/
def declares (s : Scope) (name : String) : Bool := s.seen.contains name

/-- The scope with a name declared in it, once. -/
def define (s : Scope) (name : String) : Scope :=
  if s.declares name then s
  else
    { block := s.block
      defined := s.defined.push name
      seen := s.seen.insert name
      mem_seen := by
        intro other
        simp only [Std.ExtTreeSet.mem_insert, Std.compare_eq_iff_eq, Array.mem_push, s.mem_seen]
        constructor
        · rintro (h | h)
          · exact .inr h.symm
          · exact .inl h
        · rintro (h | h)
          · exact .inr h
          · exact .inl h.symm }

/-- Declares a name, and tells whether the scope lacked it. -/
def enlist (s : Scope) (name : String) : Bool × Scope := (!s.declares name, s.define name)

/-- The scope with several names declared in it, from left to right. -/
def defineAll (s : Scope) (names : List String) : Scope := names.foldl define s

/-- The names among those given that the scope lacks, each where it stands first. -/
def fresh (s : Scope) : List String → List String
  | [] => []
  | name :: rest =>
    if s.declares name then s.fresh rest else name :: (s.define name).fresh rest

/-! ## The names of a scope -/

@[simp]
theorem names_ofNames (block : Bool) (names : List String) :
    (ofNames block names).names = names := rfl

@[simp]
theorem block_ofNames (block : Bool) (names : List String) :
    (ofNames block names).block = block := rfl

@[simp]
theorem names_empty (block : Bool) : (empty block).names = [] := rfl

@[simp]
theorem block_empty (block : Bool) : (empty block).block = block := rfl

theorem declares_iff {s : Scope} {name : String} : s.declares name = true ↔ name ∈ s.names := by
  rw [declares, names, Std.ExtTreeSet.contains_iff_mem, s.mem_seen, Array.mem_toList_iff]

@[simp]
theorem block_define (s : Scope) (name : String) : (s.define name).block = s.block := by
  unfold define
  split <;> rfl

/-- A name that is new comes last, and one that is not changes nothing. -/
theorem names_define (s : Scope) (name : String) :
    (s.define name).names = if name ∈ s.names then s.names else s.names ++ [name] := by
  unfold define
  by_cases h : s.declares name = true
  · rw [if_pos h, if_pos (declares_iff.1 h)]
  · rw [if_neg h, if_neg fun m => h (declares_iff.2 m)]
    simp [names]

/-- Two scopes of the same flavour with the same names are the same scope. -/
@[ext]
theorem ext {s t : Scope} (block : s.block = t.block) (defined : s.defined = t.defined) :
    s = t := by
  obtain ⟨sb, sd, ss, sm⟩ := s
  obtain ⟨tb, td, ts, tm⟩ := t
  obtain rfl : sb = tb := block
  obtain rfl : sd = td := defined
  obtain rfl : ss = ts := Std.ExtTreeSet.ext_mem fun name => (sm name).trans (tm name).symm
  rfl

/-- A scope is its flavour and its names. -/
theorem ext_names {s t : Scope} (block : s.block = t.block) (names : s.names = t.names) : s = t :=
  Scope.ext block (Array.toList_inj.mp names)

instance : DecidableEq Scope := fun s t =>
  if h : s.block = t.block ∧ s.defined = t.defined then .isTrue (Scope.ext h.1 h.2)
  else .isFalse fun e => h ⟨e ▸ rfl, e ▸ rfl⟩

end Scope

end LexicalScope
