import LexicalScope.Proofs.Lexical
import LexicalScope.Proofs.Malformed
import LexicalScope.Proofs.Occurrences
import LexicalScope.Proofs.Persistence

/-!
Two trees are rearranged when they are equal up to the order of the items of their lists and of the
entries of their objects, at any depth. Where no object has two fields of one name, the fields of
rearranged trees are rearranged again (`Alike.field`), so whatever names are read from one of them are
read from the other, in another order at most (`names_within`, `Declares.alike`). A walk visits alike
nodes among alike nodes (`below_alike`), and the program ends up with the same names
(`walk_rearranged`).
-/

namespace LexicalScope

namespace Value

/-- The same value up to the order of items and entries. A list or an object is permuted, or its
    first item or entry is rearranged, where a permutation brings any other. -/
inductive Rearranged : Value → Value → Prop where
  | refl (v : Value) : Rearranged v v
  | trans {u v w : Value} (first : Rearranged u v) (second : Rearranged v w) : Rearranged u w
  | items {items items' : List Value} (perm : items.Perm items') : Rearranged (.arr items) (.arr items')
  | entries {entries entries' : List (String × Value)} (perm : entries.Perm entries') :
      Rearranged (.obj entries) (.obj entries')
  | item {v v' : Value} (inner : Rearranged v v') (rest : List Value) :
      Rearranged (.arr (v :: rest)) (.arr (v' :: rest))
  | entry {v v' : Value} (inner : Rearranged v v') (key : String) (rest : List (String × Value)) :
      Rearranged (.obj ((key, v) :: rest)) (.obj ((key, v') :: rest))

/-- No object in the value has two fields of one name. -/
def UniqueKeys (v : Value) : Prop :=
  ∀ entries, Occurs (.obj entries) v → (entries.map Prod.fst).Nodup

/-- Rearranged values without two fields of one name. -/
structure Alike (v v' : Value) : Prop where
  rearranged : Rearranged v v'
  unique : v.UniqueKeys

/-! ## Rearranged values -/

theorem Rearranged.symm {v v' : Value} (moved : Rearranged v v') : Rearranged v' v := by
  induction moved with
  | refl v => exact .refl v
  | trans _ _ first second => exact .trans second first
  | items perm => exact .items perm.symm
  | entries perm => exact .entries perm.symm
  | item _ rest ih => exact .item ih rest
  | entry _ key rest ih => exact .entry ih key rest

/-- What rearranged values are, and what stands directly in them. -/
inductive Rearranged.Outline : Value → Value → Prop where
  | same (v : Value) : Outline v v
  | lists {items items' : List Value} (each : ∀ v ∈ items, ∃ v' ∈ items', Rearranged v v') :
      Outline (.arr items) (.arr items')
  | objects {entries entries' : List (String × Value)}
      (each : ∀ key v, (key, v) ∈ entries → ∃ v', (key, v') ∈ entries' ∧ Rearranged v v') :
      Outline (.obj entries) (.obj entries')

theorem Rearranged.Outline.trans {u v w : Value} (first : Outline u v) (second : Outline v w) :
    Outline u w := by
  cases first with
  | same => exact second
  | lists each =>
    cases second with
    | same => exact .lists each
    | lists further =>
      refine .lists fun x member => ?_
      obtain ⟨y, found, here⟩ := each x member
      obtain ⟨z, last, there⟩ := further y found
      exact ⟨z, last, here.trans there⟩
  | objects each =>
    cases second with
    | same => exact .objects each
    | objects further =>
      refine .objects fun key x member => ?_
      obtain ⟨y, found, here⟩ := each key x member
      obtain ⟨z, last, there⟩ := further key y found
      exact ⟨z, last, here.trans there⟩

theorem Rearranged.outline {v v' : Value} (moved : Rearranged v v') : Outline v v' := by
  induction moved with
  | refl v => exact .same v
  | trans _ _ first second => exact first.trans second
  | items perm => exact .lists fun v member => ⟨v, perm.mem_iff.mp member, .refl v⟩
  | entries perm => exact .objects fun key v member => ⟨v, perm.mem_iff.mp member, .refl v⟩
  | @item v v' inner rest _ =>
    refine .lists fun w member => ?_
    rcases List.mem_cons.mp member with rfl | later
    · exact ⟨v', List.mem_cons_self, inner⟩
    · exact ⟨w, List.mem_cons_of_mem v' later, .refl w⟩
  | @entry v v' inner key rest _ =>
    refine .objects fun name w member => ?_
    rcases List.mem_cons.mp member with same | later
    · cases same
      exact ⟨v', List.mem_cons_self, inner⟩
    · exact ⟨w, List.mem_cons_of_mem _ later, .refl w⟩

/-! ## Names of fields -/

theorem uniqueKeys_arr {items : List Value} : (arr items).UniqueKeys ↔ ∀ v ∈ items, v.UniqueKeys := by
  constructor
  · intro unique v member entries occurs
    exact unique entries (.item member occurs)
  · rintro each entries (_ | ⟨member, inside⟩ | _)
    exact each _ member entries inside

theorem uniqueKeys_obj {entries : List (String × Value)} :
    (obj entries).UniqueKeys ↔ (entries.map Prod.fst).Nodup ∧ ∀ entry ∈ entries, entry.2.UniqueKeys := by
  constructor
  · intro unique
    refine ⟨unique entries .here, fun entry member inner occurs => ?_⟩
    exact unique inner (.entry member occurs)
  · rintro ⟨distinct, each⟩ inner (_ | _ | ⟨member, inside⟩)
    · exact distinct
    · exact each _ member inner inside

theorem Rearranged.uniqueKeys {v v' : Value} (moved : Rearranged v v') (unique : v.UniqueKeys) :
    v'.UniqueKeys := by
  induction moved with
  | refl v => exact unique
  | trans _ _ first second => exact second (first unique)
  | items perm =>
    rw [uniqueKeys_arr] at unique ⊢
    intro v member
    exact unique v (perm.mem_iff.mpr member)
  | entries perm =>
    rw [uniqueKeys_obj] at unique ⊢
    refine ⟨(perm.map _).nodup_iff.mp unique.1, fun entry member => ?_⟩
    exact unique.2 entry (perm.mem_iff.mpr member)
  | item _ rest ih =>
    rw [uniqueKeys_arr, List.forall_mem_cons] at unique ⊢
    exact ⟨ih unique.1, unique.2⟩
  | entry _ key rest ih =>
    rw [uniqueKeys_obj, List.forall_mem_cons] at unique ⊢
    obtain ⟨distinct, first, later⟩ := unique
    exact ⟨distinct, ih first, later⟩

/-- Among different names a field is found wherever it stands. -/
theorem lookup_of_mem {entries : List (String × Value)} (distinct : (entries.map Prod.fst).Nodup)
    {key : String} {v : Value} (member : (key, v) ∈ entries) : entries.lookup key = some v := by
  induction entries with
  | nil => cases member
  | cons entry rest ih =>
    obtain ⟨name, w⟩ := entry
    rw [List.map_cons, List.nodup_cons] at distinct
    rcases List.mem_cons.mp member with same | later
    · cases same
      exact List.lookup_cons_self
    · have differ : key ≠ name := by
        intro same
        exact distinct.1 (List.mem_map.mpr ⟨(key, v), later, same⟩)
      rw [List.lookup_cons, beq_false_of_ne differ]
      exact ih distinct.2 later

/-! ## What alike values hold -/

namespace Alike

variable {v v' : Value}

theorem symm (alike : v.Alike v') : v'.Alike v :=
  ⟨alike.rearranged.symm, alike.rearranged.uniqueKeys alike.unique⟩

theorem null : Alike .null .null := by
  refine ⟨.refl _, ?_⟩
  rintro entries ⟨⟩

theorem item {items items' : List Value} (alike : (arr items).Alike (arr items'))
    (member : v ∈ items) : ∃ v' ∈ items', v.Alike v' := by
  have unique := uniqueKeys_arr.mp alike.unique v member
  cases alike.rearranged.outline with
  | same => exact ⟨v, member, .refl v, unique⟩
  | lists each =>
    obtain ⟨v', found, moved⟩ := each v member
    exact ⟨v', found, moved, unique⟩

theorem entry {entries entries' : List (String × Value)} (alike : (obj entries).Alike (obj entries'))
    {key : String} (member : (key, v) ∈ entries) : ∃ v', (key, v') ∈ entries' ∧ v.Alike v' := by
  have unique := (uniqueKeys_obj.mp alike.unique).2 (key, v) member
  cases alike.rearranged.outline with
  | same => exact ⟨v, member, .refl v, unique⟩
  | objects each =>
    obtain ⟨v', found, moved⟩ := each key v member
    exact ⟨v', found, moved, unique⟩

theorem lookup {entries entries' : List (String × Value)} (alike : (obj entries).Alike (obj entries'))
    (key : String) : Option.Rel Alike (entries.lookup key) (entries'.lookup key) := by
  obtain ⟨distinct, _⟩ := uniqueKeys_obj.mp alike.unique
  obtain ⟨distinct', _⟩ := uniqueKeys_obj.mp alike.symm.unique
  cases found : entries.lookup key with
  | some v =>
    obtain ⟨v', member, inner⟩ := alike.entry (mem_of_lookup found)
    rw [lookup_of_mem distinct' member]
    exact .some inner
  | none =>
    cases found' : entries'.lookup key with
    | none => exact .none
    | some v' =>
      obtain ⟨v, member, _⟩ := alike.symm.entry (mem_of_lookup found')
      rw [lookup_of_mem distinct member] at found
      cases found

theorem eq_arr {items : List Value} (alike : (arr items).Alike v') : ∃ items', v' = .arr items' := by
  cases alike.rearranged.outline with
  | same | lists => exact ⟨_, rfl⟩

theorem eq_obj {entries : List (String × Value)} (alike : (obj entries).Alike v') :
    ∃ entries', v' = .obj entries' := by
  cases alike.rearranged.outline with
  | same | objects => exact ⟨_, rfl⟩

theorem field (alike : v.Alike v') (key : String) : (v.field key).Alike (v'.field key) := by
  cases v with
  | obj entries =>
    obtain ⟨entries', rfl⟩ := alike.eq_obj
    have found := alike.lookup key
    rw [Value.field, Value.field]
    generalize entries.lookup key = first, entries'.lookup key = second at found ⊢
    cases found with
    | some inner => exact inner
    | none => exact null
  | _ => cases alike.rearranged.outline <;> exact null

theorem hasField (alike : v.Alike v') (key : String) : v'.hasField key = v.hasField key := by
  cases v with
  | obj entries =>
    obtain ⟨entries', rfl⟩ := alike.eq_obj
    have found := alike.lookup key
    rw [Value.hasField, Value.hasField]
    generalize entries.lookup key = first, entries'.lookup key = second at found ⊢
    cases found <;> rfl
  | _ => cases alike.rearranged.outline <;> rfl

theorem outline (alike : v.Alike v') (key : String) : Rearranged.Outline (v.field key) (v'.field key) :=
  (alike.field key).rearranged.outline

-- What matters of these fields is a text, and a rearranged text is the same text.
theorem nodeType (alike : v.Alike v') : v'.nodeType = v.nodeType := by
  have inner := alike.outline "type"
  unfold Value.nodeType
  generalize v.field "type" = type, v'.field "type" = type' at inner ⊢
  cases inner <;> rfl

theorem hasCompositeType (alike : v.Alike v') : v'.hasCompositeType = v.hasCompositeType := by
  have inner := alike.outline "type"
  unfold Value.hasCompositeType
  generalize v.field "type" = type, v'.field "type" = type' at inner ⊢
  cases inner <;> rfl

theorem variableTarget (alike : v.Alike v') : v'.variableTarget = v.variableTarget := by
  have inner := alike.outline "kind"
  unfold Value.variableTarget
  generalize v.field "kind" = kind, v'.field "kind" = kind' at inner ⊢
  cases inner <;> rfl

theorem identifierName (alike : v.Alike v') : Pattern.identifierName v' = Pattern.identifierName v := by
  have inner := alike.outline "name"
  unfold Pattern.identifierName
  generalize v.field "name" = name, v'.field "name" = name' at inner ⊢
  cases inner <;> rfl

theorem lookupType (alike : v.Alike v') : v'.lookupType = v.lookupType := by
  rw [Value.lookupType, Value.lookupType, alike.hasCompositeType, alike.nodeType]

theorem opens (alike : v.Alike v') : v'.opens = v.opens := by
  rw [Value.opens, Value.opens, alike.nodeType]

end Alike

end Value

/-! ## Names -/

namespace Reading

/-- What the first reading finds, the second finds as well, in whatever order. -/
def Within (first second : Except Fault (List String)) : Prop :=
  ∀ names, first = .ok names → ∃ names', second = .ok names' ∧ names ⊆ names'

theorem Within.refl (read : Except Fault (List String)) : Within read read :=
  fun names done => ⟨names, done, List.Subset.refl names⟩

end Reading

namespace Value

/-- The names read from a list are those read from its items. -/
theorem mem_readListed_arr {read : Value → Except Fault (List String)} {items : List Value}
    {names : List String} (done : (arr items).readListed read = .ok names) {name : String} :
    name ∈ names ↔ ∃ item ∈ items, ∃ found, read item = .ok found ∧ name ∈ found := by
  obtain ⟨listed, known, each⟩ := Reading.ok_of_bind done
  obtain rfl : items = listed := Except.ok.inj ((Pattern.listed_arr items).symm.trans known)
  obtain ⟨all, reads, made⟩ := Reading.ok_of_bind each
  obtain rfl : all.flatten = names := Except.ok.inj made
  clear done known each made
  induction items generalizing all with
  | nil =>
    obtain rfl : [] = all := Except.ok.inj reads
    simp
  | cons item rest ih =>
    rw [List.mapM_cons] at reads
    obtain ⟨found, here, later⟩ := Reading.ok_of_bind reads
    obtain ⟨more, after, made⟩ := Reading.ok_of_bind later
    obtain rfl : found :: more = all := Except.ok.inj made
    simp [ih more after, here]

/-- Where the items of a list are read, in any order, the list is. -/
theorem readListed_within {read : Value → Except Fault (List String)} (plain : ∀ s, read (.str s) = .ok [])
    {v v' : Value} (alike : v.Alike v')
    (each : ∀ items, v = .arr items → ∀ item ∈ items, ∀ item', item.Alike item' →
      Reading.Within (read item) (read item')) :
    Reading.Within (v.readListed read) (v'.readListed read) := by
  cases v with
  | obj entries =>
    obtain ⟨entries', rfl⟩ := alike.eq_obj
    rw [Pattern.readListed_obj plain, Pattern.readListed_obj plain]
    exact .refl _
  | arr items =>
    obtain ⟨items', rfl⟩ := alike.eq_arr
    intro names done
    obtain ⟨_, readable⟩ := readListed_eq_ok done
    cases done' : (arr items').readListed read with
    | error fault =>
      rcases readListed_eq_error plain done' with ⟨unlisted, _⟩ | ⟨_, list, item', member', failed⟩
      · cases unlisted
      · -- The item stands in the first list as well, where it was read.
        cases list
        obtain ⟨item, member, inner⟩ := alike.symm.item member'
        obtain ⟨found, here⟩ := readable items rfl item member
        obtain ⟨found', there, _⟩ := each items rfl item member item' inner.symm found here
        rw [there] at failed
        cases failed
    | ok names' =>
      refine ⟨names', rfl, fun name named => ?_⟩
      obtain ⟨item, member, found, here, bound⟩ := (mem_readListed_arr done).mp named
      obtain ⟨item', member', inner⟩ := alike.item member
      obtain ⟨found', there, within⟩ := each items rfl item member item' inner found here
      exact (mem_readListed_arr done').mpr ⟨item', member', found', there, within bound⟩
  | _ =>
    cases alike.rearranged.outline
    exact .refl _

end Value

namespace Pattern

theorem names_within {v v' : Value} (alike : v.Alike v') : Reading.Within (names v) (names v') := by
  rw [names_eq v, names_eq v', alike.nodeType]
  cases type : v.nodeType
  case identifier =>
    dsimp only
    rw [alike.identifierName]
    exact .refl _
  case arrayPattern =>
    apply Value.readListed_within (fun s => rfl) (alike.field "elements")
    intro items list item member item' inner
    have leads : Leads v item := .element type list member
    exact names_within inner
  case objectPattern =>
    apply Value.readListed_within (fun s => rfl) (alike.field "properties")
    intro items list property member property' inner
    rw [propertyName_eq, propertyName_eq, inner.nodeType]
    split
    · rename_i rest
      have leads : Leads v property := .rest type list member rest
      exact names_within inner
    · rename_i other
      cases property with
      | obj entries =>
        have leads : Leads v _ := .value type list member rfl other
        exact names_within (inner.field "value")
      | _ => cases inner.rearranged.outline <;> exact .refl _
  case assignmentPattern =>
    have leads : Leads v _ := .target type
    exact names_within (alike.field "left")
  case restElement =>
    have leads : Leads v _ := .argument type
    exact names_within (alike.field "argument")
  all_goals exact .refl _
termination_by sizeOf v
decreasing_by all_goals exact leads.sizeOf_lt

end Pattern

/-! ## Declarations -/

namespace Value

variable {v v' : Value}

theorem namesThrough_within (alike : v.Alike v') (list part : String) :
    Reading.Within (v.namesThrough list part) (v'.namesThrough list part) := by
  rw [namesThrough_eq, namesThrough_eq]
  apply readListed_within (fun s => rfl) (alike.field list)
  intro _ _ item _ item' inner
  exact Pattern.names_within (inner.field part)

theorem ownNames_within (alike : v.Alike v') : Reading.Within v.ownNames v'.ownNames := by
  have params : Reading.Within ((v.field "params").readListed Pattern.names)
      ((v'.field "params").readListed Pattern.names) := by
    apply readListed_within (fun s => rfl) (alike.field "params")
    intro _ _ item _ item' inner
    exact Pattern.names_within inner
  unfold ownNames
  rw [alike.lookupType]
  cases v.lookupType with
  | error fault => exact .refl _
  | ok type =>
    cases type
    case functionDeclaration | functionExpression | arrowFunction => exact params
    case catchClause => exact Pattern.names_within (alike.field "param")
    all_goals exact .refl _

/-- Alike nodes declare the same names for the same scope. -/
theorem Declares.alike {d : Declaration} (declares : v.Declares d) (alike : v.Alike v') :
    ∃ d', v'.Declares d' ∧ d'.target = d.target ∧ d.names ⊆ d'.names := by
  cases declares with
  | vars type bound =>
    obtain ⟨names', bound', within⟩ := namesThrough_within alike _ _ _ bound
    exact ⟨_, .vars (alike.nodeType.trans type) bound', alike.variableTarget, within⟩
  | function type bound =>
    obtain ⟨names', bound', within⟩ := Pattern.names_within (alike.field "id") _ bound
    exact ⟨_, .function (alike.nodeType.trans type) bound', rfl, within⟩
  | expression type bound =>
    obtain ⟨names', bound', within⟩ := Pattern.names_within (alike.field "id") _ bound
    exact ⟨_, .expression (alike.nodeType ▸ type) bound', rfl, within⟩
  | imports type bound =>
    obtain ⟨names', bound', within⟩ := namesThrough_within alike _ _ _ bound
    exact ⟨_, .imports (alike.nodeType.trans type) bound', rfl, within⟩

theorem declaration?_none_alike (alike : v.Alike v') (read : v.declaration? = .ok none) :
    v'.declaration? = .ok none := by
  unfold declaration? at read ⊢
  obtain ⟨type, known, read⟩ := Reading.ok_of_bind read
  rw [alike.lookupType, known]
  cases type
  -- A node of a type that declares names makes a declaration, be it of none.
  case variableDeclaration | importDeclaration | functionDeclaration | functionExpression |
      classDeclaration | classExpression =>
    obtain ⟨_, _, made⟩ := Reading.ok_of_bind read
    cases made
  all_goals rfl

theorem Readable.alike (readable : v.Readable) (alike : v.Alike v') : v'.Readable := by
  refine ⟨⟨v'.opens, ?_⟩, ?_, ?_⟩
  · rw [scopeKind?_eq, alike.hasCompositeType, alike.opens, ← scopeKind?_eq]
    exact readable.scopeKind?
  · obtain ⟨d, read⟩ := readable.declaration
    cases d with
    | none => exact ⟨none, declaration?_none_alike alike read⟩
    | some d =>
      obtain ⟨d', declares, _⟩ := (declaration?_eq_some_iff.mp read).alike alike
      exact ⟨some d', declaration?_eq_some_iff.mpr declares⟩
  · obtain ⟨names, read⟩ := readable.own
    obtain ⟨names', read', _⟩ := ownNames_within alike names read
    exact ⟨names', read'⟩

end Value

/-! ## Places -/

namespace Forest

theorem places_append (f g : Forest) (around : List Value) :
    (f.append g).places around = f.places around ++ g.places around := by
  induction f with
  | nil => rfl
  | node first below rest _ ih => simp [append, places, ih]

theorem map_node_places (f : Forest) (around : List Value) : (f.places around).map Place.node = f.nodes := by
  induction f generalizing around with
  | nil => rfl
  | node first below rest ihBelow ihRest => simp [places, nodes, ihBelow, ihRest]

end Forest

/-- Alike nodes in the same order around alike nodes. -/
structure Place.Alike (place place' : Place) : Prop where
  node : place.node.Alike place'.node
  around : List.Forall₂ Value.Alike place.around place'.around

namespace Walk

theorem mem_places_items {items : List Value} {around : List Value} {place : Place} :
    place ∈ (itemsForest items).places around ↔ ∃ v ∈ items, place ∈ (forest v).places around := by
  induction items with
  | nil => simp [itemsForest, Forest.places]
  | cons v rest ih => simp [itemsForest, Forest.places_append, ih]

theorem mem_places_entries {entries : List (String × Value)} {around : List Value} {place : Place} :
    place ∈ (entriesForest entries).places around ↔
      ∃ key v, (key, v) ∈ entries ∧ metadata.contains key = false ∧ place ∈ (forest v).places around := by
  induction entries with
  | nil => simp [entriesForest, Forest.places]
  | cons entry rest ih =>
    obtain ⟨name, w⟩ := entry
    rw [entriesForest, Forest.places_append, List.mem_append, ih]
    constructor
    · rintro (here | ⟨key, v, member, plain, found⟩)
      · split at here
        · cases here
        · rename_i plain
          exact ⟨name, w, List.mem_cons_self, Bool.eq_false_iff.mpr plain, here⟩
      · exact ⟨key, v, List.mem_cons_of_mem _ member, plain, found⟩
    · rintro ⟨key, v, member, plain, found⟩
      rcases List.mem_cons.mp member with same | later
      · cases same
        rw [if_neg (Bool.eq_false_iff.mp plain)]
        exact .inl found
      · exact .inr ⟨key, v, later, plain, found⟩

mutual

/-- The nodes visited in a tree have their counterparts, among alike nodes, in an alike tree. -/
theorem forest_alike {v v' : Value} (alike : v.Alike v') {around around' : List Value}
    (outer : List.Forall₂ Value.Alike around around') {place : Place}
    (visited : place ∈ (forest v).places around) : ∃ place' ∈ (forest v').places around', place.Alike place' := by
  match v with
  | .arr items =>
    obtain ⟨items', rfl⟩ := alike.eq_arr
    rw [forest, mem_places_items] at visited
    obtain ⟨item, member, found⟩ := visited
    obtain ⟨item', member', inner⟩ := alike.item member
    obtain ⟨place', found', same⟩ := forest_alike inner outer found
    rw [forest]
    exact ⟨place', mem_places_items.mpr ⟨item', member', found'⟩, same⟩
  | .obj entries =>
    by_cases typed : (Value.obj entries).hasField "type" = true
    · have typed' : v'.hasField "type" = true := (alike.hasField "type").trans typed
      rw [forest_node typed, Forest.places, Forest.places, List.append_nil] at visited
      rw [forest_node typed', Forest.places, Forest.places, List.append_nil]
      rcases List.mem_cons.mp visited with rfl | inside
      · exact ⟨_, List.mem_cons_self, alike, outer⟩
      · obtain ⟨place', found', same⟩ := below_alike alike (.cons alike outer) inside
        exact ⟨place', List.mem_cons_of_mem _ found', same⟩
    · rw [forest, if_neg typed] at visited
      cases visited
  | .null | .bool _ | .int _ | .float _ | .str _ | .regex => cases visited
termination_by (sizeOf v, 1)
decreasing_by
  · exact .left _ _ (Value.sizeOf_of_mem_arr member)
  · exact .right _ Nat.zero_lt_one

theorem below_alike {v v' : Value} (alike : v.Alike v') {around around' : List Value}
    (outer : List.Forall₂ Value.Alike around around') {place : Place}
    (visited : place ∈ (below v).places around) : ∃ place' ∈ (below v').places around', place.Alike place' := by
  match v with
  | .obj entries =>
    obtain ⟨entries', rfl⟩ := alike.eq_obj
    rw [below, mem_places_entries] at visited
    obtain ⟨key, w, member, plain, found⟩ := visited
    obtain ⟨w', member', inner⟩ := alike.entry member
    obtain ⟨place', found', same⟩ := forest_alike inner outer found
    rw [below]
    exact ⟨place', mem_places_entries.mpr ⟨key, w', member', plain, found'⟩, same⟩
  | .arr _ | .null | .bool _ | .int _ | .float _ | .str _ | .regex => cases visited
termination_by (sizeOf v, 0)
decreasing_by exact .left _ _ (Value.sizeOf_of_mem_obj member)

end

/-- Every node visited below one of two alike nodes is alike to a node visited below the other. -/
theorem nodes_alike {v v' : Value} (alike : v.Alike v') {w : Value} (visited : w ∈ (below v).nodes) :
    ∃ w' ∈ (below v').nodes, w.Alike w' := by
  rw [← Forest.map_node_places _ []] at visited ⊢
  obtain ⟨place, member, rfl⟩ := List.mem_map.mp visited
  obtain ⟨place', member', same⟩ := below_alike alike .nil member
  exact ⟨place'.node, List.mem_map_of_mem member', same.node⟩

end Walk

/-! ## The names for a scope -/

namespace Place

theorem mem_namesFor {outer : Value} {place : Place} {name : String} :
    name ∈ place.namesFor outer ↔
      ∃ d, place.node.Declares d ∧ place.declaresFor outer d.target = true ∧ name ∈ d.names := by
  constructor
  · intro member
    unfold namesFor at member
    split at member
    · rename_i d read
      split at member
      · exact ⟨d, Value.declaration?_eq_some_iff.mp read, by assumption, member⟩
      · cases member
    · cases member
  · rintro ⟨d, declares, received, member⟩
    rw [namesFor, Value.declaration?_eq_some_iff.mpr declares]
    dsimp only
    rwa [if_pos received]

theorem Alike.nearest {outer outer' : Value} (outside : outer.Alike outer') {place place' : Place}
    (alike : place.Alike place') {property : Value → Bool}
    (same : ∀ v v', v.Alike v' → property v' = property v) :
    place'.nearest outer' property = place.nearest outer property := by
  obtain ⟨node, around⟩ := place
  obtain ⟨node', around'⟩ := place'
  have between : (around'.all fun v => !property v) = around.all fun v => !property v := by
    have pairs : List.Forall₂ Value.Alike around around' := alike.around
    clear alike
    induction pairs with
    | nil => rfl
    | cons first _ ih => rw [List.all_cons, List.all_cons, same _ _ first, ih]
  rw [Place.nearest, Place.nearest, same _ _ outside, between]

theorem Alike.declaresFor {outer outer' : Value} (outside : outer.Alike outer') {place place' : Place}
    (alike : place.Alike place') (target : Target) :
    place'.declaresFor outer' target = place.declaresFor outer target := by
  cases target with
  | current =>
    apply alike.nearest outside
    intro v v' inner
    rw [Value.isScope, Value.isScope, inner.opens]
  | function =>
    apply alike.nearest outside
    intro v v' inner
    rw [Value.isFunctionScope, Value.isFunctionScope, inner.opens]
  | outermost => rw [Place.declaresFor, Place.declaresFor, outside.nodeType]
  | own => rfl

end Place

/-- What is declared for a node inside it is declared for an alike node inside that. -/
theorem Walk.namesFor_alike {outer outer' : Value} (alike : outer.Alike outer') :
    (inside outer).flatMap (Place.namesFor outer) ⊆ (inside outer').flatMap (Place.namesFor outer') := by
  intro name member
  rw [List.mem_flatMap] at member ⊢
  obtain ⟨place, found, named⟩ := member
  obtain ⟨d, declares, received, bound⟩ := Place.mem_namesFor.mp named
  obtain ⟨place', found', same⟩ := below_alike alike .nil found
  obtain ⟨d', declares', target, within⟩ := declares.alike same.node
  refine ⟨place', found', Place.mem_namesFor.mpr ⟨d', declares', ?_, within bound⟩⟩
  rw [target, same.declaresFor alike]
  exact received

namespace Sample

/-- A program that declares `a` and, in a block, `b` and `c`. -/
def straight : Value :=
  .obj [("type", .str "Program"),
    ("body", .arr [declaration "var" "a", block [declaration "var" "b", declaration "let" "c"]])]

/-- The same program from back to front. -/
def turned : Value :=
  .obj [("body", .arr [block [declaration "let" "c", declaration "var" "b"], declaration "var" "a"]),
    ("type", .str "Program")]

end Sample

namespace OpenScopes

theorem walk_done_alike {tree other : Value} (program : tree.nodeType = .program) (alike : tree.Alike other)
    (done : (walk [] tree).fault = none) : (walk [] other).fault = none := by
  have program' : other.nodeType = .program := alike.nodeType.trans program
  rw [(walk_program program).1] at done
  rw [(walk_program program').1]
  refine (run_depth ?_ (List.cons_ne_nil _ _)).1
  intro v visited
  obtain ⟨w, found, same⟩ := Walk.nodes_alike alike.symm visited
  exact (run_readable done w found).alike same.symm

theorem alone_alike {tree other : Value} (program : tree.nodeType = .program) (alike : tree.Alike other)
    (alone : ∀ v ∈ (Walk.visited tree).tail, v.nodeType ≠ .program) :
    ∀ v ∈ (Walk.visited other).tail, v.nodeType ≠ .program := by
  have program' : other.nodeType = .program := alike.nodeType.trans program
  rw [Walk.visited_node (Value.hasField_of_program program), List.tail_cons] at alone
  rw [Walk.visited_node (Value.hasField_of_program program'), List.tail_cons]
  intro v visited
  obtain ⟨w, found, same⟩ := Walk.nodes_alike alike.symm visited
  rw [← same.nodeType]
  exact alone w found

/-- The scope of a program ends up with the names declared for it, each once. -/
theorem walk_program_names {tree : Value} (program : tree.nodeType = .program)
    (alone : ∀ v ∈ (Walk.visited tree).tail, v.nodeType ≠ .program) (done : (walk [] tree).fault = none) :
    ∃ scope, (walk [] tree).scopes = [scope] ∧ scope.names.Nodup ∧
      ∀ name, name ∈ scope.names ↔ name ∈ (Walk.inside tree).flatMap (Place.namesFor tree) := by
  obtain ⟨fault, scopes⟩ := walk_program program
  rw [fault] at done
  rw [scopes, walk_program_scopes program alone done]
  have start : (Scope.empty false).Distinct := List.nodup_nil
  refine ⟨_, rfl, Scope.distinct_defineAll start _, fun name => ?_⟩
  rw [Scope.names_defineAll_empty, List.mem_eraseDups]

/-- The order of a tree concerns the order of names only. Let a tree whose only program is its root,
    without two fields of one name, be rearranged at any depth. Then it is walked without a fault
    exactly when the other tree is, and the scope of the program ends up with the same names, each
    once, in whatever order. -/
theorem walk_rearranged {tree other : Value} (program : tree.nodeType = .program)
    (alone : ∀ v ∈ (Walk.visited tree).tail, v.nodeType ≠ .program) (unique : tree.UniqueKeys)
    (moved : tree.Rearranged other) :
    ((walk [] tree).fault = none ↔ (walk [] other).fault = none) ∧
      ((walk [] tree).fault = none → ∃ scope scope', (walk [] tree).scopes = [scope] ∧
        (walk [] other).scopes = [scope'] ∧ scope.names.Perm scope'.names ∧
        scope.names.Nodup ∧ scope'.names.Nodup) := by
  have alike : tree.Alike other := ⟨moved, unique⟩
  have program' : other.nodeType = .program := alike.nodeType.trans program
  refine ⟨⟨walk_done_alike program alike, walk_done_alike program' alike.symm⟩, fun done => ?_⟩
  have done' := walk_done_alike program alike done
  obtain ⟨scope, only, distinct, names⟩ := walk_program_names program alone done
  obtain ⟨scope', only', distinct', names'⟩ :=
    walk_program_names program' (alone_alike program alike alone) done'
  refine ⟨scope, scope', only, only', ?_, distinct, distinct'⟩
  rw [List.perm_ext_iff_of_nodup distinct distinct']
  intro name
  rw [names, names']
  exact ⟨@Walk.namesFor_alike _ _ alike name, @Walk.namesFor_alike _ _ alike.symm name⟩

/-- From back to front the names come in another order. -/
theorem sample_rearranged :
    ∃ scope scope', (walk [] Sample.straight).scopes = [scope] ∧ (walk [] Sample.turned).scopes = [scope'] ∧
      scope.names.Perm scope'.names ∧ scope.names = ["a", "b"] ∧ scope'.names = ["b", "a"] := by
  have block : Value.Rearranged (Sample.block [Sample.declaration "var" "b", Sample.declaration "let" "c"])
      (Sample.block [Sample.declaration "let" "c", Sample.declaration "var" "b"]) := by
    refine .trans (.entries (.swap _ _ _)) (.trans (.entry (.items (.swap _ _ _)) "body" _) ?_)
    exact .entries (.swap _ _ _)
  have moved : Value.Rearranged Sample.straight Sample.turned := by
    refine .trans (.entries (.swap _ _ _)) (.entry (.trans (.items (.swap _ _ _)) ?_) "body" _)
    exact .item block _
  have text : ∀ s, (Value.str s).UniqueKeys := by rintro s entries ⟨⟩
  have unique : Sample.straight.UniqueKeys := by
    simp [Sample.straight, Sample.block, Sample.declaration, Sample.identifier, Value.uniqueKeys_obj,
      Value.uniqueKeys_arr, text]
  have done : (walk [] Sample.straight).fault = none := Option.isNone_iff_eq_none.mp (by decide +kernel)
  obtain ⟨_, ends⟩ := walk_rearranged rfl (by decide) unique moved
  obtain ⟨scope, scope', only, only', perm, _⟩ := ends done
  have names : (walk [] Sample.straight).scopes.map Scope.names = [["a", "b"]] := by decide +kernel
  have names' : (walk [] Sample.turned).scopes.map Scope.names = [["b", "a"]] := by decide +kernel
  rw [only] at names
  rw [only'] at names'
  exact ⟨scope, scope', only, only', perm, List.head_eq_of_cons_eq names, List.head_eq_of_cons_eq names'⟩

end OpenScopes

end LexicalScope
