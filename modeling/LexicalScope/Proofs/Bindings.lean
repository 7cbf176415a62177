import LexicalScope.Proofs.Descent

/-!
The grammar of binding patterns, apart from how a tree holds them: identifiers, lists with holes,
properties, defaults and rest elements. A value holds a pattern when it has the type of the pattern
and the fields that lead to its parts (`Encodes`); what else stands in the value is free. Reading it
gives the identifiers at the leaves of the pattern, from left to right (`names_encoded`).
-/

namespace LexicalScope

mutual

/-- A binding pattern. Property keys and default values are no part of it. -/
inductive Binding where
  | identifier (name : String)
  | array (elements : Elements)
  | object (properties : Properties)
  /-- A pattern with a default. -/
  | assignment (left : Binding)
  | rest (argument : Binding)

/-- The elements of an array pattern. -/
inductive Elements where
  | nil
  /-- A slot that is left out. -/
  | hole (later : Elements)
  | element (first : Binding) (later : Elements)

/-- The properties of an object pattern. -/
inductive Properties where
  | nil
  | property (value : Binding) (later : Properties)
  | rest (argument : Binding) (later : Properties)

end

mutual

/-- The identifiers at the leaves, from left to right. -/
def Binding.identifiers : Binding → List String
  | .identifier name => [name]
  | .array elements => elements.identifiers
  | .object properties => properties.identifiers
  | .assignment left => left.identifiers
  | .rest argument => argument.identifiers

def Elements.identifiers : Elements → List String
  | .nil => []
  | .hole later => later.identifiers
  | .element first later => first.identifiers ++ later.identifiers

def Properties.identifiers : Properties → List String
  | .nil => []
  | .property value later => value.identifiers ++ later.identifiers
  | .rest argument later => argument.identifiers ++ later.identifiers

end

mutual

/-- The value holds the pattern. Only the fields that lead to parts of the pattern are looked at. -/
inductive Binding.Encodes : Binding → Value → Prop where
  | identifier {name : String} {v : Value} (type : v.field "type" = .str "Identifier")
      (spelled : v.field "name" = .str name) : Binding.Encodes (.identifier name) v
  | array {elements : Elements} {v : Value} {items : List Value}
      (type : v.field "type" = .str "ArrayPattern") (list : v.field "elements" = .arr items)
      (each : elements.Encodes items) : Binding.Encodes (.array elements) v
  | object {properties : Properties} {v : Value} {items : List Value}
      (type : v.field "type" = .str "ObjectPattern") (list : v.field "properties" = .arr items)
      (each : properties.Encodes items) : Binding.Encodes (.object properties) v
  | assignment {left : Binding} {v : Value} (type : v.field "type" = .str "AssignmentPattern")
      (target : left.Encodes (v.field "left")) : Binding.Encodes (.assignment left) v
  | rest {argument : Binding} {v : Value} (type : v.field "type" = .str "RestElement")
      (target : argument.Encodes (v.field "argument")) : Binding.Encodes (.rest argument) v

/-- The values hold the elements, one by one; a slot that is left out is `null`. -/
inductive Elements.Encodes : Elements → List Value → Prop where
  | nil : Elements.Encodes .nil []
  | hole {elements : Elements} {items : List Value} (later : elements.Encodes items) :
      Elements.Encodes (.hole elements) (.null :: items)
  | element {first : Binding} {elements : Elements} {v : Value} {items : List Value}
      (here : first.Encodes v) (later : elements.Encodes items) :
      Elements.Encodes (.element first elements) (v :: items)

/-- The values hold the properties, one by one. A property is any object but a rest element. -/
inductive Properties.Encodes : Properties → List Value → Prop where
  | nil : Properties.Encodes .nil []
  | property {value : Binding} {properties : Properties} {v : Value} {items : List Value}
      (type : v.field "type" ≠ .str "RestElement") (here : value.Encodes (v.field "value"))
      (later : properties.Encodes items) : Properties.Encodes (.property value properties) (v :: items)
  | rest {argument : Binding} {properties : Properties} {v : Value} {items : List Value}
      (type : v.field "type" = .str "RestElement") (here : argument.Encodes (v.field "argument"))
      (later : properties.Encodes items) : Properties.Encodes (.rest argument properties) (v :: items)

end

/-! ## A plain encoding -/

mutual

/-- A value that holds the pattern and nothing else. -/
def Binding.plain : Binding → Value
  | .identifier name => .obj [("type", .str "Identifier"), ("name", .str name)]
  | .array elements => .obj [("type", .str "ArrayPattern"), ("elements", .arr elements.plain)]
  | .object properties => .obj [("type", .str "ObjectPattern"), ("properties", .arr properties.plain)]
  | .assignment left => .obj [("type", .str "AssignmentPattern"), ("left", left.plain)]
  | .rest argument => .obj [("type", .str "RestElement"), ("argument", argument.plain)]

def Elements.plain : Elements → List Value
  | .nil => []
  | .hole later => .null :: later.plain
  | .element first later => first.plain :: later.plain

def Properties.plain : Properties → List Value
  | .nil => []
  | .property value later =>
    .obj [("type", .str "Property"), ("value", value.plain)] :: later.plain
  | .rest argument later =>
    .obj [("type", .str "RestElement"), ("argument", argument.plain)] :: later.plain

end

mutual

theorem Binding.encodes_plain (p : Binding) : p.Encodes p.plain := by
  match p with
  | .identifier name => exact .identifier rfl rfl
  | .array elements => exact .array rfl rfl elements.encodes_plain
  | .object properties => exact .object rfl rfl properties.encodes_plain
  | .assignment left => exact .assignment rfl left.encodes_plain
  | .rest argument => exact .rest rfl argument.encodes_plain

theorem Elements.encodes_plain (elements : Elements) : elements.Encodes elements.plain := by
  match elements with
  | .nil => exact .nil
  | .hole later => exact .hole later.encodes_plain
  | .element first later => exact .element first.encodes_plain later.encodes_plain

theorem Properties.encodes_plain (properties : Properties) : properties.Encodes properties.plain := by
  match properties with
  | .nil => exact .nil
  | .property value later => exact .property (by simp [Value.field]) value.encodes_plain later.encodes_plain
  | .rest argument later => exact .rest rfl argument.encodes_plain later.encodes_plain

end

/-! ## Reading -/

namespace Value

theorem nodeType_of_type {v : Value} {name : String} (type : v.field "type" = .str name) :
    v.nodeType = .ofName name := by
  rw [nodeType, type]

/-- Only one text is the type of a rest element. -/
theorem nodeType_restElement_iff {v : Value} :
    v.nodeType = .restElement ↔ v.field "type" = .str "RestElement" := by
  constructor
  · intro rest
    unfold nodeType at rest
    cases type : v.field "type" with
    | str name =>
      rw [type] at rest
      dsimp only at rest
      unfold NodeType.ofName at rest
      split at rest <;> first | rfl | cases rest
    | _ => simp [type] at rest
  · exact nodeType_of_type

end Value

mutual

/-- A value that holds a pattern is read as the identifiers of the pattern. -/
theorem Binding.Encodes.names {p : Binding} {v : Value} (encodes : p.Encodes v) :
    Pattern.names v = .ok p.identifiers := by
  match encodes with
  | .identifier type spelled =>
    rw [Pattern.names_eq, Value.nodeType_of_type type]
    show Except.ok (Pattern.identifierName v) = _
    rw [Pattern.identifierName, spelled, Binding.identifiers]
  | .array type list each =>
    rw [Pattern.names_eq, Value.nodeType_of_type type]
    show (v.field "elements").readListed Pattern.names = _
    rw [← Pattern.elementNames_eq, list, Pattern.elementNames, each.names, Binding.identifiers]
  | .object type list each =>
    rw [Pattern.names_eq, Value.nodeType_of_type type]
    show (v.field "properties").readListed Pattern.propertyName = _
    rw [← Pattern.propertyNames_eq, list, Pattern.propertyNames, each.names, Binding.identifiers]
  | .assignment type target =>
    rw [Pattern.names_eq, Value.nodeType_of_type type, Binding.identifiers]
    exact target.names
  | .rest type target =>
    rw [Pattern.names_eq, Value.nodeType_of_type type, Binding.identifiers]
    exact target.names

theorem Elements.Encodes.names {elements : Elements} {items : List Value} (encode : elements.Encodes items) :
    Pattern.itemNames items = .ok elements.identifiers := by
  match encode with
  | .nil => rfl
  | .hole later =>
    rw [Pattern.itemNames, later.names, Elements.identifiers]
    rfl
  | .element here later =>
    rw [Pattern.itemNames, here.names, later.names, Elements.identifiers]
    rfl

theorem Properties.Encodes.names {properties : Properties} {items : List Value}
    (encode : properties.Encodes items) :
    Pattern.propertyItemNames items = .ok properties.identifiers := by
  match encode with
  | .nil => rfl
  | .property type here later =>
    have other := mt Value.nodeType_restElement_iff.mp type
    rw [Pattern.propertyItemNames, Pattern.propertyName_eq, if_neg other, here.names, later.names,
      Properties.identifiers]
    rfl
  | .rest type here later =>
    have rest := Value.nodeType_restElement_iff.mpr type
    rw [Pattern.propertyItemNames, Pattern.propertyName_eq, if_pos rest, Pattern.names_eq, rest]
    dsimp only
    rw [here.names, later.names, Properties.identifiers]
    rfl

end

/-- A pattern binds its identifiers, from left to right and with their repetitions. Every pattern has
    a value that holds it, and whatever else stands in such a value, reading it meets no fault and gives
    the identifiers of the pattern. -/
theorem Binding.names_encoded (p : Binding) :
    (∃ v, p.Encodes v) ∧ ∀ v, p.Encodes v → Pattern.names v = .ok p.identifiers :=
  ⟨⟨p.plain, p.encodes_plain⟩, fun _ encodes => encodes.names⟩

namespace Sample

/-- The pattern `[a = …, , {…: {b}, ...c}, ...[a]]`. -/
def binding : Binding :=
  .array (.element (.assignment (.identifier "a")) (.hole
    (.element (.object (.property (.object (.property (.identifier "b") .nil)) (.rest (.identifier "c") .nil)))
      (.element (.rest (.array (.element (.identifier "a") .nil))) .nil))))

/-- The pattern with a function for a default, a pattern for a computed key, and fields that are read
    in other types only. -/
def spread : Value :=
  let name (s : String) := (Binding.identifier s).plain
  .obj [("range", .arr [.int 0, .int 9]),
    ("elements", .arr [
      .obj [("right", .obj [("type", .str "FunctionExpression"), ("params", .arr [name "p"])]),
        ("left", .obj [("name", .str "a"), ("elements", .bool true), ("type", .str "Identifier")]),
        ("type", .str "AssignmentPattern")],
      .null,
      .obj [("type", .str "ObjectPattern"),
        ("properties", .arr [
          .obj [("type", .str "Property"), ("computed", .bool true),
            ("key", .obj [("type", .str "ArrayPattern"), ("elements", .arr [name "k"])]),
            ("value", .obj [("type", .str "ObjectPattern"),
              ("properties", .arr [.obj [("value", name "b")]])])],
          .obj [("argument", name "c"), ("value", name "d"), ("type", .str "RestElement")]])],
      .obj [("type", .str "RestElement"),
        ("argument", .obj [("type", .str "ArrayPattern"), ("elements", .arr [name "a"])])]]),
    ("type", .str "ArrayPattern"), ("name", .str "n")]

theorem spread_holds : binding.Encodes spread := by
  refine .array rfl rfl (.element ?_ (.hole (.element ?_ (.element ?_ .nil))))
  · exact .assignment rfl (.identifier rfl rfl)
  · refine .object rfl rfl (.property (by simp [Value.field]) ?_ (.rest rfl (.identifier rfl rfl) .nil))
    exact .object rfl rfl (.property nofun (.identifier rfl rfl) .nil)
  · exact .rest rfl (.array rfl rfl (.element (.identifier rfl rfl) .nil))

theorem spread_names : binding.Encodes spread ∧ Pattern.names spread = .ok ["a", "b", "c", "a"] :=
  ⟨spread_holds, binding.names_encoded.2 spread spread_holds⟩

end Sample

end LexicalScope
