import TypedClients.Json.Basic
import TypedClients.Node.Printer

/-!
# Validators

The text of a node's validator is an expression over the validators of the library. `Validator` is
such an expression and `ofNode` that of a node; `text_ofNode` says that it is printed as the text.
What a validator accepts is said of the expression, for any sets of values that the entities stand
for. Only JSON values are looked at, so a validator of no value accepts nothing.

## What a validator accepts

Sets of values stand for the entities, so acceptance is defined by recursion over the expression,
also for entities that refer to each other in circles. Two assumptions are made about the library of
validators: an object accepts members that it does not name, and a field that may be absent may not
be null.

## What is not here

What a validator gives back for a value that it accepts, such as an object without its other
members, and the messages for one that it rejects.
-/

namespace TypedClients

/-- An expression that builds a validator. The fields of an object come with whether they may be
absent. -/
inductive Validator where
  | entity (name : String)
  | prim (kind : Primitive)
  | record (values : Validator)
  | object (fields : List (String × Bool × Validator))
  | array (items : Validator)
  | union (members : List Validator)

namespace Validator

/-! ### The validator of a node -/

/-- A union, or what stands for it if it has less than two members. -/
def choice : List Validator → Validator
  | [] => .prim .unknown
  | [single] => single
  | several => .union several

mutual

/-- The validator of a node. -/
def ofNode : Node → Validator
  | .ref name => .entity name
  | .object [] _ additional => .record (ofValue additional)
  | .object (property :: properties) required _ =>
    .object (ofProperties required (property :: properties))
  | .array items => .array (ofNode items)
  | .union members => choice (ofMembers members)
  | .prim kind => .prim kind

/-- The validator of a record's values. -/
def ofValue : Option Node → Validator
  | none => .prim .unknown
  | some node => ofNode node

/-- The fields of an object's validator. -/
def ofProperties (required : List String) :
    List (String × Node) → List (String × Bool × Validator)
  | [] => []
  | (key, node) :: rest => (key, key ∉ required, ofNode node) :: ofProperties required rest

/-- The validators of a union's members. -/
def ofMembers : List Node → List Validator
  | [] => []
  | node :: rest => ofNode node :: ofMembers rest

end

theorem ofMembers_eq_map (nodes : List Node) : ofMembers nodes = nodes.map ofNode := by
  induction nodes with
  | nil => rw [ofMembers, List.map_nil]
  | cons node nodes ih => rw [ofMembers, ih, List.map_cons]

theorem ofProperties_eq_map (required : List String) (properties : List (String × Node)) :
    ofProperties required properties
      = properties.map fun p => (p.1, decide (p.1 ∉ required), ofNode p.2) := by
  induction properties with
  | nil => rw [ofProperties, List.map_nil]
  | cons property properties ih => rw [ofProperties, ih, List.map_cons]

mutual

/-- The expression as it is written. -/
def text (style : RefStyle) : Validator → String
  | .entity name => style.validator name
  | .prim kind => "z." ++ kind.word ++ "()"
  | .record values => "z.record(z.string(), " ++ text style values ++ ")"
  | .object fields =>
    "z.object(\x7b\n" ++ ",\n".intercalate (fieldTexts style fields) ++ "\n\x7d)"
  | .array items => "z.array(" ++ text style items ++ ")"
  | .union members => "z.union([" ++ ", ".intercalate (memberTexts style members) ++ "])"

/-- The lines of an object. -/
def fieldTexts (style : RefStyle) : List (String × Bool × Validator) → List String
  | [] => []
  | (key, optional, validator) :: rest =>
    ("  " ++ Script.quote key ++ ": " ++ text style validator
      ++ if optional then ".optional()" else "") :: fieldTexts style rest

/-- The members of a union. -/
def memberTexts (style : RefStyle) : List Validator → List String
  | [] => []
  | validator :: rest => text style validator :: memberTexts style rest

end

theorem text_unknown (style : RefStyle) : (Validator.prim .unknown).text style = "z.unknown()" := by
  show "z." ++ Primitive.unknown.word ++ "()" = "z.unknown()"
  decide

theorem text_choice (style : RefStyle) (members : List Validator) :
    (choice members).text style = match memberTexts style members with
      | [] => "z.unknown()"
      | [single] => single
      | several => "z.union([" ++ ", ".intercalate several ++ "])" := by
  match members with
  | [] => exact text_unknown style
  | [single] => simp only [choice, memberTexts]
  | first :: second :: rest =>
    show text style (.union (first :: second :: rest)) = _
    rw [text.eq_def]
    rfl

mutual

/-- A node's validator is printed as the expression. -/
theorem text_ofNode (style : RefStyle) : ∀ node, (ofNode node).text style = node.validator style
  | .ref name => by rw [ofNode, text.eq_def, Node.validator.eq_def]
  | .object [] required additional => by
    rw [ofNode, text.eq_def, Node.validator.eq_def]
    simp only [text_ofValue style additional]
  | .object (property :: properties) required additional => by
    rw [ofNode, text.eq_def, Node.validator.eq_def]
    simp only [fieldTexts_ofProperties style required (property :: properties)]
  | .array items => by
    rw [ofNode, text.eq_def, Node.validator.eq_def]
    simp only [text_ofNode style items]
  | .union members => by
    rw [ofNode, text_choice, memberTexts_ofMembers style members]
    exact (Node.validator.eq_def style (.union members)).symm
  | .prim kind => by rw [ofNode, text.eq_def, Node.validator.eq_def]

theorem text_ofValue (style : RefStyle) :
    ∀ node, (ofValue node).text style = Node.valueValidator style node
  | none => by rw [ofValue, Node.valueValidator.eq_def, text_unknown]
  | some node => by rw [ofValue, Node.valueValidator.eq_def, text_ofNode style node]

theorem fieldTexts_ofProperties (style : RefStyle) (required : List String) :
    ∀ properties, fieldTexts style (ofProperties required properties)
      = Node.propertyValidators style required properties
  | [] => by rw [ofProperties, fieldTexts.eq_def, Node.propertyValidators.eq_def]
  | (key, node) :: rest => by
    rw [ofProperties, fieldTexts.eq_def, Node.propertyValidators.eq_def]
    simp only [text_ofNode style node, fieldTexts_ofProperties style required rest]
    by_cases h : key ∈ required
    · simp only [h, not_true, decide_false, Bool.false_eq_true, if_false, if_true]
    · simp only [h, not_false_eq_true, decide_true, if_true, if_false]

theorem memberTexts_ofMembers (style : RefStyle) :
    ∀ members, memberTexts style (ofMembers members) = Node.memberValidators style members
  | [] => by rw [ofMembers, memberTexts.eq_def, Node.memberValidators.eq_def]
  | node :: rest => by
    rw [ofMembers, memberTexts.eq_def, Node.memberValidators.eq_def]
    simp only [text_ofNode style node, memberTexts_ofMembers style rest]

end

end Validator

/-! ### What a validator accepts -/

/-- The value is of the primitive kind; there is none that is void. -/
def Primitive.Accepts (value : Json) : Primitive → Prop
  | .string => ∃ text, value = .string text
  | .number => ∃ text, value = .number text
  | .boolean => ∃ truth, value = .bool truth
  | .null => value = .null
  | .void => False
  | .unknown => True

namespace Validator

mutual

/-- The value is accepted, where the entities accept the values of the sets. -/
def Accepts (sets : String → Json → Prop) : Validator → Json → Prop
  | .entity name, value => sets name value
  | .prim kind, value => kind.Accepts value
  | .record values, value =>
    ∃ members, value = .object members ∧ ∀ entry ∈ members, Accepts sets values entry.2
  | .object fields, value =>
    ∃ members, value = .object members ∧ FieldsAccept sets fields members
  | .array items, value =>
    ∃ elements, value = .array elements ∧ ∀ element ∈ elements, Accepts sets items element
  | .union members, value => SomeAccepts sets members value

/-- The members of an object are accepted by the fields of their names, and only fields that may
be absent are. -/
def FieldsAccept (sets : String → Json → Prop) :
    List (String × Bool × Validator) → List (String × Json) → Prop
  | [], _ => True
  | (key, optional, validator) :: rest, members =>
    (match Keyed.get? key members with
      | none => optional = true
      | some value => Accepts sets validator value) ∧ FieldsAccept sets rest members

/-- The value is accepted by one of the members of a union. -/
def SomeAccepts (sets : String → Json → Prop) : List Validator → Json → Prop
  | [], _ => False
  | validator :: rest, value => Accepts sets validator value ∨ SomeAccepts sets rest value

end

variable {sets : String → Json → Prop}

theorem someAccepts_iff {validators : List Validator} {value : Json} :
    SomeAccepts sets validators value ↔ ∃ v ∈ validators, v.Accepts sets value := by
  induction validators with
  | nil => simp [SomeAccepts]
  | cons validator rest ih => simp [SomeAccepts, ih]

theorem fieldsAccept_of_forall {fields : List (String × Bool × Validator)}
    {members : List (String × Json)}
    (absent : ∀ field ∈ fields, Keyed.get? field.1 members = none → field.2.1 = true)
    (present : ∀ field ∈ fields, ∀ value, Keyed.get? field.1 members = some value →
      field.2.2.Accepts sets value) : FieldsAccept sets fields members := by
  induction fields with
  | nil => rw [FieldsAccept]; trivial
  | cons field rest ih =>
    obtain ⟨key, optional, validator⟩ := field
    rw [List.forall_mem_cons] at absent present
    rw [FieldsAccept]
    refine ⟨?_, ih absent.2 present.2⟩
    cases hvalue : Keyed.get? key members with
    | none => exact absent.1 hvalue
    | some value => exact present.1 value hvalue

/-- A union accepts what one of its members accepts, however many there are. -/
theorem accepts_choice {validators : List Validator} {validator : Validator} {value : Json}
    (mem : validator ∈ validators) (h : validator.Accepts sets value) :
    (choice validators).Accepts sets value := by
  match validators with
  | [] => cases mem
  | [single] =>
    obtain rfl := List.mem_singleton.mp mem
    exact h
  | first :: second :: rest => exact someAccepts_iff.mpr ⟨validator, mem, h⟩

end Validator

end TypedClients
