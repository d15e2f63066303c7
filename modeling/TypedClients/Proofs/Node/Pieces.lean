import TypedClients.Proofs.Keyed
import TypedClients.Proofs.Node.TypeText

/-!
# The names in what is printed

Validators and types are printed in one way and differ in the words around the parts of a node,
which are a `Layout`. `Node.pieces` is what is printed, with the names of entities told apart from
the words. The texts are made of these pieces (`join_validatorPieces`, `join_typePieces`), and the
names among them are references of the node (`mem_references_of_mem_pieces`). What an entity is
called plays no part: a name is told apart even where it is spelled as a word is.

## What it is for

That a text mentions a name cannot be asked of the text alone, as a word of the printer may be
spelled like the name. With pieces it can, and only what is a piece by itself counts. Both printers
are covered by one recursion, so what is proved of pieces need not be proved twice.
-/

namespace TypedClients

/-- A piece of a text. -/
inductive Piece where
  | words (text : String)
  | name (entity : String)

namespace Piece

def text : Piece → String
  | .words text => text
  | .name entity => entity

/-- The text that is made of the pieces. -/
def join : List Piece → String
  | [] => ""
  | piece :: rest => piece.text ++ join rest

theorem join_append (pieces rest : List Piece) :
    join (pieces ++ rest) = join pieces ++ join rest := by
  induction pieces with
  | nil => rw [List.nil_append, join, String.empty_append]
  | cons piece pieces ih => rw [List.cons_append, join, join, ih, String.append_assoc]

theorem join_words (text : String) : join [.words text] = text := String.append_empty

/-- Pieces with words before and after them. -/
def enclosed (around : String × String) (pieces : List Piece) : List Piece :=
  .words around.1 :: pieces ++ [.words around.2]

theorem join_enclosed (around : String × String) (pieces : List Piece) :
    join (enclosed around pieces) = around.1 ++ join pieces ++ around.2 := by
  rw [enclosed, List.cons_append, join, join_append, join_words, String.append_assoc]
  rfl

theorem name_mem_enclosed {around : String × String} {pieces : List Piece} {entity : String} :
    .name entity ∈ enclosed around pieces ↔ .name entity ∈ pieces := by
  simp [enclosed]

/-- The pieces of several parts with words between them. -/
def separated (separator : String) : List (List Piece) → List Piece
  | [] => []
  | [part] => part
  | part :: next :: rest => part ++ .words separator :: separated separator (next :: rest)

theorem join_separated (separator : String) (parts : List (List Piece)) :
    join (separated separator parts) = separator.intercalate (parts.map join) := by
  induction parts with
  | nil => rfl
  | cons part rest ih =>
    cases rest with
    | nil => rw [separated, List.map_singleton, String.intercalate_singleton]
    | cons next rest =>
      rw [separated, join_append, join, ih, List.map_cons, List.map_cons, List.map_cons,
        String.intercalate_cons_cons, ← List.map_cons, String.append_assoc]
      rfl

theorem name_mem_separated {separator : String} {parts : List (List Piece)} {entity : String} :
    .name entity ∈ separated separator parts ↔ ∃ part ∈ parts, .name entity ∈ part := by
  induction parts with
  | nil => simp [separated]
  | cons part rest ih =>
    cases rest with
    | nil => simp [separated]
    | cons next rest => simp [separated, ih]

end Piece

/-- The words around the parts of a node. Those around a field depend on whether it is required,
and those around an array on whether its items are alternatives. -/
structure Layout where
  name : String × String
  prim : Primitive → String
  record : String × String
  object : String × String
  fieldSeparator : String
  field : (key : String) → (required : Bool) → String × String
  array : (alternative : Bool) → String × String
  union : String × String
  memberSeparator : String

namespace Node

variable {layout : Layout} {style : RefStyle}

mutual

/-- What is printed for a node. -/
def pieces (layout : Layout) : Node → List Piece
  | .ref name => Piece.enclosed layout.name [.name name]
  | .object [] _ additional => Piece.enclosed layout.record (valuePieces layout additional)
  | .object (property :: properties) required _ =>
    Piece.enclosed layout.object (Piece.separated layout.fieldSeparator
      (propertyPieces layout required (property :: properties)))
  | .array items => Piece.enclosed (layout.array items.isAlternative) (pieces layout items)
  | .union members =>
    match memberPieces layout members with
    | [] => [.words (layout.prim .unknown)]
    | [single] => single
    | several => Piece.enclosed layout.union (Piece.separated layout.memberSeparator several)
  | .prim kind => [.words (layout.prim kind)]

/-- What is printed for a record's values. -/
def valuePieces (layout : Layout) : Option Node → List Piece
  | none => [.words (layout.prim .unknown)]
  | some node => pieces layout node

/-- What is printed for each of an object's fields. -/
def propertyPieces (layout : Layout) (required : List String) :
    List (String × Node) → List (List Piece)
  | [] => []
  | (key, node) :: rest =>
    Piece.enclosed (layout.field key (key ∈ required)) (pieces layout node)
      :: propertyPieces layout required rest

/-- What is printed for each of a union's members. -/
def memberPieces (layout : Layout) : List Node → List (List Piece)
  | [] => []
  | node :: rest => pieces layout node :: memberPieces layout rest

end

theorem propertyPieces_eq_map (required : List String) (properties : List (String × Node)) :
    propertyPieces layout required properties = properties.map fun p =>
      Piece.enclosed (layout.field p.1 (p.1 ∈ required)) (pieces layout p.2) := by
  induction properties with
  | nil => rw [propertyPieces, List.map_nil]
  | cons property properties ih => rw [propertyPieces, ih, List.map_cons]

theorem memberPieces_eq_map (members : List Node) :
    memberPieces layout members = members.map (pieces layout) := by
  induction members with
  | nil => rw [memberPieces, List.map_nil]
  | cons member members ih => rw [memberPieces, ih, List.map_cons]

/-! ### The names -/

/-- What is printed by its name is mentioned. Not everything that is mentioned is printed: the
values of an object that has properties are not. -/
theorem mem_mentions_of_mem_pieces {name : String} {node : Node}
    (h : .name name ∈ node.pieces layout) : name ∈ node.mentions := by
  induction node using Node.induction with
  | ref entity =>
    rw [pieces, Piece.name_mem_enclosed, List.mem_singleton, Piece.name.injEq] at h
    exact List.mem_singleton.mpr h
  | object properties required additional ihp ihv =>
    rw [mentions, List.mem_append]
    cases properties with
    | nil =>
      rw [pieces, Piece.name_mem_enclosed] at h
      cases additional with
      | none => simp [valuePieces] at h
      | some values => exact .inr (ihv values rfl h)
    | cons property properties =>
      rw [pieces, Piece.name_mem_enclosed, Piece.name_mem_separated, propertyPieces_eq_map] at h
      obtain ⟨part, hpart, h⟩ := h
      obtain ⟨p, hp, rfl⟩ := List.mem_map.mp hpart
      exact .inl (mem_mentionsOfProperties.mpr ⟨p, hp, ihp p hp (Piece.name_mem_enclosed.mp h)⟩)
  | array items ih =>
    rw [pieces, Piece.name_mem_enclosed] at h
    exact ih h
  | union members ih =>
    have hmember : ∃ member ∈ members, .name name ∈ member.pieces layout := by
      rw [pieces, memberPieces_eq_map] at h
      cases members with
      | nil => simp at h
      | cons first members =>
        cases members with
        | nil => exact ⟨first, List.mem_cons_self, h⟩
        | cons second rest =>
          obtain ⟨part, hpart, h⟩ := Piece.name_mem_separated.mp (Piece.name_mem_enclosed.mp h)
          rw [← List.map_cons] at hpart
          obtain ⟨member, hmember, rfl⟩ := List.mem_map.mp hpart
          exact ⟨member, hmember, h⟩
    obtain ⟨member, hmember, h⟩ := hmember
    exact mem_mentionsOfList.mpr ⟨member, hmember, ih member hmember h⟩
  | prim kind => simp [pieces] at h

theorem mem_references_of_mem_pieces {name : String} {node : Node}
    (h : .name name ∈ node.pieces layout) : name ∈ node.references :=
  Keyed.mem_distinct.mpr (mem_mentions_of_mem_pieces h)

end Node

/-! ### The texts -/

/-- The texts of nodes are printed with the words of the layout. -/
structure Layout.Prints (layout : Layout) (text : Node → String) : Prop where
  ref : ∀ name, text (.ref name) = layout.name.1 ++ name ++ layout.name.2
  prim : ∀ kind, text (.prim kind) = layout.prim kind
  record : ∀ required additional, text (.object [] required additional)
    = layout.record.1 ++ additional.elim (layout.prim .unknown) text ++ layout.record.2
  object : ∀ property properties required additional,
    text (.object (property :: properties) required additional) = layout.object.1
      ++ layout.fieldSeparator.intercalate ((property :: properties).map fun p =>
        (layout.field p.1 (p.1 ∈ required)).1 ++ text p.2 ++ (layout.field p.1 (p.1 ∈ required)).2)
      ++ layout.object.2
  array : ∀ items, text (.array items) = (layout.array items.isAlternative).1 ++ text items
    ++ (layout.array items.isAlternative).2
  nothing : text (.union []) = layout.prim .unknown
  single : ∀ member, text (.union [member]) = text member
  several : ∀ first second rest, text (.union (first :: second :: rest)) = layout.union.1
    ++ layout.memberSeparator.intercalate ((first :: second :: rest).map text) ++ layout.union.2

theorem Layout.Prints.join_pieces {layout : Layout} {text : Node → String} (h : layout.Prints text)
    (node : Node) : Piece.join (node.pieces layout) = text node := by
  induction node using Node.induction with
  | ref name =>
    rw [Node.pieces, Piece.join_enclosed, h.ref, Piece.join, Piece.join, String.append_empty]
    rfl
  | object properties required additional ihp ihv =>
    cases properties with
    | nil =>
      rw [Node.pieces, Piece.join_enclosed, h.record]
      cases additional with
      | none => rw [Node.valuePieces, Piece.join_words, Option.elim_none]
      | some values => rw [Node.valuePieces, ihv values rfl, Option.elim_some]
    | cons property properties =>
      rw [Node.pieces, Piece.join_enclosed, Piece.join_separated, Node.propertyPieces_eq_map,
        List.map_map, h.object]
      refine congrArg (fun texts => _ ++ String.intercalate _ texts ++ _)
        (List.map_congr_left fun p hp => ?_)
      rw [Function.comp_apply, Piece.join_enclosed, ihp p hp]
  | array items ih => rw [Node.pieces, Piece.join_enclosed, ih, h.array]
  | union members ih =>
    rw [Node.pieces, Node.memberPieces_eq_map]
    match members with
    | [] => exact (Piece.join_words _).trans h.nothing.symm
    | [single] => exact (ih single List.mem_cons_self).trans (h.single single).symm
    | first :: second :: rest =>
      show Piece.join (Piece.enclosed layout.union (Piece.separated layout.memberSeparator
        ((first :: second :: rest).map (Node.pieces layout)))) = _
      rw [Piece.join_enclosed, Piece.join_separated, h.several, List.map_map]
      exact congrArg (fun texts => _ ++ String.intercalate _ texts ++ _) (List.map_congr_left ih)
  | prim kind => rw [Node.pieces, Piece.join_words, h.prim]

namespace Node

variable {style : RefStyle}

theorem propertyValidators_eq_map (required : List String) (properties : List (String × Node)) :
    propertyValidators style required properties = properties.map fun p =>
      "  " ++ Script.quote p.1 ++ ": " ++ p.2.validator style
        ++ (if p.1 ∈ required then "" else ".optional()") := by
  induction properties with
  | nil => rw [propertyValidators.eq_def, List.map_nil]
  | cons property properties ih => rw [propertyValidators.eq_def, List.map_cons, ← ih]

theorem memberValidators_eq_map (members : List Node) :
    memberValidators style members = members.map (validator style) := by
  induction members with
  | nil => rw [memberValidators.eq_def, List.map_nil]
  | cons member members ih => rw [memberValidators.eq_def, List.map_cons, ← ih]

theorem validator_record (required : List String) (additional : Option Node) :
    (Node.object [] required additional).validator style = "z.record(z.string(), "
      ++ additional.elim "z.unknown()" (validator style) ++ ")" := by
  have hvalue : valueValidator style additional
      = additional.elim "z.unknown()" (validator style) := by
    rw [valueValidator.eq_def]
    cases additional <;> rfl
  rw [← hvalue, validator.eq_def]

theorem validator_union (members : List Node) :
    (Node.union members).validator style = match members.map (validator style) with
      | [] => "z.unknown()"
      | [single] => single
      | several => "z.union([" ++ ", ".intercalate several ++ "])" := by
  rw [← memberValidators_eq_map]
  exact validator.eq_def style (.union members)

/-- The words of validators. -/
def validatorLayout (style : RefStyle) : Layout where
  name := match style with
    | .bare => ("", "")
    | .lazy => ("z.lazy(() => ", ")")
    | .qualified scope => (scope ++ ".", "")
  prim kind := "z." ++ kind.word ++ "()"
  record := ("z.record(z.string(), ", ")")
  object := ("z.object(\x7b\n", "\n\x7d)")
  fieldSeparator := ",\n"
  field key required :=
    ("  " ++ Script.quote key ++ ": ", if required then "" else ".optional()")
  array _ := ("z.array(", ")")
  union := ("z.union([", "])")
  memberSeparator := ", "

theorem prints_validator (style : RefStyle) :
    (validatorLayout style).Prints (Node.validator style) where
  ref name := by
    rw [validator.eq_def]
    cases style <;> simp [validatorLayout, RefStyle.validator]
  prim kind := by rw [validator.eq_def]; rfl
  record required additional := validator_record required additional
  object property properties required additional := by
    rw [validator.eq_def]
    dsimp only
    rw [propertyValidators_eq_map]
    simp [validatorLayout]
  array items := by rw [validator.eq_def]; rfl
  nothing := validator_union []
  single member := validator_union [member]
  several first second rest := validator_union (first :: second :: rest)

theorem typeText_record (required : List String) (additional : Option Node) :
    (Node.object [] required additional).typeText style = "Record<string, "
      ++ additional.elim Primitive.unknown.word (typeText style) ++ ">" := by
  have hvalue : valueType style additional
      = additional.elim Primitive.unknown.word (typeText style) := by
    rw [valueType.eq_def]
    cases additional <;> rfl
  rw [← hvalue, typeText.eq_def]

theorem typeText_union (members : List Node) :
    (Node.union members).typeText style = match members.map (typeText style) with
      | [] => Primitive.unknown.word
      | several => " | ".intercalate several := by
  rw [← memberTypes_eq_map]
  exact typeText.eq_def style (.union members)

/-- The words of types. -/
def typeLayout (style : RefStyle) : Layout where
  name := match style with
    | .bare => ("", "")
    | .lazy => ("", "")
    | .qualified scope => (scope ++ ".", "")
  prim kind := kind.word
  record := ("Record<string, ", ">")
  object := ("\x7b ", " \x7d")
  fieldSeparator := "; "
  field key required := (Script.quote key ++ (if required then "" else "?") ++ ": ", "")
  array alternative := if alternative then ("(", ")[]") else ("", "[]")
  union := ("", "")
  memberSeparator := " | "

theorem prints_typeText (style : RefStyle) : (typeLayout style).Prints (typeText style) where
  ref name := by
    rw [typeText.eq_def]
    cases style <;> simp [typeLayout, RefStyle.typeName]
  prim kind := by rw [typeText.eq_def]; rfl
  record required additional := typeText_record required additional
  object property properties required additional := by
    rw [typeText.eq_def]
    dsimp only
    rw [propertyTypes_eq_map]
    simp [typeLayout]
  array items := by
    rw [typeText.eq_def]
    by_cases h : items.isAlternative = true
    · simp [typeLayout, h]
    · simp [typeLayout, h]
  nothing := typeText_union []
  single member := (typeText_union [member]).trans String.intercalate_singleton
  several first second rest := by
    rw [typeText_union (first :: second :: rest)]
    simp [typeLayout]

theorem join_validatorPieces (style : RefStyle) (node : Node) :
    Piece.join (node.pieces (validatorLayout style)) = node.validator style :=
  (prints_validator style).join_pieces node

theorem join_typePieces (style : RefStyle) (node : Node) :
    Piece.join (node.pieces (typeLayout style)) = node.typeText style :=
  (prints_typeText style).join_pieces node

end Node

end TypedClients
