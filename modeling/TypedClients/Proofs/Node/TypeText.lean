import TypedClients.Node.Printer
import TypedClients.Proofs.Node.Parts
import TypedClients.Proofs.Script.Operand

/-!
# How the types of nodes are read

`operands` are the operands that the type of a node is printed as. They spell the printed text
(`spells_typeText`) and are read back (`readable_operands`), so they give the type that the text is
(`reads_typeText`). A union is printed as the operands of its members; brackets that are put behind
several operands go to the last one.

## How it is proved

By induction over nodes, with operands and not types: a type that is made an array gives its
brackets to the last operand only, so a type alone does not say what becomes of it. A union has the
operands of its members, and all other forms make one operand of what is inside.
-/

namespace TypedClients

open Script Script.Operand

/-- The words of a reference inside a type. -/
def RefStyle.path (style : RefStyle) (name : String) : List String :=
  match style with
  | .bare => [name]
  | .lazy => [name]
  | .qualified scope => [scope, name]

/-- The name can be declared. -/
def Name.IsLegal (name : String) : Prop :=
  Name.isIdentifier name = true ∧ Name.isReserved name = false

/-- The module that references are looked up in, if there is one, has a name that can be
declared. -/
def RefStyle.IsLegal : RefStyle → Prop
  | .bare => True
  | .lazy => True
  | .qualified scope => Name.IsLegal scope

namespace Node

mutual

/-- The operands of the type of a node. -/
def operands (style : RefStyle) : Node → List Operand
  | .ref name => [ofPath (style.path name)]
  | .object [] _ additional => [record (valueOperands style additional)]
  | .object (property :: properties) required _ =>
    [Operand.object (fieldOperands style required (property :: properties))]
  | .array items =>
    if items.isAlternative then [group (operands style items)]
    else bracketLast (operands style items)
  | .union members =>
    match memberOperands style members with
    | [] => [ofPrim .unknown]
    | several => several
  | .prim kind => [ofPrim kind]

/-- The operands of the type of a record's values. -/
def valueOperands (style : RefStyle) : Option Node → List Operand
  | none => [ofPrim .unknown]
  | some node => operands style node

/-- The fields of an object's type. -/
def fieldOperands (style : RefStyle) (required : List String) :
    List (String × Node) → List (String × Bool × List Operand)
  | [] => []
  | (key, node) :: rest =>
    (key, key ∉ required, operands style node) :: fieldOperands style required rest

/-- The operands of the types of a union's members. -/
def memberOperands (style : RefStyle) : List Node → List Operand
  | [] => []
  | node :: rest => operands style node ++ memberOperands style rest

end

variable {style : RefStyle}

theorem fieldOperands_eq_map (required : List String) (properties : List (String × Node)) :
    fieldOperands style required properties
      = properties.map fun p => (p.1, decide (p.1 ∉ required), operands style p.2) := by
  induction properties with
  | nil => rw [fieldOperands, List.map_nil]
  | cons property properties ih => rw [fieldOperands, ih, List.map_cons]

theorem memberOperands_eq_flatMap (members : List Node) :
    memberOperands style members = members.flatMap (operands style) := by
  induction members with
  | nil => rw [memberOperands, List.flatMap_nil]
  | cons member members ih => rw [memberOperands, ih, List.flatMap_cons]

theorem propertyTypes_eq_map (required : List String) (properties : List (String × Node)) :
    propertyTypes style required properties = properties.map fun p =>
      Script.quote p.1 ++ (if p.1 ∈ required then "" else "?") ++ ": " ++ p.2.typeText style := by
  induction properties with
  | nil => rw [propertyTypes.eq_def, List.map_nil]
  | cons property properties ih => rw [propertyTypes.eq_def, List.map_cons, ← ih]

theorem memberTypes_eq_map (members : List Node) :
    memberTypes style members = members.map (typeText style) := by
  induction members with
  | nil => rw [memberTypes.eq_def, List.map_nil]
  | cons member members ih => rw [memberTypes.eq_def, List.map_cons, ← ih]

/-- A type has an operand. -/
theorem operands_ne_nil (node : Node) : operands style node ≠ [] := by
  induction node using Node.induction with
  | ref name => exact List.cons_ne_nil _ _
  | object properties required additional _ _ =>
    cases properties with
    | nil => exact List.cons_ne_nil _ _
    | cons property properties => exact List.cons_ne_nil _ _
  | array items ih =>
    rw [operands]
    split
    · exact List.cons_ne_nil _ _
    · obtain ⟨others, last, -, hbracket⟩ := exists_bracketLast ih
      rw [hbracket]
      exact List.append_ne_nil_of_right_ne_nil _ (List.cons_ne_nil _ _)
  | union members ih =>
    rw [operands]
    split
    · exact List.cons_ne_nil _ _
    · next h => exact h
  | prim kind => exact List.cons_ne_nil _ _

theorem valueOperands_ne_nil (node : Option Node) : valueOperands style node ≠ [] := by
  cases node with
  | none => exact List.cons_ne_nil _ _
  | some node => exact operands_ne_nil node

theorem memberOperands_ne_nil {members : List Node} (hne : members ≠ []) :
    memberOperands style members ≠ [] := by
  cases members with
  | nil => exact absurd rfl hne
  | cons member members =>
    rw [memberOperands]
    exact List.append_ne_nil_of_left_ne_nil (operands_ne_nil member) _

theorem operands_union {members : List Node} (hne : members ≠ []) :
    operands style (.union members) = memberOperands style members := by
  rw [operands]
  split
  · next h => exact absurd h (memberOperands_ne_nil hne)
  · rfl

/-! ### The text of a type -/

theorem spells_typeName (hstyle : style.IsLegal) {name : String} (h : Name.IsLegal name) :
    Spells (style.typeName name) (pathTokens (style.path name)) := by
  cases style with
  | bare => exact spells_word h.1
  | lazy => exact spells_word h.1
  | qualified scope =>
    have hscope : Closed (scope ++ ".") [.word scope, .sign '.'] :=
      (spells_word hstyle.1).append_punctuation (by decide) (by decide)
    exact hscope.append_spells (spells_word h.1)

theorem spells_kind (kind : Primitive) : Spells kind.word [.word kind.word] :=
  spells_word (by cases kind <;> decide)

/-- A field, with its key and its mark. -/
theorem spells_field (key : String) (required : List String) {text : String} {items : List Operand}
    (h : Spells text (join items)) :
    Spells (Script.quote key ++ (if key ∈ required then "" else "?") ++ ": " ++ text)
      (fieldTokens (key, decide (key ∉ required), items)) := by
  have hcolon : Closed ": " [.sign ':'] := closed_punctuation (by decide)
  by_cases hkey : key ∈ required
  · simp only [hkey, if_true, not_true, decide_false, String.append_empty]
    exact ((closed_quote key).append hcolon).append_spells h
  · simp only [hkey, if_false, not_false_eq_true, decide_true]
    have hmark : Closed "?" [.sign '?'] := closed_punctuation (by decide)
    exact (((closed_quote key).append hmark).append hcolon).append_spells h

theorem closed_recordLead :
    Closed "Record<string, " [.word "Record", .sign '<', .word "string", .sign ','] := by
  have hopen : Closed ("Record" ++ "<") [.word "Record", .sign '<'] :=
    (spells_word (by decide)).append_punctuation (by decide) (by decide)
  have hstring : Spells "string" [.word "string"] := spells_word (by decide)
  exact (hopen.append_spells hstring).append_punctuation (b := ", ") (by decide) (by decide)

theorem spells_record {value : Option Node}
    (h : Spells (valueType style value) (join (valueOperands style value))) :
    Spells ("Record<string, " ++ valueType style value ++ ">")
      (record (valueOperands style value)).tokens :=
  ((closed_recordLead.append_spells h).append_punctuation (b := ">") (by decide)
    (by decide)).spells

theorem spells_object {required : List String} {properties : List (String × Node)}
    (hne : properties ≠ [])
    (h : ∀ p ∈ properties, Spells (p.2.typeText style) (join (operands style p.2))) :
    Spells ("\x7b " ++ "; ".intercalate (propertyTypes style required properties) ++ " \x7d")
      (Operand.object (fieldOperands style required properties)).tokens := by
  have hopen : Closed "\x7b " [.sign '\x7b'] := closed_punctuation (by decide)
  have hfields : Spells ("; ".intercalate (propertyTypes style required properties))
      ([.sign ';'].intercalate ((fieldOperands style required properties).map fieldTokens)) := by
    rw [propertyTypes_eq_map, fieldOperands_eq_map, List.map_map]
    refine spells_intercalate (b := "; ") (by decide) (by decide) hne fun p hp => ?_
    exact spells_field p.1 required (h p hp)
  exact ((hopen.append_spells hfields).append_punctuation (b := " \x7d") (by decide)
    (by decide)).spells

theorem spells_union {members : List Node}
    (h : ∀ member ∈ members, Spells (member.typeText style) (join (operands style member)))
    (hne : members ≠ []) :
    Spells (" | ".intercalate (memberTypes style members))
      (join (memberOperands style members)) := by
  have hjoin : join (memberOperands style members)
      = [.sign '|'].intercalate (members.map fun member => join (operands style member)) := by
    clear h
    induction members with
    | nil => exact absurd rfl hne
    | cons member members ih =>
      rw [memberOperands]
      cases members with
      | nil => rw [memberOperands, List.append_nil, List.map_singleton, List.intercalate_singleton]
      | cons second members =>
        rw [join_append (operands_ne_nil member) (memberOperands_ne_nil (List.cons_ne_nil _ _)),
          ih (List.cons_ne_nil _ _), List.map_cons, List.map_cons, List.map_cons,
          List.intercalate_cons_cons, List.append_assoc, List.singleton_append]
  rw [hjoin, memberTypes_eq_map]
  exact spells_intercalate (b := " | ") (by decide) (by decide) hne h

/-- The text of a type is spelled by the operands of the node. -/
theorem spells_typeText (hstyle : style.IsLegal) (node : Node)
    (hnames : ∀ name ∈ node.mentions, Name.IsLegal name) :
    Spells (node.typeText style) (join (operands style node)) := by
  induction node using Node.induction with
  | ref name =>
    rw [typeText.eq_def, operands, join_singleton]
    exact spells_typeName hstyle (hnames name List.mem_cons_self)
  | object properties required additional ihp ihv =>
    cases properties with
    | nil =>
      rw [typeText.eq_def, operands, join_singleton]
      refine spells_record ?_
      cases additional with
      | none => exact spells_kind .unknown
      | some values =>
        exact ihv values rfl fun name hname => hnames name (mem_mentions_value hname)
    | cons property properties =>
      rw [typeText.eq_def, operands, join_singleton]
      refine spells_object (List.cons_ne_nil _ _) fun p hp => ihp p hp fun name hname => ?_
      exact hnames name (mem_mentions_property hp hname)
  | array items ih =>
    have hitems := ih hnames
    rw [typeText.eq_def, operands]
    by_cases hbrackets : items.isAlternative = true
    · simp only [if_pos hbrackets, join_singleton]
      have hopen : Closed "(" [.sign '('] := closed_punctuation (by decide)
      exact ((hopen.append_spells hitems).append_punctuation (b := ")[]") (by decide)
        (by decide)).spells
    · simp only [if_neg hbrackets, join_bracketLast (operands_ne_nil items)]
      exact (hitems.append_punctuation (b := "[]") (by decide) (by decide)).spells
  | union members ih =>
    have hmembers := spells_union fun member hmember => ih member hmember fun name hname =>
      hnames name (mem_mentions_member hmember hname)
    cases members with
    | nil =>
      rw [typeText.eq_def, operands, memberOperands]
      exact spells_kind .unknown
    | cons member members =>
      rw [typeText.eq_def, operands_union (List.cons_ne_nil _ _)]
      exact hmembers (List.cons_ne_nil _ _)
  | prim kind =>
    rw [typeText.eq_def, operands, join_singleton]
    exact spells_kind kind

/-- The operands of a node are read as their types. -/
theorem readable_operands (hstyle : style.IsLegal) (node : Node)
    (hnames : ∀ name ∈ node.mentions, Name.IsLegal name) :
    ∀ operand ∈ operands style node, operand.Readable := by
  induction node using Node.induction with
  | ref name =>
    have hname := Primitive.ofWord?_of_not_isReserved (hnames name List.mem_cons_self).2
    refine List.forall_mem_singleton.mpr ?_
    cases style with
    | bare => exact readable_ofPath [] hname
    | lazy => exact readable_ofPath [] hname
    | qualified scope =>
      exact readable_ofPath [name] (Primitive.ofWord?_of_not_isReserved hstyle.2)
  | object properties required additional ihp ihv =>
    cases properties with
    | nil =>
      refine List.forall_mem_singleton.mpr (readable_record (valueOperands_ne_nil additional) ?_)
      cases additional with
      | none => exact List.forall_mem_singleton.mpr (readable_ofPrim .unknown)
      | some values =>
        exact ihv values rfl fun name hname => hnames name (mem_mentions_value hname)
    | cons property properties =>
      refine List.forall_mem_singleton.mpr (readable_object (List.cons_ne_nil _ _) ?_)
      rw [fieldOperands_eq_map]
      intro field hfield
      obtain ⟨p, hp, rfl⟩ := List.mem_map.mp hfield
      refine ⟨operands_ne_nil p.2, ihp p hp fun name hname => ?_⟩
      exact hnames name (mem_mentions_property hp hname)
  | array items ih =>
    rw [operands]
    split
    · exact List.forall_mem_singleton.mpr (readable_group (operands_ne_nil items) (ih hnames))
    · exact readable_bracketLast (ih hnames)
  | union members ih =>
    cases members with
    | nil => exact List.forall_mem_singleton.mpr (readable_ofPrim .unknown)
    | cons member members =>
      rw [operands_union (List.cons_ne_nil _ _), memberOperands_eq_flatMap]
      intro operand hoperand
      obtain ⟨member, hmember, hoperand⟩ := List.mem_flatMap.mp hoperand
      exact ih member hmember (fun name hname =>
        hnames name (mem_mentions_member hmember hname)) operand hoperand
  | prim kind => exact List.forall_mem_singleton.mpr (readable_ofPrim kind)

/-- The text of a type is read as the type of the operands of the node. -/
theorem reads_typeText (hstyle : style.IsLegal) {node : Node}
    (hnames : ∀ name ∈ node.mentions, Name.IsLegal name) :
    TypeTerm.Reads (node.typeText style) (typeOf (operands style node)) := by
  refine ⟨join (operands style node), ?_, ?_⟩
  · have hspells := spells_typeText hstyle node hnames [] fun c hc => by cases hc
    rw [List.append_nil, Script.tokens, Option.map_some, List.append_nil] at hspells
    exact hspells
  · have hend : EndsType [] := fun t ht => by cases ht
    have hread := settles_readType (operands_ne_nil node) (readable_operands hstyle node hnames)
      hend
    rw [List.append_nil] at hread
    exact hread

end Node

end TypedClients
