import TypedClients.Proofs.Node.TypeText
import TypedClients.Proofs.Node.Validator

/-!
# Types and validators agree

The type of a node says of values what the node's validator checks, as long as every array in it
whose items are printed as several alternatives is printed with parentheses, and no longer
(`typeText_agrees_iff`). Parentheses are put around unions of several members, not around a union
of one member that is itself such a union.

## What is proved

`typeText_agrees_iff` — for every node whose references and scope are legal: the type that is
printed is read as one type, and it is that of the validator, up to flattening of unions in unions,
exactly if the node is `Bracketed`. `nestedUnions_disagrees` is a node that is not: a union of one
union of two, as the items of an array.

The proof compares two lists of alternatives, the ones that are read and the ones that are meant.
The first is never the shorter one, so the lists agree as a whole exactly if they agree part by
part.
-/

namespace TypedClients

open Script Script.Operand

/-! ### The inferred type -/

namespace Validator

mutual

/-- The type of the values that a validator accepts. -/
def infer (style : RefStyle) : Validator → TypeTerm
  | .entity name => .named (style.path name) []
  | .prim kind => .prim kind
  | .record values => .named ["Record"] [.prim .string, infer style values]
  | .object fields => .object (inferFields style fields)
  | .array items => .array (infer style items)
  | .union members => .union (inferMembers style members)

/-- The types of an object's fields. -/
def inferFields (style : RefStyle) :
    List (String × Bool × Validator) → List (String × Bool × TypeTerm)
  | [] => []
  | (key, optional, validator) :: rest =>
    (key, optional, infer style validator) :: inferFields style rest

/-- The types of a union's members. -/
def inferMembers (style : RefStyle) : List Validator → List TypeTerm
  | [] => []
  | validator :: rest => infer style validator :: inferMembers style rest

end

variable {style : RefStyle}

theorem inferFields_eq_map (fields : List (String × Bool × Validator)) :
    inferFields style fields = fields.map fun f => (f.1, f.2.1, f.2.2.infer style) := by
  induction fields with
  | nil => rw [inferFields, List.map_nil]
  | cons field fields ih => rw [inferFields, ih, List.map_cons]

theorem inferMembers_eq_map (members : List Validator) :
    inferMembers style members = members.map (infer style) := by
  induction members with
  | nil => rw [inferMembers, List.map_nil]
  | cons member members ih => rw [inferMembers, ih, List.map_cons]

/-- A union has the alternatives of its members, however many there are. -/
theorem alternatives_infer_choice {validators : List Validator} (hne : validators ≠ []) :
    ((choice validators).infer style).alternatives
      = validators.flatMap fun v => (v.infer style).alternatives := by
  match validators with
  | [] => exact absurd rfl hne
  | [single] => rw [choice, List.flatMap_singleton]
  | first :: second :: rest =>
    show TypeTerm.alternativesOfMembers (inferMembers style (first :: second :: rest)) = _
    rw [TypeTerm.alternativesOfMembers_eq_flatMap, inferMembers_eq_map, List.flatMap_map]

end Validator

/-! ### Alternatives and parentheses -/

namespace Node

mutual

/-- The number of alternatives that the type of the node is printed as. -/
def width : Node → Nat
  | .ref _ => 1
  | .object _ _ _ => 1
  | .array items => if items.isAlternative then 1 else items.width
  | .union members => max 1 (widthOfMembers members)
  | .prim _ => 1

/-- The number of alternatives of the members of a union. -/
def widthOfMembers : List Node → Nat
  | [] => 0
  | member :: rest => member.width + widthOfMembers rest

end

/-- The part is printed when the node is. -/
inductive Prints (part : Node) : Node → Prop
  | here : Prints part part
  | property {properties : List (String × Node)} {required : List String}
      {additional : Option Node} {key : String} {inner : Node} (mem : (key, inner) ∈ properties)
      (inside : Prints part inner) : Prints part (.object properties required additional)
  | value {required : List String} {inner : Node} (inside : Prints part inner) :
    Prints part (.object [] required (some inner))
  | items {inner : Node} (inside : Prints part inner) : Prints part (.array inner)
  | member {members : List Node} {inner : Node} (mem : inner ∈ members)
      (inside : Prints part inner) : Prints part (.union members)

/-- Every array that is printed, and whose items are printed as several alternatives, is printed
with parentheses around them. -/
def Bracketed (node : Node) : Prop :=
  ∀ items, Prints (.array items) node → 1 < items.width → items.isAlternative = true

theorem bracketed_record {required : List String} {additional : Option Node} :
    (Node.object [] required additional).Bracketed ↔
      ∀ values, additional = some values → values.Bracketed := by
  constructor
  · rintro h values rfl items inside
    exact h items (.value inside)
  · intro h items inside
    cases inside with
    | property mem _ => cases mem
    | value inside => exact h _ rfl items inside

theorem bracketed_object {properties : List (String × Node)} (hne : properties ≠ [])
    {required : List String} {additional : Option Node} :
    (Node.object properties required additional).Bracketed ↔ ∀ p ∈ properties, p.2.Bracketed := by
  constructor
  · intro h p hp items inside
    exact h items (.property hp inside)
  · intro h items inside
    cases inside with
    | property mem inside => exact h _ mem items inside
    | value _ => exact absurd rfl hne

theorem bracketed_array {items : Node} :
    (Node.array items).Bracketed ↔
      items.Bracketed ∧ (1 < items.width → items.isAlternative = true) := by
  constructor
  · intro h
    exact ⟨fun inner inside => h inner (.items inside), h items .here⟩
  · rintro ⟨h, hitems⟩ inner inside
    cases inside with
    | here => exact hitems
    | items inside => exact h inner inside

theorem bracketed_union {members : List Node} :
    (Node.union members).Bracketed ↔ ∀ member ∈ members, member.Bracketed := by
  constructor
  · intro h member hmember items inside
    exact h items (.member hmember inside)
  · intro h items inside
    cases inside with
    | member mem inside => exact h _ mem items inside

/-! ### The two lists of alternatives -/

variable {style : RefStyle}

/-- An operand is one alternative. -/
theorem length_alternatives_of_mem_operands (node : Node) :
    ∀ operand ∈ operands style node, operand.type.alternatives.length = 1 := by
  induction node using Node.induction with
  | ref name => exact List.forall_mem_singleton.mpr rfl
  | object properties required additional _ _ =>
    cases properties with
    | nil => exact List.forall_mem_singleton.mpr rfl
    | cons property properties => exact List.forall_mem_singleton.mpr rfl
  | array items ih =>
    rw [operands]
    split
    · exact List.forall_mem_singleton.mpr rfl
    · obtain ⟨others, last, hoperands, hbracket⟩ := exists_bracketLast (operands_ne_nil items)
      rw [hoperands, List.forall_mem_append] at ih
      rw [hbracket, List.forall_mem_append]
      exact ⟨ih.1, List.forall_mem_singleton.mpr rfl⟩
  | union members ih =>
    cases members with
    | nil => exact List.forall_mem_singleton.mpr rfl
    | cons member members =>
      rw [operands_union (List.cons_ne_nil _ _), memberOperands_eq_flatMap]
      intro operand hoperand
      obtain ⟨member, hmember, hoperand⟩ := List.mem_flatMap.mp hoperand
      exact ih member hmember operand hoperand
  | prim kind => exact List.forall_mem_singleton.mpr rfl

theorem length_memberOperands {members : List Node}
    (h : ∀ member ∈ members, (operands style member).length = member.width) :
    (memberOperands style members).length = widthOfMembers members := by
  induction members with
  | nil => rfl
  | cons member members ih =>
    rw [List.forall_mem_cons] at h
    rw [memberOperands, widthOfMembers, List.length_append, h.1, ih h.2]

theorem length_operands (node : Node) : (operands style node).length = node.width := by
  induction node using Node.induction with
  | ref name => rfl
  | object properties required additional _ _ => cases properties <;> rfl
  | array items ih =>
    rw [operands, width]
    split
    · rfl
    · obtain ⟨others, last, hoperands, hbracket⟩ := exists_bracketLast (operands_ne_nil items)
      rw [hbracket, ← ih, hoperands, List.length_append, List.length_append]
      rfl
  | union members ih =>
    cases members with
    | nil => rfl
    | cons member members =>
      have hlength := length_memberOperands ih
      have hne : memberOperands style (member :: members) ≠ [] :=
        memberOperands_ne_nil (List.cons_ne_nil _ _)
      have hpos := List.length_pos_iff.mpr hne
      rw [operands_union (List.cons_ne_nil _ _), width]
      omega
  | prim kind => rfl

theorem length_flatMap_of_forall {operands : List Operand}
    (h : ∀ operand ∈ operands, operand.type.alternatives.length = 1) :
    (operands.flatMap fun operand => operand.type.alternatives).length = operands.length := by
  induction operands with
  | nil => rfl
  | cons operand operands ih =>
    rw [List.forall_mem_cons] at h
    rw [List.flatMap_cons, List.length_append, h.1, ih h.2, List.length_cons, Nat.add_comm]

/-- The alternatives that the type of the node is read as. -/
def readAlternatives (style : RefStyle) (node : Node) : List TypeTerm :=
  (typeOf (operands style node)).alternatives

/-- The alternatives of the type that is inferred from the validator of the node. -/
def inferredAlternatives (style : RefStyle) (node : Node) : List TypeTerm :=
  ((Validator.ofNode node).infer style).alternatives

theorem readAlternatives_eq_flatMap (node : Node) :
    node.readAlternatives style
      = (operands style node).flatMap fun operand => operand.type.alternatives := by
  rw [readAlternatives, typeOf, TypeTerm.alternatives_ofAlternatives, List.flatMap_map]

theorem length_readAlternatives (node : Node) :
    (node.readAlternatives style).length = node.width := by
  rw [readAlternatives_eq_flatMap,
    length_flatMap_of_forall (length_alternatives_of_mem_operands node), length_operands]

theorem readAlternatives_union {members : List Node} (hne : members ≠ []) :
    (Node.union members).readAlternatives style = members.flatMap (readAlternatives style) := by
  rw [readAlternatives_eq_flatMap, operands_union hne, memberOperands_eq_flatMap,
    List.flatMap_assoc]
  exact congrArg (List.flatMap · members)
    (funext fun node => (readAlternatives_eq_flatMap node).symm)

theorem inferredAlternatives_union {members : List Node} (hne : members ≠ []) :
    (Node.union members).inferredAlternatives style
      = members.flatMap (inferredAlternatives style) := by
  rw [inferredAlternatives, Validator.ofNode, Validator.ofMembers_eq_map,
    Validator.alternatives_infer_choice (by simpa using hne), List.flatMap_map]
  rfl

theorem width_pos (node : Node) : 0 < node.width := by
  have hne : operands .bare node ≠ [] := operands_ne_nil node
  have hlength : (operands .bare node).length = node.width := length_operands node
  rw [← hlength]
  exact List.length_pos_iff.mpr hne

theorem length_flatMap_le_widthOfMembers {members : List Node}
    (h : ∀ member ∈ members, (member.inferredAlternatives style).length ≤ member.width) :
    (members.flatMap (inferredAlternatives style)).length ≤ widthOfMembers members := by
  induction members with
  | nil => exact Nat.le_refl 0
  | cons member members ih =>
    rw [List.forall_mem_cons] at h
    rw [List.flatMap_cons, List.length_append, widthOfMembers]
    exact Nat.add_le_add h.1 (ih h.2)

/-- The type is never printed as fewer alternatives than the validator has. -/
theorem length_inferredAlternatives_le (node : Node) :
    (node.inferredAlternatives style).length ≤ node.width := by
  induction node using Node.induction with
  | ref name => exact Nat.le_refl 1
  | object properties required additional _ _ => cases properties <;> exact Nat.le_refl 1
  | array items _ => exact width_pos (.array items)
  | union members ih =>
    cases members with
    | nil => exact Nat.le_refl 1
    | cons member members =>
      rw [inferredAlternatives_union (List.cons_ne_nil _ _), width]
      exact Nat.le_trans (length_flatMap_le_widthOfMembers ih) (Nat.le_max_right _ _)
  | prim kind => exact Nat.le_refl 1

theorem length_flatMap_le {α β : Type} {f g : α → List β} {items : List α}
    (h : ∀ item ∈ items, (g item).length ≤ (f item).length) :
    (items.flatMap g).length ≤ (items.flatMap f).length := by
  induction items with
  | nil => exact Nat.le_refl 0
  | cons item items ih =>
    rw [List.forall_mem_cons] at h
    rw [List.flatMap_cons, List.flatMap_cons, List.length_append, List.length_append]
    exact Nat.add_le_add h.1 (ih h.2)

/-- Lists that are put together from parts are equal exactly if the parts are, if those of one are
nowhere longer than those of the other. -/
theorem flatMap_eq_flatMap_iff {α β : Type} {f g : α → List β} {items : List α}
    (h : ∀ item ∈ items, (g item).length ≤ (f item).length) :
    items.flatMap f = items.flatMap g ↔ ∀ item ∈ items, f item = g item := by
  induction items with
  | nil => simp
  | cons item items ih =>
    rw [List.forall_mem_cons] at h
    rw [List.flatMap_cons, List.flatMap_cons, List.forall_mem_cons, ← ih h.2]
    constructor
    · intro heq
      have hlength := congrArg List.length heq
      have hrest := length_flatMap_le h.2
      rw [List.length_append, List.length_append] at hlength
      exact List.append_inj heq (by omega)
    · rintro ⟨hitem, hrest⟩
      rw [hitem, hrest]

theorem readAlternatives_record_eq_iff {required : List String} {additional : Option Node}
    (ih : ∀ values, additional = some values →
      (values.readAlternatives style = values.inferredAlternatives style ↔ values.Bracketed)) :
    (Node.object [] required additional).readAlternatives style
        = (Node.object [] required additional).inferredAlternatives style ↔
      (Node.object [] required additional).Bracketed := by
  have hread : (Node.object [] required additional).readAlternatives style
      = [.named ["Record"] [.union [.prim .string],
          .union (typeOf (valueOperands style additional)).alternatives]] := rfl
  have hinferred : (Node.object [] required additional).inferredAlternatives style
      = [.named ["Record"] [.union [.prim .string],
          .union ((Validator.ofValue additional).infer style).alternatives]] := rfl
  rw [hread, hinferred, bracketed_record]
  simp only [List.cons.injEq, TypeTerm.named.injEq, TypeTerm.union.injEq, and_true, true_and]
  cases additional with
  | none => exact iff_of_true rfl fun values h => by cases h
  | some values =>
    refine (ih values rfl).trans ⟨fun h inner hinner => ?_, fun h => h values rfl⟩
    cases hinner
    exact h

theorem readAlternatives_object_eq_iff {properties : List (String × Node)} (hne : properties ≠ [])
    {required : List String} {additional : Option Node}
    (ih : ∀ p ∈ properties,
      (p.2.readAlternatives style = p.2.inferredAlternatives style ↔ p.2.Bracketed)) :
    (Node.object properties required additional).readAlternatives style
        = (Node.object properties required additional).inferredAlternatives style ↔
      (Node.object properties required additional).Bracketed := by
  have hread : (Node.object properties required additional).readAlternatives style
      = [.object (properties.map fun p =>
          (p.1, decide (p.1 ∉ required), .union (p.2.readAlternatives style)))] := by
    cases properties with
    | nil => exact absurd rfl hne
    | cons property properties =>
      show [TypeTerm.object (TypeTerm.flatFields ((fieldOperands style required
        (property :: properties)).map fun field => (field.1, field.2.1, typeOf field.2.2)))] = _
      rw [TypeTerm.flatFields_eq_map, fieldOperands_eq_map, List.map_map, List.map_map]
      rfl
  have hinferred : (Node.object properties required additional).inferredAlternatives style
      = [.object (properties.map fun p =>
          (p.1, decide (p.1 ∉ required), .union (p.2.inferredAlternatives style)))] := by
    cases properties with
    | nil => exact absurd rfl hne
    | cons property properties =>
      show [TypeTerm.object (TypeTerm.flatFields (Validator.inferFields style
        (Validator.ofProperties required (property :: properties))))] = _
      rw [TypeTerm.flatFields_eq_map, Validator.inferFields_eq_map, Validator.ofProperties_eq_map,
        List.map_map, List.map_map]
      rfl
  rw [hread, hinferred, bracketed_object hne]
  simp only [List.cons.injEq, TypeTerm.object.injEq, and_true, List.map_inj_left, Prod.mk.injEq,
    TypeTerm.union.injEq, true_and]
  exact forall₂_congr ih

theorem readAlternatives_array_eq_iff {items : Node}
    (ih : items.readAlternatives style = items.inferredAlternatives style ↔ items.Bracketed) :
    (Node.array items).readAlternatives style = (Node.array items).inferredAlternatives style ↔
      (Node.array items).Bracketed := by
  have hinferred : (Node.array items).inferredAlternatives style
      = [.array (.union (items.inferredAlternatives style))] := rfl
  rw [hinferred, bracketed_array, ← ih, readAlternatives_eq_flatMap, operands]
  by_cases hbrackets : items.isAlternative = true
  · rw [if_pos hbrackets]
    show [TypeTerm.array (.union (items.readAlternatives style))] = _ ↔ _
    simp [hbrackets]
  · -- The brackets go to the last operand, so there must not be another one.
    have hne : operands style items ≠ [] := operands_ne_nil items
    have hwidth : (operands style items).length = items.width := length_operands items
    have hsingle : ∀ operand ∈ operands style items, operand.type.alternatives.length = 1 :=
      length_alternatives_of_mem_operands items
    obtain ⟨others, last, hoperands, hlast⟩ := exists_bracketLast hne
    have hbracket : last.bracket.type.alternatives = [.array (.union last.type.alternatives)] := rfl
    rw [hoperands] at hwidth hsingle
    rw [if_neg hbrackets, hlast, readAlternatives_eq_flatMap, hoperands, List.flatMap_append,
      List.flatMap_append, List.flatMap_singleton, List.flatMap_singleton, hbracket]
    cases others with
    | nil =>
      rw [← hwidth]
      simp
    | cons first others =>
      have hfirst := hsingle first List.mem_cons_self
      refine iff_of_false (fun h => ?_) fun h => ?_
      · have hlength := congrArg List.length h
        simp only [List.flatMap_cons, List.length_append, List.length_singleton, hfirst] at hlength
        omega
      · refine hbrackets (h.2 ?_)
        rw [← hwidth]
        simp

/-- The two lists of alternatives are the same exactly if the type is printed with parentheses
where it has to be. -/
theorem readAlternatives_eq_iff (node : Node) :
    node.readAlternatives style = node.inferredAlternatives style ↔ node.Bracketed := by
  induction node using Node.induction with
  | ref name =>
    refine iff_of_true rfl ?_
    intro items inside
    cases inside
  | object properties required additional ihp ihv =>
    cases properties with
    | nil => exact readAlternatives_record_eq_iff ihv
    | cons property properties => exact readAlternatives_object_eq_iff (List.cons_ne_nil _ _) ihp
  | array items ih => exact readAlternatives_array_eq_iff ih
  | union members ih =>
    cases members with
    | nil =>
      refine iff_of_true rfl (bracketed_union.mpr ?_)
      exact fun _ h => absurd h List.not_mem_nil
    | cons member members =>
      rw [readAlternatives_union (List.cons_ne_nil _ _),
        inferredAlternatives_union (List.cons_ne_nil _ _), flatMap_eq_flatMap_iff, bracketed_union]
      · exact forall₂_congr ih
      · intro member _
        rw [length_readAlternatives]
        exact length_inferredAlternatives_le member
  | prim kind =>
    refine iff_of_true rfl ?_
    intro items inside
    cases inside

/-- The type of a node is read as one type, and that is the type of the node's validator up to
flattening, exactly if the type is printed with parentheses where it has to be. -/
theorem typeText_agrees_iff {node : Node} (hstyle : style.IsLegal)
    (hnames : ∀ name ∈ node.mentions, Name.IsLegal name) :
    (Validator.ofNode node).text style = node.validator style ∧
      ∃ type, (∀ other, TypeTerm.Reads (node.typeText style) other ↔ other = type) ∧
        (type.Agrees ((Validator.ofNode node).infer style) ↔ node.Bracketed) := by
  have hreads := reads_typeText hstyle hnames
  refine ⟨Validator.text_ofNode style node, typeOf (operands style node), fun other => ?_,
    readAlternatives_eq_iff node⟩
  constructor
  · exact fun hother => TypeTerm.reads_unique hother hreads
  · rintro rfl
    exact hreads

theorem typeText_agrees_pets :
    ∃ type, TypeTerm.Reads
        ((Node.array (.union [.ref "Pet", .prim .null])).typeText (.qualified "schemas")) type ∧
      type.Agrees ((Validator.ofNode (.array (.union [.ref "Pet", .prim .null]))).infer
        (.qualified "schemas")) := by
  have hstyle : (RefStyle.qualified "schemas").IsLegal := ⟨by decide, by decide⟩
  have hnames : ∀ name ∈ (Node.array (.union [.ref "Pet", .prim .null])).mentions,
      Name.IsLegal name := by
    intro name hname
    obtain rfl : name = "Pet" := by simpa [mentions, mentionsOfList] using hname
    exact ⟨by decide, by decide⟩
  obtain ⟨-, type, hreads, hagrees⟩ := typeText_agrees_iff hstyle hnames
  refine ⟨type, (hreads type).mpr rfl, hagrees.mpr (bracketed_array.mpr ⟨?_, fun _ => rfl⟩)⟩
  refine bracketed_union.mpr fun member hmember items inside => ?_
  simp only [List.mem_cons, List.not_mem_nil, or_false] at hmember
  rcases hmember with rfl | rfl
  · cases inside
  · cases inside

/-- Lists of what is a union of one union. -/
def nestedUnions : Node := .array (.union [.union [.prim .number, .prim .null]])

/-- Without parentheses the brackets go to the last alternative only. -/
theorem nestedUnions_disagrees :
    nestedUnions.typeText .bare = "number | null[]" ∧
      nestedUnions.validator .bare = "z.array(z.union([z.number(), z.null()]))" ∧
      ∀ type, TypeTerm.Reads (nestedUnions.typeText .bare) type →
        ¬ type.Agrees ((Validator.ofNode nestedUnions).infer .bare) := by
  refine ⟨by decide, by decide, fun type htype hagrees => ?_⟩
  have hstyle : RefStyle.bare.IsLegal := trivial
  have hreads : TypeTerm.Reads (nestedUnions.typeText .bare)
      (typeOf (operands .bare nestedUnions)) :=
    reads_typeText hstyle fun name hname => by cases hname
  rw [TypeTerm.reads_unique htype hreads] at hagrees
  exact absurd (congrArg List.length hagrees) (by decide)

end Node

end TypedClients
