import TypedClients.Proofs.Node.Canonical
import TypedClients.Proofs.Script.TypeTerm

/-!
# What the text of a validator tells

The text of a validator spells tokens that follow the expression (`Legible.spells`). They tell the
expression and where it ends (`Legible.told`), as long as what follows is one of the things that
stand behind a validator: its end is not seen from a reference alone, but neither a method nor its
arguments may follow one. So nodes are printed alike exactly if they have the same canonical node
(`Node.validator_eq_iff`).

## How it is proved

Reading back would be a parser; here no parser is written. It is shown that tokens which begin with
those of two expressions are only equal if the expressions are (`Told`), by induction over the
expressions and for whatever may follow. Lists with commas are told item by item.

## What is assumed

References are identifiers, as names of entities are. A name with a comma or a bracket in it could
make two expressions look alike.
-/

namespace TypedClients

open Script

theorem Primitive.word_inj {kind other : Primitive} : kind.word = other.word ↔ kind = other := by
  constructor
  · intro h
    have hkind := Primitive.ofWord?_word kind
    rw [h, Primitive.ofWord?_word] at hkind
    exact (Option.some.inj hkind).symm
  · rintro rfl
    rfl

/-- The module that references are looked up in, if there is one, is called by an identifier. -/
def RefStyle.IsIdentifier : RefStyle → Prop
  | .bare => True
  | .lazy => True
  | .qualified scope => Name.isIdentifier scope = true

/-! ### Items with commas between them -/

/-- What may follow an item: the end, or a sign that separates or closes. -/
inductive Ends : List Token → Prop
  | nil : Ends []
  | sign {c : Char} {rest : List Token} (h : c ∈ [',', ')', ']', '\x7d']) : Ends (.sign c :: rest)

/-- The mark of an optional field. -/
def optionalMark : List Token :=
  [.sign '.', .word "optional", .sign '(', .sign ')']

/-- What may follow a validator. -/
inductive Follows : List Token → Prop
  | ends {rest : List Token} (h : Ends rest) : Follows rest
  | mark (rest : List Token) :
    Follows (.sign '.' :: .word "optional" :: .sign '(' :: .sign ')' :: rest)

/-- The tokens tell the item and where it ends, if what follows it is of the given kind. -/
def Told {α : Type} (ends : List Token → Prop) (spelled : α → List Token) (item : α) : Prop :=
  ∀ ⦃other rest more⦄, ends rest → ends more →
    spelled item ++ rest = spelled other ++ more → item = other ∧ rest = more

theorem Follows.eq_optional {method : String} {rest : List Token}
    (h : Follows (.sign '.' :: .word method :: rest)) : method = "optional" := by
  cases h with
  | ends h =>
    cases h with
    | sign hc => exact absurd hc (by decide)
  | mark => rfl

theorem not_follows_open (rest : List Token) : ¬ Follows (.sign '(' :: rest) := by
  intro h
  cases h with
  | ends h =>
    cases h with
    | sign hc => exact absurd hc (by decide)

/-- A list with commas is its first item, and behind it every other one with a comma before it. -/
theorem intercalate_map_cons {α : Type} (spelled : α → List Token) (item : α) (items : List α) :
    [Token.sign ','].intercalate ((item :: items).map spelled)
      = spelled item ++ items.flatMap fun next => .sign ',' :: spelled next := by
  induction items generalizing item with
  | nil => simp
  | cons next items ih =>
    rw [List.map_cons, List.map_cons, List.intercalate_cons_cons, ← List.map_cons, ih,
      List.flatMap_cons, List.append_assoc]
    rfl

section

variable {α : Type} {spelled : α → List Token} {c : Char} (hc : c ∈ [')', ']', '\x7d'])
  {items others : List α} {rest more : List Token}

include hc

theorem ends_flatMap :
    Ends ((items.flatMap fun next => .sign ',' :: spelled next) ++ .sign c :: rest) := by
  cases items with
  | nil => exact .sign (List.mem_cons_of_mem _ hc)
  | cons item items => exact .sign List.mem_cons_self

/-- Items that are told are told from what stands behind a first one. -/
theorem told_flatMap (htold : ∀ item ∈ items, Told Ends spelled item)
    (h : (items.flatMap fun next => .sign ',' :: spelled next) ++ .sign c :: rest
      = (others.flatMap fun next => .sign ',' :: spelled next) ++ .sign c :: more) :
    items = others ∧ rest = more := by
  have hne : c ≠ ',' := by
    rintro rfl
    exact absurd hc (by decide)
  induction items generalizing others with
  | nil =>
    cases others with
    | nil => exact ⟨rfl, (List.cons.inj h).2⟩
    | cons other others => exact absurd (Token.sign.inj (List.cons.inj h).1) hne
  | cons item items ih =>
    rw [List.forall_mem_cons] at htold
    cases others with
    | nil => exact absurd (Token.sign.inj (List.cons.inj h).1).symm hne
    | cons other others =>
      simp only [List.flatMap_cons, List.cons_append, List.append_assoc, List.cons.injEq,
        true_and] at h
      obtain ⟨rfl, htail⟩ := htold.1 (ends_flatMap hc) (ends_flatMap hc) h
      obtain ⟨rfl, hrest⟩ := ih htold.2 htail
      exact ⟨rfl, hrest⟩

/-- Items that are told, and do not begin with a sign, are told from a list with commas between them
and another sign at its end. -/
theorem told_intercalate (hsign : ∀ item rest d more, spelled item ++ rest ≠ .sign d :: more)
    (htold : ∀ item ∈ items, Told Ends spelled item)
    (h : [Token.sign ','].intercalate (items.map spelled) ++ .sign c :: rest
      = [Token.sign ','].intercalate (others.map spelled) ++ .sign c :: more) :
    items = others ∧ rest = more := by
  cases items with
  | nil =>
    cases others with
    | nil => exact ⟨rfl, (List.cons.inj h).2⟩
    | cons other others =>
      rw [intercalate_map_cons, List.append_assoc] at h
      exact absurd h.symm (hsign _ _ _ _)
  | cons item items =>
    rw [List.forall_mem_cons] at htold
    cases others with
    | nil =>
      rw [intercalate_map_cons, List.append_assoc] at h
      exact absurd h (hsign _ _ _ _)
    | cons other others =>
      rw [intercalate_map_cons, intercalate_map_cons, List.append_assoc, List.append_assoc] at h
      obtain ⟨rfl, htail⟩ := htold.1 (ends_flatMap hc) (ends_flatMap hc) h
      obtain ⟨rfl, hrest⟩ := told_flatMap hc htold.2 htail
      exact ⟨rfl, hrest⟩

end

/-! ### Tokens -/

/-- The tokens of a method of the library with its arguments. -/
def callTokens (method : String) (arguments : List Token) : List Token :=
  [.word "z", .sign '.', .word method, .sign '('] ++ arguments ++ [.sign ')']

/-- The tokens of a reference inside a validator. -/
def RefStyle.validatorTokens (style : RefStyle) (name : String) : List Token :=
  match style with
  | .bare => [.word name]
  | .lazy => callTokens "lazy" [.sign '(', .sign ')', .sign '=', .sign '>', .word name]
  | .qualified scope => [.word scope, .sign '.', .word name]

namespace Validator

mutual

/-- The tokens of the expression. -/
def tokens (style : RefStyle) : Validator → List Token
  | .entity name => style.validatorTokens name
  | .prim kind => callTokens kind.word []
  | .record values =>
    callTokens "record" (callTokens "string" [] ++ .sign ',' :: tokens style values)
  | .object fields => callTokens "object"
    (.sign '\x7b' :: [.sign ','].intercalate (tokensOfFields style fields) ++ [.sign '\x7d'])
  | .array items => callTokens "array" (tokens style items)
  | .union members => callTokens "union"
    (.sign '[' :: [.sign ','].intercalate (tokensOfMembers style members) ++ [.sign ']'])

/-- The tokens of each field of an object. -/
def tokensOfFields (style : RefStyle) : List (String × Bool × Validator) → List (List Token)
  | [] => []
  | (key, optional, validator) :: rest =>
    (.text key :: .sign ':' :: tokens style validator ++ if optional then optionalMark else [])
      :: tokensOfFields style rest

/-- The tokens of each member of a union. -/
def tokensOfMembers (style : RefStyle) : List Validator → List (List Token)
  | [] => []
  | validator :: rest => tokens style validator :: tokensOfMembers style rest

end

/-- The tokens of a field. -/
def fieldTokens (style : RefStyle) (field : String × Bool × Validator) : List Token :=
  .text field.1 :: .sign ':' :: tokens style field.2.2 ++ if field.2.1 then optionalMark else []

/-- The text of a field. -/
def fieldText (style : RefStyle) (field : String × Bool × Validator) : String :=
  "  " ++ quote field.1 ++ ": " ++ text style field.2.2 ++ if field.2.1 then ".optional()" else ""

variable {style : RefStyle}

theorem tokensOfFields_eq_map (fields : List (String × Bool × Validator)) :
    tokensOfFields style fields = fields.map (fieldTokens style) := by
  induction fields with
  | nil => rw [tokensOfFields, List.map_nil]
  | cons field fields ih => rw [tokensOfFields, ih, List.map_cons, fieldTokens]

theorem tokensOfMembers_eq_map (members : List Validator) :
    tokensOfMembers style members = members.map (tokens style) := by
  induction members with
  | nil => rw [tokensOfMembers, List.map_nil]
  | cons member members ih => rw [tokensOfMembers, ih, List.map_cons]

theorem fieldTexts_eq_map (fields : List (String × Bool × Validator)) :
    fieldTexts style fields = fields.map (fieldText style) := by
  induction fields with
  | nil => rw [fieldTexts.eq_def, List.map_nil]
  | cons field fields ih => rw [fieldTexts.eq_def, List.map_cons, ← ih, fieldText]

theorem memberTexts_eq_map (members : List Validator) :
    memberTexts style members = members.map (text style) := by
  induction members with
  | nil => rw [memberTexts.eq_def, List.map_nil]
  | cons member members ih => rw [memberTexts.eq_def, List.map_cons, ← ih]

/-- The entities in the validator are called by identifiers, every object has a field and every
union a member. -/
inductive Legible : Validator → Prop
  | entity {name : String} (h : Name.isIdentifier name = true) : Legible (.entity name)
  | prim (kind : Primitive) : Legible (.prim kind)
  | record {values : Validator} (h : Legible values) : Legible (.record values)
  | object {fields : List (String × Bool × Validator)} (hne : fields ≠ [])
      (h : ∀ field ∈ fields, Legible field.2.2) : Legible (.object fields)
  | array {items : Validator} (h : Legible items) : Legible (.array items)
  | union {members : List Validator} (hne : members ≠ []) (h : ∀ member ∈ members, Legible member) :
      Legible (.union members)

/-! ### The text of a validator -/

theorem closed_method (method : String) (h : Name.isIdentifier method = true) :
    Closed ("z." ++ method ++ "(") [.word "z", .sign '.', .word method, .sign '('] := by
  have hscope : Closed ("z" ++ ".") [.word "z", .sign '.'] :=
    (spells_word (by decide)).append_punctuation (by decide) (by decide)
  exact (hscope.append_spells (spells_word h)).append_punctuation (b := "(") (by decide) (by decide)

theorem spells_call (method : String) {arguments : String} {ts : List Token}
    (h : Name.isIdentifier method = true) (harguments : Spells arguments ts) :
    Spells ("z." ++ method ++ "(" ++ arguments ++ ")") (callTokens method ts) :=
  (((closed_method method h).append_spells harguments).append_punctuation (b := ")") (by decide)
    (by decide)).spells

theorem spells_validator (hstyle : style.IsIdentifier) {name : String}
    (h : Name.isIdentifier name = true) :
    Spells (style.validator name) (style.validatorTokens name) := by
  cases style with
  | bare => exact spells_word h
  | lazy =>
    have harrow : Closed "() => " [.sign '(', .sign ')', .sign '=', .sign '>'] :=
      closed_punctuation (by decide)
    have hcall := spells_call "lazy" (by decide) (harrow.append_spells (spells_word h))
    rw [← String.append_assoc] at hcall
    exact hcall
  | qualified scope =>
    have hscope : Closed (scope ++ ".") [.word scope, .sign '.'] :=
      (spells_word hstyle).append_punctuation (by decide) (by decide)
    exact hscope.append_spells (spells_word h)

theorem spells_prim (kind : Primitive) :
    Spells ("z." ++ kind.word ++ "()") (callTokens kind.word []) := by
  have hempty : Spells "" [] := (closed_punctuation (by decide)).spells
  have hcall := spells_call kind.word (by cases kind <;> decide) hempty
  rw [String.append_empty, String.append_assoc] at hcall
  exact hcall

theorem spells_field {field : String × Bool × Validator}
    (h : Spells (field.2.2.text style) (field.2.2.tokens style)) :
    Spells (fieldText style field) (fieldTokens style field) := by
  obtain ⟨key, optional, validator⟩ := field
  have hindent : Closed "  " [] := closed_punctuation (by decide)
  have hcolon : Closed ": " [.sign ':'] := closed_punctuation (by decide)
  have hbody := ((hindent.append (closed_quote key)).append hcolon).append_spells h
  cases optional with
  | false =>
    rw [fieldText, fieldTokens, if_neg Bool.false_ne_true, if_neg Bool.false_ne_true,
      String.append_empty, List.append_nil]
    exact hbody
  | true =>
    rw [fieldText, fieldTokens, if_pos rfl, if_pos rfl]
    have hdot := hbody.append_punctuation (b := ".") (by decide) (by decide)
    have hword : Spells "optional" [.word "optional"] := spells_word (by decide)
    have hmark := (hdot.append_spells hword).append_punctuation (b := "()") (by decide) (by decide)
    simp only [String.append_assoc, List.append_assoc] at hmark ⊢
    exact hmark.spells

theorem spells_object {fields : List (String × Bool × Validator)} (hne : fields ≠ [])
    (h : ∀ field ∈ fields, Spells (field.2.2.text style) (field.2.2.tokens style)) :
    Spells ("z.object(\x7b\n" ++ ",\n".intercalate (fieldTexts style fields) ++ "\n\x7d)")
      (tokens style (.object fields)) := by
  have hopen : Closed "z.object(\x7b\n"
      [.word "z", .sign '.', .word "object", .sign '(', .sign '\x7b'] :=
    (closed_method "object" (by decide)).append (closed_punctuation (a := "\x7b\n") (by decide))
  have hfields : Spells (",\n".intercalate (fieldTexts style fields))
      ([.sign ','].intercalate (fields.map (fieldTokens style))) := by
    rw [fieldTexts_eq_map]
    exact spells_intercalate (b := ",\n") (by decide) (by decide) hne fun field hfield =>
      spells_field (h field hfield)
  have hobject := (hopen.append_spells hfields).append_punctuation (b := "\n\x7d)") (by decide)
    (by decide)
  have hclose : signs "\n\x7d)" = [.sign '\x7d', .sign ')'] := by decide
  rw [tokens, tokensOfFields_eq_map, callTokens]
  simpa [hclose] using hobject.spells

theorem spells_union {members : List Validator} (hne : members ≠ [])
    (h : ∀ member ∈ members, Spells (member.text style) (member.tokens style)) :
    Spells ("z.union([" ++ ", ".intercalate (memberTexts style members) ++ "])")
      (tokens style (.union members)) := by
  have hopen : Closed "z.union(["
      [.word "z", .sign '.', .word "union", .sign '(', .sign '['] :=
    (closed_method "union" (by decide)).append (closed_punctuation (a := "[") (by decide))
  have hmembers : Spells (", ".intercalate (memberTexts style members))
      ([.sign ','].intercalate (members.map (tokens style))) := by
    rw [memberTexts_eq_map]
    exact spells_intercalate (b := ", ") (by decide) (by decide) hne h
  have hunion := (hopen.append_spells hmembers).append_punctuation (b := "])") (by decide)
    (by decide)
  have hclose : signs "])" = [.sign ']', .sign ')'] := by decide
  rw [tokens, tokensOfMembers_eq_map, callTokens]
  simpa [hclose] using hunion.spells

theorem spells_record {values : Validator} (h : Spells (values.text style) (values.tokens style)) :
    Spells ("z.record(z.string(), " ++ values.text style ++ ")")
      (tokens style (.record values)) := by
  have hkeys : Closed "z.string(), " (callTokens "string" [] ++ [.sign ',']) :=
    (spells_prim .string).append_punctuation (b := ", ") (by decide) (by decide)
  have hcall := spells_call "record" (by decide) (hkeys.append_spells h)
  rw [← String.append_assoc, List.append_assoc] at hcall
  exact hcall

/-- The text of a validator spells its tokens. -/
theorem Legible.spells (hstyle : style.IsIdentifier) {validator : Validator}
    (h : validator.Legible) : Spells (validator.text style) (validator.tokens style) := by
  induction h with
  | entity h =>
    rw [text.eq_def, tokens]
    exact spells_validator hstyle h
  | prim kind =>
    rw [text.eq_def, tokens]
    exact spells_prim kind
  | record _ ih =>
    rw [text.eq_def]
    exact spells_record ih
  | object hne _ ih =>
    rw [text.eq_def]
    exact spells_object hne ih
  | array _ ih =>
    rw [text.eq_def, tokens]
    exact spells_call "array" (by decide) ih
  | union hne _ ih =>
    rw [text.eq_def]
    exact spells_union hne ih

/-! ### Reading the tokens -/

theorem callTokens_append_inj {method other : String} {arguments others rest more : List Token}
    (h : callTokens method arguments ++ rest = callTokens other others ++ more) :
    method = other ∧ arguments ++ .sign ')' :: rest = others ++ .sign ')' :: more := by
  simpa [callTokens] using h

theorem validatorTokens_append_inj {name other : String} {rest more : List Token}
    (h : style.validatorTokens name ++ rest = style.validatorTokens other ++ more) :
    name = other ∧ rest = more := by
  cases style with
  | bare => simpa [RefStyle.validatorTokens] using h
  | lazy => simpa [RefStyle.validatorTokens, callTokens] using h
  | qualified scope => simpa [RefStyle.validatorTokens] using h

/-- A reference is no call, not even one of the library's name or of a name in it, since what
follows does not go on with a call. -/
theorem validatorTokens_append_ne {name method : String} {arguments rest more : List Token}
    (hrest : Follows rest) (hmethod : method ≠ "lazy" ∧ method ≠ "optional") :
    style.validatorTokens name ++ rest ≠ callTokens method arguments ++ more := by
  intro h
  cases style with
  | bare =>
    obtain ⟨-, rfl⟩ := List.cons.inj h
    exact hmethod.2 hrest.eq_optional
  | lazy => exact hmethod.1 (callTokens_append_inj h).1.symm
  | qualified scope =>
    obtain ⟨-, h⟩ := List.cons.inj (List.cons.inj (List.cons.inj h).2).2
    obtain rfl := h
    exact not_follows_open _ hrest

/-- The method that a validator calls, if it is no reference. -/
def method? : Validator → Option String
  | .entity _ => none
  | .prim kind => some kind.word
  | .record _ => some "record"
  | .object _ => some "object"
  | .array _ => some "array"
  | .union _ => some "union"

theorem exists_callTokens (style : RefStyle) {validator : Validator} {method : String}
    (h : validator.method? = some method) : (method ≠ "lazy" ∧ method ≠ "optional") ∧
      ∃ arguments, validator.tokens style = callTokens method arguments := by
  cases validator with
  | entity name => cases h
  | prim kind =>
    obtain rfl := Option.some.inj h
    exact ⟨by cases kind <;> decide, _, by rw [tokens]⟩
  | _ =>
    obtain rfl := Option.some.inj h
    exact ⟨by decide, _, by rw [tokens]⟩

theorem exists_entity {validator : Validator} (h : validator.method? = none) :
    ∃ name, validator = .entity name := by
  cases validator with
  | entity name => exact ⟨name, rfl⟩
  | _ => cases h

/-- The tokens tell the method, or that there is none. -/
theorem method?_eq {validator other : Validator} {rest more : List Token} (hrest : Follows rest)
    (hmore : Follows more)
    (h : validator.tokens style ++ rest = other.tokens style ++ more) :
    validator.method? = other.method? := by
  cases hmethod : validator.method? with
  | none =>
    obtain ⟨name, rfl⟩ := exists_entity hmethod
    cases hother : other.method? with
    | none => rfl
    | some method =>
      obtain ⟨hne, arguments, htokens⟩ := exists_callTokens style hother
      rw [tokens, htokens] at h
      exact absurd h (validatorTokens_append_ne hrest hne)
  | some method =>
    obtain ⟨hne, arguments, htokens⟩ := exists_callTokens style hmethod
    rw [htokens] at h
    cases hother : other.method? with
    | none =>
      obtain ⟨name, rfl⟩ := exists_entity hother
      rw [tokens] at h
      exact absurd h.symm (validatorTokens_append_ne hmore hne)
    | some method' =>
      obtain ⟨-, others, htokens'⟩ := exists_callTokens style hother
      rw [htokens'] at h
      rw [(callTokens_append_inj h).1]

theorem follows_close (rest : List Token) : Follows (.sign ')' :: rest) :=
  .ends (.sign (by decide))

/-- A validator in a field is told with its mark, which what follows the field does not begin
with. -/
theorem told_field {field : String × Bool × Validator}
    (h : Told Follows (tokens style) field.2.2) : Told Ends (fieldTokens style) field := by
  obtain ⟨key, optional, validator⟩ := field
  rintro ⟨other, optional', validator'⟩ rest more hrest hmore heq
  have hfollows : ∀ {optional : Bool} {rest : List Token}, Ends rest →
      Follows ((if optional then optionalMark else []) ++ rest) := by
    intro optional rest hrest
    cases optional with
    | false => exact .ends hrest
    | true => exact .mark rest
  simp only [fieldTokens, List.cons_append, List.append_assoc, List.cons.injEq, Token.text.injEq,
    true_and] at heq
  obtain ⟨rfl, heq⟩ := heq
  obtain ⟨rfl, htail⟩ := h (hfollows hrest) (hfollows hmore) heq
  have hmark : ∀ rest, ¬ Ends (optionalMark ++ rest) := by
    intro rest h
    cases h with
    | sign hc => exact absurd hc (by decide)
  cases optional <;> cases optional'
  · exact ⟨rfl, htail⟩
  · obtain rfl : rest = optionalMark ++ more := htail
    exact absurd hrest (hmark more)
  · obtain rfl : optionalMark ++ rest = more := htail
    exact absurd hmore (hmark rest)
  · exact ⟨rfl, List.append_cancel_left htail⟩

/-- A validator begins with a word. -/
theorem tokens_append_ne_sign (validator : Validator) (rest : List Token) (c : Char)
    (more : List Token) : validator.tokens style ++ rest ≠ .sign c :: more := by
  intro h
  cases hmethod : validator.method? with
  | none =>
    obtain ⟨name, rfl⟩ := exists_entity hmethod
    rw [tokens] at h
    cases style <;> cases h
  | some method =>
    obtain ⟨-, arguments, htokens⟩ := exists_callTokens style hmethod
    rw [htokens] at h
    cases h

/-- The tokens tell the validator and where it ends. -/
theorem Legible.told {validator : Validator} (h : validator.Legible) :
    Told Follows (tokens style) validator := by
  -- The other validator calls the same method, so it is of the same kind, and what is inside is told
  -- by its tokens, behind which there is a parenthesis or what separates and closes a list.
  induction h with
  | entity =>
    intro other rest more hrest hmore h
    obtain ⟨name, rfl⟩ := exists_entity (method?_eq hrest hmore h).symm
    rw [tokens, tokens] at h
    obtain ⟨rfl, htail⟩ := validatorTokens_append_inj h
    exact ⟨rfl, htail⟩
  | prim kind =>
    intro other rest more hrest hmore h
    have hmethod := method?_eq hrest hmore h
    cases other with
    | prim kind' =>
      rw [tokens, tokens] at h
      obtain ⟨hword, htail⟩ := callTokens_append_inj h
      obtain rfl := Primitive.word_inj.mp hword
      exact ⟨rfl, (List.cons.inj htail).2⟩
    | _ => cases kind <;> simp [method?, Primitive.word] at hmethod
  | record _ ih =>
    intro other rest more hrest hmore h
    have hmethod := method?_eq hrest hmore h
    cases other with
    | record values =>
      rw [tokens, tokens] at h
      have harguments := (callTokens_append_inj h).2
      rw [List.append_assoc, List.append_assoc] at harguments
      obtain ⟨rfl, htail⟩ := ih (follows_close _) (follows_close _)
        (List.cons.inj (List.append_cancel_left harguments)).2
      exact ⟨rfl, (List.cons.inj htail).2⟩
    | prim kind => cases kind <;> simp [method?, Primitive.word] at hmethod
    | _ => simp [method?] at hmethod
  | object _ _ ih =>
    intro other rest more hrest hmore h
    have hmethod := method?_eq hrest hmore h
    cases other with
    | object fields =>
      rw [tokens, tokens] at h
      have harguments := (callTokens_append_inj h).2
      simp only [tokensOfFields_eq_map, List.cons_append, List.append_assoc, List.nil_append,
        List.cons.injEq, true_and] at harguments
      obtain ⟨rfl, htail⟩ := told_intercalate (by decide) (fun _ _ _ _ h => by cases h)
        (fun field hfield => told_field (ih field hfield)) harguments
      exact ⟨rfl, (List.cons.inj htail).2⟩
    | prim kind => cases kind <;> simp [method?, Primitive.word] at hmethod
    | _ => simp [method?] at hmethod
  | array _ ih =>
    intro other rest more hrest hmore h
    have hmethod := method?_eq hrest hmore h
    cases other with
    | array items =>
      rw [tokens, tokens] at h
      obtain ⟨rfl, htail⟩ := ih (follows_close _) (follows_close _) (callTokens_append_inj h).2
      exact ⟨rfl, (List.cons.inj htail).2⟩
    | prim kind => cases kind <;> simp [method?, Primitive.word] at hmethod
    | _ => simp [method?] at hmethod
  | union _ _ ih =>
    intro other rest more hrest hmore h
    have hmethod := method?_eq hrest hmore h
    cases other with
    | union members =>
      rw [tokens, tokens] at h
      have harguments := (callTokens_append_inj h).2
      simp only [tokensOfMembers_eq_map, List.cons_append, List.append_assoc, List.nil_append,
        List.cons.injEq, true_and] at harguments
      obtain ⟨rfl, htail⟩ := told_intercalate (by decide) tokens_append_ne_sign
        (fun member hmember _ _ _ hrest hmore => ih member hmember (.ends hrest) (.ends hmore))
        harguments
      exact ⟨rfl, (List.cons.inj htail).2⟩
    | prim kind => cases kind <;> simp [method?, Primitive.word] at hmethod
    | _ => simp [method?] at hmethod

/-- The text of a validator tells the validator. -/
theorem Legible.eq_of_text (hstyle : style.IsIdentifier) {validator other : Validator}
    (h : validator.Legible) (hother : other.Legible)
    (htext : validator.text style = other.text style) : validator = other := by
  have hend : Apart [] := fun c hc => by cases hc
  have hspells := h.spells hstyle [] hend
  rw [htext, hother.spells hstyle [] hend, Script.tokens, Option.map_some, Option.map_some]
    at hspells
  exact (h.told (.ends .nil) (.ends .nil) (Option.some.inj hspells).symm).1

/-! ### The validators of nodes -/

theorem legible_choice {members : List Validator} (h : ∀ member ∈ members, Legible member) :
    (choice members).Legible := by
  match members with
  | [] => exact .prim .unknown
  | [single] => exact h single List.mem_cons_self
  | first :: second :: rest => exact .union (List.cons_ne_nil _ _) h

theorem legible_ofNode (node : Node)
    (hnames : ∀ name ∈ node.mentions, Name.isIdentifier name = true) : (ofNode node).Legible := by
  induction node using Node.induction with
  | ref name =>
    rw [ofNode]
    exact .entity (hnames name List.mem_cons_self)
  | object properties required additional ihp ihv =>
    cases properties with
    | nil =>
      rw [ofNode]
      refine .record ?_
      cases additional with
      | none => exact .prim .unknown
      | some values =>
        exact ihv values rfl fun name hname => hnames name (Node.mem_mentions_value hname)
    | cons property properties =>
      rw [ofNode, ofProperties_eq_map]
      refine .object (List.cons_ne_nil _ _) fun field hfield => ?_
      obtain ⟨p, hp, rfl⟩ := List.mem_map.mp hfield
      exact ihp p hp fun name hname => hnames name (Node.mem_mentions_property hp hname)
  | array items ih =>
    rw [ofNode]
    exact .array (ih hnames)
  | union members ih =>
    rw [ofNode, ofMembers_eq_map]
    refine legible_choice fun validator hvalidator => ?_
    obtain ⟨member, hmember, rfl⟩ := List.mem_map.mp hvalidator
    exact ih member hmember fun name hname =>
      hnames name (Node.mem_mentions_member hmember hname)
  | prim kind =>
    rw [ofNode]
    exact .prim kind

end Validator

namespace Node

variable {style : RefStyle}

/-- Nodes whose references are identifiers have the same validator exactly if they have the same
canonical node. -/
theorem validator_eq_iff (hstyle : style.IsIdentifier) {node other : Node}
    (hnode : ∀ name ∈ node.mentions, Name.isIdentifier name = true)
    (hother : ∀ name ∈ other.mentions, Name.isIdentifier name = true) :
    node.validator style = other.validator style ↔ node.canonical = other.canonical := by
  rw [← Validator.text_ofNode, ← Validator.text_ofNode, ← ofNode_eq_iff]
  constructor
  · exact (Validator.legible_ofNode node hnode).eq_of_text hstyle
      (Validator.legible_ofNode other hother)
  · intro h
    rw [h]

/-- An object whose key looks like the text of fields, where the module of the entities is called as
the library is and the entity as the mark. A key that is required and no property, the values of
further keys and a union of one member are not seen in the validator, and not in the canonical node
either. -/
theorem validator_eq_iff_mark :
    (Node.object [("a\": z.string(),\n", .union [.ref "optional"])] ["name"]
          (some (.prim .string))).validator (.qualified "z")
        = (Node.object [("a\": z.string(),\n", .ref "optional")] [] none).validator
          (.qualified "z") ∧
      (Node.object [("a\": z.string(),\n", .union [.ref "optional"])] ["name"]
          (some (.prim .string))).canonical
        = (Node.object [("a\": z.string(),\n", .ref "optional")] [] none).canonical := by
  have hstyle : (RefStyle.qualified "z").IsIdentifier := by
    show Name.isIdentifier "z" = true
    decide
  have htext : (Node.object [("a\": z.string(),\n", .union [.ref "optional"])] ["name"]
        (some (.prim .string))).validator (.qualified "z")
      = (Node.object [("a\": z.string(),\n", .ref "optional")] [] none).validator
        (.qualified "z") := by
    decide +kernel
  exact ⟨htext, (validator_eq_iff hstyle (by decide) (by decide)).mp htext⟩

end Node

end TypedClients
