import TypedClients.Proofs.Script.TypeTerm

/-!
# Types as lists of operands

A type is written as operands with bars between them. An operand comes with the tokens that it is
written as and the type that they are read as; the ways in which operands are made keep the two in
step (`Readable`), whatever operands they are made from. So a type is read back from the tokens of
its operands (`settles_readType`).

## How it is proved

`Operand` is a pair of tokens and of what they are to be read as. For each way to make an operand it
is shown that reading it settles on that, for any tokens behind it that end an operand. The readers
count down a fuel, so statements say `Settles`, and facts are put together by `Settles.bind` without
counting.
-/

namespace TypedClients.Script

open TypeTerm

section

variable {α β : Type} {a : α} {b : β}

theorem settles_of_eq {f : Nat → Option α} (h : ∀ fuel, f fuel = some a) : Settles f a :=
  ⟨0, fun fuel _ => h fuel⟩

theorem settles_some : Settles (fun _ => some a) a :=
  settles_of_eq fun _ => rfl

theorem Settles.succ {f : Nat → Option α} (h : Settles (fun fuel => f (fuel + 1)) a) :
    Settles f a := by
  obtain ⟨bound, h⟩ := h
  refine ⟨bound + 1, fun fuel hfuel => ?_⟩
  obtain ⟨fuel, rfl⟩ : ∃ less, fuel = less + 1 := ⟨fuel - 1, by omega⟩
  exact h fuel (by omega)

theorem Settles.bind {f : Nat → Option α} {g : α → Nat → Option β} (hf : Settles f a)
    (hg : Settles (g a) b) : Settles (fun fuel => f fuel >>= fun x => g x fuel) b := by
  obtain ⟨bound, hf⟩ := hf
  obtain ⟨bound', hg⟩ := hg
  refine ⟨max bound bound', fun fuel hfuel => ?_⟩
  show (f fuel >>= fun x => g x fuel) = some b
  rw [hf fuel (by omega)]
  exact hg fuel (by omega)

end

/-- An operand: its tokens, and the type that they are read as. -/
structure Operand where
  tokens : List Token
  type : TypeTerm

namespace Operand

/-- The operands behind the first one, each behind its bar. -/
def bars (operands : List Operand) : List Token :=
  operands.flatMap fun operand => .sign '|' :: operand.tokens

theorem bars_cons (operand : Operand) (operands : List Operand) :
    bars (operand :: operands) = .sign '|' :: (operand.tokens ++ bars operands) :=
  List.flatMap_cons

/-- The tokens of a type. -/
def join : List Operand → List Token
  | [] => []
  | first :: others => first.tokens ++ bars others

/-- The type of operands with bars between them. -/
def typeOf (operands : List Operand) : TypeTerm :=
  ofAlternatives (operands.map type)

/-- What follows does not go on with a name. -/
def EndsOperand (rest : List Token) : Prop :=
  ∀ t ∈ rest.head?, t ≠ .sign '.' ∧ t ≠ .sign '<'

/-- What follows does not go on with a type. -/
def EndsType (rest : List Token) : Prop :=
  ∀ t ∈ rest.head?, t ≠ .sign '.' ∧ t ≠ .sign '<' ∧ t ≠ .sign '[' ∧ t ≠ .sign '|'

/-- The tokens are read as the type, with the brackets that follow. -/
def Readable (operand : Operand) : Prop :=
  ∀ rest, EndsOperand rest →
    Settles (fun fuel => readPostfix fuel (operand.tokens ++ rest)) (readBrackets operand.type rest)

theorem endsType_sign {c : Char} (hc : c ≠ '.' ∧ c ≠ '<' ∧ c ≠ '[' ∧ c ≠ '|') (rest : List Token) :
    EndsType (.sign c :: rest) := by
  intro t ht
  obtain rfl : .sign c = t := by simpa using ht
  simpa using hc

theorem readBrackets_of_endsType {rest : List Token} (h : EndsType rest) (type : TypeTerm) :
    readBrackets type rest = (type, rest) := by
  unfold readBrackets
  split
  · exact absurd rfl (h _ rfl).2.2.1
  · rfl

theorem readOthers_of_endsType {rest : List Token} (h : EndsType rest) (fuel : Nat) :
    readOthers (fuel + 1) rest = some ([], rest) := by
  rw [readOthers.eq_def]
  split
  · next hfuel => cases hfuel
  · next hrest => exact absurd rfl (h _ rfl).2.2.2
  · rfl

theorem settles_readPostfix {ts rest : List Token} {type : TypeTerm}
    (h : Settles (fun fuel => readOperand fuel ts) (type, rest)) :
    Settles (fun fuel => readPostfix fuel ts) (readBrackets type rest) := by
  refine Settles.succ ?_
  show Settles (fun fuel => readOperand fuel ts >>= fun p => some (readBrackets p.1 p.2)) _
  exact h.bind settles_some

/-- The bars behind an operand, and the end of a type behind them. -/
theorem readBrackets_bars (type : TypeTerm) (operands : List Operand) {rest : List Token}
    (hrest : EndsType rest) :
    EndsOperand (bars operands ++ rest) ∧
      readBrackets type (bars operands ++ rest) = (type, bars operands ++ rest) := by
  cases operands with
  | nil =>
    exact ⟨fun t ht => ⟨(hrest t ht).1, (hrest t ht).2.1⟩, readBrackets_of_endsType hrest type⟩
  | cons operand operands =>
    refine ⟨fun t ht => ?_, rfl⟩
    obtain rfl : .sign '|' = t := by simpa [bars] using ht
    exact ⟨by decide, by decide⟩

theorem settles_readOthers {operands : List Operand} (h : ∀ operand ∈ operands, operand.Readable)
    {rest : List Token} (hrest : EndsType rest) :
    Settles (fun fuel => readOthers fuel (bars operands ++ rest)) (operands.map type, rest) := by
  induction operands with
  | nil => exact Settles.succ (settles_of_eq (readOthers_of_endsType hrest))
  | cons operand operands ih =>
    rw [List.forall_mem_cons] at h
    obtain ⟨hend, hbrackets⟩ := readBrackets_bars operand.type operands hrest
    have hnext := h.1 _ hend
    rw [hbrackets] at hnext
    refine Settles.succ ?_
    rw [bars_cons, List.cons_append, List.append_assoc]
    show Settles (fun fuel => readPostfix fuel (operand.tokens ++ (bars operands ++ rest)) >>=
      fun p => readOthers fuel p.2 >>= fun q => some (p.1 :: q.1, q.2)) _
    exact hnext.bind ((ih h.2).bind settles_some)

/-- A type is read from the tokens of its operands. -/
theorem settles_readType {operands : List Operand} (hne : operands ≠ [])
    (h : ∀ operand ∈ operands, operand.Readable) {rest : List Token} (hrest : EndsType rest) :
    Settles (fun fuel => readType fuel (join operands ++ rest)) (typeOf operands, rest) := by
  cases operands with
  | nil => exact absurd rfl hne
  | cons operand operands =>
    rw [List.forall_mem_cons] at h
    obtain ⟨hend, hbrackets⟩ := readBrackets_bars operand.type operands hrest
    have hfirst := h.1 _ hend
    rw [hbrackets] at hfirst
    refine Settles.succ ?_
    rw [join, List.append_assoc]
    show Settles (fun fuel => readPostfix fuel (operand.tokens ++ (bars operands ++ rest)) >>=
      fun p => readOthers fuel p.2 >>= fun q => some (ofAlternatives (p.1 :: q.1), q.2)) _
    exact hfirst.bind ((settles_readOthers h.2 hrest).bind settles_some)

/-! ### Ways to make an operand -/

/-- The tokens of a path. -/
def pathTokens : List String → List Token
  | [] => []
  | first :: steps => .word first :: steps.flatMap fun step => [.sign '.', .word step]

/-- A name. -/
def ofPath (path : List String) : Operand := ⟨pathTokens path, .named path []⟩

/-- A primitive. -/
def ofPrim (kind : Primitive) : Operand := ⟨[.word kind.word], .prim kind⟩

/-- A record of string keys. -/
def record (values : List Operand) : Operand :=
  ⟨.word "Record" :: .sign '<' :: .word "string" :: .sign ',' :: (join values ++ [.sign '>']),
    .named ["Record"] [.prim .string, typeOf values]⟩

/-- The tokens of a field. -/
def fieldTokens (field : String × Bool × List Operand) : List Token :=
  .text field.1 :: ((if field.2.1 then [.sign '?'] else []) ++ .sign ':' :: join field.2.2)

/-- An object with fields. -/
def object (fields : List (String × Bool × List Operand)) : Operand :=
  ⟨.sign '\x7b' :: ([.sign ';'].intercalate (fields.map fieldTokens) ++ [.sign '\x7d']),
    .object (fields.map fun field => (field.1, field.2.1, typeOf field.2.2))⟩

/-- An array of what is written in parentheses. -/
def group (items : List Operand) : Operand :=
  ⟨.sign '(' :: (join items ++ [.sign ')', .sign '[', .sign ']']), .array (typeOf items)⟩

/-- An array of the operand. -/
def bracket (operand : Operand) : Operand :=
  ⟨operand.tokens ++ [.sign '[', .sign ']'], .array operand.type⟩

/-- Brackets behind a type, which only its last operand takes. -/
def bracketLast : List Operand → List Operand
  | [] => []
  | [last] => [last.bracket]
  | operand :: operands => operand :: bracketLast operands

theorem bars_append (operands others : List Operand) :
    bars (operands ++ others) = bars operands ++ bars others :=
  List.flatMap_append

theorem join_singleton (operand : Operand) : join [operand] = operand.tokens :=
  List.append_nil _

/-- Two types with a bar between them. -/
theorem join_append {operands others : List Operand} (h : operands ≠ []) (h' : others ≠ []) :
    join (operands ++ others) = join operands ++ .sign '|' :: join others := by
  match operands, others, h, h' with
  | first :: operands, second :: others, _, _ =>
    rw [List.cons_append, join, join, join, bars_append, bars_cons, List.append_assoc]

theorem bracketLast_append (operands : List Operand) (last : Operand) :
    bracketLast (operands ++ [last]) = operands ++ [last.bracket] := by
  induction operands with
  | nil => rfl
  | cons first operands ih =>
    cases operands with
    | nil => rfl
    | cons second operands => exact congrArg (first :: ·) ih

/-- The last operand is the one that takes the brackets. -/
theorem exists_bracketLast {operands : List Operand} (h : operands ≠ []) :
    ∃ others last, operands = others ++ [last] ∧
      bracketLast operands = others ++ [last.bracket] := by
  refine ⟨operands.dropLast, operands.getLast h, (List.dropLast_concat_getLast h).symm, ?_⟩
  rw [← bracketLast_append, List.dropLast_concat_getLast h]

theorem join_bracketLast {operands : List Operand} (h : operands ≠ []) :
    join (bracketLast operands) = join operands ++ [.sign '[', .sign ']'] := by
  obtain ⟨others, last, hoperands, hbracket⟩ := exists_bracketLast h
  rw [hbracket, hoperands]
  cases others with
  | nil => rw [List.nil_append, List.nil_append, join_singleton, join_singleton, bracket]
  | cons first others =>
    rw [join_append (List.cons_ne_nil _ _) (List.cons_ne_nil _ _),
      join_append (List.cons_ne_nil _ _) (List.cons_ne_nil _ _), join_singleton, join_singleton,
      bracket, List.append_assoc, List.cons_append]

/-! ### What is made is readable -/

theorem readPath_steps (steps : List String) {rest : List Token} (h : EndsOperand rest) :
    readPath (steps.flatMap (fun step => [.sign '.', .word step]) ++ rest) = (steps, rest) := by
  induction steps with
  | nil =>
    rw [List.flatMap_nil, List.nil_append]
    unfold readPath
    split
    · exact absurd rfl (h _ rfl).1
    · rfl
  | cons step steps ih =>
    rw [List.flatMap_cons, List.append_assoc, List.cons_append, List.cons_append,
      List.nil_append, readPath, ih]

theorem readArguments_of_endsOperand {rest : List Token} (h : EndsOperand rest) (fuel : Nat) :
    readArguments (fuel + 1) rest = some ([], rest) := by
  rw [readArguments.eq_def]
  split
  · next hfuel => cases hfuel
  · next hrest => exact absurd rfl (h _ rfl).2
  · rfl

/-- A name that is no primitive, with its path and its arguments. -/
theorem settles_named {first : String} {steps : List String} {ts rest : List Token}
    {arguments : List TypeTerm} (hfirst : Primitive.ofWord? first = none)
    (hpath : readPath ts = (steps, rest)) {after : List Token}
    (harguments : Settles (fun fuel => readArguments fuel rest) (arguments, after)) :
    Settles (fun fuel => readPostfix fuel (.word first :: ts))
      (readBrackets (.named (first :: steps) arguments) after) := by
  refine settles_readPostfix (Settles.succ ?_)
  have hstep : (fun fuel => readOperand (fuel + 1) (.word first :: ts)) = fun fuel =>
      readArguments fuel rest >>= fun p => some (.named (first :: steps) p.1, p.2) := by
    funext fuel
    rw [readOperand.eq_def]
    simp only [hfirst, hpath]
  rw [hstep]
  exact harguments.bind settles_some

theorem readable_ofPath {first : String} (steps : List String)
    (h : Primitive.ofWord? first = none) : (ofPath (first :: steps)).Readable := fun _ hrest =>
  settles_named h (readPath_steps steps hrest)
    (Settles.succ (settles_of_eq (readArguments_of_endsOperand hrest)))

theorem readable_ofPrim (kind : Primitive) : (ofPrim kind).Readable := by
  intro rest _
  refine settles_readPostfix (Settles.succ (settles_of_eq fun fuel => ?_))
  rw [ofPrim, List.singleton_append, readOperand.eq_def]
  simp only [Primitive.ofWord?_word]

theorem Readable.bracket {operand : Operand} (h : operand.Readable) : operand.bracket.Readable := by
  intro rest _
  rw [Operand.bracket, List.append_assoc]
  have hend : EndsOperand (.sign '[' :: .sign ']' :: rest) := by
    intro t ht
    obtain rfl : .sign '[' = t := by simpa using ht
    exact ⟨by decide, by decide⟩
  exact h _ hend

theorem readable_bracketLast {operands : List Operand}
    (h : ∀ operand ∈ operands, operand.Readable) :
    ∀ operand ∈ bracketLast operands, operand.Readable := by
  induction operands with
  | nil => exact h
  | cons first others ih =>
    rw [List.forall_mem_cons] at h
    cases others with
    | nil => exact List.forall_mem_singleton.mpr h.1.bracket
    | cons second others => exact List.forall_mem_cons.mpr ⟨h.1, ih h.2⟩

theorem readable_group {items : List Operand} (hne : items ≠ [])
    (h : ∀ operand ∈ items, operand.Readable) : (group items).Readable := by
  intro rest _
  have hitems := settles_readType hne h
    (endsType_sign (c := ')') (by decide) (.sign '[' :: .sign ']' :: rest))
  have hgroup : Settles (fun fuel => readOperand fuel ((group items).tokens ++ rest))
      (typeOf items, .sign '[' :: .sign ']' :: rest) := by
    refine Settles.succ ?_
    rw [group, List.cons_append, List.append_assoc]
    show Settles (fun fuel =>
      readType fuel (join items ++ .sign ')' :: .sign '[' :: .sign ']' :: rest) >>=
        fun p => expect ')' p.2 >>= fun r => some (p.1, r)) _
    exact hitems.bind settles_some
  show Settles _ (readBrackets (typeOf items) (.sign '[' :: .sign ']' :: rest))
  exact settles_readPostfix hgroup

theorem readable_record {values : List Operand} (hne : values ≠ [])
    (h : ∀ operand ∈ values, operand.Readable) : (record values).Readable := by
  intro rest _
  have hstring := settles_readType (List.cons_ne_nil _ _)
    (List.forall_mem_singleton.mpr (readable_ofPrim .string))
    (endsType_sign (c := ',') (by decide) (join values ++ .sign '>' :: rest))
  have hvalues := settles_readType hne h (endsType_sign (c := '>') (by decide) rest)
  have hlast : Settles (fun fuel => readArgumentList fuel (join values ++ .sign '>' :: rest))
      ([typeOf values], rest) := by
    refine Settles.succ ?_
    show Settles (fun fuel => readType fuel (join values ++ .sign '>' :: rest) >>= fun p => _) _
    exact hvalues.bind settles_some
  have harguments : Settles (fun fuel => readArguments fuel
      (.sign '<' :: .word "string" :: .sign ',' :: (join values ++ .sign '>' :: rest)))
      ([.prim .string, typeOf values], rest) := by
    refine Settles.succ (Settles.succ ?_)
    show Settles (fun fuel => readType fuel
      (.word "string" :: .sign ',' :: (join values ++ .sign '>' :: rest)) >>= fun p => _) _
    exact hstring.bind (hlast.bind settles_some)
  rw [record, List.cons_append, List.cons_append, List.cons_append, List.cons_append,
    List.append_assoc]
  exact settles_named (by decide) rfl harguments

/-- A field, with the fields behind it. -/
theorem settles_readFields {field : String × Bool × List Operand} (hne : field.2.2 ≠ [])
    (h : ∀ operand ∈ field.2.2, operand.Readable) {ts rest : List Token} (hts : EndsType ts)
    {fields : List (String × Bool × TypeTerm)}
    (more : Settles (fun fuel => readMoreFields fuel ts) (fields, rest)) :
    Settles (fun fuel => readFields fuel (fieldTokens field ++ ts))
      ((field.1, field.2.1, typeOf field.2.2) :: fields, rest) := by
  obtain ⟨key, optional, operands⟩ := field
  have htype := settles_readType hne h hts
  refine Settles.succ ?_
  have hstep : (fun fuel => readFields (fuel + 1) (fieldTokens (key, optional, operands) ++ ts)) =
      fun fuel => readType fuel (join operands ++ ts) >>= fun p => readMoreFields fuel p.2 >>=
        fun q => some ((key, optional, p.1) :: q.1, q.2) := by
    funext fuel
    rw [fieldTokens, List.cons_append, List.append_assoc, readFields.eq_def]
    cases optional <;> rfl
  rw [hstep]
  exact htype.bind (more.bind settles_some)

theorem readable_object {fields : List (String × Bool × List Operand)} (hne : fields ≠ [])
    (h : ∀ field ∈ fields, field.2.2 ≠ [] ∧ ∀ operand ∈ field.2.2, operand.Readable) :
    (object fields).Readable := by
  intro rest _
  have hfields : Settles (fun fuel => readFields fuel
      ([.sign ';'].intercalate (fields.map fieldTokens) ++ .sign '\x7d' :: rest))
      (fields.map (fun field => (field.1, field.2.1, typeOf field.2.2)), rest) := by
    induction fields with
    | nil => exact absurd rfl hne
    | cons field fields ih =>
      rw [List.forall_mem_cons] at h
      cases fields with
      | nil =>
        have hclose : Settles (fun fuel => readMoreFields fuel (.sign '\x7d' :: rest)) ([], rest) :=
          Settles.succ (settles_of_eq fun _ => rfl)
        rw [List.map_singleton, List.map_singleton, List.intercalate_singleton]
        exact settles_readFields h.1.1 h.1.2 (endsType_sign (by decide) rest) hclose
      | cons second fields =>
        have hmore := ih (List.cons_ne_nil _ _) h.2
        rw [List.map_cons, List.map_cons, List.intercalate_cons_cons, List.append_assoc,
          List.append_assoc]
        exact settles_readFields h.1.1 h.1.2 (endsType_sign (by decide) _) (Settles.succ hmore)
  refine settles_readPostfix (Settles.succ ?_)
  rw [object, List.cons_append, List.append_assoc]
  show Settles (fun fuel => readFields fuel
    ([.sign ';'].intercalate (fields.map fieldTokens) ++ .sign '\x7d' :: rest) >>= fun p => _) _
  exact hfields.bind settles_some

end Operand

end TypedClients.Script
