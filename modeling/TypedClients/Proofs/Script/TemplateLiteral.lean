import Mathlib.Data.List.Basic
import Mathlib.Data.List.Infix
import TypedClients.Json.Reader
import TypedClients.Script.Literal

/-!
# Template literals

The text of a template literal stands for itself, but for escapes, line ends and holes, and it ends
at a backtick. `evaluate` reads a literal from behind its opening backtick and puts the values of
the expressions into the holes; texts are what a script takes them for, units of UTF-16. An
expression is read up to the brace that closes its hole. String literals, template literals and
braces in it are passed over; comments and regular expressions are not looked for.

A literal that is written from texts and expressions has the value that the texts suggest, whatever
the expressions are, exactly if the texts are plain (`evaluate_iff_plain`): they hold no backtick,
no backslash, no carriage return and no beginning of a hole.

## How it is proved

From plain texts to the value is by induction over the literal. The other way round is by measure:
if all holes are filled with values as wide as the holes, no element of a literal is wider than it
is written, and an escape is less wide. So a literal that has the value that its texts suggest
cannot have lost anything, and each of its characters stands for itself.

## What is not here

Tagged templates, in which more escapes are allowed. The expressions are code of the generated
modules, in which no regular expression and no comment occurs.
-/

namespace TypedClients.Script

/-! ### Units -/

/-- The units of a code point. -/
def unitsOf (n : Nat) : List Nat :=
  if n < 0x10000 then [n]
  else [0xD800 + (n - 0x10000) / 0x400, 0xDC00 + (n - 0x10000) % 0x400]

/-- The units of a text. -/
def utf16 (s : List Char) : List Nat :=
  s.flatMap fun c => unitsOf c.toNat

/-- How many units a text takes. -/
def width (s : List Char) : Nat :=
  (utf16 s).length

variable {c : Char} {s t rest text expression : List Char} {v : List Nat}

theorem utf16_cons : utf16 (c :: s) = unitsOf c.toNat ++ utf16 s :=
  List.flatMap_cons

theorem utf16_append : utf16 (s ++ t) = utf16 s ++ utf16 t :=
  List.flatMap_append

theorem width_cons : width (c :: s) = (unitsOf c.toNat).length + width s := by
  rw [width, utf16_cons, List.length_append, ← width]

theorem width_append : width (s ++ t) = width s + width t := by
  rw [width, utf16_append, List.length_append, ← width, ← width]

theorem length_unitsOf (n : Nat) : 1 ≤ (unitsOf n).length ∧ (unitsOf n).length ≤ 2 := by
  rw [unitsOf]
  split <;> simp

theorem length_le_width (s : List Char) : s.length ≤ width s := by
  induction s with
  | nil => exact Nat.le_refl _
  | cons c s ih =>
    have hc := (length_unitsOf c.toNat).1
    rw [width_cons, List.length_cons]
    omega

/-! ### Escapes -/

/-- The characters at which a line ends. -/
def endsLine (c : Char) : Bool :=
  c == '\n' || c == '\r' || c == '\u2028' || c == '\u2029'

/-- What a letter stands for behind a backslash. -/
def letterEscape? : Char → Option Nat
  | 'b' => some 8
  | 't' => some 9
  | 'n' => some 10
  | 'v' => some 11
  | 'f' => some 12
  | 'r' => some 13
  | _ => none

/-- Reads the digits of a code point up to the closing brace. `n` is the value of those before, if
there are any. -/
def readCodePoint : (n : Option Nat) → List Char → Option (List Nat × List Char)
  | _, [] => none
  | n, c :: r =>
    match Text.hexValue? c, n with
    | some digit, n => readCodePoint (some (16 * n.getD 0 + digit)) r
    | none, some n => if c = '\x7d' ∧ n ≤ 0x10FFFF then some (unitsOf n, r) else none
    | none, none => none

/-- Reads an escape from behind its backslash: what it stands for, and what follows it. A line end
stands for nothing. -/
def readEscape : List Char → Option (List Nat × List Char)
  | [] => none
  | '\r' :: '\n' :: r => some ([], r)
  | 'u' :: '\x7b' :: r => readCodePoint none r
  | 'u' :: r =>
    match r with
    | a :: b :: c :: d :: r => (Json.hexUnit? a b c d).map fun n => ([n], r)
    | _ => none
  | 'x' :: r =>
    match r with
    | a :: b :: r => (Json.hexUnit? '0' '0' a b).map fun n => ([n], r)
    | _ => none
  | c :: r =>
    if endsLine c then some ([], r)
    else if c = '0' then if r.head?.any Char.isDigit then none else some ([0], r)
    else if c.isDigit then none
    else some (((letterEscape? c).map fun n => [n]).getD (unitsOf c.toNat), r)

theorem readCodePoint_eq_some {n : Option Nat} (h : readCodePoint n s = some (v, rest)) :
    ∃ taken, s = taken ++ rest ∧ v.length ≤ 2 := by
  induction s generalizing n with
  | nil => cases h
  | cons c s ih =>
    unfold readCodePoint at h
    split at h
    · obtain ⟨taken, rfl, hlength⟩ := ih h
      exact ⟨c :: taken, rfl, hlength⟩
    · split at h
      · cases h
        exact ⟨[c], rfl, (length_unitsOf _).2⟩
      · cases h
    · cases h

theorem length_letterEscape (c : Char) :
    (((letterEscape? c).map fun n => [n]).getD (unitsOf c.toNat)).length
      ≤ (unitsOf c.toNat).length := by
  cases letterEscape? c with
  | none => exact Nat.le_refl _
  | some n => exact (length_unitsOf _).1

/-- An escape stands for no more units than are written behind its backslash. -/
theorem readEscape_eq_some (h : readEscape s = some (v, rest)) :
    ∃ taken, s = taken ++ rest ∧ v.length ≤ width taken := by
  unfold readEscape at h
  split at h
  · cases h
  · cases h
    exact ⟨['\r', '\n'], rfl, Nat.zero_le _⟩
  · obtain ⟨taken, rfl, hlength⟩ := readCodePoint_eq_some h
    have hwidth := length_le_width ('u' :: '\x7b' :: taken)
    simp only [List.length_cons] at hwidth
    exact ⟨'u' :: '\x7b' :: taken, rfl, by omega⟩
  · split at h
    · next a b c d r _ =>
      obtain ⟨n, -, h⟩ := Option.map_eq_some_iff.mp h
      cases h
      have hwidth := length_le_width ['u', a, b, c, d]
      exact ⟨['u', a, b, c, d], rfl, Nat.le_trans (by simp) hwidth⟩
    · cases h
  · split at h
    · next a b r =>
      obtain ⟨n, -, h⟩ := Option.map_eq_some_iff.mp h
      cases h
      have hwidth := length_le_width ['x', a, b]
      exact ⟨['x', a, b], rfl, Nat.le_trans (by simp) hwidth⟩
    · cases h
  · next c r _ _ _ _ =>
    have hc := (length_unitsOf c.toNat).1
    have hwidth : width [c] = (unitsOf c.toNat).length := width_cons
    refine ⟨[c], ?_⟩
    rw [hwidth]
    split at h
    · cases h
      exact ⟨rfl, Nat.zero_le _⟩
    split at h
    · split at h
      · cases h
      · cases h
        exact ⟨rfl, hc⟩
    split at h
    · cases h
    · cases h
      exact ⟨rfl, length_letterEscape c⟩

/-! ### Expressions -/

/-- What the reader of an expression is in. -/
inductive Mode where
  | code
  /-- A string literal with the given quote. -/
  | quoted (quote : Char)
  | template
  /-- A template literal, behind a dollar sign. -/
  | dollar
  /-- A literal, behind a backslash. -/
  | escaped

/-- The modes behind a character of a template literal. -/
def nextInTemplate (c : Char) (outer : List Mode) : List Mode :=
  if c = '\\' then .escaped :: .template :: outer
  else if c = '`' then outer
  else if c = '$' then .dollar :: outer
  else .template :: outer

/-- The modes behind a character, the innermost first. -/
def next (c : Char) : List Mode → List Mode
  | [] => []
  | .code :: outer =>
    if c = '\x7d' then outer
    else if c = '\x7b' then .code :: .code :: outer
    else if c = '"' ∨ c = '\'' then .quoted c :: .code :: outer
    else if c = '`' then .template :: .code :: outer
    else .code :: outer
  | .quoted quote :: outer =>
    if c = '\\' then .escaped :: .quoted quote :: outer
    else if c = quote then outer
    else .quoted quote :: outer
  | .template :: outer => nextInTemplate c outer
  | .dollar :: outer => if c = '\x7b' then .code :: .template :: outer else nextInTemplate c outer
  | .escaped :: outer => outer

/-- Reads an expression up to the character that leads out of all modes: what is read, and what
follows that character. -/
def readExpression : List Mode → List Char → Option (List Char × List Char)
  | _, [] => none
  | modes, c :: r =>
    match next c modes with
    | [] => some ([], r)
    | mode :: outer =>
      (readExpression (mode :: outer) r).map fun (expression, rest) => (c :: expression, rest)

theorem readExpression_eq_some {modes : List Mode}
    (h : readExpression modes s = some (expression, rest)) :
    ∃ closing, s = expression ++ closing :: rest := by
  induction s generalizing modes expression with
  | nil => cases h
  | cons c s ih =>
    unfold readExpression at h
    split at h
    · cases h
      exact ⟨c, rfl⟩
    · obtain ⟨⟨more, after⟩, hmore, h⟩ := Option.map_eq_some_iff.mp h
      cases h
      obtain ⟨closing, rfl⟩ := ih hmore
      exact ⟨closing, rfl⟩

/-- Behind the text the reader is in the modes `inner`, and it is still in some mode on the way. -/
def Leads (outer : List Mode) (text : List Char) (inner : List Mode) : Prop :=
  ∀ s, readExpression outer (text ++ s)
    = (readExpression inner s).map fun (expression, rest) => (text ++ expression, rest)

theorem Leads.append {outer middle inner : List Mode} (ht : Leads outer t middle)
    (hs : Leads middle s inner) : Leads outer (t ++ s) inner := by
  intro rest
  rw [List.append_assoc, ht, hs, Option.map_map]
  simp only [Function.comp_def, List.append_assoc]

theorem leads_nil (modes : List Mode) : Leads modes [] modes := by
  intro s
  simp

theorem leads_singleton {modes inner : List Mode} {mode : Mode}
    (h : next c modes = mode :: inner) : Leads modes [c] (mode :: inner) := by
  intro s
  rw [List.singleton_append, readExpression, h]
  rfl

/-- Characters that the mode stays in are passed over. -/
theorem leads_of_stays {modes : List Mode} {mode : Mode}
    (h : ∀ c ∈ text, next c (mode :: modes) = mode :: modes) :
    Leads (mode :: modes) text (mode :: modes) := by
  induction text with
  | nil => exact leads_nil _
  | cons c text ih =>
    rw [List.forall_mem_cons] at h
    exact (leads_singleton h.1).append (ih h.2)

theorem next_quoted {outer : List Mode} (hback : c ≠ '\\') (hquote : c ≠ '"') :
    next c (.quoted '"' :: outer) = .quoted '"' :: outer := by
  rw [next, if_neg hback, if_neg hquote]

theorem hexDigit_ne {n : Nat} (h : n < 16) : hexDigit n ≠ '\\' ∧ hexDigit n ≠ '"' := by
  have hall : ∀ n < 16, hexDigit n ≠ '\\' ∧ hexDigit n ≠ '"' := by decide
  exact hall n h

/-- A character of a literal is written as it is, or behind a backslash. -/
theorem escapeChar_cases (c : Char) :
    (c ≠ '\\' ∧ c ≠ '"' ∧ escapeChar c = [c]) ∨
      ∃ d digits, escapeChar c = '\\' :: d :: digits ∧ ∀ e ∈ digits, e ≠ '\\' ∧ e ≠ '"' := by
  unfold escapeChar
  split
  · exact .inr ⟨_, [], rfl, by simp⟩
  split
  · exact .inr ⟨_, [], rfl, by simp⟩
  split
  · exact .inr ⟨_, [], rfl, by simp⟩
  split
  · exact .inr ⟨_, [], rfl, by simp⟩
  split
  · exact .inr ⟨_, [], rfl, by simp⟩
  split
  · exact .inr ⟨_, [], rfl, by simp⟩
  split
  · exact .inr ⟨_, [], rfl, by simp⟩
  next hquote hback _ _ _ _ _ =>
  split
  · next h =>
    refine .inr ⟨'u', _, rfl, ?_⟩
    simp only [List.forall_mem_cons]
    exact ⟨by decide, by decide, hexDigit_ne (by omega), hexDigit_ne (by omega), by simp⟩
  · exact .inl ⟨hback, hquote, rfl⟩

/-- A string literal in code is passed over. -/
theorem leads_quote (key : String) (outer : List Mode) :
    Leads (.code :: outer) (quote key).toList (.code :: outer) := by
  have hinside : ∀ text : List Char, Leads (.quoted '"' :: .code :: outer)
      (text.flatMap escapeChar) (.quoted '"' :: .code :: outer) := by
    intro text
    induction text with
    | nil => exact leads_nil _
    | cons c text ih =>
      rw [List.flatMap_cons]
      refine Leads.append ?_ ih
      rcases escapeChar_cases c with ⟨hback, hquote, hc⟩ | ⟨d, digits, hc, hdigits⟩
      · rw [hc]
        exact leads_singleton (next_quoted hback hquote)
      · have hescaped : Leads (.quoted '"' :: .code :: outer) ['\\']
            (.escaped :: .quoted '"' :: .code :: outer) := leads_singleton rfl
        have hd : Leads (.escaped :: .quoted '"' :: .code :: outer) [d]
            (.quoted '"' :: .code :: outer) := leads_singleton rfl
        rw [hc]
        refine hescaped.append (hd.append ?_)
        exact leads_of_stays fun e he => next_quoted (hdigits e he).1 (hdigits e he).2
  have hopening : Leads (.code :: outer) ['"'] (.quoted '"' :: .code :: outer) :=
    leads_singleton rfl
  have hclosing : Leads (.quoted '"' :: .code :: outer) ['"'] (.code :: outer) :=
    leads_singleton rfl
  rw [quote, Text.toList_lift]
  exact hopening.append ((hinside key.toList).append hclosing)

/-- The expression ends where the hole in which it is written does. -/
def Readable (expression : List Char) : Prop :=
  ∀ rest, readExpression [.code] (expression ++ '\x7d' :: rest) = some (expression, rest)

theorem Leads.readable (h : Leads [.code] expression [.code]) : Readable expression := by
  intro rest
  rw [h]
  exact congrArg (fun text => some (text, rest)) (List.append_nil expression)

/-- Whether the character leads neither out of code nor into a literal. -/
def isPlainCode (c : Char) : Bool :=
  c != '\x7d' && c != '\x7b' && c != '"' && c != '\'' && c != '`'

theorem leads_plainCode {outer : List Mode} (h : text.all isPlainCode = true) :
    Leads (.code :: outer) text (.code :: outer) := by
  refine leads_of_stays fun c hc => ?_
  have hc := List.all_eq_true.mp h c hc
  simp only [isPlainCode, Bool.and_eq_true, bne_iff_ne, ne_eq] at hc
  obtain ⟨⟨⟨⟨hclose, hopen⟩, hdouble⟩, hsingle⟩, htick⟩ := hc
  rw [next, if_neg hclose, if_neg hopen, if_neg (by simp [hdouble, hsingle]), if_neg htick]

/-! ### Literals -/

/-- The values of expressions, as units. -/
abbrev Values :=
  List Char → List Nat

variable {values : Values}

/-- Reads one element of a literal, an escape, a hole, a line end or a character, from its first
character on: what it stands for, and what follows it. Carriage returns stand for line feeds. -/
def readElement (values : Values) (c : Char) (r : List Char) : Option (List Nat × List Char) :=
  if c = '\\' then readEscape r
  else if c = '$' ∧ r.head? = some '\x7b' then
    (readExpression [.code] r.tail).map fun (expression, rest) => (values expression, rest)
  else if c = '\r' then some ([10], if r.head? = some '\n' then r.tail else r)
  else some (unitsOf c.toNat, r)

theorem suffix_of_readElement (h : readElement values c s = some (v, rest)) : rest <:+ s := by
  unfold readElement at h
  split at h
  · obtain ⟨taken, rfl, -⟩ := readEscape_eq_some h
    exact List.suffix_append taken rest
  split at h
  · next hopen =>
    obtain ⟨r, rfl⟩ := List.head?_eq_some_iff.mp hopen.2
    obtain ⟨⟨expression, after⟩, hexpression, h⟩ := Option.map_eq_some_iff.mp h
    cases h
    obtain ⟨closing, hr⟩ := readExpression_eq_some hexpression
    rw [List.tail_cons] at hr
    exact ⟨'\x7b' :: (expression ++ [closing]), by simp [hr]⟩
  split at h
  · cases h
    split
    · exact List.tail_suffix s
    · exact List.suffix_refl s
  · cases h
    exact List.suffix_refl s

/-- Evaluates a literal from behind its opening backtick: its value, and what follows its closing
backtick. -/
def evaluate (values : Values) : List Char → Option (List Nat × List Char)
  | [] => none
  | c :: r =>
    if c = '`' then some ([], r)
    else
      match _h : readElement values c r with
      | none => none
      | some (value, rest) => (evaluate values rest).map fun (more, after) => (value ++ more, after)
termination_by s => s.length
decreasing_by exact Nat.lt_succ_of_le (suffix_of_readElement _h).length_le

theorem evaluate_backtick (values : Values) (r : List Char) :
    evaluate values ('`' :: r) = some ([], r) := by
  rw [evaluate, if_pos rfl]

theorem evaluate_of_readElement (hc : c ≠ '`') (h : readElement values c s = some (v, rest)) :
    evaluate values (c :: s)
      = (evaluate values rest).map fun (more, after) => (v ++ more, after) := by
  rw [evaluate, if_neg hc]
  split
  · next hnone =>
    rw [h] at hnone
    cases hnone
  · next hsome =>
    rw [h] at hsome
    cases hsome
    rfl

theorem exists_readElement (hc : c ≠ '`') (h : evaluate values (c :: s) = some (v, rest)) :
    ∃ value after more, readElement values c s = some (value, after) ∧
      evaluate values after = some (more, rest) ∧ v = value ++ more := by
  cases helement : readElement values c s with
  | none =>
    rw [evaluate, if_neg hc] at h
    split at h
    · cases h
    · next hsome =>
      rw [helement] at hsome
      cases hsome
  | some read =>
    obtain ⟨value, after⟩ := read
    rw [evaluate_of_readElement hc helement] at h
    obtain ⟨⟨more, last⟩, hmore, h⟩ := Option.map_eq_some_iff.mp h
    cases h
    exact ⟨value, after, more, rfl, hmore, rfl⟩

theorem readElement_hole (hreadable : Readable expression) :
    readElement values '$' ('\x7b' :: (expression ++ '\x7d' :: s)) = some (values expression, s) := by
  rw [readElement, if_neg (by decide), if_pos ⟨rfl, rfl⟩, List.tail_cons, hreadable s]
  rfl

/-- A hole is filled with the value of its expression. -/
theorem evaluate_hole (hreadable : Readable expression) :
    evaluate values ('$' :: '\x7b' :: (expression ++ '\x7d' :: s))
      = (evaluate values s).map fun (more, after) => (values expression ++ more, after) :=
  evaluate_of_readElement (by decide) (readElement_hole hreadable)

/-! ### Plain texts -/

/-- The text stands for itself in a literal. -/
structure Plain (text : List Char) : Prop where
  backtick : '`' ∉ text
  backslash : '\\' ∉ text
  hole : ¬ ['$', '\x7b'] <:+: text
  lineEnd : '\r' ∉ text

/-- The character stands for itself in front of the text. -/
def StandsForItself (c : Char) (s : List Char) : Prop :=
  c ≠ '`' ∧ c ≠ '\\' ∧ ¬ (c = '$' ∧ s.head? = some '\x7b') ∧ c ≠ '\r'

theorem plain_nil : Plain [] :=
  ⟨List.not_mem_nil, List.not_mem_nil, by simp, List.not_mem_nil⟩

theorem plain_cons_iff : Plain (c :: s) ↔ StandsForItself c s ∧ Plain s := by
  have hhole : ¬ ['$', '\x7b'] <:+: c :: s
      ↔ ¬ (c = '$' ∧ s.head? = some '\x7b') ∧ ¬ ['$', '\x7b'] <:+: s := by
    rw [List.infix_cons_iff, not_or, List.cons_prefix_cons, List.singleton_prefix_iff_head?_eq_some,
      eq_comm]
  constructor
  · rintro ⟨hbacktick, hbackslash, hopen, hline⟩
    rw [hhole] at hopen
    rw [List.mem_cons, not_or] at hbacktick hbackslash hline
    exact ⟨⟨Ne.symm hbacktick.1, Ne.symm hbackslash.1, hopen.1, Ne.symm hline.1⟩,
      ⟨hbacktick.2, hbackslash.2, hopen.2, hline.2⟩⟩
  · rintro ⟨⟨hbacktick, hbackslash, hopen, hline⟩, hs⟩
    refine ⟨?_, ?_, hhole.mpr ⟨hopen, hs.hole⟩, ?_⟩
    · simp [Ne.symm hbacktick, hs.backtick]
    · simp [Ne.symm hbackslash, hs.backslash]
    · simp [Ne.symm hline, hs.lineEnd]

theorem readElement_of_standsForItself (h : StandsForItself c s) :
    readElement values c s = some (unitsOf c.toNat, s) := by
  obtain ⟨-, hbackslash, hopen, hline⟩ := h
  rw [readElement, if_neg hbackslash, if_neg hopen, if_neg hline]

/-- Plain text stands for itself, unless a dollar sign at its end and a brace behind it begin a
hole. -/
theorem evaluate_plain (hplain : Plain text) (hnext : s.head? ≠ some '\x7b') :
    evaluate values (text ++ s)
      = (evaluate values s).map fun (more, after) => (utf16 text ++ more, after) := by
  induction text with
  | nil => simp [utf16]
  | cons c text ih =>
    obtain ⟨⟨hbacktick, hbackslash, hopen, hline⟩, htext⟩ := plain_cons_iff.mp hplain
    have hc : StandsForItself c (text ++ s) := by
      refine ⟨hbacktick, hbackslash, fun ⟨hdollar, hbrace⟩ => ?_, hline⟩
      cases text with
      | nil => exact hnext hbrace
      | cons d text => exact hopen ⟨hdollar, hbrace⟩
    rw [List.cons_append, evaluate_of_readElement hbacktick (readElement_of_standsForItself hc),
      ih htext, Option.map_map]
    simp only [Function.comp_def, utf16_cons, List.append_assoc]

/-! ### Wide values -/

/-- Values that are as wide as the holes they are put into, of blanks only. -/
def wide : Values :=
  fun expression => List.replicate (width expression + 3) 32

theorem width_cons_ascii (hc : unitsOf c.toNat = [c.toNat]) : width (c :: s) = width s + 1 := by
  rw [width_cons, hc, List.length_singleton, Nat.add_comm]

/-- With wide values no element is wider than it is written, and an escape is less wide. -/
theorem width_readElement (h : readElement wide c s = some (v, rest)) :
    v.length + width rest ≤ width (c :: s) ∧
      (c = '\\' → v.length + width rest < width (c :: s)) := by
  have hc := (length_unitsOf c.toNat).1
  rw [width_cons]
  unfold readElement at h
  split at h
  · obtain ⟨taken, rfl, hlength⟩ := readEscape_eq_some h
    rw [width_append]
    exact ⟨by omega, fun _ => by omega⟩
  next hbackslash =>
  refine ⟨?_, fun hback => absurd hback hbackslash⟩
  split at h
  · next hopen =>
    obtain ⟨r, rfl⟩ := List.head?_eq_some_iff.mp hopen.2
    obtain ⟨⟨expression, after⟩, hexpression, h⟩ := Option.map_eq_some_iff.mp h
    cases h
    obtain ⟨closing, hr⟩ := readExpression_eq_some hexpression
    have hclosing := (length_unitsOf closing.toNat).1
    have hwidth : width r = width expression + width (closing :: rest) := by
      rw [← width_append, ← hr, List.tail_cons]
    rw [width_cons] at hwidth
    rw [width_cons_ascii rfl, wide, List.length_replicate]
    omega
  split at h
  · cases h
    rw [List.length_singleton]
    split
    · next hfeed =>
      obtain ⟨r, rfl⟩ := List.head?_eq_some_iff.mp hfeed
      rw [List.tail_cons, width_cons_ascii rfl]
      omega
    · omega
  · cases h
    exact Nat.le_refl _

/-- With wide values no literal is wider than it is written. -/
theorem width_evaluate (h : evaluate wide s = some (v, rest)) :
    v.length + 1 + width rest ≤ width s := by
  induction hlength : s.length using Nat.strong_induction_on generalizing s v with
  | _ n ih =>
    cases s with
    | nil =>
      rw [evaluate] at h
      cases h
    | cons c s =>
      by_cases hc : c = '`'
      · rw [hc, evaluate_backtick] at h
        cases h
        have hwidth := length_unitsOf c.toNat
        rw [width_cons, List.length_nil]
        omega
      · obtain ⟨value, after, more, helement, hmore, rfl⟩ := exists_readElement hc h
        have hshorter := (suffix_of_readElement helement).length_le
        have hfirst := (width_readElement helement).1
        have hrest := ih after.length (by rw [← hlength, List.length_cons]; omega) hmore rfl
        rw [List.length_append]
        omega

/-- If a literal is as wide as it is written and its value begins with its first character, that
character stands for itself. -/
theorem standsForItself_of_evaluate
    (h : evaluate wide (c :: s) = some (unitsOf c.toNat ++ v, rest))
    (hwidth : width (c :: s) = (unitsOf c.toNat ++ v).length + 1 + width rest) :
    StandsForItself c s ∧ evaluate wide s = some (v, rest) := by
  have hbacktick : c ≠ '`' := by
    rintro rfl
    rw [evaluate_backtick] at h
    cases h
  obtain ⟨value, after, more, helement, hmore, hvalue⟩ := exists_readElement hbacktick h
  have hfollowing := width_evaluate hmore
  rw [hvalue, List.length_append] at hwidth
  have hbackslash : c ≠ '\\' := by
    intro hback
    have hnarrow := (width_readElement helement).2 hback
    omega
  rw [readElement, if_neg hbackslash] at helement
  have hopen : ¬ (c = '$' ∧ s.head? = some '\x7b') := by
    rintro hopen
    rw [if_pos hopen] at helement
    obtain ⟨⟨expression, last⟩, -, helement⟩ := Option.map_eq_some_iff.mp helement
    cases helement
    rw [hopen.1] at hvalue
    exact absurd (List.cons.inj hvalue).1 (by decide)
  rw [if_neg hopen] at helement
  have hline : c ≠ '\r' := by
    rintro rfl
    rw [if_pos rfl] at helement
    cases helement
    exact absurd (List.cons.inj hvalue).1 (by decide)
  rw [if_neg hline] at helement
  cases helement
  rw [List.append_cancel_left hvalue]
  exact ⟨⟨hbacktick, hbackslash, hopen, hline⟩, hmore⟩

theorem plain_of_evaluate (h : evaluate wide (text ++ s) = some (utf16 text ++ v, rest))
    (hwidth : width (text ++ s) = (utf16 text ++ v).length + 1 + width rest) :
    Plain text ∧ evaluate wide s = some (v, rest) := by
  induction text with
  | nil => exact ⟨plain_nil, h⟩
  | cons c text ih =>
    rw [utf16_cons, List.append_assoc] at h hwidth
    rw [List.cons_append] at h hwidth
    obtain ⟨⟨hbacktick, hbackslash, hopen, hline⟩, hrest⟩ := standsForItself_of_evaluate h hwidth
    rw [width_cons, List.length_append] at hwidth
    obtain ⟨htext, hs⟩ := ih hrest (by omega)
    refine ⟨plain_cons_iff.mpr
      ⟨⟨hbacktick, hbackslash, fun ⟨hdollar, hbrace⟩ => ?_, hline⟩, htext⟩, hs⟩
    obtain ⟨r, rfl⟩ := List.head?_eq_some_iff.mp hbrace
    exact hopen ⟨hdollar, rfl⟩

/-! ### Written literals -/

/-- A literal as it is put together: a text, and a hole behind each text but the last. -/
inductive TemplateLiteral where
  | last (text : List Char)
  | hole (text expression : List Char) (next : TemplateLiteral)

namespace TemplateLiteral

/-- What is written between the backticks. -/
def written : TemplateLiteral → List Char
  | last text => text
  | hole text expression next =>
    text ++ '$' :: '\x7b' :: (expression ++ '\x7d' :: next.written)

/-- What the literal is meant to stand for. -/
def value (values : Values) : TemplateLiteral → List Nat
  | last text => utf16 text
  | hole text expression next => utf16 text ++ (values expression ++ next.value values)

def texts : TemplateLiteral → List (List Char)
  | last text => [text]
  | hole text _ next => text :: next.texts

def expressions : TemplateLiteral → List (List Char)
  | last _ => []
  | hole _ expression next => expression :: next.expressions

theorem length_value_wide (literal : TemplateLiteral) :
    (literal.value wide).length = width literal.written := by
  induction literal with
  | last text => rfl
  | hole text expression next ih =>
    rw [value, written, List.length_append, List.length_append, ih, width_append,
      width_cons_ascii rfl, width_cons_ascii rfl, width_append, width_cons_ascii rfl, wide,
      List.length_replicate, ← width]
    omega

theorem evaluate_of_plain {literal : TemplateLiteral}
    (readable : ∀ expression ∈ literal.expressions, Readable expression)
    (plain : ∀ text ∈ literal.texts, Plain text) (rest : List Char) (values : Values) :
    evaluate values (literal.written ++ '`' :: rest) = some (literal.value values, rest) := by
  induction literal with
  | last text =>
    have htext := plain text List.mem_cons_self
    rw [written, evaluate_plain htext (by simp), evaluate_backtick]
    simp [value]
  | hole text expression next ih =>
    rw [expressions, List.forall_mem_cons] at readable
    rw [texts, List.forall_mem_cons] at plain
    rw [written, List.append_assoc, List.cons_append, List.cons_append, List.append_assoc,
      List.cons_append, evaluate_plain plain.1 (by simp), evaluate_hole readable.1,
      ih readable.2 plain.2]
    rfl

theorem plain_of_evaluate {literal : TemplateLiteral}
    (readable : ∀ expression ∈ literal.expressions, Readable expression)
    (h : evaluate wide (literal.written ++ '`' :: rest) = some (literal.value wide, rest)) :
    ∀ text ∈ literal.texts, Plain text := by
  have hwidth : width (literal.written ++ '`' :: rest)
      = (literal.value wide).length + 1 + width rest := by
    rw [width_append, width_cons_ascii rfl, length_value_wide]
    omega
  induction literal with
  | last text =>
    have htext : evaluate wide (text ++ '`' :: rest) = some (utf16 text ++ [], rest) := by
      rwa [List.append_nil]
    have hplain := Script.plain_of_evaluate htext (by rwa [List.append_nil])
    rw [texts, List.forall_mem_singleton]
    exact hplain.1
  | hole text expression next ih =>
    rw [expressions, List.forall_mem_cons] at readable
    rw [written, List.append_assoc, List.cons_append, List.cons_append, List.append_assoc,
      List.cons_append] at h hwidth
    obtain ⟨htext, hhole⟩ := Script.plain_of_evaluate h hwidth
    rw [evaluate_hole readable.1] at hhole
    obtain ⟨⟨more, after⟩, hmore, heq⟩ := Option.map_eq_some_iff.mp hhole
    obtain ⟨hvalue, rfl⟩ := Prod.mk.inj heq
    have hnext : evaluate wide (next.written ++ '`' :: after) = some (next.value wide, after) := by
      rw [hmore, List.append_cancel_left hvalue]
    have hnextWidth : width (next.written ++ '`' :: after)
        = (next.value wide).length + 1 + width after := by
      rw [width_append, width_cons_ascii rfl, length_value_wide]
      omega
    rw [texts, List.forall_mem_cons]
    exact ⟨htext, ih readable.2 hnext hnextWidth⟩

/-- A literal has the value that it is meant to have, whatever the values of its expressions are,
exactly if its texts are plain. -/
theorem evaluate_iff_plain {literal : TemplateLiteral}
    (readable : ∀ expression ∈ literal.expressions, Readable expression) (rest : List Char) :
    (∀ values, evaluate values (literal.written ++ '`' :: rest)
        = some (literal.value values, rest)) ↔ ∀ text ∈ literal.texts, Plain text :=
  ⟨fun h => plain_of_evaluate readable (h wide), fun h => evaluate_of_plain readable h rest⟩

end TemplateLiteral

end TypedClients.Script
