import TypedClients.Json.Reader
import TypedClients.Script.Literal

/-!
# Tokens of the generated script

The words, string literals and signs that a script is read as, blanks left out. `Spells` says which
tokens a text stands for in front of any rest that does not go on with a word; `Closed` is the same
for texts that no rest goes on with. What is put together from such texts stands for the tokens of
its pieces.

## What is not here

Numbers, comments, template literals, and names with characters outside ASCII. The texts that are
read with these tokens are validators and types, and none of that occurs in them. Where a token
stands in the text is forgotten; blanks between tokens, and line ends, count for nothing but keeping
words apart.
-/

namespace TypedClients.Script

/-! ### String literals -/

theorem hexUnit?_hexDigit {n : Nat} (h : n < 0x20) :
    Json.hexUnit? '0' '0' (hexDigit (n / 16)) (hexDigit (n % 16)) = some n := by
  have hall : ∀ n < 0x20,
      Json.hexUnit? '0' '0' (hexDigit (n / 16)) (hexDigit (n % 16)) = some n := by decide
  exact hall n h

/-- A character between the quotes is read back. -/
theorem readString_escapeChar (c : Char) (done rest : List Char) :
    Json.readString false none done (escapeChar c ++ rest)
      = Json.readString false none (c :: done) rest := by
  unfold escapeChar
  split
  · next h => subst h; rfl
  split
  · next h => subst h; rfl
  split
  · next h => subst h; rfl
  split
  · next h => subst h; rfl
  split
  · next h => subst h; rfl
  split
  · next h => subst h; rfl
  split
  · next h => subst h; rfl
  next _ hback _ _ _ _ _ =>
  split
  · next h =>
    simp only [List.cons_append, List.nil_append]
    rw [Json.readString.eq_def]
    simp only [hexUnit?_hexDigit h, Char.ofNat_toNat]
    rfl
  · next h =>
    simp only [List.cons_append, List.nil_append]
    rw [Json.readString.eq_def]
    simp [hback, h]

/-- What stands between the quotes of a literal is read back as the text. -/
theorem readString_escape (text done rest : List Char) :
    Json.readString false none done (text.flatMap escapeChar ++ '"' :: rest)
      = .ok (String.ofList (done.reverse ++ text), rest) := by
  induction text generalizing done with
  | nil =>
    rw [List.flatMap_nil, List.nil_append, List.append_nil]
    rfl
  | cons c text ih =>
    rw [List.flatMap_cons, List.append_assoc, readString_escapeChar, ih, List.reverse_cons,
      List.append_assoc, List.singleton_append]

/-- Different texts have different literals. -/
theorem quote_inj {first second : String} : quote first = quote second ↔ first = second := by
  constructor
  · intro h
    have hchars : first.toList.flatMap escapeChar ++ ['"']
        = second.toList.flatMap escapeChar ++ ['"'] := by
      simpa [quote, Text.lift] using congrArg String.toList h
    have hfirst := readString_escape first.toList [] []
    have hsecond := readString_escape second.toList [] []
    rw [hchars, hsecond] at hfirst
    simpa using hfirst.symm
  · rintro rfl
    rfl

theorem quote_ne_of_isIdentifier {name : String} (h : Name.isIdentifier name = true) (s : String) :
    quote s ≠ name := by
  rintro rfl
  rw [Name.isIdentifier, quote, Text.toList_lift, Name.isIdentifierChars, Bool.and_eq_true] at h
  exact absurd h.1 (by decide)

/-- Different names have different keys: a key that is quoted is none that is written bare. -/
theorem propertyKey_inj {first second : String} :
    propertyKey first = propertyKey second ↔ first = second := by
  constructor
  · intro h
    unfold propertyKey at h
    split at h <;> split at h
    · exact h
    · next hfirst _ => exact absurd h.symm (quote_ne_of_isIdentifier hfirst second)
    · next _ hsecond => exact absurd h (quote_ne_of_isIdentifier hsecond first)
    · exact quote_inj.mp h
  · rintro rfl
    rfl

/-- A string literal takes at least its closing quote. -/
theorem length_lt_of_readString {high : Option Nat} {done s rest : List Char} {text : String}
    (h : Json.readString false high done s = .ok (text, rest)) : rest.length < s.length := by
  fun_induction Json.readString false high done s
  case case2 =>
    cases h
    exact Nat.lt_succ_self _
  all_goals first
    | contradiction
    | rename_i ih
      have hlt := ih h
      simp only [List.length_cons]
      omega

/-! ### Tokens -/

/-- A word, the text of a string literal, or a sign. -/
inductive Token where
  | word (name : String)
  | text (value : String)
  | sign (c : Char)
  deriving DecidableEq, Repr

/-- What may stand between tokens. -/
def isBlank (c : Char) : Bool :=
  c == ' ' || c == '\n'

/-- The tokens of a script, unless a string literal in it is broken. -/
def tokens : List Char → Option (List Token)
  | [] => some []
  | c :: r =>
    if isBlank c then tokens r
    else if c = '"' then
      match _h : Json.readString false none [] r with
      | .error _ => none
      | .ok (value, rest) => (tokens rest).map (.text value :: ·)
    else if Name.startsIdentifier c then
      (tokens (r.dropWhile Name.continuesIdentifier)).map
        (.word (String.ofList (c :: r.takeWhile Name.continuesIdentifier)) :: ·)
    else (tokens r).map (.sign c :: ·)
termination_by s => s.length
decreasing_by
  · exact Nat.lt_succ_self _
  · exact Nat.lt_succ_of_lt (length_lt_of_readString _h)
  · exact Nat.lt_succ_of_le (List.dropWhile_suffix _).length_le
  · exact Nat.lt_succ_self _

/-- A sign or a blank. -/
def isPunctuation (c : Char) : Bool :=
  isBlank c || c != '"' && !Name.continuesIdentifier c

/-- The signs of a text. -/
def signs (text : String) : List Token :=
  (text.toList.filter fun c => !isBlank c).map Token.sign

theorem tokens_blank {c : Char} (h : isBlank c = true) (rest : List Char) :
    tokens (c :: rest) = tokens rest := by
  rw [tokens, if_pos h]

theorem startsIdentifier_imp_continuesIdentifier {c : Char} (h : Name.startsIdentifier c = true) :
    Name.continuesIdentifier c = true := by
  simp only [Name.startsIdentifier, Name.continuesIdentifier, Char.isAlphanum, Bool.or_eq_true]
    at h ⊢
  rcases h with (h | h) | h
  · exact .inl (.inl (.inl h))
  · exact .inl (.inr h)
  · exact .inr h

theorem tokens_sign {c : Char} (h : isPunctuation c = true) (hblank : isBlank c = false)
    (rest : List Char) : tokens (c :: rest) = (tokens rest).map (.sign c :: ·) := by
  simp only [isPunctuation, hblank, Bool.false_or, Bool.and_eq_true, bne_iff_ne,
    Bool.not_eq_true'] at h
  have hstart : Name.startsIdentifier c = false := by
    refine Bool.eq_false_iff.mpr fun hc => ?_
    rw [startsIdentifier_imp_continuesIdentifier hc] at h
    cases h.2
  rw [tokens, hblank, if_neg (by simp), if_neg h.1, hstart, if_neg (by simp)]

theorem not_continuesIdentifier_of_isPunctuation {c : Char} (h : isPunctuation c = true) :
    Name.continuesIdentifier c = false := by
  simp only [isPunctuation, isBlank, Bool.or_eq_true, Bool.and_eq_true, beq_iff_eq, bne_iff_ne,
    Bool.not_eq_true'] at h
  rcases h with (rfl | rfl) | h
  · decide
  · decide
  · exact h.2

theorem not_isBlank_of_startsIdentifier {c : Char} (h : Name.startsIdentifier c = true) :
    isBlank c = false ∧ c ≠ '"' := by
  constructor
  · refine Bool.eq_false_iff.mpr fun hblank => ?_
    simp only [isBlank, Bool.or_eq_true, beq_iff_eq] at hblank
    rcases hblank with rfl | rfl
    · exact absurd h (by decide)
    · exact absurd h (by decide)
  · rintro rfl
    exact absurd h (by decide)

/-- The rest does not go on with a word. -/
def Apart (rest : List Char) : Prop :=
  ∀ c ∈ rest.head?, Name.continuesIdentifier c = false

/-- The text stands for the tokens, whatever follows. -/
def Closed (text : String) (ts : List Token) : Prop :=
  ∀ rest, tokens (text.toList ++ rest) = (tokens rest).map (ts ++ ·)

/-- The text stands for the tokens, if what follows does not go on with a word. -/
def Spells (text : String) (ts : List Token) : Prop :=
  ∀ rest, Apart rest → tokens (text.toList ++ rest) = (tokens rest).map (ts ++ ·)

/-! ### Texts that stand for tokens -/

variable {a b : String} {ts us : List Token}

theorem Closed.spells (h : Closed a ts) : Spells a ts := fun rest _ => h rest

theorem Closed.append (ha : Closed a ts) (hb : Closed b us) : Closed (a ++ b) (ts ++ us) := by
  intro rest
  rw [String.toList_append, List.append_assoc, ha, hb, Option.map_map]
  simp only [Function.comp_def, List.append_assoc]

theorem Closed.append_spells (ha : Closed a ts) (hb : Spells b us) :
    Spells (a ++ b) (ts ++ us) := by
  intro rest hrest
  rw [String.toList_append, List.append_assoc, ha, hb rest hrest, Option.map_map]
  simp only [Function.comp_def, List.append_assoc]

theorem closed_punctuation (h : a.toList.all isPunctuation = true) : Closed a (signs a) := by
  intro rest
  unfold signs
  revert h
  induction a.toList with
  | nil => simp
  | cons c cs ih =>
    intro h
    rw [List.all_cons, Bool.and_eq_true] at h
    cases hc : isBlank c with
    | true => simp [tokens_blank hc, ih h.2, hc]
    | false => simp [tokens_sign h.1 hc, ih h.2, hc, Function.comp_def]

/-- Punctuation ends a word. -/
theorem Spells.append_punctuation (ha : Spells a ts) (hb : b.toList.all isPunctuation = true)
    (hne : b.toList ≠ []) : Closed (a ++ b) (ts ++ signs b) := by
  intro rest
  have hapart : Apart (b.toList ++ rest) := by
    intro c hc
    cases hcs : b.toList with
    | nil => exact absurd hcs hne
    | cons first cs =>
      rw [hcs] at hb hc
      obtain rfl : first = c := by simpa using hc
      rw [List.all_cons, Bool.and_eq_true] at hb
      exact not_continuesIdentifier_of_isPunctuation hb.1
  rw [String.toList_append, List.append_assoc, ha _ hapart, closed_punctuation hb, Option.map_map]
  simp only [Function.comp_def, List.append_assoc]

theorem closed_quote (key : String) : Closed (quote key) [.text key] := by
  intro rest
  have hread := readString_escape key.toList [] rest
  rw [List.reverse_nil, List.nil_append, String.ofList_toList] at hread
  rw [quote, Text.toList_lift, List.cons_append, List.append_assoc, List.singleton_append, tokens,
    if_neg (by decide), if_pos rfl]
  split
  · next h =>
    rw [hread] at h
    cases h
  · next h =>
    rw [hread] at h
    cases h
    rfl

theorem spells_word (h : Name.isIdentifier a = true) : Spells a [.word a] := by
  intro rest hrest
  rw [Name.isIdentifier] at h
  have htext : String.ofList a.toList = a := String.ofList_toList
  cases hcs : a.toList with
  | nil =>
    rw [hcs] at h
    cases h
  | cons c cs =>
    rw [hcs, Name.isIdentifierChars, Bool.and_eq_true] at h
    rw [hcs] at htext
    obtain ⟨hblank, hquote⟩ := not_isBlank_of_startsIdentifier h.1
    have hcs : ∀ d ∈ cs, Name.continuesIdentifier d = true := List.all_eq_true.mp h.2
    have htake : (cs ++ rest).takeWhile Name.continuesIdentifier = cs := by
      rw [List.takeWhile_append_of_pos hcs]
      cases rest with
      | nil => rw [List.takeWhile_nil, List.append_nil]
      | cons d rest =>
        rw [List.takeWhile_cons_of_neg (by simp [hrest d rfl]), List.append_nil]
    have hdrop : (cs ++ rest).dropWhile Name.continuesIdentifier = rest := by
      rw [List.dropWhile_append_of_pos hcs]
      cases rest with
      | nil => rfl
      | cons d rest => rw [List.dropWhile_cons_of_neg (by simp [hrest d rfl])]
    rw [List.cons_append, tokens, hblank, if_neg (by simp), if_neg hquote, if_pos h.1, htake, hdrop,
      htext]
    rfl

/-- Texts with punctuation between them. -/
theorem spells_intercalate {α : Type} {texts : α → String} {spelled : α → List Token}
    (hb : b.toList.all isPunctuation = true) (hne : b.toList ≠ []) {items : List α}
    (hitems : items ≠ []) (h : ∀ item ∈ items, Spells (texts item) (spelled item)) :
    Spells (b.intercalate (items.map texts)) ((signs b).intercalate (items.map spelled)) := by
  induction items with
  | nil => exact absurd rfl hitems
  | cons item items ih =>
    rw [List.forall_mem_cons] at h
    cases items with
    | nil => simpa using h.1
    | cons second items =>
      rw [List.map_cons, List.map_cons, List.map_cons, List.map_cons,
        String.intercalate_cons_cons, List.intercalate_cons_cons]
      exact (h.1.append_punctuation hb hne).append_spells (ih (List.cons_ne_nil _ _) h.2)

end TypedClients.Script
