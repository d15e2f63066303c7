import TypedClients.Name.Case

/-!
# Identifiers

Which texts can be written as a bare name in the generated modules, and how any text is made into
one: `sanitize` replaces what an identifier cannot hold, and `binding` also steps aside from the
reserved words.

`isIdentifier_sanitize` says that the first always gives an identifier, `isIdentifier_binding`
and `isReserved_binding` that the second gives one that is not reserved.

Identifiers are those of ASCII. A script would take more, but the names that are made here have none
of these: a character outside ASCII becomes an underscore like any other that does not fit. So two
words in another script may give one name, which keeps of them only their lengths.

The reserved words are the words of the language and the names of its primitive types, so that a
declaration neither breaks a module nor hides a type.
-/

namespace TypedClients.Name

/-- What an identifier can begin with. -/
def startsIdentifier (c : Char) : Bool :=
  c.isAlpha || c == '_' || c == '$'

/-- What an identifier can go on with. -/
def continuesIdentifier (c : Char) : Bool :=
  c.isAlphanum || c == '_' || c == '$'

/-- Whether the characters can be written as a bare identifier. -/
def isIdentifierChars : List Char → Bool
  | [] => false
  | c :: r => startsIdentifier c && r.all continuesIdentifier

/-- Whether a name can be written as a bare identifier. -/
def isIdentifier (s : String) : Bool :=
  isIdentifierChars s.toList

/-- The words that cannot name a declaration. -/
def reservedWords : List String :=
  ["any", "arguments", "await", "bigint", "boolean", "break", "case", "catch", "class", "const",
   "continue", "debugger", "default", "delete", "do", "else", "enum", "eval", "export",
   "extends", "false", "finally", "for", "function", "if", "implements", "import", "in",
   "instanceof", "interface", "let", "never", "new", "null", "number", "object", "package",
   "private", "protected", "public", "return", "static", "string", "super", "switch", "symbol",
   "this", "throw", "true", "try", "typeof", "undefined", "unknown", "var", "void", "while",
   "with", "yield"]

/-- Whether a name is one of the reserved words. -/
def isReserved (s : String) : Bool :=
  reservedWords.contains s

/-- Replaces every character that an identifier cannot hold by an underscore, and puts one in
front of a leading digit. The empty text becomes an underscore. -/
def sanitizeChars (s : List Char) : List Char :=
  match s.map fun c => if continuesIdentifier c then c else '_' with
  | [] => ['_']
  | c :: r => if c.isDigit then '_' :: c :: r else c :: r

/-- An identifier as near to `s` as can be. -/
def sanitize : String → String :=
  Text.lift sanitizeChars

/-- A name for a declaration: an identifier, with an underscore behind a reserved word. -/
def binding (s : String) : String :=
  let name := sanitize s
  if isReserved name then name ++ "_" else name

private theorem continues_replaced (c : Char) :
    continuesIdentifier (if continuesIdentifier c then c else '_') = true := by
  by_cases h : continuesIdentifier c = true
  · simp [h]
  · rw [if_neg h]
    decide

private theorem starts_of_continues {c : Char} (h : continuesIdentifier c = true)
    (hd : c.isDigit = false) : startsIdentifier c = true := by
  simpa [continuesIdentifier, startsIdentifier, Char.isAlphanum, hd] using h

/-- A sanitized text is an identifier. -/
theorem isIdentifier_sanitize (s : String) : isIdentifier (sanitize s) = true := by
  have hall : ∀ l : List Char,
      (l.map fun c => if continuesIdentifier c then c else '_').all continuesIdentifier = true := by
    intro l
    simp only [List.all_map, List.all_eq_true, Function.comp]
    exact fun c _ => continues_replaced c
  simp only [isIdentifier, sanitize, Text.toList_lift, sanitizeChars]
  have h := hall s.toList
  cases hm : s.toList.map fun c => if continuesIdentifier c then c else '_' with
  | nil => decide
  | cons c r =>
    rw [hm, List.all_cons, Bool.and_eq_true] at h
    have hu : startsIdentifier '_' = true := by decide
    by_cases hd : c.isDigit = true
    · simp [isIdentifierChars, hd, hu, h.1, h.2]
    · rw [Bool.not_eq_true] at hd
      simp [isIdentifierChars, hd, starts_of_continues h.1 hd, h.2]

/-- An identifier stays one when more characters of an identifier follow. -/
theorem isIdentifierChars_append {s t : List Char} (hs : isIdentifierChars s = true)
    (ht : t.all continuesIdentifier = true) : isIdentifierChars (s ++ t) = true := by
  cases s with
  | nil => simp [isIdentifierChars] at hs
  | cons c r =>
    simp only [isIdentifierChars, Bool.and_eq_true] at hs
    simp only [List.cons_append, isIdentifierChars, List.all_append, hs.1, hs.2, ht, Bool.and_self]

/-- A binding name is an identifier. -/
theorem isIdentifier_binding (s : String) : isIdentifier (binding s) = true := by
  have h := isIdentifier_sanitize s
  simp only [binding]
  split
  · simp only [isIdentifier, String.toList_append]
    exact isIdentifierChars_append h (by decide)
  · exact h

/-- No reserved word ends in an underscore. -/
theorem isReserved_append_underscore (s : String) : isReserved (s ++ "_") = false := by
  have hlast : (s ++ "_").toList.getLast? = some '_' := by simp
  have hword : ∀ w ∈ reservedWords, w.toList.getLast? ≠ some '_' := by decide
  simp only [isReserved, List.contains_eq_mem, decide_eq_false_iff_not]
  exact fun hm => hword _ hm hlast

/-- A binding name is never a reserved word. -/
theorem isReserved_binding (s : String) : isReserved (binding s) = false := by
  simp only [binding]
  split
  · exact isReserved_append_underscore _
  · next h => simpa using h

end TypedClients.Name
