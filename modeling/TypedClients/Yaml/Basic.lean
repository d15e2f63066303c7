import TypedClients.Text.Basic

/-!
# YAML trees

A document as a tree. A scalar keeps its text and whether it was quoted, since a plain text may
stand for null, a truth value or a number, and a quoted one never does. The entries of a mapping
are kept as they are written, so a key may stand in it twice.

Which plain texts stand for null, a truth value or a number follows the core schema with the numbers
of other bases (`plainKind`). A value is not converted: whoever reads a tree asks for the text of a
scalar (`scalar?`), whatever it stands for, or for a text that stands for itself (`string?`).

Keys of a mapping are texts here, so collections as keys are not read. Repeated keys are kept, and
whoever reads a mapping says what becomes of them.
-/

namespace TypedClients

/-- A YAML value. The keys of a mapping are scalars. -/
inductive Yaml where
  | scalar (quoted : Bool) (text : String)
  | sequence (items : List Yaml)
  | mapping (entries : List (String × Yaml))
  deriving Inhabited

namespace Yaml

/-- What stands where nothing is written. -/
def empty : Yaml := .scalar false ""

/-- What a plain text stands for. -/
inductive PlainKind where
  | null
  | bool
  | number
  | string
  deriving DecidableEq, Repr

/-- A text without one sign in front. -/
def unsigned (s : List Char) : List Char :=
  match s with
  | '+' :: r => r
  | '-' :: r => r
  | s => s

/-- Whether digits begin with a zero that a number does not have. -/
def hasLeadingZero (s : List Char) : Bool :=
  match unsigned s with
  | '0' :: d :: r => (d :: r).all Char.isDigit
  | _ => false

/-- The digits of a base that a number in another notation is written in. -/
def isBaseDigit (base : Char) (c : Char) : Bool :=
  match base with
  | 'x' => (Text.hexValue? c).isSome
  | 'o' => '0' ≤ c && c ≤ '7'
  | 'b' => c == '0' || c == '1'
  | _ => false

/-- The value of digits in a base. -/
def baseValue (base : Char) (digits : List Char) : Nat :=
  let radix := match base with
    | 'x' => 16
    | 'o' => 8
    | _ => 2
  digits.foldl (fun n d => radix * n + (Text.hexValue? d).getD 0) 0

/-- Whether a text without sign is a whole number in another base, of at most 128 bits. -/
def isBasedInteger (s : List Char) : Bool :=
  match s with
  | '0' :: base :: d :: r =>
    (d :: r).all (isBaseDigit base) && baseValue base (d :: r) < Nat.pow 2 128
  | _ => false

/-- Whether a text without sign is a decimal number. -/
def isDecimalNumber (s : List Char) : Bool :=
  let whole := s.takeWhile Char.isDigit
  let (fraction, rest) := match s.drop whole.length with
    | '.' :: r => (r.takeWhile Char.isDigit, r.dropWhile Char.isDigit)
    | r => ([], r)
  let exponent := match rest with
    | [] => true
    | e :: r =>
      (e == 'e' || e == 'E') && (!(unsigned r).isEmpty && (unsigned r).all Char.isDigit)
  !(whole.isEmpty && fraction.isEmpty) && exponent

/-- Whether a text is a number. -/
def isNumber (s : List Char) : Bool :=
  let body := unsigned s
  if hasLeadingZero s then false
  else
    isBasedInteger body || isDecimalNumber body
      || [".inf", ".Inf", ".INF"].contains (String.ofList body)
      || [".nan", ".NaN", ".NAN"].contains (String.ofList s)

/-- What a plain text stands for. -/
def plainKind (text : String) : PlainKind :=
  if ["", "~", "null", "Null", "NULL"].contains text then .null
  else if ["true", "True", "TRUE", "false", "False", "FALSE"].contains text then .bool
  else if isNumber text.toList then .number
  else .string

/-- The text of a scalar. -/
def scalar? : Yaml → Option String
  | .scalar _ text => some text
  | _ => none

/-- The text of a scalar that stands for a text. -/
def string? : Yaml → Option String
  | .scalar quoted text => if quoted || plainKind text = .string then some text else none
  | _ => none

/-- Whether a value is a plain null. -/
def isNull : Yaml → Bool
  | .scalar false text => plainKind text == .null
  | _ => false

/-- Whether nothing is written for a value. -/
def isEmpty : Yaml → Bool
  | .scalar false text => text.isEmpty
  | _ => false

end Yaml

end TypedClients
