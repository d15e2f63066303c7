import TypedClients.Json.Basic
import TypedClients.Text.Basic

/-!
# Number literals

The grammar of JSON numbers, and the numbers that are out of range: those whose value exceeds the
largest double. The value is read as it is from a significand of 64 bits and a power of ten, so
the bound is met on the rounded product of the two.

## The range

A literal is out of range if the double nearest to its value would be infinite. How the value is
rounded on the way matters only close to the limit. There the two factors are rounded first and then
their product, and this is followed exactly, in integers.

The value itself is not used anywhere else: a number is kept as it is written. So nothing in the
library depends on how doubles are added or compared.
-/

namespace TypedClients.Json

/-- The integer rounded to the 53 bits of a double, a half to the even neighbour. -/
def roundToDouble (n : Nat) : Nat :=
  if n < Nat.pow 2 53 then n
  else
    let shift := n.log2 - 52
    let unit := Nat.pow 2 shift
    let quotient := n / unit
    let rest := n % unit
    let up := 2 * rest > unit || (2 * rest == unit && quotient % 2 == 1)
    (if up then quotient + 1 else quotient) * unit

/-- Whether `significand` times ten to the power of `exponent` stays below the doubles' limit. -/
def inDoubleRange (significand : Nat) (exponent : Int) : Bool :=
  if significand == 0 || exponent < 0 then true
  else if exponent > 308 then false
  else
    let product := roundToDouble significand * roundToDouble (Nat.pow 10 exponent.toNat)
    decide (roundToDouble product < Nat.pow 2 1024)

/-- Takes digits into a significand of 64 bits, and gives it with the digits that do not fit. -/
def takeSignificand : Nat → List Char → Nat × List Char
  | n, [] => (n, [])
  | n, d :: digits =>
    let next := 10 * n + (d.toNat - '0'.toNat)
    if next < Nat.pow 2 64 then takeSignificand next digits else (n, d :: digits)

/-- A number literal in its parts. -/
structure Literal where
  negative : Bool
  whole : List Char
  fraction : List Char
  exponent : Int

/-- Whether the literal's value is in range. Digits of the whole part that do not fit the
significand count as powers of ten, such digits of the fraction are dropped. -/
def Literal.inRange (l : Literal) : Bool :=
  let (significand, beyond) := takeSignificand 0 l.whole
  let (significand, dropped) := takeSignificand significand l.fraction
  let places : Int := l.fraction.length - dropped.length
  inDoubleRange significand (beyond.length - places + l.exponent)

/-- The fault of a number that breaks off before `rest`. A value that is skipped is held to the
form alone, and its number is malformed wherever it breaks off. -/
def brokenNumber (strict : Bool) (rest : List Char) : Fault :=
  if strict && rest.isEmpty then .truncated else .malformed

/-- Reads an exponent part, if one is there. -/
def readExponent (strict : Bool) (s : List Char) : Except Fault (Int × List Char) :=
  match s with
  | c :: r =>
    if c = 'e' || c = 'E' then
      let (negative, body) := match r with
        | '+' :: b => (false, b)
        | '-' :: b => (true, b)
        | _ => (false, r)
      match body.takeWhile Char.isDigit with
      | [] => .error (brokenNumber strict body)
      | digits =>
        let value : Int := Text.decimalValue digits
        .ok (if negative then -value else value, body.dropWhile Char.isDigit)
    else .ok (0, s)
  | [] => .ok (0, [])

/-- Reads a fraction part, if one is there. -/
def readFraction (strict : Bool) (s : List Char) : Except Fault (List Char × List Char) :=
  match s with
  | '.' :: r =>
    match r.takeWhile Char.isDigit with
    | [] => .error (brokenNumber strict r)
    | digits => .ok (digits, r.dropWhile Char.isDigit)
  | _ => .ok ([], s)

/-- Reads the digits before the point: a zero alone, or digits that begin with no zero. -/
def readWhole (strict : Bool) (s : List Char) : Except Fault (List Char × List Char) :=
  match s with
  | [] => .error (brokenNumber strict [])
  | c :: r =>
    if c = '0' then
      match r with
      | d :: _ => if d.isDigit then .error .malformed else .ok (['0'], r)
      | [] => .ok (['0'], [])
    else if c.isDigit then .ok (s.takeWhile Char.isDigit, s.dropWhile Char.isDigit)
    else .error .malformed

/-- Reads a number, and gives it as it is written. -/
def readNumber (strict : Bool) (s : List Char) : Except Fault (Json × List Char) := do
  let (negative, body) := match s with
    | '-' :: r => (true, r)
    | _ => (false, s)
  let (whole, rest) ← readWhole strict body
  let (fraction, rest) ← readFraction strict rest
  let (exponent, rest) ← readExponent strict rest
  let literal : Literal := ⟨negative, whole, fraction, exponent⟩
  if strict && !literal.inRange then .error .malformed
  else .ok (.number (String.ofList (s.take (s.length - rest.length))), rest)

end TypedClients.Json
