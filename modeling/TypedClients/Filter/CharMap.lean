import TypedClients.Filter.Basic

/-!
# Mapping characters

`tr` replaces bytes one by one. Its two sets are lists of bytes: a byte of the first is replaced by
the one at the same place in the second, whose last byte is repeated as far as it is needed. It can
also delete the bytes of a set, and squeeze repetitions.

## What is read

The notation of sets has ranges, classes, escapes and octal numbers. A set is expanded to its bytes
before anything is replaced, so the order in which a class gives its bytes matters; it is that of
the bytes. The options are those for deleting, for squeezing and for taking the complement of the
first set. They are letters behind a dash, alone or together, and a letter that means nothing is
passed over.

## What is not here

Sets of equivalent characters and repetitions in brackets, and sets that are cut to the length of
each other. Bytes are replaced and not characters, so a character of several bytes in a set is
several members of it.
-/

namespace TypedClients.Filter

/-- The bytes from `low` to `high`. -/
def byteRange (low high : UInt8) : List UInt8 :=
  (List.range' low.toNat (high.toNat + 1 - low.toNat)).map UInt8.ofNat

/-- The bytes of a named class. -/
def byteClass? (name : String) : Option (List UInt8) :=
  let digits := byteRange 0x30 0x39
  let upper := byteRange 0x41 0x5A
  let lower := byteRange 0x61 0x7A
  match name with
  | "digit" => some digits
  | "upper" => some upper
  | "lower" => some lower
  | "alpha" => some (upper ++ lower)
  | "alnum" => some (digits ++ upper ++ lower)
  | "space" => some [0x09, 0x0A, 0x0B, 0x0C, 0x0D, 0x20]
  | "blank" => some [0x09, 0x20]
  | "punct" => some (byteRange 0x21 0x2F ++ byteRange 0x3A 0x40 ++ byteRange 0x5B 0x60
      ++ byteRange 0x7B 0x7E)
  | "cntrl" => some (byteRange 0 0x1F ++ [0x7F])
  | _ => none

/-- One byte of a set as it is written, with the rest. -/
def setByte? : List UInt8 → Option (UInt8 × List UInt8)
  | [] => none
  | 0x5C :: c :: r =>
    let c := Char.ofNat c.toNat
    if isOctal c then
      let digits := (c :: (r.map fun b => Char.ofNat b.toNat)).take 3 |>.takeWhile isOctal
      some (octalByte digits, r.drop (digits.length - 1))
    else some ((escapedByte? c).getD (UInt8.ofNat c.toNat), r)
  | b :: r => some (b, r)

/-- The bytes of a set. Each round takes a byte of its text. -/
def setBytes : (bound : Nat) → List UInt8 → List UInt8
  | 0, _ => []
  | bound + 1, s =>
    let name := (s.drop 2).takeWhile fun b => b != 0x3A
    match if s.take 2 == [0x5B, 0x3A] then byteClass? (Text.ofBytes name) else none with
    | some bytes => bytes ++ setBytes bound (s.drop (name.length + 4))
    | none =>
      match setByte? s with
      | none => []
      | some (low, 0x2D :: r) =>
        match setByte? r with
        | some (high, r) => byteRange low high ++ setBytes bound r
        | none => [low, 0x2D]
      | some (b, r) => b :: setBytes bound r

/-- The set that a text is. -/
def charSet (text : String) : List UInt8 :=
  let bytes := Text.encode text
  setBytes (bytes.length + 1) bytes

/-- The byte that takes the place of `b`. The last place of `b` in the first set counts. -/
def mapByte (first second : List UInt8) (b : UInt8) : UInt8 :=
  let padded := second ++ List.replicate (first.length - second.length) (second.getLast?.getD b)
  match (first.zip padded).reverse.find? fun p => p.1 == b with
  | some (_, new) => new
  | none => b

/-- The bytes that are not in a set. -/
def otherBytes (set : List UInt8) : List UInt8 :=
  (byteRange 0 0xFF).filter fun b => !set.contains b

/-- Drops a byte of the set where it repeats the one before it. -/
def squeeze (set : List UInt8) : List UInt8 → List UInt8
  | a :: b :: r =>
    if a = b && set.contains a then squeeze set (b :: r) else a :: squeeze set (b :: r)
  | s => s

/-- Replaces, deletes or squeezes bytes. -/
def tr : Filter := fun arguments input =>
  let flags := (arguments.takeWhile fun a => a.startsWith "-" && a != "-" && a != "--").flatMap
    fun a => a.toList.drop 1
  let sets := (arguments.dropWhile fun a => a.startsWith "-" && a != "-" && a != "--").filter
    fun a => a != "--"
  let complement := flags.contains 'c' || flags.contains 'C'
  let deleting := flags.contains 'd'
  let squeezing := flags.contains 's'
  let hint := "\nTry 'tr --help' for more information."
  let firstOf (text : String) : List UInt8 :=
    if complement then otherBytes (charSet text) else charSet text
  match sets with
  | [] => .failure 1 ("tr: missing operand" ++ hint)
  | [first] =>
    let set := firstOf first
    if deleting then .success (input.filter fun b => !set.contains b)
    else if squeezing then .success (squeeze set input)
    else .failure 1 ("tr: missing operand after ‘" ++ first
      ++ "’\nTwo strings must be given when translating." ++ hint)
  | [first, second] =>
    let set := firstOf first
    if deleting then
      if squeezing then
        .success (squeeze (charSet second) (input.filter fun b => !set.contains b))
      else .failure 1 ("tr: extra operand ‘" ++ second
        ++ "’\nOnly one string may be given when deleting without squeezing repeats." ++ hint)
    else if second.isEmpty then
      .failure 1 "tr: when not truncating set1, string2 must be non-empty"
    else
      let mapped := input.map (mapByte set (charSet second))
      .success (if squeezing then squeeze (charSet second) mapped else mapped)
  | _ :: _ :: extra :: _ => .failure 1 ("tr: extra operand ‘" ++ extra ++ "’" ++ hint)

end TypedClients.Filter
