/-!
# UTF-8

The bytes of characters, and the characters of bytes. Decoding never stops: where no character
begins, or one is cut short, it gives `none` once for the bytes that it gives up, and goes on with
the byte after them.

`decode_ascii` says that bytes below 128 stand for themselves.

## Reading

A character that is being read is kept with what its next byte may be (`OpenChar`), which rules out
overlong forms, surrogates and what lies beyond the last code point as soon as it shows. So of a
broken character as many bytes are given up together as could still have begun one. `ofBytes?`
refuses a text with a broken part; `ofBytes` puts the replacement character for each.

## What is not here

Byte order marks are characters like any other, and no other encoding is tried.
-/

namespace TypedClients.Text

/-- The bytes of a character. -/
def encodeChar (c : Char) : List UInt8 :=
  let n := c.toNat
  let tail (shift : Nat) : Nat := 0x80 + n / Nat.pow 2 shift % 0x40
  (if n < 0x80 then [n]
   else if n < 0x800 then [0xC0 + n / 0x40, tail 0]
   else if n < 0x10000 then [0xE0 + n / 0x1000, tail 6, tail 0]
   else [0xF0 + n / 0x40000, tail 12, tail 6, tail 0]).map UInt8.ofNat

/-- The bytes of a text. -/
def encode (s : String) : List UInt8 :=
  s.toList.flatMap encodeChar

/-- A character whose first bytes have been read: the value of their bits, how many bytes are to
come, and the range of the next one. -/
structure OpenChar where
  value : Nat
  missing : Nat
  low : Nat
  high : Nat

/-- The character that a leading byte opens. -/
def OpenChar.ofLead? (n : Nat) : Option OpenChar :=
  if 0xC2 ≤ n ∧ n ≤ 0xDF then some ⟨n - 0xC0, 1, 0x80, 0xBF⟩
  else if n = 0xE0 then some ⟨0, 2, 0xA0, 0xBF⟩
  else if n = 0xED then some ⟨0xD, 2, 0x80, 0x9F⟩
  else if 0xE1 ≤ n ∧ n ≤ 0xEF then some ⟨n - 0xE0, 2, 0x80, 0xBF⟩
  else if n = 0xF0 then some ⟨0, 3, 0x90, 0xBF⟩
  else if 0xF1 ≤ n ∧ n ≤ 0xF3 then some ⟨n - 0xF0, 3, 0x80, 0xBF⟩
  else if n = 0xF4 then some ⟨4, 3, 0x80, 0x8F⟩
  else none

/-- What a byte gives where a character may begin, and the character that it leaves open. -/
def openWith (n : Nat) : List (Option Char) × Option OpenChar :=
  if n < 0x80 then ([some (Char.ofNat n)], none)
  else match OpenChar.ofLead? n with
    | some c => ([], some c)
    | none => ([none], none)

/-- What a byte gives behind an open character, or none. -/
def decodeByte (pending : Option OpenChar) (n : Nat) : List (Option Char) × Option OpenChar :=
  match pending with
  | none => openWith n
  | some p =>
    if p.low ≤ n ∧ n ≤ p.high then
      let value := p.value * 0x40 + (n - 0x80)
      if p.missing = 1 then ([some (Char.ofNat value)], none)
      else ([], some ⟨value, p.missing - 1, 0x80, 0xBF⟩)
    else
      let (given, open_) := openWith n
      (none :: given, open_)

/-- The characters of bytes, from behind an open character. -/
def decodeFrom : Option OpenChar → List UInt8 → List (Option Char)
  | none, [] => []
  | some _, [] => [none]
  | pending, b :: rest =>
    let (given, pending) := decodeByte pending b.toNat
    given ++ decodeFrom pending rest

/-- The characters of bytes, with `none` for bytes that are no part of a character. -/
def decode (bytes : List UInt8) : List (Option Char) :=
  decodeFrom none bytes

/-- The text that bytes are, if they are one. -/
def ofBytes? (bytes : List UInt8) : Option String :=
  ((decode bytes).mapM id).map String.ofList

/-- The text of bytes, with the replacement character for what is no part of one. -/
def ofBytes (bytes : List UInt8) : String :=
  String.ofList ((decode bytes).map fun c => c.getD '\ufffd')

/-- Bytes below 128 stand for themselves. -/
theorem decode_ascii (bytes : List UInt8) (h : ∀ b ∈ bytes, b.toNat < 0x80) :
    decode bytes = bytes.map fun b => some (Char.ofNat b.toNat) := by
  unfold decode
  induction bytes with
  | nil => rfl
  | cons b rest ih =>
    have hb : b.toNat < 0x80 := h b List.mem_cons_self
    have hr : ∀ x ∈ rest, x.toNat < 0x80 := fun x hx => h x (List.mem_cons_of_mem b hx)
    simp [decodeFrom, decodeByte, openWith, hb, ih hr]

end TypedClients.Text
