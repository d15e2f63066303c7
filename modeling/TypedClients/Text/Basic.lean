/-!
# Text

Operations on texts that the rest of the library shares. They are defined on lists of characters,
by recursion on the list, and lifted to strings where that is what the callers hold.

`intercalate_split` says that splitting at a character loses nothing.

## What is where

Texts are split (`split`, `splitOnce`, `lines`), read from behind what they begin with (`after?`),
changed where another text stands in them (`replace`), and trimmed (`trim`); digits are given their
values. `after?_eq_some_iff` says that a text begins with another exactly if it is that one and a
rest.

A line may end in a carriage return and a line feed, and the last line may have no end. A blank is
any character with the property White_Space, so more than a space is taken off by `trim`.
-/

namespace TypedClients.Text

/-- A function on lists of characters as one on strings. -/
def lift (f : List Char → List Char) (s : String) : String :=
  String.ofList (f s.toList)

@[simp] theorem toList_lift (f : List Char → List Char) (s : String) :
    (lift f s).toList = f s.toList := by
  simp [lift]

/-- The pieces between the occurrences of `sep`, always at least one. -/
def split (sep : Char) : List Char → List (List Char)
  | [] => [[]]
  | c :: r =>
    if c = sep then [] :: split sep r
    else match split sep r with
      | [] => [[c]]
      | piece :: pieces => (c :: piece) :: pieces

/-- Splitting gives a piece. -/
theorem split_ne_nil (sep : Char) (s : List Char) : split sep s ≠ [] := by
  cases s with
  | nil => simp [split]
  | cons c r =>
    simp only [split]
    split
    · simp
    · split <;> simp

/-- The pieces, with `sep` between them, are the text that was split. -/
theorem intercalate_split (sep : Char) (s : List Char) :
    [sep].intercalate (split sep s) = s := by
  induction s with
  | nil => simp [split]
  | cons c r ih =>
    cases hp : split sep r with
    | nil => exact absurd hp (split_ne_nil sep r)
    | cons piece pieces =>
      rw [hp] at ih
      by_cases hc : c = sep
      · subst hc
        simp [split, hp, ih]
      · simp only [split, hc, if_false, hp]
        cases pieces with
        | nil => simpa using ih
        | cons p ps => simpa using ih

/-- The pieces of a string between the occurrences of `sep`. -/
def splitString (sep : Char) (s : String) : List String :=
  (split sep s.toList).map String.ofList

/-- The part before and the part after the first `sep`, if there is one. -/
def splitOnce (sep : Char) : List Char → Option (List Char × List Char)
  | [] => none
  | c :: r =>
    if c = sep then some ([], r)
    else (splitOnce sep r).map fun (before, after) => (c :: before, after)

/-- What follows `lead` in `s`, if `s` begins with it. -/
def dropLead? : (lead s : List Char) → Option (List Char)
  | [], s => some s
  | _ :: _, [] => none
  | a :: lead, b :: s => if a = b then dropLead? lead s else none

/-- A text begins with `lead` exactly when it is `lead` and the rest. -/
theorem dropLead?_eq_some_iff {lead s r : List Char} :
    dropLead? lead s = some r ↔ s = lead ++ r := by
  induction lead generalizing s with
  | nil => simp [dropLead?]
  | cons a lead ih =>
    cases s with
    | nil => simp [dropLead?]
    | cons b s =>
      by_cases h : a = b
      · simp [dropLead?, h, ih]
      · simp [dropLead?, h, Ne.symm h]

/-- What follows the string `lead` in the string `s`. -/
def after? (lead s : String) : Option String :=
  (dropLead? lead.toList s.toList).map String.ofList

theorem after?_eq_some_iff {lead s r : String} : after? lead s = some r ↔ s = lead ++ r := by
  simp only [after?, Option.map_eq_some_iff, dropLead?_eq_some_iff, String.ext_iff,
    String.toList_append]
  constructor
  · rintro ⟨rest, hs, hr⟩
    rw [hs, ← hr, String.toList_ofList]
  · exact fun hs => ⟨r.toList, hs, String.toList_ofList⟩

/-- What precedes `tail` in `s`, if `s` ends with it. -/
def before? (tail s : String) : Option String :=
  (dropLead? tail.toList.reverse s.toList.reverse).map fun r => String.ofList r.reverse

/-- Replaces the occurrences of `old` from left to right. The count is what is still to be skipped
of the occurrence that was just replaced. -/
def replaceFrom (old new : List Char) : Nat → List Char → List Char
  | _, [] => []
  | skip + 1, _ :: r => replaceFrom old new skip r
  | 0, c :: r =>
    if old.isPrefixOf (c :: r) then new ++ replaceFrom old new (old.length - 1) r
    else c :: replaceFrom old new 0 r

/-- Replaces every occurrence of a nonempty `old` by `new`. -/
def replace (old new s : String) : String :=
  lift (replaceFrom old.toList new.toList 0) s

/-- The lines of a text. A line ends at a line feed, or at a carriage return and a line feed; a
text that ends with a line end has no empty line after it. -/
def lines (s : String) : List String :=
  let ended := fun (piece : List Char) =>
    if piece.getLast? = some '\r' then piece.dropLast else piece
  match (split '\n' s.toList).reverse with
  | [] => []
  | [] :: before => (before.map ended).reverse.map String.ofList
  | open_ :: before => ((before.map ended).reverse ++ [open_]).map String.ofList

/-- The characters of Unicode's property White_Space. -/
def isBlank (c : Char) : Bool :=
  let n := c.toNat
  (0x09 ≤ n && n ≤ 0x0D) || n == 0x20 || n == 0x85 || n == 0xA0 || n == 0x1680
    || (0x2000 ≤ n && n ≤ 0x200A) || n == 0x2028 || n == 0x2029 || n == 0x202F || n == 0x205F
    || n == 0x3000

/-- A text without the blanks at its two ends. -/
def trim (s : String) : String :=
  lift (fun cs => (((cs.dropWhile isBlank).reverse).dropWhile isBlank).reverse) s

/-- `n` spaces. -/
def spaces (n : Nat) : String :=
  String.ofList (List.replicate n ' ')

/-- The value of a hexadecimal digit of either case. -/
def hexValue? (c : Char) : Option Nat :=
  if '0' ≤ c && c ≤ '9' then some (c.toNat - '0'.toNat)
  else if 'a' ≤ c && c ≤ 'f' then some (c.toNat - 'a'.toNat + 10)
  else if 'A' ≤ c && c ≤ 'F' then some (c.toNat - 'A'.toNat + 10)
  else none

/-- The value of a digit string read in base ten; other characters count as the digit zero. -/
def decimalValue (digits : List Char) : Nat :=
  digits.foldl (fun n d => 10 * n + (d.toNat - '0'.toNat)) 0

end TypedClients.Text
