import TypedClients.Node.Basic
import TypedClients.Proofs.Script.Token

/-!
# Types of the generated script

The types that are written in the generated modules, and how their text is read: alternatives are
separated by bars, brackets behind an operand make an array of it and bind tighter, parentheses
group. The readers are mutually recursive and count down a fuel; a text reads as a type if it does
so with any fuel from some amount on (`Reads`), which is never so for two types (`reads_unique`).

## What is read

Names with a path and arguments, primitives, objects with optional fields, arrays, groups in
parentheses, and alternatives. This is what the generated modules use, and a text with anything else
is not read at all. `Agrees` takes unions in unions apart, as a script does: a type does not know
how its alternatives were grouped.
-/

namespace TypedClients

/-- The primitive that a word means. -/
def Primitive.ofWord? (word : String) : Option Primitive :=
  [.string, .number, .boolean, .null, .void, .unknown].find? fun kind => kind.word == word

theorem Primitive.ofWord?_word (kind : Primitive) : Primitive.ofWord? kind.word = some kind := by
  cases kind <;> decide

theorem Primitive.ofWord?_of_not_isReserved {word : String} (h : Name.isReserved word = false) :
    Primitive.ofWord? word = none := by
  refine List.find?_eq_none.mpr fun kind _ hword => ?_
  have hkind : Name.isReserved kind.word = true := by cases kind <;> decide
  rw [beq_iff_eq.mp hword, h] at hkind
  cases hkind

namespace Script

/-- A type. The fields of an object come with whether they are optional. -/
inductive TypeTerm where
  | named (path : List String) (arguments : List TypeTerm)
  | prim (kind : Primitive)
  | object (fields : List (String × Bool × TypeTerm))
  | array (items : TypeTerm)
  | union (members : List TypeTerm)

namespace TypeTerm

/-- The type of the alternatives; one alone is no union. -/
def ofAlternatives : List TypeTerm → TypeTerm
  | [type] => type
  | types => .union types

/-! ### Reading -/

/-- The steps of a path behind its first word. -/
def readPath : List Token → List String × List Token
  | .sign '.' :: .word name :: rest => (name :: (readPath rest).1, (readPath rest).2)
  | rest => ([], rest)

/-- The brackets behind an operand. -/
def readBrackets : TypeTerm → List Token → TypeTerm × List Token
  | type, .sign '[' :: .sign ']' :: rest => readBrackets (.array type) rest
  | type, rest => (type, rest)

/-- The mark of an optional field. -/
def readMark : List Token → Bool × List Token
  | .sign '?' :: rest => (true, rest)
  | rest => (false, rest)

/-- What follows the sign. -/
def expect (c : Char) : List Token → Option (List Token)
  | .sign d :: rest => if d = c then some rest else none
  | _ => none

mutual

/-- Alternatives that are separated by bars. -/
def readType : (fuel : Nat) → List Token → Option (TypeTerm × List Token)
  | 0, _ => none
  | fuel + 1, ts => do
    let (first, rest) ← readPostfix fuel ts
    let (others, rest) ← readOthers fuel rest
    some (ofAlternatives (first :: others), rest)

/-- The alternatives behind the first one. -/
def readOthers : (fuel : Nat) → List Token → Option (List TypeTerm × List Token)
  | 0, _ => none
  | fuel + 1, .sign '|' :: ts => do
    let (next, rest) ← readPostfix fuel ts
    let (others, rest) ← readOthers fuel rest
    some (next :: others, rest)
  | _ + 1, ts => some ([], ts)

/-- An operand with its brackets. -/
def readPostfix : (fuel : Nat) → List Token → Option (TypeTerm × List Token)
  | 0, _ => none
  | fuel + 1, ts => do
    let (operand, rest) ← readOperand fuel ts
    some (readBrackets operand rest)

/-- A name, a primitive, an object or a group. -/
def readOperand : (fuel : Nat) → List Token → Option (TypeTerm × List Token)
  | 0, _ => none
  | fuel + 1, .sign '(' :: ts => do
    let (type, rest) ← readType fuel ts
    let rest ← expect ')' rest
    some (type, rest)
  | fuel + 1, .sign '\x7b' :: ts => do
    let (fields, rest) ← readFields fuel ts
    some (.object fields, rest)
  | fuel + 1, .word name :: ts =>
    match Primitive.ofWord? name with
    | some kind => some (.prim kind, ts)
    | none => do
      let (arguments, rest) ← readArguments fuel (readPath ts).2
      some (.named (name :: (readPath ts).1) arguments, rest)
  | _ + 1, _ => none

/-- The fields of an object, and its closing brace. -/
def readFields : (fuel : Nat) → List Token → Option (List (String × Bool × TypeTerm) × List Token)
  | 0, _ => none
  | fuel + 1, .text key :: ts => do
    let rest ← expect ':' (readMark ts).2
    let (type, rest) ← readType fuel rest
    let (fields, rest) ← readMoreFields fuel rest
    some ((key, (readMark ts).1, type) :: fields, rest)
  | _ + 1, .sign '\x7d' :: ts => some ([], ts)
  | _ + 1, _ => none

/-- The fields behind the first one. -/
def readMoreFields : (fuel : Nat) → List Token →
    Option (List (String × Bool × TypeTerm) × List Token)
  | 0, _ => none
  | fuel + 1, .sign ';' :: ts => readFields fuel ts
  | _ + 1, .sign '\x7d' :: ts => some ([], ts)
  | _ + 1, _ => none

/-- The arguments of a name, if it has any. -/
def readArguments : (fuel : Nat) → List Token → Option (List TypeTerm × List Token)
  | 0, _ => none
  | fuel + 1, .sign '<' :: ts => readArgumentList fuel ts
  | _ + 1, ts => some ([], ts)

/-- Arguments that are separated by commas, and the bracket that closes them. -/
def readArgumentList : (fuel : Nat) → List Token → Option (List TypeTerm × List Token)
  | 0, _ => none
  | fuel + 1, ts => do
    let (first, rest) ← readType fuel ts
    match rest with
    | .sign ',' :: rest => do
      let (others, rest) ← readArgumentList fuel rest
      some (first :: others, rest)
    | .sign '>' :: rest => some ([first], rest)
    | _ => none

end

/-! ### Flattening -/

mutual

/-- The alternatives of a type, those of the unions in it among them; the types inside are given as
unions of their alternatives. -/
def alternatives : TypeTerm → List TypeTerm
  | .named path arguments => [.named path (flatArguments arguments)]
  | .prim kind => [.prim kind]
  | .object fields => [.object (flatFields fields)]
  | .array items => [.array (.union (alternatives items))]
  | .union members => alternativesOfMembers members

/-- The flattened arguments of a name. -/
def flatArguments : List TypeTerm → List TypeTerm
  | [] => []
  | type :: rest => .union (alternatives type) :: flatArguments rest

/-- The flattened fields of an object. -/
def flatFields : List (String × Bool × TypeTerm) → List (String × Bool × TypeTerm)
  | [] => []
  | (key, optional, type) :: rest => (key, optional, .union (alternatives type)) :: flatFields rest

/-- The alternatives of the members of a union. -/
def alternativesOfMembers : List TypeTerm → List TypeTerm
  | [] => []
  | type :: rest => alternatives type ++ alternativesOfMembers rest

end

/-- The types are the same up to flattening of nested unions. -/
def Agrees (type other : TypeTerm) : Prop :=
  type.alternatives = other.alternatives

theorem flatFields_eq_map (fields : List (String × Bool × TypeTerm)) :
    flatFields fields = fields.map fun f => (f.1, f.2.1, .union f.2.2.alternatives) := by
  induction fields with
  | nil => rw [flatFields, List.map_nil]
  | cons field fields ih => rw [flatFields, ih, List.map_cons]

theorem alternativesOfMembers_eq_flatMap (types : List TypeTerm) :
    alternativesOfMembers types = types.flatMap alternatives := by
  induction types with
  | nil => rw [alternativesOfMembers, List.flatMap_nil]
  | cons type types ih => rw [alternativesOfMembers, ih, List.flatMap_cons]

theorem alternatives_ofAlternatives (types : List TypeTerm) :
    (ofAlternatives types).alternatives = types.flatMap alternatives := by
  match types with
  | [] => rfl
  | [type] => rw [ofAlternatives, List.flatMap_singleton]
  | first :: second :: rest =>
    rw [← alternativesOfMembers_eq_flatMap]
    rfl

end TypeTerm

/-- With enough fuel the result is `a`, whatever more there is. -/
def Settles {α : Type} (f : Nat → Option α) (a : α) : Prop :=
  ∃ bound, ∀ fuel, bound ≤ fuel → f fuel = some a

/-- The text is a type, read to its end. -/
def TypeTerm.Reads (text : String) (type : TypeTerm) : Prop :=
  ∃ ts, tokens text.toList = some ts ∧
    Settles (fun fuel => TypeTerm.readType fuel ts) (type, [])

/-- A text is read as one type at most. -/
theorem TypeTerm.reads_unique {text : String} {type other : TypeTerm}
    (h : TypeTerm.Reads text type) (h' : TypeTerm.Reads text other) : type = other := by
  obtain ⟨ts, hts, bound, h⟩ := h
  obtain ⟨us, hus, bound', h'⟩ := h'
  obtain rfl := Option.some.inj (hts.symm.trans hus)
  have heq := (h (max bound bound') (by omega)).symm.trans (h' (max bound bound') (by omega))
  cases heq
  rfl

end Script

end TypedClients
