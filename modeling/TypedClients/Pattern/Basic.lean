import TypedClients.Text.Basic
import TypedClients.Text.Word

/-!
# Patterns

A pattern matches a piece of a text. Of two alternatives the first that leads to a match is taken,
and a repetition takes as much as it can. Matching is written with a continuation, which says
whether what follows the pattern matches too.

## How a match is found

The match that is taken is the one that a backtracking search finds first, from left to right:
alternatives in their order, repetitions as often as possible and then less often. Groups hold what
they matched last. A round of a repetition has to take a character, so every search ends. The two
ends of the text can be asked for, but not those of its lines.

## What is not here

Repetitions that take as little as they can, counted repetitions, flags, references to groups, and
everything that looks ahead or behind. Ranges go by code points, and the named classes are those of
Unicode.
-/

namespace TypedClients

/-- A set of characters. -/
inductive CharSet where
  | range (low high : Char)
  | word
  | digit
  | blank
  | negated (of : CharSet)

/-- Whether a character is in a set. -/
def CharSet.contains (c : Char) : CharSet → Bool
  | .range low high => low ≤ c && c ≤ high
  | .word => Text.isWord c
  | .digit => Text.isDecimal c
  | .blank => Text.isBlank c
  | .negated of => !of.contains c

/-- A pattern. -/
inductive Pattern where
  | empty
  | start
  | finish
  /-- Any character but a line feed. -/
  | any
  /-- A character of one of the sets, or of none of them. -/
  | oneOf (negated : Bool) (sets : List CharSet)
  | seq (first second : Pattern)
  | alt (first second : Pattern)
  | many (pattern : Pattern)
  | group (index : Nat) (pattern : Pattern)

/-- How far a match has come: what is left of the text, how many characters are before it, and
what the groups hold, the latest first. -/
structure Progress where
  rest : List Char
  position : Nat
  groups : List (Nat × List Char)

namespace Pattern

/-- Takes one character, if it passes. -/
def takeChar (passes : Char → Bool) (p : Progress) (k : Progress → Option Progress) :
    Option Progress :=
  match p.rest with
  | c :: rest => if passes c then k { p with rest := rest, position := p.position + 1 } else none
  | [] => none

/-- Takes as many rounds as it can, each of which has to take a character. The bound is one for
each character that is left. -/
def repeatRounds (round : Progress → (Progress → Option Progress) → Option Progress) :
    (bound : Nat) → Progress → (Progress → Option Progress) → Option Progress
  | 0, p, k => k p
  | bound + 1, p, k =>
    let next (q : Progress) : Option Progress :=
      if q.position = p.position then none else repeatRounds round bound q k
    match round p next with
    | some q => some q
    | none => k p

/-- Matches a pattern at the point that has been reached, and then what follows it. -/
def run : Pattern → Progress → (Progress → Option Progress) → Option Progress
  | .empty, p, k => k p
  | .start, p, k => if p.position = 0 then k p else none
  | .finish, p, k => if p.rest.isEmpty then k p else none
  | .any, p, k => takeChar (fun c => c != '\n') p k
  | .oneOf negated sets, p, k =>
    takeChar (fun c => (sets.any fun s => s.contains c) != negated) p k
  | .seq first second, p, k => run first p fun q => run second q k
  | .alt first second, p, k =>
    match run first p k with
    | some q => some q
    | none => run second p k
  | .many pattern, p, k => repeatRounds (run pattern) (p.rest.length + 1) p k
  | .group index pattern, p, k =>
    run pattern p fun q =>
      k { q with groups := (index, p.rest.take (q.position - p.position)) :: q.groups }

/-- The match of a pattern at a position of a text. -/
def matchAt? (pattern : Pattern) (rest : List Char) (position : Nat) : Option Progress :=
  run pattern ⟨rest, position, []⟩ some

/-- A match: the whole of it, what its groups hold, and what is left behind it. -/
structure Found where
  whole : List Char
  groups : List (Nat × List Char)
  rest : List Char
  position : Nat

/-- The first match from a position on. -/
def find? (pattern : Pattern) : (position : Nat) → List Char → Option Found
  | position, [] =>
    (pattern.matchAt? [] position).map fun p => ⟨[], p.groups, p.rest, p.position⟩
  | position, c :: r =>
    match pattern.matchAt? (c :: r) position with
    | some p => some ⟨(c :: r).take (p.position - position), p.groups, p.rest, p.position⟩
    | none => find? pattern (position + 1) r

/-- What a group holds in a match; the group with the number zero is the whole of it, and one that
took no part is empty. -/
def Found.group (found : Found) (index : Nat) : List Char :=
  if index = 0 then found.whole
  else match found.groups.find? fun g => g.1 == index with
    | some (_, held) => held
    | none => []

/-- Replaces the matches from left to right, each by what it makes of itself. A match without
characters does not count where the match before it has ended. `skip` is what is left of a match
that has been replaced. -/
def replaceFrom (pattern : Pattern) (new : Found → List Char) :
    (skip : Nat) → (last : Option Nat) → (position : Nat) → List Char → List Char
  | skip + 1, last, position, _ :: r => replaceFrom pattern new skip last (position + 1) r
  | _, last, position, [] =>
    match pattern.matchAt? [] position with
    | some p => if last = some position then [] else new ⟨[], p.groups, p.rest, p.position⟩
    | none => []
  | 0, last, position, c :: r =>
    match pattern.matchAt? (c :: r) position with
    | some p =>
      let found : Found := ⟨(c :: r).take (p.position - position), p.groups, p.rest, p.position⟩
      if p.position = position then
        (if last = some position then [] else new found)
          ++ c :: replaceFrom pattern new 0 (some position) (position + 1) r
      else
        new found ++ replaceFrom pattern new (p.position - position - 1) (some p.position)
          (position + 1) r
    | none => c :: replaceFrom pattern new 0 last (position + 1) r

/-- Replaces every match in a text. -/
def replaceAll (pattern : Pattern) (new : Found → List Char) (text : List Char) : List Char :=
  replaceFrom pattern new 0 none 0 text

/-- Replaces the first match in a text. -/
def replaceFirst (pattern : Pattern) (new : Found → List Char) (text : List Char) : List Char :=
  match pattern.find? 0 text with
  | some found => text.take (found.position - found.whole.length) ++ new found ++ found.rest
  | none => text

end Pattern

end TypedClients
