import Mathlib.Data.List.Basic
import TypedClients.Text.Basic

/-!
# Pieces and lines

A text is split at each separator, so its first piece ends at the first of them
(`split_append_sep`), and what holds of a text follows piece by piece (`split_induction`). The lines
of a text are its pieces between line feeds, but that a line which has ended does not keep a
carriage return (`lines_append_feed`).

## What it is for

A text that is indented, or read line by line, is taken apart and put together again, and what holds
of the whole has to be known of the lines. A line that has ended may lose a carriage return, so
lines are not just pieces; `ended_prefix` says that they lose nothing else.
-/

namespace TypedClients.Text

variable {sep : Char} {s : List Char}

theorem split_append_sep (h : sep ∉ s) (r : List Char) :
    split sep (s ++ sep :: r) = s :: split sep r := by
  induction s with
  | nil => rw [List.nil_append, split, if_pos rfl]
  | cons c s ih =>
    rw [List.mem_cons, not_or] at h
    rw [List.cons_append, split, if_neg (Ne.symm h.1), ih h.2]

theorem split_eq_singleton (h : sep ∉ s) : split sep s = [s] := by
  induction s with
  | nil => rw [split]
  | cons c s ih =>
    rw [List.mem_cons, not_or] at h
    rw [split, if_neg (Ne.symm h.1), ih h.2]

/-- What holds of every text without a separator, and of a piece before a separator and a text of
which it holds, holds of every text. -/
theorem split_induction (sep : Char) {motive : List Char → Prop}
    (last : ∀ piece, sep ∉ piece → motive piece)
    (more : ∀ piece rest, sep ∉ piece → motive rest → motive (piece ++ sep :: rest))
    (s : List Char) : motive s := by
  by_cases h : sep ∈ s
  · obtain ⟨piece, rest, hs, hpiece⟩ := List.eq_append_cons_of_mem h
    have hshorter : rest.length < s.length := by
      rw [hs, List.length_append, List.length_cons]
      omega
    rw [hs]
    exact more piece rest hpiece (split_induction sep last more rest)
  · exact last s h
termination_by s.length

/-! ### Lines -/

/-- A line as it stands before its line feed. -/
def ended (line : List Char) : List Char :=
  if line.getLast? = some '\r' then line.dropLast else line

theorem ended_prefix (line : List Char) : ended line <+: line := by
  rw [ended]
  split
  · exact line.dropLast_prefix
  · exact List.prefix_refl line

/-- A character before a line may only be lost if it is a carriage return. -/
theorem ended_cons {c : Char} (hc : c ≠ '\r') (line : List Char) :
    ended (c :: line) = c :: ended line := by
  cases line with
  | nil =>
    exact if_neg fun h => hc (Option.some.inj h)
  | cons d line =>
    rw [ended, ended, List.getLast?_cons_cons, apply_ite (List.cons c), List.dropLast_cons_cons]

theorem ended_eq_self (h : s.getLast? ≠ some '\r') : ended s = s :=
  if_neg h

theorem lines_append_feed (h : '\n' ∉ s) (r : List Char) :
    lines (String.ofList (s ++ '\n' :: r))
      = String.ofList (ended s) :: lines (String.ofList r) := by
  have hne : (split '\n' r).reverse ≠ [] := fun h => split_ne_nil _ _ (List.reverse_eq_nil_iff.mp h)
  obtain ⟨last, before, hpieces⟩ := List.exists_cons_of_ne_nil hne
  rw [lines, lines, String.toList_ofList, String.toList_ofList, split_append_sep h,
    List.reverse_cons, hpieces]
  cases last with
  | nil => simp [ended]
  | cons c last => simp [ended]

theorem lines_eq_singleton (h : '\n' ∉ s) (hne : s ≠ []) :
    lines (String.ofList s) = [String.ofList s] := by
  obtain ⟨c, r, rfl⟩ := List.exists_cons_of_ne_nil hne
  rw [lines, String.toList_ofList, split_eq_singleton h]
  rfl

theorem lines_ne_nil (hne : s ≠ []) : lines (String.ofList s) ≠ [] := by
  by_cases h : '\n' ∈ s
  · obtain ⟨line, r, rfl, hline⟩ := List.eq_append_cons_of_mem h
    rw [lines_append_feed hline]
    exact List.cons_ne_nil _ _
  · rw [lines_eq_singleton h hne]
    exact List.cons_ne_nil _ _

end TypedClients.Text
