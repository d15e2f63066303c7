import Mathlib.Data.List.Infix
import TypedClients.Script.Literal

/-!
# Where a comment ends

A comment is read up to the first `*/` behind its opening. It ends where its end was written exactly
if what was written into it holds none (`readComment_append_iff`). An escaped text holds none: what
replaces an end of a comment does not make a new one with the characters beside it
(`endFree_escapeCommentChars`).

## What it is for

Whether a comment is closed is a question about the reader of the script, so the reader is here: it
stops at the first end behind the opening. `Commented` says the rest, that the comment is there and
that code follows. Escaping is proved right once, for texts between other texts, and each writer of
comments has only to give its texts.

## What is not here

Comments that begin with two slashes. None is written.
-/

namespace TypedClients.Script

variable {note rest s t : List Char} {c : Char}

/-- What a comment holds, and what follows it, read from behind its opening. -/
def readComment : List Char → Option (List Char × List Char)
  | [] => none
  | '*' :: '/' :: r => some ([], r)
  | c :: r => (readComment r).map fun (note, rest) => (c :: note, rest)

/-- The text holds no end of a comment. -/
def EndFree (s : List Char) : Prop :=
  ¬ ['*', '/'] <:+: s

/-! ### Texts without an end -/

theorem endFree_cons_iff :
    EndFree (c :: s) ↔ ¬ (c = '*' ∧ s.head? = some '/') ∧ EndFree s := by
  have hprefix : ['*', '/'] <+: c :: s ↔ c = '*' ∧ s.head? = some '/' := by
    rw [List.cons_prefix_cons, List.singleton_prefix_iff_head?_eq_some]
    exact and_congr_left' eq_comm
  rw [EndFree, EndFree, List.infix_cons_iff, not_or, hprefix]

theorem EndFree.of_infix (h : EndFree s) (hpart : t <:+: s) : EndFree t :=
  fun hend => h (hend.trans hpart)

theorem endFree_of_notMem (h : '/' ∉ s) : EndFree s :=
  fun hend => h (hend.subset (by simp))

theorem endFree_cons_of_ne (hstar : c ≠ '*') : EndFree (c :: s) ↔ EndFree s := by
  rw [endFree_cons_iff]
  exact and_iff_right fun h => hstar h.1

/-- A character that is no part of an end keeps what stands on its two sides apart. -/
theorem endFree_append_cons (hstar : c ≠ '*') (hslash : c ≠ '/') :
    EndFree (s ++ c :: t) ↔ EndFree s ∧ EndFree t := by
  induction s with
  | nil =>
    have hnil : EndFree [] := endFree_of_notMem List.not_mem_nil
    rw [List.nil_append, endFree_cons_of_ne hstar]
    exact (and_iff_right hnil).symm
  | cons d s ih =>
    have hhead : (s ++ c :: t).head? = some '/' ↔ s.head? = some '/' := by
      cases s with
      | nil => simp [hslash]
      | cons e s => rfl
    rw [List.cons_append, endFree_cons_iff, endFree_cons_iff, ih, hhead, and_assoc]

theorem head?_escapeCommentChars (s : List Char) :
    (escapeCommentChars s).head? = s.head? := by
  fun_cases escapeCommentChars s <;> rfl

theorem endFree_escapeCommentChars (s : List Char) : EndFree (escapeCommentChars s) := by
  induction s using escapeCommentChars.induct with
  | case1 r ih =>
    rw [escapeCommentChars, endFree_cons_iff, endFree_cons_of_ne (by decide),
      endFree_cons_of_ne (by decide)]
    refine ⟨fun h => ?_, ih⟩
    rw [List.head?_cons] at h
    exact absurd h.2 (by decide)
  | case2 c r hends ih =>
    rw [escapeCommentChars.eq_2 c r hends, endFree_cons_iff, head?_escapeCommentChars]
    refine ⟨?_, ih⟩
    rintro ⟨hc, hr⟩
    obtain ⟨rest, rfl⟩ := List.head?_eq_some_iff.mp hr
    exact hends rest hc rfl
  | case3 => exact endFree_of_notMem List.not_mem_nil

theorem endFree_append (hs : EndFree s) (ht : EndFree t)
    (hends : s.getLast? ≠ some '*' ∨ t.head? ≠ some '/') : EndFree (s ++ t) := by
  induction s with
  | nil => exact ht
  | cons c s ih =>
    rw [endFree_cons_iff] at hs
    rw [List.cons_append, endFree_cons_iff]
    cases s with
    | nil =>
      refine ⟨fun h => ?_, ht⟩
      rcases hends with hlast | hhead
      · exact hlast (congrArg some h.1)
      · exact hhead h.2
    | cons d s => exact ⟨hs.1, ih hs.2 (by rwa [List.getLast?_cons_cons] at hends)⟩

/-- An escaped text may stand between texts that neither begin nor complete an end. -/
theorem endFree_quoting {before after : String} (text : String) (hbefore : EndFree before.toList)
    (hafter : EndFree after.toList) (hlast : before.toList.getLast? ≠ some '*')
    (hfirst : after.toList.head? ≠ some '/') :
    EndFree (before ++ (escapeComment text ++ after)).toList := by
  rw [String.toList_append, String.toList_append, escapeComment, Text.toList_lift]
  exact endFree_append hbefore
    (endFree_append (endFree_escapeCommentChars _) hafter (.inr hfirst)) (.inl hlast)

/-! ### Reading -/

/-- A comment ends at the end that is written for it exactly if there is none before. -/
theorem readComment_append_iff :
    readComment (note ++ '*' :: '/' :: rest) = some (note, rest) ↔ EndFree note := by
  induction note with
  | nil => exact iff_of_true rfl (endFree_of_notMem List.not_mem_nil)
  | cons c note ih =>
    rw [endFree_cons_iff, ← ih, List.cons_append]
    by_cases hend : c = '*' ∧ note.head? = some '/'
    · obtain ⟨rfl, hhead⟩ := hend
      obtain ⟨more, rfl⟩ := List.head?_eq_some_iff.mp hhead
      simp [readComment]
    · have hopen : ∀ r, c = '*' → note ++ '*' :: '/' :: rest = '/' :: r → False := by
        intro r hc hr
        cases note with
        | nil => simp at hr
        | cons d note =>
          obtain ⟨rfl, -⟩ := List.cons.inj hr
          exact hend ⟨hc, rfl⟩
      rw [readComment.eq_3 c _ hopen]
      simp [hend]

/-- The text is made of what stands before a comment, the comment, and what stands behind it. The
comment holds the note and nothing more: whoever reads it from its opening stops at the end that was
written behind the note. -/
structure Commented (lead note rest text : String) : Prop where
  text_eq : text = lead ++ ("/*" ++ (note ++ ("*/" ++ rest)))
  read : readComment (note ++ ("*/" ++ rest)).toList = some (note.toList, rest.toList)

theorem Commented.of_endFree {lead note rest text : String} (h : EndFree note.toList)
    (htext : text = lead ++ ("/*" ++ (note ++ ("*/" ++ rest)))) :
    Commented lead note rest text where
  text_eq := htext
  read := by
    rw [String.toList_append, String.toList_append]
    exact readComment_append_iff.mpr h

end TypedClients.Script
