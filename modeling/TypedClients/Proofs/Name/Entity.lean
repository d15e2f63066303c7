import Mathlib.Data.List.Basic
import TypedClients.Name.Derived
import TypedClients.Proofs.Name.Case

/-!
# The names that entities can have

An entity is named by the Pascal case of its file's stem, made into a name for a declaration. Where
a name in ASCII comes out, only an ASCII letter in front can have been raised, but for the few names
that begin like the capital form of another character (`upper_append_eq_cons_iff`), and where it
holds no underscore, nothing was replaced or added (`binding_eq_iff`). So the stems that give such a
name are those whose camel case is the name, or the name with a small letter in front; a name that
begins with a small letter is given by none (`entity_eq_iff`).

## What is assumed

`isDirect` asks that the name is made of ASCII letters, can be declared, and does not begin like the
capital form of a character outside ASCII. It can be computed. For other names there are more stems,
with characters that become underscores or with a first character that is raised to several.
-/

namespace TypedClients

/-! ### Raising a character -/

namespace Text

/-- A capital letter of ASCII is raised from itself and from its small letter. -/
theorem toUpper_eq_iff {c t : Char} (ht : t.isUpper = true) :
    c.toUpper = t ↔ c = t ∨ c = t.toLower := by
  constructor
  · rintro rfl
    by_cases hc : c.isLower = true
    · have hsmall := of_forall_ascii (p := fun c => c.isLower = true → c.toUpper.toLower = c)
        (by decide) (toNat_lt_of_isLower hc)
      exact .inr (hsmall hc).symm
    · rw [toUpper_of_not_isLower hc]
      exact .inl rfl
  · have hcapital := of_forall_ascii
      (p := fun t => t.isUpper = true → t.toUpper = t ∧ t.toLower.toUpper = t)
      (by decide) (toNat_lt_of_isUpper ht)
    rintro (rfl | rfl)
    · exact (hcapital ht).1
    · exact (hcapital ht).2

/-- No character outside ASCII has a capital form that the text begins with. -/
def isRaisedFromAscii (text : List Char) : Bool :=
  longCapitals.all (fun entry => !(entry.2.map Char.ofNat).isPrefixOf text)
    && text.head?.all fun t => 0 < t.toNat && t.toNat < 0x80
      && caseRuns.all fun run =>
        let code := (t.toNat - run.shift).toNat
        !run.covers code || code < 0x80

variable {c t : Char} {r rest : List Char}

theorem upper_append_ne_of_not_ascii (h : isRaisedFromAscii (t :: rest) = true)
    (hc : ¬ c.toNat < 0x80) : upper c ++ r ≠ t :: rest := by
  simp only [isRaisedFromAscii, List.head?_cons, Option.all_some, Bool.and_eq_true,
    decide_eq_true_eq] at h
  obtain ⟨hlong, ⟨hpos, hascii⟩, hruns⟩ := h
  intro heq
  unfold upper at heq
  rw [if_neg hc] at heq
  split at heq
  · next codes hcodes =>
    obtain ⟨before, after, hlist, -⟩ := List.lookup_eq_some_iff.mp hcodes
    have hentry := List.all_eq_true.mp hlong (c.toNat, codes) (by simp [hlist])
    rw [← heq, List.isPrefixOf_iff_prefix.mpr (List.prefix_append _ _)] at hentry
    cases hentry
  · split at heq
    · next run hfound =>
      have ht : Char.ofNat (c.toNat + run.shift).toNat = t := (List.cons.inj heq).1
      have hcode : (c.toNat + run.shift).toNat = t.toNat := by
        rw [← ht, toNat_ofNat]
        split
        · rfl
        · next hinvalid =>
          rw [← ht, toNat_ofNat, if_neg hinvalid] at hpos
          exact absurd hpos (Nat.lt_irrefl 0)
      have hback : (t.toNat - run.shift).toNat = c.toNat := by omega
      have hrun := List.all_eq_true.mp hruns run (List.mem_of_find?_eq_some hfound)
      simp only [hback, List.find?_some hfound, Bool.not_true, Bool.false_or,
        decide_eq_true_eq] at hrun
      exact hc hrun
    · rw [(List.cons.inj heq).1] at hc
      exact hc hascii

theorem upper_append_eq_cons_iff (h : isRaisedFromAscii (t :: rest) = true) :
    upper c ++ r = t :: rest ↔ c.toUpper = t ∧ r = rest := by
  by_cases hc : c.toNat < 0x80
  · rw [upper_of_ascii hc, List.singleton_append, List.cons.injEq]
  · refine iff_of_false (upper_append_ne_of_not_ascii h hc) ?_
    rintro ⟨rfl, rfl⟩
    have hsame := toUpper_of_not_isLower fun hlower => hc (toNat_lt_of_isLower hlower)
    simp only [isRaisedFromAscii, List.head?_cons, Option.all_some, Bool.and_eq_true,
      decide_eq_true_eq, hsame] at h
    exact hc h.2.1.2

end Text

namespace Name

/-- The texts that become the name when their first character is raised, where it begins with a
letter. -/
def spellings (name : String) : List String :=
  match name.toList with
  | [] => []
  | t :: rest => if t.isUpper then [name, String.ofList (t.toLower :: rest)] else []

theorem raiseFirst_eq_iff {s name : String} {t : Char} {rest : List Char}
    (hname : name.toList = t :: rest) (hletter : t.isAlpha = true)
    (hraised : Text.isRaisedFromAscii name.toList = true) :
    raiseFirst s.toList = name.toList ↔ s ∈ spellings name := by
  simp only [spellings, hname] at hraised ⊢
  by_cases ht : t.isUpper = true
  · rw [if_pos ht, List.mem_pair, ← String.toList_inj, ← String.toList_inj, hname,
      String.toList_ofList]
    cases s.toList with
    | nil => simp [raiseFirst]
    | cons c r =>
      rw [raiseFirst, Text.upper_append_eq_cons_iff hraised, Text.toUpper_eq_iff ht, or_and_right,
        List.cons.injEq, List.cons.injEq]
  · refine iff_of_false ?_ (by rw [if_neg ht]; exact List.not_mem_nil)
    cases s.toList with
    | nil => simp [raiseFirst]
    | cons c r =>
      rw [raiseFirst, Text.upper_append_eq_cons_iff hraised]
      rintro ⟨rfl, -⟩
      exact ((Bool.or_eq_true _ _).mp hletter).elim ht (Text.not_isLower_toUpper c)

/-! ### Names of declarations -/

/-- A name in ASCII letters that can be declared, and that no character outside ASCII is raised to. -/
def isDirect (name : String) : Bool :=
  isIdentifier name && name.toList.all Char.isAlpha && !isReserved name
    && Text.isRaisedFromAscii name.toList

theorem binding_eq_iff {s name : String} (hname : isIdentifier name = true)
    (hunderscore : '_' ∉ name.toList) (hfree : isReserved name = false) :
    binding s = name ↔ s = name := by
  constructor
  · intro h
    rw [binding] at h
    split at h
    · rw [← h, String.toList_append] at hunderscore
      exact absurd (List.mem_append_right _ (by decide)) hunderscore
    · have hchars : sanitizeChars s.toList = name.toList := by
        rw [← h, sanitize, Text.toList_lift]
      rw [sanitizeChars_eq_self (hchars ▸ hunderscore)] at hchars
      exact String.toList_inj.mp hchars
  · rintro rfl
    exact binding_eq_self_iff.mpr ⟨hname, hfree⟩

/-- An entity has such a name if the camel case of its stem is the name, or the name with a small
letter in front. -/
theorem entity_eq_iff {stem name : String} (h : isDirect name = true) :
    entity stem = name ↔ camel stem ∈ spellings name := by
  simp only [isDirect, Bool.and_eq_true, Bool.not_eq_true'] at h
  obtain ⟨⟨⟨hname, hletters⟩, hfree⟩, hraised⟩ := h
  rw [List.all_eq_true] at hletters
  have hunderscore : '_' ∉ name.toList := fun hmem => absurd (hletters _ hmem) (by decide)
  have hpascal : (pascal stem).toList = raiseFirst (camel stem).toList := by
    rw [pascal, Text.toList_lift, camel, Text.toList_lift, pascalChars]
  rw [entity, binding_eq_iff hname hunderscore hfree, ← String.toList_inj, hpascal]
  cases hchars : name.toList with
  | nil =>
    rw [isIdentifier, hchars] at hname
    cases hname
  | cons t rest =>
    rw [← hchars]
    exact raiseFirst_eq_iff hchars (hletters t (hchars ▸ List.mem_cons_self)) hraised

end Name

end TypedClients
