import TypedClients.Proofs.Text.Uppercase

/-!
# Pascal case twice

Camel case drops one separator in front of a plain character and goes on behind that character, so
of two separators in front of one it leaves one there (`joinable_camelChars_iff`), and would drop it
if it were applied again. A first character that is raised makes no difference: it stays as it is
when it is raised again, and it is a separator only if it was one. So a text that is in Pascal case
stays as it is exactly if no two separators stood in front of a plain character
(`pascal_pascal_iff`).

## What is proved

`pascal_pascal_iff` — for every text: Pascal case applied twice is the same as once exactly if no
two separators stand in front of a plain character of the text, and it is exactly for such texts
that camel case leaves no separator to be dropped.

The induction is along the scan of camel case. What the scan leaves in front of a character is
decided two characters earlier, so it is carried along whether the rest begins with a plain
character, or with a separator in front of one.
-/

namespace TypedClients.Name

variable {a b c : Char} {s t : List Char}

/-! ### Separators in front of plain characters -/

/-- A separator stands in front of a plain character, so that camel case drops it. -/
def Joinable (s : List Char) : Prop :=
  ∃ a b, isSeparator a = true ∧ isPlain b = true ∧ [a, b] <:+: s

/-- Two separators stand in front of a plain character, which may be an underscore. -/
def Crowded (s : List Char) : Prop :=
  ∃ a b c, isSeparator a = true ∧ isSeparator b = true ∧ isPlain c = true ∧ [a, b, c] <:+: s

/-- The text begins with a plain character. -/
def StartsPlain (s : List Char) : Prop :=
  ∃ c ∈ s.head?, isPlain c = true

/-- The text begins with a separator in front of a plain character. -/
def StartsJoinable (s : List Char) : Prop :=
  ∃ a r, s = a :: r ∧ isSeparator a = true ∧ StartsPlain r

theorem startsPlain_cons_iff : StartsPlain (c :: s) ↔ isPlain c = true := by
  simp [StartsPlain]

theorem startsJoinable_cons_iff :
    StartsJoinable (a :: s) ↔ isSeparator a = true ∧ StartsPlain s := by
  constructor
  · rintro ⟨_, _, heq, h⟩
    cases heq
    exact h
  · exact fun h => ⟨a, s, rfl, h⟩

theorem not_startsPlain_nil : ¬ StartsPlain [] := by
  simp [StartsPlain]

theorem not_startsJoinable_nil : ¬ StartsJoinable [] := by
  simp [StartsJoinable]

theorem joinable_cons_iff :
    Joinable (a :: s) ↔ (isSeparator a = true ∧ StartsPlain s) ∨ Joinable s := by
  constructor
  · rintro ⟨x, y, hx, hy, hinfix⟩
    rcases List.infix_cons_iff.mp hinfix with hprefix | hinfix
    · obtain ⟨rfl, rest, rfl⟩ := List.cons_prefix_cons.mp hprefix
      exact .inl ⟨hx, startsPlain_cons_iff.mpr hy⟩
    · exact .inr ⟨x, y, hx, hy, hinfix⟩
  · rintro (⟨ha, b, hb, hplain⟩ | ⟨x, y, hx, hy, hinfix⟩)
    · obtain ⟨rest, rfl⟩ := List.head?_eq_some_iff.mp hb
      exact ⟨a, b, ha, hplain, List.infix_cons_iff.mpr (.inl ⟨rest, rfl⟩)⟩
    · exact ⟨x, y, hx, hy, List.infix_cons_iff.mpr (.inr hinfix)⟩

theorem crowded_cons_iff :
    Crowded (a :: s) ↔ (isSeparator a = true ∧ StartsJoinable s) ∨ Crowded s := by
  constructor
  · rintro ⟨x, y, z, hx, hy, hz, hinfix⟩
    rcases List.infix_cons_iff.mp hinfix with hprefix | hinfix
    · obtain ⟨rfl, rest, rfl⟩ := List.cons_prefix_cons.mp hprefix
      exact .inl ⟨hx, startsJoinable_cons_iff.mpr ⟨hy, startsPlain_cons_iff.mpr hz⟩⟩
    · exact .inr ⟨x, y, z, hx, hy, hz, hinfix⟩
  · rintro (⟨ha, b, _, rfl, hb, c, hc, hplain⟩ | ⟨x, y, z, hx, hy, hz, hinfix⟩)
    · obtain ⟨rest, rfl⟩ := List.head?_eq_some_iff.mp hc
      exact ⟨a, b, c, ha, hb, hplain, List.infix_cons_iff.mpr (.inl ⟨rest, rfl⟩)⟩
    · exact ⟨x, y, z, hx, hy, hz, List.infix_cons_iff.mpr (.inr hinfix)⟩

theorem not_joinable_nil : ¬ Joinable [] := by
  simp [Joinable]

theorem not_crowded_nil : ¬ Crowded [] := by
  simp [Crowded]

/-! ### What camel case leaves -/

/-- Raising makes no separator and takes none away. -/
theorem isSeparator_toUpper (c : Char) : isSeparator c.toUpper = isSeparator c := by
  by_cases hc : c.isLower = true
  · exact Text.of_forall_ascii
      (p := fun c => c.isLower = true → isSeparator c.toUpper = isSeparator c)
      (by decide) (Text.toNat_lt_of_isLower hc) hc
  · rw [Text.toUpper_of_not_isLower hc]

theorem startsPlain_camelChars_iff :
    StartsPlain (camelChars s) ↔ StartsPlain s ∨ StartsJoinable s := by
  fun_cases camelChars s with
  | case1 a b r hraise =>
    rw [Bool.and_eq_true] at hraise
    refine iff_of_true (startsPlain_cons_iff.mpr (isPlain_toUpper hraise.2)) (.inr ?_)
    exact startsJoinable_cons_iff.mpr ⟨hraise.1, startsPlain_cons_iff.mpr hraise.2⟩
  | case2 a b r hkeep =>
    rw [Bool.and_eq_true] at hkeep
    rw [startsPlain_cons_iff, startsPlain_cons_iff, startsJoinable_cons_iff, startsPlain_cons_iff,
      or_iff_left hkeep]
  | case3 a =>
    rw [startsJoinable_cons_iff, or_iff_left fun h => not_startsPlain_nil h.2]
  | case4 => rw [or_iff_left not_startsJoinable_nil]

/-- Camel case leaves a separator in front of a plain character exactly where two of them stood in
front of one. -/
theorem joinable_camelChars_iff : Joinable (camelChars s) ↔ Crowded s := by
  fun_induction camelChars s with
  | case1 a b r hraise ih =>
    rw [Bool.and_eq_true] at hraise
    rw [joinable_cons_iff, ih, isSeparator_toUpper, startsPlain_camelChars_iff, crowded_cons_iff,
      crowded_cons_iff, startsJoinable_cons_iff, and_or_left, or_assoc,
      and_iff_right hraise.1]
  | case2 a b r hkeep ih =>
    rw [Bool.and_eq_true] at hkeep
    rw [joinable_cons_iff, ih, startsPlain_camelChars_iff, crowded_cons_iff (s := b :: r),
      and_or_left, startsPlain_cons_iff, or_iff_right hkeep]
  | case3 a =>
    rw [joinable_cons_iff, crowded_cons_iff, or_iff_left not_joinable_nil,
      or_iff_left not_crowded_nil]
    exact iff_of_false (fun h => not_startsPlain_nil h.2) fun h => not_startsJoinable_nil h.2
  | case4 => exact iff_of_false not_joinable_nil not_crowded_nil

theorem length_camelChars_le (s : List Char) : (camelChars s).length ≤ s.length := by
  fun_induction camelChars s with
  | case1 a b r hraise ih =>
    rw [List.length_cons, List.length_cons, List.length_cons]
    omega
  | case2 a b r hkeep ih => exact Nat.succ_le_succ ih
  | case3 a => exact Nat.le_refl _
  | case4 => exact Nat.le_refl _

/-- Camel case changes nothing exactly where there is no separator to drop. -/
theorem camelChars_eq_self_iff : camelChars s = s ↔ ¬ Joinable s := by
  fun_induction camelChars s with
  | case1 a b r hraise ih =>
    rw [Bool.and_eq_true] at hraise
    refine iff_of_false (fun heq => ?_) fun h => h (joinable_cons_iff.mpr (.inl ?_))
    · have hlength := congrArg List.length heq
      have hshorter := length_camelChars_le r
      simp only [List.length_cons] at hlength
      omega
    · exact ⟨hraise.1, startsPlain_cons_iff.mpr hraise.2⟩
  | case2 a b r hkeep ih =>
    rw [Bool.and_eq_true] at hkeep
    rw [joinable_cons_iff, startsPlain_cons_iff, or_iff_right hkeep, ← ih, List.cons_inj_right]
  | case3 a =>
    rw [joinable_cons_iff, or_iff_left not_joinable_nil]
    exact iff_of_true rfl fun h => not_startsPlain_nil h.2
  | case4 => exact iff_of_true rfl not_joinable_nil

/-! ### Raising the first character -/

theorem joinable_append_of_no_separator (h : ∀ c ∈ t, isSeparator c = false) :
    Joinable (t ++ s) ↔ Joinable s := by
  induction t with
  | nil => exact Iff.rfl
  | cons c t ih =>
    rw [List.forall_mem_cons] at h
    rw [List.cons_append, joinable_cons_iff, ih h.2, h.1]
    exact or_iff_right fun hc => Bool.false_ne_true hc.1

/-- Raising the first character makes no separator that is dropped and takes none away. -/
theorem joinable_raiseFirst_iff : Joinable (raiseFirst s) ↔ Joinable s := by
  cases s with
  | nil => exact Iff.rfl
  | cons c r =>
    rw [raiseFirst]
    by_cases hc : isSeparator c = true
    · have hself : Text.upper c = [c] := by
        rcases isSeparator_iff.mp hc with rfl | rfl
        · rfl
        · rfl
      rw [hself, List.singleton_append]
    · have hnone : ∀ d ∈ Text.upper c, isSeparator d = false := by
        intro d hd
        by_contra hsep
        rw [Bool.not_eq_false] at hsep
        exact hc (Text.eq_of_isSeparator hd hsep ▸ hsep)
      rw [joinable_append_of_no_separator hnone, joinable_cons_iff, or_iff_right fun h => hc h.1]

/-- A text whose first character is raised stays as it is in Pascal case exactly if there is no
separator to drop. -/
theorem pascalChars_eq_self_iff (hfirst : ∀ d ∈ s.head?, Text.upper d = [d]) :
    pascalChars s = s ↔ ¬ Joinable s := by
  cases s with
  | nil => exact iff_of_true rfl not_joinable_nil
  | cons d r =>
    have hd : Text.upper d = [d] := hfirst d rfl
    by_cases hdropped : isSeparator d = true ∧ StartsPlain r
    · refine iff_of_false (fun heq => ?_) fun h => h (joinable_cons_iff.mpr (.inl hdropped))
      obtain ⟨hseparator, b, hb, hplain⟩ := hdropped
      obtain ⟨rest, rfl⟩ := List.head?_eq_some_iff.mp hb
      have hraised : Text.upper b.toUpper = [b.toUpper.toUpper] :=
        Text.upper_of_ascii (toNat_lt_of_continuesIdentifier
          (continuesIdentifier_of_isPlain (isPlain_toUpper hplain)))
      rw [pascalChars, camelChars, if_pos (by rw [hseparator, hplain, Bool.and_self]), raiseFirst,
        hraised] at heq
      have hlength := congrArg List.length heq
      have hshorter := length_camelChars_le rest
      simp only [List.length_append, List.length_cons, List.length_nil] at hlength
      omega
    · rw [pascalChars, camelChars_cons_of_kept hdropped, raiseFirst, hd, List.singleton_append,
        List.cons_inj_right, camelChars_eq_self_iff, joinable_cons_iff, or_iff_right hdropped]

theorem upper_of_mem_head?_raiseFirst {d : Char} (h : d ∈ (raiseFirst s).head?) :
    Text.upper d = [d] := by
  cases s with
  | nil => cases h
  | cons c r =>
    obtain ⟨rest, hrest⟩ := List.head?_eq_some_iff.mp h
    cases hc : Text.upper c with
    | nil => exact absurd hc (Text.upper_ne_nil c)
    | cons first others =>
      rw [raiseFirst, hc, List.cons_append, List.cons.injEq] at hrest
      rw [← hrest.1]
      exact Text.upper_of_mem_upper (hc ▸ List.mem_cons_self)

/-! ### Twice -/

/-- Pascal case stays as it is in Pascal case, and camel case leaves no separator in front of a
plain character, exactly if there are no two separators in front of one. -/
theorem pascal_pascal_iff (s : String) :
    (pascal (pascal s) = pascal s ↔ ¬ Crowded s.toList) ∧
      (Joinable (camel s).toList ↔ Crowded s.toList) := by
  have hcamel : Joinable (camel s).toList ↔ Crowded s.toList := by
    rw [camel, Text.toList_lift, joinable_camelChars_iff]
  refine ⟨?_, hcamel⟩
  rw [← String.toList_inj, pascal, Text.toList_lift, Text.toList_lift]
  show pascalChars (raiseFirst (camelChars s.toList)) = raiseFirst (camelChars s.toList) ↔ _
  rw [pascalChars_eq_self_iff fun d hd => upper_of_mem_head?_raiseFirst hd,
    joinable_raiseFirst_iff, joinable_camelChars_iff]

/-- Of two underscores in front of a letter one is left, and dropped the next time. -/
theorem pascal_pascal_underscores :
    pascal "__a" = "_a" ∧ pascal (pascal "__a") = "A" ∧ pascal (pascal "__a") ≠ pascal "__a" ∧
      Joinable (camel "__a").toList := by
  refine ⟨by decide, by decide, by decide, '_', 'a', by decide, by decide, ?_⟩
  exact ⟨[], [], by decide⟩

end TypedClients.Name
