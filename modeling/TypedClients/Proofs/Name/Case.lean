import TypedClients.Proofs.Name.Legal

/-!
# What the case conversions leave

Camel case drops separators and raises the characters behind them, and Pascal case raises the first
character too. Where the result is spelled in lowercase letters nothing was raised, so nothing was
changed (`camelChars_eq_self`). The result can stand in an identifier exactly if the text could,
apart from hyphens that are dropped and a first character that is raised into ASCII
(`all_pascalChars_iff`). So the name of a hook is no identifier where an operation's name holds any
other character (`isIdentifier_hook_derive_iff`).

## What is not here

Texts that are not in lowercase letters may come out as they were, too; only one direction of that
is needed. Whether a name that is an identifier is a reserved word is not asked, since the name of a
hook is the key of a member, where reserved words may stand.
-/

namespace TypedClients

/-! ### Characters and letters -/

namespace Text

theorem toNat_ofNat (n : Nat) : (Char.ofNat n).toNat = if n.isValidChar then n else 0 := by
  by_cases h : n.isValidChar
  · rw [if_pos h]
    exact congrArg Char.toNat (dif_pos h)
  · rw [if_neg h]
    exact congrArg Char.toNat (dif_neg h)

theorem toNat_lt_of_isAlpha {c : Char} (h : c.isAlpha = true) : c.toNat < 0x80 := by
  apply Name.toNat_lt_of_continuesIdentifier
  simp [Name.continuesIdentifier, Char.isAlphanum, h]

theorem toNat_lt_of_isUpper {c : Char} (h : c.isUpper = true) : c.toNat < 0x80 :=
  toNat_lt_of_isAlpha ((Bool.or_eq_true _ _).mpr (.inl h))

theorem toNat_lt_of_isLower {c : Char} (h : c.isLower = true) : c.toNat < 0x80 :=
  toNat_lt_of_isAlpha ((Bool.or_eq_true _ _).mpr (.inr h))

theorem toUpper_of_not_isLower {c : Char} (h : ¬ c.isLower = true) : c.toUpper = c := by
  apply dif_neg
  rintro ⟨hlow, hhigh⟩
  exact h ((Bool.and_eq_true _ _).mpr ⟨decide_eq_true hlow, decide_eq_true hhigh⟩)

theorem not_isLower_toUpper (c : Char) : ¬ c.toUpper.isLower = true := by
  by_cases h : c.isLower = true
  · exact of_forall_ascii (p := fun c => ¬ c.toUpper.isLower = true) (by decide)
      (toNat_lt_of_isLower h)
  · rwa [toUpper_of_not_isLower h]

end Text

namespace Name

/-! ### Characters of identifiers -/

theorem continuesIdentifier_of_isPlain {c : Char} (h : isPlain c = true) :
    continuesIdentifier c = true := by
  simp only [isPlain, Bool.or_eq_true] at h
  simp only [continuesIdentifier, Bool.or_eq_true]
  exact .inl h

/-- A plain character stays plain when it is raised. -/
theorem isPlain_toUpper {c : Char} (h : isPlain c = true) : isPlain c.toUpper = true := by
  have hascii := toNat_lt_of_continuesIdentifier (continuesIdentifier_of_isPlain h)
  exact Text.of_forall_ascii (p := fun c => isPlain c = true → isPlain c.toUpper = true)
    (by decide) hascii h

/-- A character that can stand in an identifier can do so when it is raised. -/
theorem all_upper_of_continuesIdentifier {c : Char} (h : continuesIdentifier c = true) :
    (Text.upper c).all continuesIdentifier = true := by
  rw [Text.upper_of_ascii (toNat_lt_of_continuesIdentifier h)]
  simp only [List.all_cons, List.all_nil, Bool.and_true]
  by_cases hplain : isPlain c = true
  · exact continuesIdentifier_of_isPlain (isPlain_toUpper hplain)
  · have hdollar : c = '$' := by
      simp only [continuesIdentifier, Bool.or_eq_true, beq_iff_eq] at h
      simp only [isPlain, Bool.or_eq_true, beq_iff_eq] at hplain
      exact h.resolve_left hplain
    subst hdollar
    decide

/-! ### Camel case -/

/-- Where camel case gives lowercase letters, it has changed nothing. -/
theorem camelChars_eq_self {s : List Char} (h : ∀ c ∈ camelChars s, c.isLower = true) :
    camelChars s = s := by
  fun_induction camelChars s with
  | case1 a b r hraise ih =>
    exact absurd (h b.toUpper List.mem_cons_self) (Text.not_isLower_toUpper b)
  | case2 a b r hkeep ih =>
    rw [ih fun c hc => h c (List.mem_cons_of_mem _ hc)]
  | case3 => rfl
  | case4 => rfl

/-- Where a sanitized text holds no underscore, nothing was replaced. -/
theorem sanitizeChars_eq_self {s : List Char} (h : '_' ∉ sanitizeChars s) :
    sanitizeChars s = s := by
  have hkept : ∀ t : List Char,
      '_' ∉ t.map (fun c => if continuesIdentifier c then c else '_') →
        (t.map fun c => if continuesIdentifier c then c else '_') = t := by
    intro t ht
    refine (List.map_congr_left fun c hc => ?_).trans (List.map_id t)
    by_cases hcontinues : continuesIdentifier c = true
    · rw [if_pos hcontinues, id]
    · exact absurd (List.mem_map.mpr ⟨c, hc, by rw [if_neg hcontinues]⟩) ht
  unfold sanitizeChars at h ⊢
  split at h
  · exact absurd List.mem_cons_self h
  · next c r hmap =>
    split at h
    · exact absurd List.mem_cons_self h
    · next hdigit =>
      rw [← hmap] at h
      rw [if_neg hdigit, ← hmap, hkept s h]

/-- A name in lowercase letters that is made of a text is the text. -/
theorem eq_of_sanitize_camel {s name : String} (h : sanitize (camel s) = name)
    (hlower : name.toList.all Char.isLower = true) : s = name := by
  rw [List.all_eq_true] at hlower
  have hchars : sanitizeChars (camelChars s.toList) = name.toList := by
    rw [← h, sanitize, Text.toList_lift, camel, Text.toList_lift]
  have hcamel : sanitizeChars (camelChars s.toList) = camelChars s.toList := by
    apply sanitizeChars_eq_self
    rw [hchars]
    exact fun hmem => absurd (hlower _ hmem) (by decide)
  rw [hcamel] at hchars
  rw [camelChars_eq_self (by rw [hchars]; exact hlower)] at hchars
  exact String.toList_inj.mp hchars

/-! ### What fits into an identifier -/

/-- Camel case drops the hyphen `c` in front of `rest`. -/
def DropsHyphen (c : Char) (rest : List Char) : Prop :=
  c = '-' ∧ ∃ next ∈ rest.head?, isPlain next = true

/-- Every character can stand in an identifier or is a hyphen that camel case drops. -/
def Fits : List Char → Prop
  | [] => True
  | c :: r => (continuesIdentifier c = true ∨ DropsHyphen c r) ∧ Fits r

/-- The same where the first character is raised. -/
def FitsRaised : List Char → Prop
  | [] => True
  | c :: r => ((Text.upper c).all continuesIdentifier = true ∨ DropsHyphen c r) ∧ Fits r

/-- A character stays as it is if it is no separator in front of a plain character. -/
theorem camelChars_cons_of_kept {c : Char} {r : List Char}
    (h : ¬ (isSeparator c = true ∧ ∃ next ∈ r.head?, isPlain next = true)) :
    camelChars (c :: r) = c :: camelChars r := by
  cases r with
  | nil => rfl
  | cons b r =>
    rw [camelChars, if_neg]
    intro hraise
    rw [Bool.and_eq_true] at hraise
    exact h ⟨hraise.1, b, rfl, hraise.2⟩

theorem isSeparator_iff {c : Char} : isSeparator c = true ↔ c = '-' ∨ c = '_' := by
  simp [isSeparator]

theorem all_camelChars_iff {s : List Char} :
    (camelChars s).all continuesIdentifier = true ↔ Fits s := by
  fun_induction camelChars s with
  | case1 a b r hraise ih =>
    rw [Bool.and_eq_true, isSeparator_iff] at hraise
    have hb := continuesIdentifier_of_isPlain hraise.2
    have hupper := continuesIdentifier_of_isPlain (isPlain_toUpper hraise.2)
    have ha : continuesIdentifier a = true ∨ DropsHyphen a (b :: r) := by
      rcases hraise.1 with rfl | rfl
      · exact .inr ⟨rfl, b, rfl, hraise.2⟩
      · exact .inl (by decide)
    simp only [List.all_cons, Fits, Bool.and_eq_true, hupper, hb, ha, true_and, true_or, ih]
  | case2 a b r hkeep ih =>
    have ha : ¬ DropsHyphen a (b :: r) := by
      rintro ⟨rfl, next, hnext, hplain⟩
      cases hnext
      exact hkeep (by simp [isSeparator, hplain])
    simp only [List.all_cons, Bool.and_eq_true, ih, Fits, ha, or_false]
  | case3 a =>
    have ha : ¬ DropsHyphen a [] := fun ⟨_, _, hnext, _⟩ => by cases hnext
    simp [Fits, ha]
  | case4 => simp [Fits]

/-- Pascal case gives characters of an identifier if the text fits into one. -/
theorem all_pascalChars_iff {s : List Char} :
    (pascalChars s).all continuesIdentifier = true ↔ FitsRaised s := by
  cases s with
  | nil => simp [pascalChars, camelChars, raiseFirst, FitsRaised]
  | cons c r =>
    by_cases hdropped : isSeparator c = true ∧ ∃ next ∈ r.head?, isPlain next = true
    · have hc : (Text.upper c).all continuesIdentifier = true ∨ DropsHyphen c r := by
        rcases isSeparator_iff.mp hdropped.1 with rfl | rfl
        · exact .inr ⟨rfl, hdropped.2⟩
        · exact .inl (by decide)
      obtain ⟨hseparator, b, hb, hplain⟩ := hdropped
      obtain ⟨r, rfl⟩ : ∃ rest, r = b :: rest := by
        cases r with
        | nil => cases hb
        | cons first rest =>
          cases hb
          exact ⟨rest, rfl⟩
      have hraised :=
        all_upper_of_continuesIdentifier (continuesIdentifier_of_isPlain (isPlain_toUpper hplain))
      have hb := continuesIdentifier_of_isPlain hplain
      rw [pascalChars, camelChars, if_pos (by simp [hseparator, hplain]), raiseFirst]
      simp only [List.all_append, Bool.and_eq_true, hraised, true_and, all_camelChars_iff,
        FitsRaised, Fits, hc, hb, true_or]
    · have hc : ¬ DropsHyphen c r := by
        rintro ⟨rfl, hnext⟩
        exact hdropped ⟨by decide, hnext⟩
      rw [pascalChars, camelChars_cons_of_kept hdropped, raiseFirst]
      simp only [List.all_append, Bool.and_eq_true, all_camelChars_iff, FitsRaised, hc, or_false]

/-! ### Names of hooks -/

/-- The name of a hook is an identifier if the operation's name fits into one. -/
theorem isIdentifier_hook_iff {name : String} :
    isIdentifier (hook name) = true ↔ FitsRaised name.toList := by
  have hlead : ∀ rest : List Char,
      isIdentifierChars ("use".toList ++ rest) = rest.all continuesIdentifier := by
    intro rest
    have hs : continuesIdentifier 's' = true := by decide
    have he : continuesIdentifier 'e' = true := by decide
    have hu : startsIdentifier 'u' = true := by decide
    simp [isIdentifierChars, hu, hs, he]
  rw [hook, isIdentifier, String.toList_append, hlead, pascal, Text.toList_lift,
    all_pascalChars_iff]

/-- The hook of an operation is named by an identifier exactly if the operation's id, or the name made
from its route, fits into one when its first version marker is taken out: its first character gives
characters of an identifier when it is raised, and every other one is such a character; and anywhere
there may be hyphens that are dropped. -/
theorem isIdentifier_hook_derive_iff (id : Option String) (method : Method) (path : String) :
    isIdentifier (hook (OperationName.derive id method path).name) = true
      ↔ FitsRaised (dropMarker (id.getD (ofRoute method.word path)).toList) := by
  rw [isIdentifier_hook_iff, OperationName.derive, splitVersion]
  simp only [Text.toList_lift]

/-- An id with a slash in it is no name for a hook. -/
theorem hook_derive_slash :
    hook (OperationName.derive (some "repos/get") .get "/repos").name = "useRepos/get" ∧
      isIdentifier (hook (OperationName.derive (some "repos/get") .get "/repos").name) = false := by
  decide +kernel

end Name

end TypedClients
