import Mathlib.Data.Nat.Bitwise
import TypedClients.Proofs.Name.Entity

/-!
# Capital forms have no capital form

Raising a character gives characters that are raised already (`upper_of_mem_upper`), and a separator
is given by none but itself (`eq_of_isSeparator`). Outside ASCII both are read off the tables: no
code that is raised, and no separator's, is one that is raised to. A thousand codes on either side
are too many to compare one by one, so each side is one number with a bit for every code
(`codeSet`), and the two numbers have no bit in common.

## What is not here

Lowercase forms and title case. Nor is it said that two characters with one capital form are related
in any other way; several may have the same.
-/

namespace TypedClients.Text

/-! ### Sets of codes -/

/-- A number with a bit for each of the codes. -/
def codeSet (codes : List Nat) : Nat :=
  codes.foldr (fun n bits => 2 ^ n ||| bits) 0

theorem testBit_codeSet {codes : List Nat} {n : Nat} :
    (codeSet codes).testBit n = true ↔ n ∈ codes := by
  induction codes with
  | nil => simp [codeSet]
  | cons code codes ih =>
    rw [codeSet, List.foldr_cons, ← codeSet, Nat.testBit_or, Nat.testBit_two_pow, Bool.or_eq_true,
      ih, List.mem_cons, decide_eq_true_eq, eq_comm]

/-- Numbers without a common bit are sets without a common code. -/
theorem notMem_of_codeSet {codes others : List Nat} (h : codeSet codes &&& codeSet others = 0)
    {n : Nat} (hn : n ∈ others) : n ∉ codes := by
  intro hcodes
  have hbit := congrArg (Nat.testBit · n) h
  simp only [Nat.testBit_and, testBit_codeSet.mpr hn, testBit_codeSet.mpr hcodes,
    Nat.zero_testBit] at hbit
  cases hbit

/-! ### The codes of the tables -/

/-- The codes of a run's letters. -/
def CaseRun.codes (run : CaseRun) : List Nat :=
  (List.range ((run.last - run.first) / run.step + 1)).map fun i => run.first + run.step * i

theorem CaseRun.mem_codes {run : CaseRun} {n : Nat} (h : run.covers n = true) : n ∈ run.codes := by
  simp only [CaseRun.covers, Bool.and_eq_true, decide_eq_true_eq, beq_iff_eq] at h
  obtain ⟨⟨hfirst, hlast⟩, hstep⟩ := h
  refine List.mem_map.mpr ⟨(n - run.first) / run.step, ?_, ?_⟩
  · rw [List.mem_range, Nat.lt_succ_iff]
    exact Nat.div_le_div_right (by omega)
  · have hdivided := Nat.div_add_mod (n - run.first) run.step
    omega

/-- The codes of the letters that have a capital form. -/
def raisedCodes : List Nat :=
  longCapitals.map Prod.fst ++ caseRuns.flatMap CaseRun.codes

/-- The codes of the characters of capital forms. -/
def capitalCodes : List Nat :=
  longCapitals.flatMap Prod.snd
    ++ caseRuns.flatMap fun run => run.codes.map fun n : Nat => (n + run.shift).toNat

/-- Zero is there for the codes of no character. -/
theorem codeSet_and_capitalCodes :
    codeSet ('-'.toNat :: '_'.toNat :: raisedCodes) &&& codeSet (0 :: capitalCodes) = 0 := by
  decide +kernel

theorem mem_raisedCodes_of_covers {run : CaseRun} (hrun : run ∈ caseRuns) {n : Nat}
    (h : run.covers n = true) : n ∈ raisedCodes :=
  List.mem_append_right _ (List.mem_flatMap.mpr ⟨run, hrun, CaseRun.mem_codes h⟩)

theorem mem_raisedCodes_of_isLower {c : Char} (h : c.isLower = true) : c.toNat ∈ raisedCodes := by
  refine mem_raisedCodes_of_covers List.mem_cons_self ?_
  obtain ⟨hlow, hhigh⟩ := (Bool.and_eq_true _ _).mp h
  simp only [CaseRun.covers, Nat.mod_one, beq_self_eq_true, Bool.and_true, Bool.and_eq_true,
    decide_eq_true_eq]
  exact ⟨of_decide_eq_true hlow, of_decide_eq_true hhigh⟩

variable {c d : Char}

/-- A character is raised to itself if there is no entry for it. -/
theorem upper_of_notMem_raisedCodes (h : c.toNat ∉ raisedCodes) : upper c = [c] := by
  by_cases hascii : c.toNat < 0x80
  · rw [upper_of_ascii hascii,
      toUpper_of_not_isLower fun hlower => h (mem_raisedCodes_of_isLower hlower)]
  · have hlong : longCapitals.lookup c.toNat = none := by
      rw [List.lookup_eq_none_iff]
      intro entry hentry
      rw [bne_iff_ne]
      exact fun heq => h (List.mem_append_left _ (List.mem_map.mpr ⟨entry, hentry, heq.symm⟩))
    have hrun : caseRuns.find? (·.covers c.toNat) = none := by
      rw [List.find?_eq_none]
      exact fun run hrun hcovers => h (mem_raisedCodes_of_covers hrun hcovers)
    rw [upper, if_neg hascii, hlong]
    simp only [hrun]

/-- Outside ASCII a character is raised to itself or to what the tables hold. -/
theorem upper_cases (h : ¬ c.toNat < 0x80) :
    upper c = [c] ∨ ∀ d ∈ upper c, ∃ code ∈ capitalCodes, d = Char.ofNat code := by
  rw [upper, if_neg h]
  split
  · next codes hcodes =>
    obtain ⟨before, after, hlist, -⟩ := List.lookup_eq_some_iff.mp hcodes
    refine .inr fun d hd => ?_
    obtain ⟨code, hcode, rfl⟩ := List.mem_map.mp hd
    refine ⟨code, List.mem_append_left _ (List.mem_flatMap.mpr ⟨(c.toNat, codes), ?_, hcode⟩), rfl⟩
    rw [hlist]
    exact List.mem_append_right _ List.mem_cons_self
  · split
    · next run hfound =>
      have hcovers := List.find?_some hfound
      have hcode : c.toNat ∈ run.codes := CaseRun.mem_codes hcovers
      refine .inr fun d hd => ⟨(c.toNat + run.shift).toNat, ?_, List.mem_singleton.mp hd⟩
      exact List.mem_append_right _ (List.mem_flatMap.mpr
        ⟨run, List.mem_of_find?_eq_some hfound, List.mem_map.mpr ⟨_, hcode, rfl⟩⟩)
    · exact .inl rfl

/-- The characters of capital forms are no separators and have no entries. -/
theorem notMem_of_mem_capitalCodes {code : Nat} (h : code ∈ capitalCodes) :
    (Char.ofNat code).toNat ∉ '-'.toNat :: '_'.toNat :: raisedCodes := by
  have hcode : (Char.ofNat code).toNat ∈ 0 :: capitalCodes := by
    rw [toNat_ofNat]
    split
    · exact List.mem_cons_of_mem _ h
    · exact List.mem_cons_self
  exact notMem_of_codeSet codeSet_and_capitalCodes hcode

theorem toNat_toUpper_lt (h : c.toNat < 0x80) : c.toUpper.toNat < 0x80 :=
  of_forall_ascii (p := fun c => c.toUpper.toNat < 0x80) (by decide) h

/-- What a character is raised to is raised already. -/
theorem upper_of_mem_upper (h : d ∈ upper c) : upper d = [d] := by
  by_cases hascii : c.toNat < 0x80
  · rw [upper_of_ascii hascii, List.mem_singleton] at h
    rw [h, upper_of_ascii (toNat_toUpper_lt hascii),
      toUpper_of_not_isLower (not_isLower_toUpper c)]
  · rcases upper_cases hascii with hself | hcapital
    · rw [hself, List.mem_singleton] at h
      rw [h, hself]
    · obtain ⟨code, hcode, rfl⟩ := hcapital d h
      refine upper_of_notMem_raisedCodes fun hraised => ?_
      exact notMem_of_mem_capitalCodes hcode (List.mem_cons_of_mem _ (List.mem_cons_of_mem _ hraised))

/-- A separator is what no other character is raised to. -/
theorem eq_of_isSeparator (h : d ∈ upper c) (hd : Name.isSeparator d = true) : c = d := by
  by_cases hascii : c.toNat < 0x80
  · have hself := of_forall_ascii
      (p := fun c => Name.isSeparator c.toUpper = true → c = c.toUpper) (by decide) hascii
    rw [upper_of_ascii hascii, List.mem_singleton] at h
    subst h
    exact hself hd
  · rcases upper_cases hascii with hself | hcapital
    · rw [hself, List.mem_singleton] at h
      exact h.symm
    · obtain ⟨code, hcode, rfl⟩ := hcapital d h
      have hnot := notMem_of_mem_capitalCodes hcode
      rcases Name.isSeparator_iff.mp hd with heq | heq
      · exact absurd (heq ▸ List.mem_cons_self) hnot
      · exact absurd (heq ▸ List.mem_cons_of_mem _ List.mem_cons_self) hnot

theorem upper_ne_nil (c : Char) : upper c ≠ [] := by
  have hlong : ∀ entry ∈ longCapitals, entry.2 ≠ [] := by decide
  unfold upper
  split
  · exact List.cons_ne_nil _ _
  · split
    · next codes hcodes =>
      obtain ⟨before, after, hlist, -⟩ := List.lookup_eq_some_iff.mp hcodes
      have hne := hlong (c.toNat, codes) (by simp [hlist])
      exact fun hnil => hne (List.map_eq_nil_iff.mp hnil)
    · split
      · exact List.cons_ne_nil _ _
      · exact List.cons_ne_nil _ _

end TypedClients.Text
