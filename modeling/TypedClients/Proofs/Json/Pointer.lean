import TypedClients.Json.Pointer
import TypedClients.Proofs.Text.Lines

/-!
# The steps of a pointer

A pointer is read by splitting it at the slashes and undoing the escapes of each step. An escaped
key has no slash, so the pointer that is written for a list of keys is split where they begin and
leads down along them (`pointer?_writePointer`).

Escapes are made and undone in one pass. It is the same to make them in two, the tilde's before the
slash's, and to undo them in two, the other way round (`escapeStepChars_eq_replaceFrom`,
`unescapeStepChars_eq_replaceFrom`).

## What is not here

Pointers to the position behind the last item of an array, and pointers in fragments of addresses,
where other signs would have to be escaped as well. A step that is a number leads into an array as
well as into an object, and which of the two it is depends on the value that is found there; nothing
about arrays is used.
-/

namespace TypedClients

namespace Json

open Text

/-! ### Escapes -/

theorem slash_notMem_escapeStepChars (s : List Char) : '/' ∉ escapeStepChars s := by
  induction s using escapeStepChars.induct with
  | case1 => simp [escapeStepChars]
  | case2 r ih => simp [escapeStepChars, ih]
  | case3 r ih => simp [escapeStepChars, ih]
  | case4 c r _ hslash ih =>
    have hc : '/' ≠ c := fun h => hslash h.symm
    simp [escapeStepChars, ih, hc]

theorem length_le_escapeStepChars (s : List Char) : s.length ≤ (escapeStepChars s).length := by
  induction s using escapeStepChars.induct with
  | case1 => exact Nat.le_refl 0
  | case2 r ih => simp only [escapeStepChars, List.length_cons]; omega
  | case3 r ih => simp only [escapeStepChars, List.length_cons]; omega
  | case4 c r htilde hslash ih =>
    rw [escapeStepChars.eq_4 c r htilde hslash, List.length_cons, List.length_cons]
    omega

/-- Only a key without tildes and slashes is its own escape; any other has a longer one. -/
theorem escapeStepChars_eq_self_iff {s : List Char} :
    escapeStepChars s = s ↔ '~' ∉ s ∧ '/' ∉ s := by
  induction s using escapeStepChars.induct with
  | case1 => simp [escapeStepChars]
  | case2 r ih =>
    refine iff_of_false (fun h => ?_) fun h => h.1 List.mem_cons_self
    have hlength := congrArg List.length h
    have hle := length_le_escapeStepChars r
    simp only [escapeStepChars, List.length_cons] at hlength
    omega
  | case3 r ih =>
    refine iff_of_false (fun h => ?_) fun h => h.2 List.mem_cons_self
    cases h
  | case4 c r htilde hslash ih =>
    have htilde' : '~' ≠ c := fun h => htilde h.symm
    have hslash' : '/' ≠ c := fun h => hslash h.symm
    rw [escapeStepChars.eq_4 c r htilde hslash, List.cons_inj_right, List.mem_cons, List.mem_cons,
      or_iff_right htilde', or_iff_right hslash']
    exact ih

/-- A key is escaped by replacing its tildes and then its slashes. -/
theorem escapeStepChars_eq_replaceFrom (s : List Char) :
    escapeStepChars s
      = replaceFrom ['/'] ['~', '1'] 0 (replaceFrom ['~'] ['~', '0'] 0 s) := by
  induction s using escapeStepChars.induct with
  | case1 => rfl
  | case2 r ih => simp [escapeStepChars, replaceFrom, ih]
  | case3 r ih => simp [escapeStepChars, replaceFrom, ih]
  | case4 c r htilde hslash ih =>
    have htilde : '~' ≠ c := fun h => htilde h.symm
    have hslash : '/' ≠ c := fun h => hslash h.symm
    simp [escapeStepChars, replaceFrom, ih, htilde, hslash]

/-- Replacing the escaped slashes gives no zero at the beginning that was not there. -/
theorem head?_replaceFrom_slash {s : List Char} (h : s.head? ≠ some '0') :
    (replaceFrom ['~', '1'] ['/'] 0 s).head? ≠ some '0' := by
  cases s with
  | nil => exact h
  | cons c r =>
    rw [replaceFrom]
    split
    · simp
    · simpa using h

/-- The escapes are undone by replacing those of slashes and then those of tildes. -/
theorem unescapeStepChars_eq_replaceFrom (s : List Char) :
    unescapeStepChars s
      = replaceFrom ['~', '0'] ['~'] 0 (replaceFrom ['~', '1'] ['/'] 0 s) := by
  induction s using unescapeStepChars.induct with
  | case1 => rfl
  | case2 r ih => simp [unescapeStepChars, replaceFrom, ih]
  | case3 r ih => simp [unescapeStepChars, replaceFrom, ih]
  | case4 c r hone hzero ih =>
    have hrest : replaceFrom ['~', '1'] ['/'] 0 (c :: r)
        = c :: replaceFrom ['~', '1'] ['/'] 0 r := by
      rw [replaceFrom, if_neg]
      intro hprefix
      obtain ⟨rest, hrest⟩ := List.isPrefixOf_iff_prefix.mp hprefix
      obtain ⟨rfl, rfl⟩ := List.cons.inj hrest
      exact hone rest rfl rfl
    have hhead : c = '~' → (replaceFrom ['~', '1'] ['/'] 0 r).head? ≠ some '0' := by
      intro hc
      refine head?_replaceFrom_slash fun hr => ?_
      obtain ⟨rest, rfl⟩ := List.head?_eq_some_iff.mp hr
      exact hzero rest hc rfl
    rw [hrest, replaceFrom, if_neg, unescapeStepChars.eq_4 c r hone hzero, ih]
    intro hprefix
    obtain ⟨rest, hrest⟩ := List.isPrefixOf_iff_prefix.mp hprefix
    obtain ⟨hc, hr⟩ := List.cons.inj hrest
    exact hhead hc.symm (by rw [← hr]; rfl)

/-! ### Writing a pointer -/

/-- The pointer that leads down along the keys. -/
def writePointer (keys : List String) : List Char :=
  keys.flatMap fun key => '/' :: escapeStepChars key.toList

theorem split_writePointer (keys : List String) {s : List Char} (h : '/' ∉ s) :
    split '/' (s ++ writePointer keys)
      = s :: keys.map fun key => escapeStepChars key.toList := by
  induction keys generalizing s with
  | nil => rw [writePointer, List.flatMap_nil, List.append_nil, split_eq_singleton h, List.map_nil]
  | cons key keys ih =>
    rw [writePointer, List.flatMap_cons, List.cons_append, split_append_sep h, ← writePointer,
      ih (slash_notMem_escapeStepChars _), List.map_cons]

/-- The steps of a pointer that is written for keys are the keys. -/
theorem pointerSteps?_writePointer (keys : List String) :
    pointerSteps? (writePointer keys) = some (keys.map String.toList) := by
  cases keys with
  | nil => rfl
  | cons key keys =>
    rw [writePointer, List.flatMap_cons, List.cons_append, ← writePointer, pointerSteps?,
      split_writePointer keys (slash_notMem_escapeStepChars _), List.map_cons, List.map_map,
      unescape_escape, List.map_cons]
    congr 3
    exact funext fun key => unescape_escape key.toList

theorem pointer?_writePointer (value : Json) (keys : List String) :
    value.pointer? (writePointer keys)
      = keys.foldlM (fun value key => value.stepInto? key.toList) value := by
  rw [pointer?, pointerSteps?_writePointer]
  exact List.foldlM_map

/-- Under a key of an object stands what is looked up there. -/
theorem stepInto?_object (members : List (String × Json)) (key : String) :
    (Json.object members).stepInto? key.toList = Keyed.get? key members := by
  rw [stepInto?, String.ofList_toList]

end Json

end TypedClients
