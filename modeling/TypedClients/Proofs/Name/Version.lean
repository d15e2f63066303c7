import Mathlib.Data.List.TakeWhile
import TypedClients.Endpoint.Basic
import TypedClients.Proofs.Json.Pointer

/-!
# What becomes of a version marker

The name of an operation and its version are made from one text by two scans. The one takes out the
first marker, wherever it stands, and the other reads the number of the last marker of the first
line that has any (`splitVersion_first`). They agree on what is split off, and can be undone by
putting the marker behind the name again, exactly if there is no marker but at the end of the text
(`splitVersion_trailing`). There one marker may be repeated: it is all the same which of the copies
is taken out.

The key of a version is its number behind a `v`, so different versions have different keys
(`versionKey_inj`).

## What is proved

`splitVersion_trailing` — for every name, what is taken out and what is read; that exactly the names
with a marker at the end, or the same one several times, are split so that nothing is lost; and that
two operations with such names and the same rest differ in the marker alone.
`splitVersion_inner_marker` is a name with a marker inside, which is taken out of the middle.

The induction is along the text, and over lines where the last marker of a line is concerned.
-/

namespace TypedClients.Name

open Text (isDecimal)

/-! ### Markers -/

/-- The number of a version: digits, at least one. -/
def IsNumber (digits : List Char) : Prop :=
  digits ≠ [] ∧ ∀ c ∈ digits, isDecimal c = true

theorem isNumber_singleton {d : Char} (h : isDecimal d = true) : IsNumber [d] :=
  ⟨List.cons_ne_nil _ _, List.forall_mem_singleton.mpr h⟩

/-- A version marker. -/
def marker (digits : List Char) : List Char :=
  '_' :: 'v' :: digits

/-- There is a marker in the text. -/
def Marked (s : List Char) : Prop :=
  ∃ before digits after, IsNumber digits ∧ s = before ++ (marker digits ++ after)

/-- No number goes on with the text. -/
def EndsNumber (s : List Char) : Prop :=
  ∀ c ∈ s.head?, isDecimal c = false

variable {s before digits after : List Char}

theorem takeWhile_number (hdigits : IsNumber digits) (hafter : EndsNumber after) :
    (digits ++ after).takeWhile isDecimal = digits := by
  rw [List.takeWhile_append_of_pos hdigits.2]
  cases after with
  | nil => simp
  | cons c after => simp [hafter c rfl]

theorem markerAt?_marker (hdigits : IsNumber digits) (hafter : EndsNumber after) :
    markerAt? (marker digits ++ after) = some digits := by
  simp only [marker, List.cons_append, markerAt?, takeWhile_number hdigits hafter]
  split
  · exact absurd rfl hdigits.1
  · rfl

theorem exists_of_markerAt? (h : markerAt? s = some digits) :
    IsNumber digits ∧ ∃ after, EndsNumber after ∧ s = marker digits ++ after := by
  unfold markerAt? at h
  split at h
  · next r =>
    split at h
    · cases h
    · next hdigits =>
      cases h
      refine ⟨⟨hdigits, fun c => List.mem_takeWhile_imp⟩, r.dropWhile isDecimal, ?_, ?_⟩
      · intro c hc
        have := List.head?_dropWhile_not isDecimal r
        rw [Option.mem_def.mp hc] at this
        exact this
      · simp only [marker, List.cons_append, List.takeWhile_append_dropWhile]
  · cases h

/-- What a marker at the beginning is does not depend on what follows a character that is in none
but at its beginning. -/
theorem markerAt?_append (hs : s ≠ []) {c : Char} (hc : c ≠ 'v') (hdecimal : isDecimal c = false)
    (after : List Char) : markerAt? (s ++ c :: after) = markerAt? s := by
  have hnumber (r : List Char) : (r ++ c :: after).takeWhile isDecimal = r.takeWhile isDecimal := by
    induction r with
    | nil => simp [hdecimal]
    | cons d r ih => simp only [List.cons_append, List.takeWhile_cons, ih]
  match s, hs with
  | [d], _ =>
    by_cases hd : d = '_'
    · subst hd
      simp [markerAt?, hc]
    · simp [markerAt?, hd]
  | d :: e :: r, _ =>
    by_cases hd : d = '_' ∧ e = 'v'
    · obtain ⟨rfl, rfl⟩ := hd
      simp only [List.cons_append, markerAt?, hnumber]
    · have hnone (rest : List Char) : markerAt? (d :: e :: rest) = none := by
        unfold markerAt?
        split
        · next heq =>
          cases heq
          exact absurd ⟨rfl, rfl⟩ hd
        · rfl
      rw [List.cons_append, List.cons_append, hnone, hnone]

/-- A marker further on is not reached from before it. -/
theorem markerAt?_append_marker (c : Char) (before digits after : List Char) :
    markerAt? (c :: (before ++ (marker digits ++ after))) = markerAt? (c :: before) :=
  markerAt?_append (List.cons_ne_nil c before) (by decide) (by decide) ('v' :: digits ++ after)

theorem markerAt?_ne_none (hdigits : IsNumber digits) (after : List Char) :
    markerAt? (marker digits ++ after) ≠ none := by
  obtain ⟨hne, hall⟩ := hdigits
  cases digits with
  | nil => exact absurd rfl hne
  | cons d digits => simp [marker, markerAt?, hall d List.mem_cons_self]

theorem not_marked_of_notMem (h : '_' ∉ s) : ¬ Marked s := by
  rintro ⟨before, digits, after, -, rfl⟩
  exact h (by simp [marker])

theorem not_marked_nil : ¬ Marked [] :=
  not_marked_of_notMem List.not_mem_nil

theorem Marked.append (h : Marked s) (before : List Char) : Marked (before ++ s) := by
  obtain ⟨start, digits, after, hdigits, rfl⟩ := h
  exact ⟨before ++ start, digits, after, hdigits, (List.append_assoc _ _ _).symm⟩

/-- A marker in a text stands at its beginning or behind its first character. -/
theorem marked_cons {c : Char} : Marked (c :: s) ↔ markerAt? (c :: s) ≠ none ∨ Marked s := by
  constructor
  · rintro ⟨before, digits, after, hdigits, h⟩
    cases before with
    | nil => exact .inl (h ▸ markerAt?_ne_none hdigits after)
    | cons d before =>
      obtain ⟨-, rfl⟩ := List.cons.inj h
      exact .inr ⟨before, digits, after, hdigits, rfl⟩
  · rintro (h | ⟨before, digits, after, hdigits, rfl⟩)
    · obtain ⟨digits, hdigits⟩ := Option.ne_none_iff_exists'.mp h
      obtain ⟨hdigits, after, -, hs⟩ := exists_of_markerAt? hdigits
      exact ⟨[], digits, after, hdigits, hs⟩
    · exact ⟨c :: before, digits, after, hdigits, rfl⟩

/-- A character that is in a marker but at its beginning, if at all, parts the markers of a text. -/
theorem marked_append {c : Char} (hc : c ≠ 'v') (hdecimal : isDecimal c = false) :
    Marked (s ++ c :: after) ↔ Marked s ∨ Marked (c :: after) := by
  induction s with
  | nil => simp [not_marked_nil]
  | cons d s ih =>
    rw [marked_cons, List.cons_append, marked_cons, ← List.cons_append,
      markerAt?_append (List.cons_ne_nil d s) hc hdecimal, ih, or_assoc]

theorem underscore_notMem (hdigits : IsNumber digits) : '_' ∉ 'v' :: digits := by
  intro h
  rcases List.mem_cons.mp h with h | h
  · cases h
  · exact absurd (hdigits.2 _ h) (by decide)

theorem newline_notMem_marker (hdigits : IsNumber digits) : '\n' ∉ marker digits := by
  intro h
  simp only [marker, List.mem_cons] at h
  rcases h with h | h | h
  · cases h
  · cases h
  · exact absurd (hdigits.2 _ h) (by decide)

/-! ### The first marker -/

/-- In a text that has markers there is a first one. -/
theorem exists_first (h : Marked s) : ∃ before digits after, ¬ Marked before ∧ IsNumber digits ∧
    EndsNumber after ∧ s = before ++ (marker digits ++ after) := by
  induction s with
  | nil => exact absurd h not_marked_nil
  | cons c s ih =>
    cases hmarker : markerAt? (c :: s) with
    | some digits =>
      obtain ⟨hdigits, after, hafter, hs⟩ := exists_of_markerAt? hmarker
      exact ⟨[], digits, after, not_marked_nil, hdigits, hafter, hs⟩
    | none =>
      have hs : Marked s := (marked_cons.mp h).resolve_left (not_not.mpr hmarker)
      obtain ⟨before, digits, after, hbefore, hdigits, hafter, rfl⟩ := ih hs
      rw [markerAt?_append_marker] at hmarker
      refine ⟨c :: before, digits, after, ?_, hdigits, hafter, rfl⟩
      rw [marked_cons, not_or]
      exact ⟨not_not.mpr hmarker, hbefore⟩

/-- A text without a marker stays as it is. -/
theorem dropMarker_of_not_marked (h : ¬ Marked s) : dropMarker s = s := by
  induction s with
  | nil => rfl
  | cons c s ih =>
    rw [marked_cons, not_or, not_not] at h
    rw [dropMarker, h.1, ih h.2]

/-- The first marker is taken out. -/
theorem dropMarker_first (hbefore : ¬ Marked before) (hdigits : IsNumber digits)
    (hafter : EndsNumber after) :
    dropMarker (before ++ (marker digits ++ after)) = before ++ after := by
  induction before with
  | nil =>
    have hmarker := markerAt?_marker hdigits hafter
    rw [marker, List.cons_append] at hmarker
    rw [List.nil_append, List.nil_append, marker, List.cons_append, dropMarker, hmarker]
    simp
  | cons c before ih =>
    rw [marked_cons, not_or, not_not] at hbefore
    have hnone : markerAt? (c :: (before ++ (marker digits ++ after))) = none :=
      (markerAt?_append_marker c before digits after).trans hbefore.1
    rw [List.cons_append, dropMarker, hnone, ih hbefore.2, List.cons_append]

/-! ### The last marker of a line -/

theorem lastMarker?_eq_none_iff : lastMarker? s = none ↔ ¬ Marked s := by
  induction s with
  | nil => simp [lastMarker?, not_marked_nil]
  | cons c s ih =>
    rw [lastMarker?, marked_cons, not_or, not_not, ← ih]
    cases lastMarker? s <;> simp

/-- The number that is read is that of a marker behind which there is none. -/
theorem exists_of_lastMarker? (h : lastMarker? s = some digits) : IsNumber digits ∧
    ∃ before after, EndsNumber after ∧ ¬ Marked after ∧ s = before ++ (marker digits ++ after) := by
  induction s with
  | nil => cases h
  | cons c s ih =>
    rw [lastMarker?] at h
    split at h
    · next hrest =>
      cases h
      obtain ⟨hdigits, before, after, hafter, hlast, rfl⟩ := ih hrest
      exact ⟨hdigits, c :: before, after, hafter, hlast, rfl⟩
    · next hrest =>
      obtain ⟨hdigits, after, hafter, hs⟩ := exists_of_markerAt? h
      refine ⟨hdigits, [], after, hafter, fun hmarked => ?_, hs⟩
      obtain ⟨-, rfl⟩ := List.cons.inj hs
      exact lastMarker?_eq_none_iff.mp hrest (hmarked.append ('v' :: digits))

/-- A marker at the end of a line is the last. -/
theorem lastMarker?_append (hdigits : IsNumber digits) (before : List Char) :
    lastMarker? (before ++ marker digits) = some digits := by
  induction before with
  | nil =>
    have hrest : lastMarker? ('v' :: digits) = none :=
      lastMarker?_eq_none_iff.mpr (not_marked_of_notMem (underscore_notMem hdigits))
    have hnothing : EndsNumber [] := by simp [EndsNumber]
    have hmarker := markerAt?_marker hdigits hnothing
    rw [List.append_nil] at hmarker
    rw [List.nil_append, marker, lastMarker?, hrest]
    exact hmarker
  | cons c before ih => rw [List.cons_append, lastMarker?, ih]

/-! ### The version -/

/-- A text is one line, or a line and what follows its end. -/
theorem lines_induction {motive : List Char → Prop} (line : ∀ s, '\n' ∉ s → motive s)
    (lines : ∀ s rest, '\n' ∉ s → motive rest → motive (s ++ '\n' :: rest)) (s : List Char) :
    motive s := by
  by_cases h : '\n' ∈ s
  · obtain ⟨first, rest, rfl, hfirst⟩ := List.eq_append_cons_of_mem h
    exact lines first rest hfirst (lines_induction line lines rest)
  · exact line s h
termination_by s.length
decreasing_by
  subst_vars
  simp only [List.length_append, List.length_cons]
  omega

theorem version?_line (h : '\n' ∉ s) : version? s = lastMarker? s := by
  rw [version?, Text.split_eq_singleton h, List.findSome?_cons]
  cases lastMarker? s <;> rfl

theorem version?_lines (h : '\n' ∉ s) (rest : List Char) :
    version? (s ++ '\n' :: rest) = (lastMarker? s).or (version? rest) := by
  rw [version?, Text.split_append_sep h, List.findSome?_cons, version?]
  cases lastMarker? s <;> rfl

theorem marked_lines {rest : List Char} : Marked (s ++ '\n' :: rest) ↔ Marked s ∨ Marked rest := by
  have hrest : Marked ('\n' :: rest) ↔ Marked rest := by
    rw [marked_cons]
    simp [markerAt?]
  rw [marked_append (by decide) (by decide), hrest]

/-- There is a version exactly if there is a marker. -/
theorem version?_eq_none_iff : version? s = none ↔ ¬ Marked s := by
  induction s using lines_induction with
  | line s h => rw [version?_line h, lastMarker?_eq_none_iff]
  | lines s rest h ih =>
    rw [version?_lines h, marked_lines, not_or, Option.or_eq_none_iff, lastMarker?_eq_none_iff, ih]

/-- The number is that of the last marker of the first line that has any. -/
def IsVersion (s digits : List Char) : Prop :=
  ∃ earlier line later start after, Text.split '\n' s = earlier ++ line :: later ∧
    (∀ other ∈ earlier, ¬ Marked other) ∧ IsNumber digits ∧ EndsNumber after ∧ ¬ Marked after ∧
    line = start ++ (marker digits ++ after)

theorem isVersion_of_version? (h : version? s = some digits) : IsVersion s digits := by
  obtain ⟨earlier, line, later, hlines, hline, hearlier⟩ := List.findSome?_eq_some_iff.mp h
  obtain ⟨hdigits, start, after, hafter, hlast, hline⟩ := exists_of_lastMarker? hline
  exact ⟨earlier, line, later, start, after, hlines,
    fun other hother => lastMarker?_eq_none_iff.mp (hearlier other hother), hdigits, hafter, hlast,
    hline⟩

theorem newline_notMem_markers (hdigits : IsNumber digits) (count : Nat) :
    '\n' ∉ (List.replicate count (marker digits)).flatten := by
  intro h
  obtain ⟨s, hs, h⟩ := List.mem_flatten.mp h
  exact newline_notMem_marker hdigits (List.eq_of_mem_replicate hs ▸ h)

theorem flatten_replicate_succ (count : Nat) :
    (List.replicate (count + 1) s).flatten = (List.replicate count s).flatten ++ s := by
  rw [List.replicate_succ', List.flatten_concat]

theorem endsNumber_markers (digits : List Char) (count : Nat) :
    EndsNumber (List.replicate count (marker digits)).flatten := by
  cases count with
  | zero => simp [EndsNumber]
  | succ count =>
    intro c hc
    rw [List.replicate_succ, List.flatten_cons, marker] at hc
    cases hc
    decide

/-- Where one marker is repeated at the end, its number is the version. -/
theorem version?_append_markers (hdigits : IsNumber digits) (hbefore : ¬ Marked before)
    (count : Nat) :
    version? (before ++ (List.replicate (count + 1) (marker digits)).flatten) = some digits := by
  have hmarkers := newline_notMem_markers hdigits (count + 1)
  induction before using lines_induction with
  | line s h =>
    rw [version?_line (by simp only [List.mem_append, h, hmarkers, or_self, not_false_eq_true]),
      flatten_replicate_succ, ← List.append_assoc, lastMarker?_append hdigits]
  | lines s rest h ih =>
    rw [marked_lines, not_or] at hbefore
    rw [List.append_assoc, List.cons_append, version?_lines h,
      lastMarker?_eq_none_iff.mpr hbefore.1, Option.none_or, ih hbefore.2]

/-! ### Splitting -/

theorem marker_inj {other : List Char} : marker digits = marker other ↔ digits = other := by
  simp [marker]

/-- A marker that changes places with a text is repeated in it. -/
theorem eq_markers_of_append_eq {s digits other : List Char} (hdigits : IsNumber digits)
    (h : marker digits ++ s = s ++ marker other) :
    other = digits ∧ ∃ count, s = (List.replicate count (marker digits)).flatten := by
  rcases List.append_eq_append_iff.mp h with ⟨rest, rfl, hrest⟩ | ⟨rest, hmarker, hrest⟩
  · obtain ⟨hother, count, rfl⟩ := eq_markers_of_append_eq hdigits hrest
    refine ⟨hother, count + 1, ?_⟩
    rw [List.replicate_succ, List.flatten_cons]
  · -- The underscore stands only at the beginning of the marker, so it is not parted.
    cases s with
    | nil =>
      rw [List.nil_append] at hmarker
      rw [List.append_nil, ← hmarker, marker_inj] at hrest
      exact ⟨hrest, 0, rfl⟩
    | cons c s =>
      cases rest with
      | nil =>
        rw [List.append_nil] at hmarker
        rw [List.nil_append, ← hmarker, marker_inj] at hrest
        refine ⟨hrest, 1, ?_⟩
        rw [List.replicate_one, List.flatten_singleton, hmarker]
      | cons d rest =>
        obtain ⟨rfl, -⟩ := List.cons.inj hrest
        obtain ⟨-, hdigits'⟩ := List.cons.inj hmarker
        refine absurd ?_ (underscore_notMem hdigits)
        rw [hdigits']
        simp
termination_by s.length
decreasing_by
  subst_vars
  simp only [marker, List.length_append, List.length_cons]
  omega

/-- The name ends in a marker. -/
def EndsMarked (name : String) : Prop :=
  ∃ start digits, IsNumber digits ∧ name.toList = start ++ marker digits

/-- A marker is split off only from the end of the name, and nothing is lost. -/
def SplitsTrailing (name : String) : Prop :=
  (∀ rest version, splitVersion name = (rest, some version) →
    IsNumber version.toList ∧ name = rest ++ "_v" ++ version) ∧
  (splitVersion name = (name, none) ↔ ¬ EndsMarked name)

theorem splitVersion_of_not_marked {name : String} (h : ¬ Marked name.toList) :
    splitVersion name = (name, none) := by
  rw [splitVersion, version?_eq_none_iff.mpr h, Text.lift, dropMarker_of_not_marked h,
    String.ofList_toList]
  rfl

/-- The first marker is taken out, and the last of a line is read. -/
theorem splitVersion_first {name : String} (hbefore : ¬ Marked before) (hdigits : IsNumber digits)
    (hafter : EndsNumber after) (hname : name.toList = before ++ (marker digits ++ after)) :
    ∃ version, IsVersion name.toList version ∧
      splitVersion name = (String.ofList (before ++ after), some (String.ofList version)) := by
  have hmarked : Marked name.toList := ⟨before, digits, after, hdigits, hname⟩
  obtain ⟨version, hversion⟩ :=
    Option.ne_none_iff_exists'.mp fun h => version?_eq_none_iff.mp h hmarked
  refine ⟨version, isVersion_of_version? hversion, ?_⟩
  rw [splitVersion, hversion, Text.lift, hname, dropMarker_first hbefore hdigits hafter]
  rfl

theorem eq_append_version_iff {name rest version : String} :
    name = rest ++ "_v" ++ version ↔ name.toList = rest.toList ++ marker version.toList := by
  rw [← String.toList_inj, String.toList_append, String.toList_append, List.append_assoc]
  rfl

theorem splitsTrailing_of_not_marked {name : String} (h : ¬ Marked name.toList) :
    SplitsTrailing name := by
  have hsplit := splitVersion_of_not_marked h
  refine ⟨fun rest version heq => ?_, iff_of_true hsplit ?_⟩
  · rw [hsplit] at heq
    cases heq
  · rintro ⟨start, digits, hdigits, hname⟩
    exact h ⟨start, digits, [], hdigits, by rw [hname, List.append_nil]⟩

theorem splitVersion_markers {name : String} (hbefore : ¬ Marked before)
    (hdigits : IsNumber digits) {count : Nat}
    (hname : name.toList = before ++ (List.replicate (count + 1) (marker digits)).flatten) :
    splitVersion name
      = (String.ofList (before ++ (List.replicate count (marker digits)).flatten),
        some (String.ofList digits)) := by
  rw [splitVersion, hname, version?_append_markers hdigits hbefore, Text.lift, hname,
    List.replicate_succ, List.flatten_cons,
    dropMarker_first hbefore hdigits (endsNumber_markers digits count)]
  rfl

theorem splitsTrailing_of_markers {name : String} (hbefore : ¬ Marked before)
    (hdigits : IsNumber digits) {count : Nat}
    (hname : name.toList = before ++ (List.replicate (count + 1) (marker digits)).flatten) :
    SplitsTrailing name := by
  have hsplit := splitVersion_markers hbefore hdigits hname
  rw [flatten_replicate_succ, ← List.append_assoc] at hname
  constructor
  · intro rest version heq
    rw [hsplit] at heq
    cases heq
    rw [eq_append_version_iff, String.toList_ofList, String.toList_ofList]
    exact ⟨hdigits, hname⟩
  · refine iff_of_false ?_ (not_not.mpr ⟨_, digits, hdigits, hname⟩)
    rw [hsplit]
    simp

/-- There is no marker in the text but at its end, where one may be repeated. -/
def MarkedAtEnd (s : List Char) : Prop :=
  ∃ before digits count, ¬ Marked before ∧ IsNumber digits ∧
    s = before ++ (List.replicate count (marker digits)).flatten

theorem splitsTrailing_iff (name : String) :
    SplitsTrailing name ↔ MarkedAtEnd name.toList := by
  constructor
  · intro h
    by_cases hmarked : Marked name.toList
    · obtain ⟨before, digits, after, hbefore, hdigits, hafter, hname⟩ := exists_first hmarked
      obtain ⟨version, -, hsplit⟩ := splitVersion_first hbefore hdigits hafter hname
      have hrest := eq_append_version_iff.mp (h.1 _ _ hsplit).2
      rw [hname, String.toList_ofList, String.toList_ofList, List.append_assoc] at hrest
      obtain ⟨-, count, rfl⟩ := eq_markers_of_append_eq hdigits (List.append_cancel_left hrest)
      refine ⟨before, digits, count + 1, hbefore, hdigits, ?_⟩
      rw [hname, List.replicate_succ, List.flatten_cons]
    · refine ⟨name.toList, ['0'], 0, hmarked, isNumber_singleton (by decide), ?_⟩
      rw [List.replicate_zero, List.flatten_nil, List.append_nil]
  · rintro ⟨before, digits, count, hbefore, hdigits, hname⟩
    cases count with
    | zero =>
      rw [List.replicate_zero, List.flatten_nil, List.append_nil] at hname
      exact splitsTrailing_of_not_marked (hname ▸ hbefore)
    | succ count => exact splitsTrailing_of_markers hbefore hdigits hname

/-- How a version is marked behind a name. -/
def versionMark : Option String → String
  | none => ""
  | some version => "_v" ++ version

/-- What is split off from the end can be put back. -/
theorem eq_append_versionMark {name : String} (h : SplitsTrailing name) :
    name = (splitVersion name).1 ++ versionMark (splitVersion name).2 := by
  rcases hversion : (splitVersion name).2 with _ | version
  · have hmarked : ¬ Marked name.toList := by
      rw [← version?_eq_none_iff]
      exact Option.map_eq_none_iff.mp hversion
    rw [splitVersion_of_not_marked hmarked]
    exact String.append_empty.symm
  · rw [versionMark, ← String.append_assoc]
    exact (h.1 _ _ (Prod.ext rfl hversion)).2

/-- The id of an operation, or the name made from its route. -/
def rawName (id : Option String) (method : Method) (path : String) : String :=
  id.getD (ofRoute method.word path)

theorem rawName_eq_append {id : Option String} {method : Method} {path : String}
    (h : SplitsTrailing (rawName id method path)) :
    rawName id method path = (OperationName.derive id method path).name
      ++ versionMark (OperationName.derive id method path).version :=
  eq_append_versionMark h

/-- A name without a marker stays as it is. From any other the first marker is taken out, and the
number of the last marker of the first line that has any is the version. So only a marker at the end
is split off, and nothing is lost, exactly if there is no marker but at the end, where one may be
repeated. Two operations whose names are such, and are alike once split, differ in the marker at the
end alone. -/
theorem splitVersion_trailing (name : String) :
    (¬ Marked name.toList → splitVersion name = (name, none)) ∧
    (∀ before digits after, ¬ Marked before → IsNumber digits → EndsNumber after →
      name.toList = before ++ (marker digits ++ after) →
        ∃ version, IsVersion name.toList version ∧
          splitVersion name = (String.ofList (before ++ after), some (String.ofList version))) ∧
    (SplitsTrailing name ↔ MarkedAtEnd name.toList) ∧
    ∀ id method path, rawName id method path = name → MarkedAtEnd name.toList →
      ∀ id' method' path', MarkedAtEnd (rawName id' method' path').toList →
        (OperationName.derive id method path).name
            = (OperationName.derive id' method' path').name →
          ∃ rest, name = rest ++ versionMark (OperationName.derive id method path).version ∧
            rawName id' method' path'
              = rest ++ versionMark (OperationName.derive id' method' path').version := by
  refine ⟨splitVersion_of_not_marked, fun _ _ _ => splitVersion_first, splitsTrailing_iff name, ?_⟩
  rintro id method path rfl hmarked id' method' path' hmarked' hname
  have hfirst := rawName_eq_append ((splitsTrailing_iff _).mpr hmarked)
  have hsecond := rawName_eq_append ((splitsTrailing_iff _).mpr hmarked')
  rw [← hname] at hsecond
  exact ⟨_, hfirst, hsecond⟩

theorem splitVersion_trailing_getExample :
    SplitsTrailing "getExample_v1" ∧ splitVersion "getExample_v1" = ("getExample", some "1") ∧
      SplitsTrailing "getExample_v2_v2" ∧
      splitVersion "getExample_v2_v2" = ("getExample_v2", some "2") := by
  have hplain : ¬ Marked "getExample".toList := not_marked_of_notMem (by decide)
  obtain ⟨-, -, honce, -⟩ := splitVersion_trailing "getExample_v1"
  obtain ⟨-, -, htwice, -⟩ := splitVersion_trailing "getExample_v2_v2"
  refine ⟨honce.mpr ?_, by decide, htwice.mpr ?_, by decide⟩
  · exact ⟨"getExample".toList, ['1'], 1, hplain, isNumber_singleton (by decide), by decide⟩
  · exact ⟨"getExample".toList, ['2'], 2, hplain, isNumber_singleton (by decide), by decide⟩

/-- A marker inside the name is taken out like one at the end, so two versions of one name have ids
that differ in more than a marker at the end. -/
theorem splitVersion_inner_marker :
    splitVersion "get_api_v1_items" = ("get_api_items", some "1") ∧
      ¬ SplitsTrailing "get_api_v1_items" ∧
      OperationName.derive (some "get_api_v1_items") .get "/items"
        = ⟨"get_api_items", some "1", "GetApiItems1"⟩ ∧
      OperationName.derive (some "get_api_items_v2") .get "/items"
        = ⟨"get_api_items", some "2", "GetApiItems2"⟩ ∧
      "get_api_v1_items" ≠ "get_api_items" ++ versionMark (some "1") := by
  have hsplit : splitVersion "get_api_v1_items" = ("get_api_items", some "1") := by decide
  refine ⟨hsplit, fun h => ?_, by decide, by decide, by decide⟩
  exact absurd (h.1 _ _ hsplit).2 (by decide)

/-! ### Keys of versions -/

/-- Camel case changes nothing where there is no separator. -/
theorem camelChars_of_no_separator (h : ∀ c ∈ s, isSeparator c = false) : camelChars s = s := by
  fun_induction camelChars s with
  | case1 a b r hraise ih =>
    rw [h a List.mem_cons_self] at hraise
    cases hraise
  | case2 a b r hkeep ih => rw [ih fun c hc => h c (List.mem_cons_of_mem _ hc)]
  | case3 => rfl
  | case4 => rfl

theorem versionKey_of_isNumber {version : String} (h : IsNumber version.toList) :
    versionKey version = "v" ++ version := by
  have hseparator : ∀ c ∈ version.toList, isSeparator c = false := by
    intro c hc
    by_contra hsep
    rw [Bool.not_eq_false, isSeparator, Bool.or_eq_true, beq_iff_eq, beq_iff_eq] at hsep
    rcases hsep with rfl | rfl
    · exact absurd (h.2 _ hc) (by decide)
    · exact absurd (h.2 _ hc) (by decide)
  rw [versionKey, camel, Text.lift, camelChars_of_no_separator hseparator, String.ofList_toList]

/-- Different versions have different keys. -/
theorem versionKey_inj {first second : String} (hfirst : IsNumber first.toList)
    (hsecond : IsNumber second.toList) (h : versionKey first = versionKey second) :
    first = second := by
  rw [versionKey_of_isNumber hfirst, versionKey_of_isNumber hsecond] at h
  exact (String.append_right_inj _).mp h

theorem head?_versionKey (version : String) :
    (versionKey version).toList.head? = some 'v' := by
  rw [versionKey, String.toList_append]
  rfl

end TypedClients.Name
