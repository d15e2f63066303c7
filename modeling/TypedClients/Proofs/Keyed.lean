import Mathlib.Data.List.Induction
import Mathlib.Data.List.Perm.Subperm
import TypedClients.Keyed

/-!
# What is in a keyed list

An insertion puts in the pair that is inserted, and no other. It loses no key; and the pairs of a
list that is built by insertions are among those that were inserted: of two with one key the last
(`get?_ofList_of_last`), in the place of the first (`keys_ofList`). Leaving out repetitions leaves
out no element. A list that gives every key its value under a function is changed at a key like the
function (`update_table`).

## How it is laid out

Facts about insertions come first, then those about lists without repeated keys, where the list is
as good as a function on its keys, and at the end tables, which are such lists by construction. Most
of them ask for keys that are not repeated, where a look-up and membership come to the same
(`get?_eq_some_iff_of_nodup`).
-/

namespace TypedClients

/-- Among the elements with a property there is a last one. -/
theorem exists_last_of_mem {α : Type} (P : α → Prop) {items : List α} {item : α}
    (hmem : item ∈ items) (hitem : P item) :
    ∃ earlier last later, items = earlier ++ last :: later ∧ P last ∧ ∀ x ∈ later, ¬ P x := by
  induction items generalizing item with
  | nil => cases hmem
  | cons first items ih =>
    by_cases hrest : ∃ x ∈ items, P x
    · obtain ⟨x, hx, hPx⟩ := hrest
      obtain ⟨earlier, last, later, rfl, hlast, hlater⟩ := ih hx hPx
      exact ⟨first :: earlier, last, later, rfl, hlast, hlater⟩
    · rcases List.mem_cons.mp hmem with rfl | hmem
      · exact ⟨[], item, items, rfl, hitem, fun x hx hPx => hrest ⟨x, hx, hPx⟩⟩
      · exact absurd ⟨item, hmem, hitem⟩ hrest

namespace Keyed

variable {κ α : Type} [DecidableEq κ]

/-- There is a value under the keys and under no others. -/
theorem get?_eq_none_iff {key : κ} {entries : List (κ × α)} :
    get? key entries = none ↔ key ∉ keys entries := by
  induction entries with
  | nil => simp [get?, keys]
  | cons entry rest ih =>
    obtain ⟨k, v⟩ := entry
    by_cases h : k = key
    · simp [get?, keys, h]
    · rw [get?, if_neg h, ih]
      simp [keys, Ne.symm h]

theorem mem_keys_iff {key : κ} {entries : List (κ × α)} :
    key ∈ keys entries ↔ ∃ value, get? key entries = some value := by
  rw [← Option.ne_none_iff_exists', Ne, get?_eq_none_iff, Decidable.not_not]

theorem mem_keys_insert {key k : κ} {value : α} {entries : List (κ × α)} :
    k ∈ keys (insert key value entries) ↔ k = key ∨ k ∈ keys entries := by
  rw [keys_insert]
  split
  · next h => exact ⟨.inr, fun hk => hk.elim (fun hk => hk ▸ h) id⟩
  · rw [List.mem_append, List.mem_singleton, or_comm]

theorem mem_of_mem_insert {key : κ} {value : α} {entries : List (κ × α)} {entry : κ × α}
    (h : entry ∈ insert key value entries) : entry = (key, value) ∨ entry ∈ entries := by
  induction entries with
  | nil => exact .inl (List.mem_singleton.mp h)
  | cons first rest ih =>
    obtain ⟨k, v⟩ := first
    rw [insert] at h
    split at h
    · next hk =>
      subst hk
      rcases List.mem_cons.mp h with h | h
      · exact .inl h
      · exact .inr (List.mem_cons_of_mem _ h)
    · rcases List.mem_cons.mp h with h | h
      · exact .inr (h ▸ List.mem_cons_self)
      · exact (ih h).imp_right (List.mem_cons_of_mem _)

/-- The pairs of a list built from pairs are among them. -/
theorem mem_of_mem_ofList {pairs : List (κ × α)} {entry : κ × α} (h : entry ∈ ofList pairs) :
    entry ∈ pairs := by
  have hfold : ∀ (pairs entries : List (κ × α)),
      entry ∈ pairs.foldl (fun entries p => insert p.1 p.2 entries) entries →
        entry ∈ entries ∨ entry ∈ pairs := by
    intro pairs
    induction pairs with
    | nil => exact fun _ h => .inl h
    | cons pair pairs ih =>
      intro entries h
      rcases ih _ h with h | h
      · rcases mem_of_mem_insert h with h | h
        · exact .inr (h ▸ List.mem_cons_self)
        · exact .inl h
      · exact .inr (List.mem_cons_of_mem _ h)
  exact (hfold pairs [] h).resolve_left List.not_mem_nil

/-- Leaving out the repetitions leaves out no element. -/
theorem mem_distinct {x : κ} {items : List κ} : x ∈ distinct items ↔ x ∈ items := by
  have hfold : ∀ (items seen : List κ),
      x ∈ items.foldl (fun seen y => if y ∈ seen then seen else seen ++ [y]) seen ↔
        x ∈ seen ∨ x ∈ items := by
    intro items
    induction items with
    | nil => simp
    | cons item items ih =>
      intro seen
      rw [List.foldl_cons, ih]
      split
      · next hitem =>
        rw [List.mem_cons]
        constructor
        · exact fun h => h.imp_right .inr
        · rintro (h | rfl | h)
          · exact .inl h
          · exact .inl hitem
          · exact .inr h
      · rw [List.mem_append, List.mem_singleton, List.mem_cons, or_assoc]
  rw [distinct, hfold items []]
  simp

theorem distinct_append_singleton (items : List κ) (x : κ) :
    distinct (items ++ [x])
      = if x ∈ distinct items then distinct items else distinct items ++ [x] := by
  rw [distinct, List.foldl_append]
  rfl

theorem nodup_distinct (items : List κ) : (distinct items).Nodup := by
  induction items using List.reverseRecOn with
  | nil => exact List.nodup_nil
  | append_singleton items x ih =>
    rw [distinct_append_singleton]
    by_cases hx : x ∈ distinct items
    · rw [if_pos hx]
      exact ih
    · rw [if_neg hx, List.nodup_append]
      refine ⟨ih, by simp, ?_⟩
      rintro y hy z hz rfl
      exact hx (List.mem_singleton.mp hz ▸ hy)

theorem distinct_eq_self {items : List κ} (h : items.Nodup) : distinct items = items := by
  induction items using List.reverseRecOn with
  | nil => rfl
  | append_singleton items x ih =>
    obtain ⟨hitems, -, hnew⟩ := List.nodup_append.mp h
    rw [distinct_append_singleton, ih hitems, if_neg]
    exact fun hx => hnew x hx x (List.mem_singleton_self x) rfl

/-- The keys are those that are met, in the order in which they are first met. -/
structure FirstMet (met keys : List κ) : Prop where
  mem_iff : ∀ key, key ∈ keys ↔ key ∈ met
  ordered : keys.Pairwise fun a b => met.idxOf a < met.idxOf b

theorem FirstMet.nodup {met keys : List κ} (h : FirstMet met keys) : keys.Nodup :=
  h.ordered.imp fun hlt => by
    rintro rfl
    exact Nat.lt_irrefl _ hlt

/-- Without the repetitions the elements stand in the order in which they are first met. -/
theorem firstMet_distinct (items : List κ) : FirstMet items (distinct items) where
  mem_iff _ := mem_distinct
  ordered := by
    induction items using List.reverseRecOn with
    | nil => exact .nil
    | append_singleton items x ih =>
      have hearlier : (distinct items).Pairwise fun a b =>
          (items ++ [x]).idxOf a < (items ++ [x]).idxOf b := by
        refine ih.imp_of_mem fun ha hb hlt => ?_
        rw [List.idxOf_append_of_mem (mem_distinct.mp ha),
          List.idxOf_append_of_mem (mem_distinct.mp hb)]
        exact hlt
      rw [distinct_append_singleton]
      split
      · exact hearlier
      · next hx =>
        refine List.pairwise_append.mpr ⟨hearlier, List.pairwise_singleton _ _, ?_⟩
        intro a ha b hb
        rw [mem_distinct] at ha hx
        rw [List.mem_singleton.mp hb, List.idxOf_append_of_mem ha, List.idxOf_append_of_notMem hx]
        exact Nat.lt_add_right _ (List.idxOf_lt_length_of_mem ha)

/-! ### Lists of insertions -/

theorem ofList_append_singleton (pairs : List (κ × α)) (key : κ) (value : α) :
    ofList (pairs ++ [(key, value)]) = insert key value (ofList pairs) := by
  simp only [ofList, List.foldl_append, List.foldl_cons, List.foldl_nil]

/-- The keys stand in the order in which they are first given. -/
theorem keys_ofList (pairs : List (κ × α)) :
    keys (ofList pairs) = distinct (pairs.map Prod.fst) := by
  induction pairs using List.reverseRecOn with
  | nil => rfl
  | append_singleton pairs pair ih =>
    obtain ⟨key, value⟩ := pair
    rw [ofList_append_singleton, keys_insert, ih, List.map_append, List.map_singleton,
      distinct_append_singleton]

/-- The value that is given last for a key counts. -/
theorem get?_ofList_of_last {earlier later : List (κ × α)} {key : κ} {value : α}
    (h : ∀ other ∈ later, other.1 ≠ key) :
    get? key (ofList (earlier ++ (key, value) :: later)) = some value := by
  induction later using List.reverseRecOn with
  | nil => rw [ofList_append_singleton, get?_insert, if_pos rfl]
  | append_singleton later pair ih =>
    obtain ⟨other, v⟩ := pair
    have hother : key ≠ other := (h (other, v) (by simp)).symm
    rw [← List.cons_append, ← List.append_assoc, ofList_append_singleton, get?_insert,
      if_neg hother]
    exact ih fun p hp => h p (List.mem_append_left _ hp)

/-- Under a key is what is given for it last. -/
theorem get?_ofList (key : κ) (pairs : List (κ × α)) :
    get? key (ofList pairs) = (pairs.reverse.find? fun pair => pair.1 = key).map Prod.snd := by
  induction pairs using List.reverseRecOn with
  | nil => rfl
  | append_singleton pairs pair ih =>
    obtain ⟨k, value⟩ := pair
    rw [ofList_append_singleton, get?_insert, ih, List.reverse_append, List.reverse_singleton,
      List.singleton_append, List.find?_cons]
    by_cases hk : k = key
    · subst hk
      simp
    · simp [hk, Ne.symm hk]

/-- Where no key is repeated, the pairs are the keys with what is under them. -/
theorem filterMap_get?_keys {entries : List (κ × α)} (h : (keys entries).Nodup) :
    ((keys entries).filterMap fun key => (get? key entries).map fun value => (key, value))
      = entries := by
  induction entries with
  | nil => rfl
  | cons entry rest ih =>
    obtain ⟨k, value⟩ := entry
    obtain ⟨hk, hrest⟩ := List.nodup_cons.mp h
    -- The first key is none of the later ones, so these are looked up behind it.
    have hlater : ∀ key ∈ keys rest, get? key ((k, value) :: rest) = get? key rest := by
      intro key hkey
      rw [get?, if_neg]
      rintro rfl
      exact hk hkey
    have hfirst : get? k ((k, value) :: rest) = some value := by rw [get?, if_pos rfl]
    rw [keys, List.map_cons, List.filterMap_cons, hfirst]
    refine congrArg ((k, value) :: ·) ((List.filterMap_congr fun key hkey => ?_).trans (ih hrest))
    rw [hlater key hkey]

theorem insert_of_notMem {key : κ} {value : α} {entries : List (κ × α)} (h : key ∉ keys entries) :
    insert key value entries = entries ++ [(key, value)] := by
  induction entries with
  | nil => rfl
  | cons entry entries ih =>
    obtain ⟨k, v⟩ := entry
    obtain ⟨hk, hrest⟩ := List.ne_and_not_mem_of_not_mem_cons h
    rw [insert, if_neg (Ne.symm hk), ih hrest, List.cons_append]

theorem ofList_eq_self {entries : List (κ × α)} (h : (keys entries).Nodup) :
    ofList entries = entries := by
  induction entries using List.reverseRecOn with
  | nil => rfl
  | append_singleton entries entry ih =>
    rw [keys, List.map_append, List.map_singleton] at h
    obtain ⟨hentries, -, hnew⟩ := List.nodup_append.mp h
    rw [ofList_append_singleton, ih hentries]
    exact insert_of_notMem fun hmem => hnew _ hmem _ (List.mem_singleton_self _) rfl

/-- A look-up among values that are changed by a function of their keys. -/
theorem get?_map {β : Type} (f : κ → α → β) (key : κ) (entries : List (κ × α)) :
    get? key (entries.map fun entry => (entry.1, f entry.1 entry.2))
      = (get? key entries).map (f key) := by
  induction entries with
  | nil => rfl
  | cons entry entries ih =>
    obtain ⟨k, v⟩ := entry
    rw [List.map_cons, get?, get?]
    split
    · next h => rw [h, Option.map_some]
    · exact ih

/-- A look-up among the entries whose keys are kept. -/
theorem get?_filter {keeps : κ → Bool} {key : κ} (h : keeps key = true) (entries : List (κ × α)) :
    get? key (entries.filter fun entry => keeps entry.1) = get? key entries := by
  induction entries with
  | nil => rfl
  | cons entry entries ih =>
    obtain ⟨k, v⟩ := entry
    rw [List.filter_cons]
    by_cases hk : k = key
    · subst hk
      rw [if_pos h, get?, get?, if_pos rfl, if_pos rfl]
    · rw [get?, if_neg hk, ← ih]
      split
      · rw [get?, if_neg hk]
      · rfl

/-- Under a key that is there once stands what is found there. -/
theorem filter_eq_of_nodup [BEq κ] [LawfulBEq κ] {key : κ} {entries : List (κ × α)}
    (h : (keys entries).Nodup) :
    (entries.filter fun entry => entry.1 == key)
      = (get? key entries).toList.map (Prod.mk key) := by
  induction entries with
  | nil => rfl
  | cons entry entries ih =>
    obtain ⟨k, v⟩ := entry
    obtain ⟨hk, hentries⟩ := List.nodup_cons.mp h
    rw [List.filter_cons, ih hentries]
    by_cases hkey : k = key
    · subst hkey
      rw [if_pos (beq_self_eq_true k), get?, if_pos rfl, get?_eq_none_iff.mpr hk]
      rfl
    · rw [if_neg (by simpa using hkey), get?, if_neg hkey]

theorem mem_of_get?_eq_some {key : κ} {value : α} {entries : List (κ × α)}
    (h : get? key entries = some value) : (key, value) ∈ entries := by
  induction entries with
  | nil => cases h
  | cons entry entries ih =>
    obtain ⟨k, v⟩ := entry
    rw [get?] at h
    split at h
    · next hk =>
      cases h
      rw [hk]
      exact List.mem_cons_self
    · exact List.mem_cons_of_mem _ (ih h)

/-- Where keys are not repeated, the value under a key is the one that stands with it. -/
theorem get?_eq_some_iff_of_nodup {key : κ} {value : α} {entries : List (κ × α)}
    (h : (keys entries).Nodup) : get? key entries = some value ↔ (key, value) ∈ entries := by
  refine ⟨mem_of_get?_eq_some, fun hmem => ?_⟩
  induction entries with
  | nil => cases hmem
  | cons entry entries ih =>
    obtain ⟨k, v⟩ := entry
    rw [keys, List.map_cons, List.nodup_cons] at h
    rw [get?]
    rcases List.mem_cons.mp hmem with heq | hmem
    · cases heq
      exact if_pos rfl
    · have hne : k ≠ key := fun hk => h.1 (List.mem_map.mpr ⟨(key, value), hmem, hk.symm⟩)
      rw [if_neg hne]
      exact ih h.2 hmem

/-- What a list of insertions holds is given last for its key. -/
theorem exists_last_of_mem_ofList {pairs : List (κ × α)} {entry : κ × α} (h : entry ∈ ofList pairs) :
    ∃ earlier later, pairs = earlier ++ entry :: later ∧ ∀ other ∈ later, other.1 ≠ entry.1 := by
  obtain ⟨earlier, last, later, hpairs, hkey, hlater⟩ :=
    exists_last_of_mem (fun other => other.1 = entry.1) (mem_of_mem_ofList h) rfl
  have hnodup : (keys (ofList pairs)).Nodup := by
    rw [keys_ofList]
    exact nodup_distinct _
  have hentry := (get?_eq_some_iff_of_nodup hnodup).mpr h
  have hlast : get? entry.1 (ofList pairs) = some last.2 := by
    rw [hpairs, ← hkey]
    exact get?_ofList_of_last fun other hother => hkey ▸ hlater other hother
  have hvalue : last.2 = entry.2 := Option.some.inj (hlast.symm.trans hentry)
  obtain rfl : last = entry := Prod.ext hkey hvalue
  exact ⟨earlier, later, hpairs, hlater⟩

/-- Where keys are not repeated, the order does not matter. -/
theorem get?_eq_of_perm {entries others : List (κ × α)} (h : (keys entries).Nodup)
    (hperm : entries.Perm others) (key : κ) : get? key entries = get? key others := by
  have hothers : (keys others).Nodup := (hperm.map Prod.fst).nodup_iff.mp h
  refine Option.ext fun value => ?_
  rw [get?_eq_some_iff_of_nodup h, get?_eq_some_iff_of_nodup hothers, hperm.mem_iff]

theorem get?_append {key : κ} (entries others : List (κ × α)) :
    get? key (entries ++ others) = (get? key entries).or (get? key others) := by
  induction entries with
  | nil => rfl
  | cons entry entries ih =>
    obtain ⟨k, v⟩ := entry
    rw [List.cons_append, get?, get?]
    split
    · rfl
    · exact ih

theorem insert_map {β : Type} (f : α → β) (key : κ) (value : α) (entries : List (κ × α)) :
    insert key (f value) (entries.map fun entry => (entry.1, f entry.2))
      = (insert key value entries).map fun entry => (entry.1, f entry.2) := by
  induction entries with
  | nil => rfl
  | cons entry entries ih =>
    by_cases h : entry.1 = key
    · simp only [List.map_cons, insert, h, if_true]
    · simp only [List.map_cons, insert, h, if_false, ih]

theorem ofList_map {β : Type} (f : α → β) (pairs : List (κ × α)) :
    ofList (pairs.map fun pair => (pair.1, f pair.2))
      = (ofList pairs).map fun entry => (entry.1, f entry.2) := by
  induction pairs using List.reverseRecOn with
  | nil => rfl
  | append_singleton pairs pair ih =>
    rw [List.map_append, List.map_singleton, ofList_append_singleton, ih, insert_map,
      ← ofList_append_singleton]

theorem subperm_insert (key : κ) (value : α) (entries : List (κ × α)) :
    ((insert key value entries).map Prod.snd).Subperm (entries.map Prod.snd ++ [value]) := by
  induction entries with
  | nil => exact List.Subperm.refl _
  | cons entry entries ih =>
    rw [insert]
    split
    · exact (List.perm_append_singleton value _).symm.subperm.trans List.Subperm.cons_self
    · exact (List.subperm_cons _).mpr ih

/-- The values of a list that is built from pairs are some of theirs, each as often as it is
given at most. -/
theorem subperm_ofList (pairs : List (κ × α)) :
    ((ofList pairs).map Prod.snd).Subperm (pairs.map Prod.snd) := by
  induction pairs using List.reverseRecOn with
  | nil => exact List.Subperm.refl _
  | append_singleton pairs pair ih =>
    rw [ofList_append_singleton, List.map_append, List.map_singleton]
    exact (subperm_insert _ _ _).trans ((List.subperm_append_right _).mpr ih)

/-! ### Tables -/

/-- The keys with their values under a function. -/
def table (keys : List κ) (f : κ → α) : List (κ × α) :=
  keys.map fun key => (key, f key)

omit [DecidableEq κ] in
theorem keys_table (ks : List κ) (f : κ → α) : keys (table ks f) = ks := by
  rw [keys, table, List.map_map]
  exact List.map_id ks

/-- A change at a key of a table changes the function there. -/
theorem update_table {ks : List κ} (hks : ks.Nodup) {f : κ → α} {key : κ} {start : α}
    (hstart : key ∉ ks → f key = start) (change : α → α) :
    update key start change (table ks f)
      = table (if key ∈ ks then ks else ks ++ [key])
          fun k => if k = key then change (f k) else f k := by
  induction ks with
  | nil =>
    rw [hstart List.not_mem_nil |>.symm]
    simp [table, update]
  | cons k ks ih =>
    obtain ⟨hk, hks⟩ := List.nodup_cons.mp hks
    by_cases h : k = key
    · subst h
      have hrest : ∀ other ∈ ks, (if other = k then change (f other) else f other) = f other := by
        intro other hother
        rw [if_neg]
        rintro rfl
        exact hk hother
      have hcongr := List.map_congr_left fun other hother =>
        congrArg (Prod.mk other) (hrest other hother)
      simp only [table, List.map_cons, update, if_true, List.mem_cons, true_or, hcongr]
    · have hstart : key ∉ ks → f key = start := fun hkey => hstart (by simp [Ne.symm h, hkey])
      have hmem : key ∈ k :: ks ↔ key ∈ ks := by simp [Ne.symm h]
      have ih := ih hks hstart
      simp only [table] at ih
      simp only [table, List.map_cons, update, h, if_false, ih, hmem]
      split <;> simp [h]

/-- A change that adds an element to what belongs to the values adds it to what belongs to the
list. -/
theorem flatMap_update_perm {β : Type} (g : α → List β) {x : β} {start : α} {change : α → α}
    (hstart : g start = []) (hchange : ∀ value, (g (change value)).Perm (g value ++ [x]))
    (key : κ) (entries : List (κ × α)) :
    ((update key start change entries).flatMap fun entry => g entry.2).Perm
      ((entries.flatMap fun entry => g entry.2) ++ [x]) := by
  induction entries with
  | nil => simpa [update, hstart] using hchange start
  | cons entry entries ih =>
    obtain ⟨k, value⟩ := entry
    rw [update]
    split
    · rw [List.flatMap_cons, List.flatMap_cons, List.append_assoc]
      refine ((hchange value).append_right _).trans ?_
      rw [List.append_assoc]
      exact List.perm_append_comm.append_left _
    · rw [List.flatMap_cons, List.flatMap_cons, List.append_assoc]
      exact ih.append_left _

end Keyed

end TypedClients
