/-!
# Keyed lists

Objects, maps and buckets are lists of pairs in the order in which their keys were first given. A
key that is given again keeps its place and takes the new value.

`get?_insert` says what an insertion does to a look-up, `keys_insert` what it does to the order.

## Why lists

The order of keys shows in everything that is generated: properties, buckets and members stand where
they were first met. A list of pairs keeps this order by itself. What is lost is the speed of a
look-up, which matters little for documents of this kind.

## What is not built in

A list of pairs may have a key twice; then the first one is found. Lists that are made by insertions
have every key once (`ofList`), and what is proved of look-ups says where this is needed.
-/

namespace TypedClients.Keyed

variable {κ α : Type} [DecidableEq κ]

/-- Puts `value` at `key`: in the place of the old value, or else at the end. -/
def insert (key : κ) (value : α) : List (κ × α) → List (κ × α)
  | [] => [(key, value)]
  | (k, v) :: rest => if k = key then (k, value) :: rest else (k, v) :: insert key value rest

/-- The keys, in order. -/
def keys (entries : List (κ × α)) : List κ :=
  entries.map Prod.fst

/-- Inserts the pairs one after the other. -/
def ofList (pairs : List (κ × α)) : List (κ × α) :=
  pairs.foldl (fun entries (k, v) => insert k v entries) []

/-- Changes the value at `key`, or puts `change default` at the end if there is none. -/
def update (key : κ) (start : α) (change : α → α) : List (κ × α) → List (κ × α)
  | [] => [(key, change start)]
  | (k, v) :: rest =>
    if k = key then (k, change v) :: rest else (k, v) :: update key start change rest

/-- The value under `key`. -/
def get? (key : κ) : List (κ × α) → Option α
  | [] => none
  | (k, v) :: rest => if k = key then some v else get? key rest

/-- After an insertion, the inserted key has the inserted value and every other key its own. -/
theorem get?_insert (key k : κ) (value : α) (entries : List (κ × α)) :
    get? k (insert key value entries) = if k = key then some value else get? k entries := by
  induction entries with
  | nil => simp [insert, get?, eq_comm]
  | cons entry rest ih =>
    obtain ⟨e, v⟩ := entry
    by_cases h : e = key
    · subst h
      by_cases hk : k = e
      · simp [insert, get?, hk]
      · simp [insert, get?, hk, Ne.symm hk]
    · by_cases he : e = k
      · subst he
        simp [insert, get?, h]
      · simp [insert, get?, h, he, ih]

/-- An insertion adds its key at the end, if it is new, and moves no other. -/
theorem keys_insert (key : κ) (value : α) (entries : List (κ × α)) :
    keys (insert key value entries)
      = if key ∈ keys entries then keys entries else keys entries ++ [key] := by
  induction entries with
  | nil => simp [insert, keys]
  | cons entry rest ih =>
    obtain ⟨e, v⟩ := entry
    by_cases h : e = key
    · simp [insert, keys, h]
    · have h' : key ≠ e := Ne.symm h
      simp only [insert, h, if_false]
      simp only [keys, List.map_cons, List.mem_cons, h', false_or] at ih ⊢
      rw [ih]
      by_cases hm : key ∈ List.map Prod.fst rest <;> simp [hm]

/-- The elements without the repetitions, each at its first place. -/
def distinct (items : List κ) : List κ :=
  items.foldl (fun seen x => if x ∈ seen then seen else seen ++ [x]) []

end TypedClients.Keyed
