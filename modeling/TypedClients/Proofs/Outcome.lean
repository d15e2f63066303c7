import TypedClients.Keyed
import Mathlib.Data.List.Forall2

/-!
# Computations that succeed

What is known of the parts of a computation that may fail when the whole succeeds. A traversal
that succeeds relates two lists element by element; `exists_left` and `exists_right` go from an
element of one to its partner in the other. A computation that also keeps a state is run part by
part (`run_bind`).

## What it is for

A reader that goes over a list stops at the first element that fails, so that it succeeds says
something about every element (`forall₂_of_mapM`), and that it fails says something about one
(`exists_of_mapM_eq_error`). Both are used wherever a document is gone through. The lemmas about
relations of lists put such facts together: along the elements, along a third list, and along parts
that are joined.
-/

namespace TypedClients

variable {ε ε' α β : Type}

theorem bind_eq_ok {x : Except ε α} {f : α → Except ε β} {b : β} :
    (x >>= f) = .ok b ↔ ∃ a, x = .ok a ∧ f a = .ok b := by
  constructor
  · intro h
    cases x with
    | error e => cases h
    | ok a => exact ⟨a, rfl, h⟩
  · rintro ⟨a, rfl, h⟩
    exact h

theorem exists_of_isOk {x : Except ε α} (h : x.isOk = true) : ∃ a, x = .ok a := by
  cases x with
  | error e => cases h
  | ok a => exact ⟨a, rfl⟩

theorem map_eq_ok {x : Except ε α} {f : α → β} {b : β} :
    x.map f = .ok b ↔ ∃ a, x = .ok a ∧ f a = b := by
  cases x <;> simp [Except.map]

theorem map_eq_error {x : Except ε α} {f : α → β} {e : ε} :
    x.map f = .error e ↔ x = .error e := by
  cases x <;> simp [Except.map]

theorem mapError_eq_ok {x : Except ε α} {f : ε → ε'} {a : α} :
    x.mapError f = .ok a ↔ x = .ok a := by
  cases x <;> simp [Except.mapError]

/-- A traversal that succeeds has succeeded on every element, in order. -/
theorem forall₂_of_mapM {f : α → Except ε β} {as : List α} {bs : List β}
    (h : as.mapM f = .ok bs) : List.Forall₂ (fun a b => f a = .ok b) as bs := by
  induction as generalizing bs with
  | nil =>
    cases h
    exact .nil
  | cons a as ih =>
    rw [List.mapM_cons, bind_eq_ok] at h
    obtain ⟨b, hb, h⟩ := h
    obtain ⟨rest, hrest, h⟩ := bind_eq_ok.mp h
    cases h
    exact .cons hb (ih hrest)

/-- A traversal gives the results of its elements, if they all succeed. -/
theorem mapM_eq_ok_iff {f : α → Except ε β} {as : List α} {bs : List β} :
    as.mapM f = .ok bs ↔ List.Forall₂ (fun a b => f a = .ok b) as bs := by
  refine ⟨forall₂_of_mapM, fun h => ?_⟩
  induction h with
  | nil => rfl
  | cons hab _ ih =>
    rw [List.mapM_cons, hab, ih]
    rfl

theorem mapM_congr_left {m : Type → Type} [Monad m] [LawfulMonad m] {f g : α → m β} {as : List α}
    (h : ∀ a ∈ as, f a = g a) : as.mapM f = as.mapM g := by
  induction as with
  | nil => rfl
  | cons a as ih =>
    rw [List.mapM_cons, List.mapM_cons, h a List.mem_cons_self,
      ih fun b hb => h b (List.mem_cons_of_mem _ hb)]

theorem mapM_option_map {γ : Type} (f : α → Option β) (g : β → γ) (as : List α) :
    (as.mapM fun a => (f a).map g) = (as.mapM f).map (List.map g) := by
  induction as with
  | nil => rfl
  | cons a as ih =>
    rw [List.mapM_cons, List.mapM_cons, ih]
    cases f a with
    | none => rfl
    | some b => cases as.mapM f <;> rfl

/-- What a traversal gives it gives for an element. -/
theorem exists_of_mem_mapM {f : α → Option β} {as : List α} {bs : List β}
    (h : as.mapM f = some bs) {b : β} (hb : b ∈ bs) : ∃ a ∈ as, f a = some b := by
  induction as generalizing bs with
  | nil =>
    cases h
    cases hb
  | cons a as ih =>
    rw [List.mapM_cons] at h
    obtain ⟨first, hfirst, h⟩ := Option.bind_eq_some_iff.mp h
    obtain ⟨rest, hrest, h⟩ := Option.bind_eq_some_iff.mp h
    cases h
    rcases List.mem_cons.mp hb with rfl | hb
    · exact ⟨a, List.mem_cons_self, hfirst⟩
    · obtain ⟨x, hx, hfx⟩ := ih hrest hb
      exact ⟨x, List.mem_cons_of_mem _ hx, hfx⟩

/-- A traversal that fails has failed on an element. -/
theorem exists_of_mapM_eq_error {f : α → Except ε β} {as : List α} {e : ε}
    (h : as.mapM f = .error e) : ∃ a ∈ as, f a = .error e := by
  induction as with
  | nil => cases h
  | cons a as ih =>
    rw [List.mapM_cons] at h
    cases ha : f a with
    | error e' =>
      rw [ha] at h
      cases h
      exact ⟨a, List.mem_cons_self, ha⟩
    | ok b =>
      rw [ha] at h
      cases hrest : as.mapM f with
      | error e' =>
        rw [hrest] at h
        cases h
        obtain ⟨x, hx, hfx⟩ := ih hrest
        exact ⟨x, List.mem_cons_of_mem _ hx, hfx⟩
      | ok rest =>
        rw [hrest] at h
        cases h

/-- Two traversals do the same, unless one fails on an element where the other may go on. -/
theorem mapM_eq_of_ne_error {f g : α → Except ε β} {as : List α} {e : ε}
    (heq : ∀ a ∈ as, f a ≠ .error e → g a = f a) (h : as.mapM f ≠ .error e) :
    as.mapM g = as.mapM f := by
  induction as with
  | nil => rfl
  | cons a as ih =>
    rw [List.mapM_cons] at h
    have ha : f a ≠ .error e := fun hfa => h (by rw [hfa]; rfl)
    rw [List.mapM_cons, List.mapM_cons, heq a List.mem_cons_self ha]
    cases hfa : f a with
    | error e' => rfl
    | ok b =>
      have hrest : as.mapM f ≠ .error e := fun hrest => h (by rw [hfa, hrest]; rfl)
      rw [ih (fun x hx => heq x (List.mem_cons_of_mem _ hx)) hrest]

theorem forM_eq_ok_iff {f : α → Except ε Unit} {as : List α} :
    as.forM f = .ok () ↔ ∀ a ∈ as, f a = .ok () := by
  induction as with
  | nil => exact ⟨fun _ _ h => absurd h List.not_mem_nil, fun _ => rfl⟩
  | cons a as ih =>
    rw [List.forall_mem_cons, ← ih]
    exact bind_eq_ok.trans ⟨fun ⟨_, ha, h⟩ => ⟨ha, h⟩, fun ⟨ha, h⟩ => ⟨(), ha, h⟩⟩

theorem exists_left {R : α → β → Prop} {as : List α} {bs : List β} (h : List.Forall₂ R as bs)
    {b : β} (hb : b ∈ bs) : ∃ a ∈ as, R a b := by
  induction h with
  | nil => cases hb
  | cons hab _ ih =>
    rcases List.mem_cons.mp hb with rfl | hb
    · exact ⟨_, List.mem_cons_self, hab⟩
    · obtain ⟨a, ha, h⟩ := ih hb
      exact ⟨a, List.mem_cons_of_mem _ ha, h⟩

theorem exists_right {R : α → β → Prop} {as : List α} {bs : List β} (h : List.Forall₂ R as bs)
    {a : α} (ha : a ∈ as) : ∃ b ∈ bs, R a b :=
  exists_left h.flip ha

/-- What stands before and behind an element stands before and behind its partner. -/
theorem exists_append_of_forall₂ {R : α → β → Prop} {as : List α} {b : β} {before after : List β}
    (h : List.Forall₂ R as (before ++ b :: after)) :
    ∃ before' a after', as = before' ++ a :: after' ∧ R a b ∧ List.Forall₂ R after' after := by
  induction before generalizing as with
  | nil =>
    cases h with
    | cons hab hafter => exact ⟨[], _, _, rfl, hab, hafter⟩
  | cons first before ih =>
    cases h with
    | cons _ hrest =>
      obtain ⟨before', a, after', rfl, hab, hafter⟩ := ih hrest
      exact ⟨_ :: before', a, after', rfl, hab, hafter⟩

/-- Elements that are related by way of a third one are related by way of a third list. -/
theorem forall₂_exists_iff {γ : Type} {R : α → β → Prop} {S : β → γ → Prop} {as : List α}
    {cs : List γ} : List.Forall₂ (fun a c => ∃ b, R a b ∧ S b c) as cs ↔
      ∃ bs, List.Forall₂ R as bs ∧ List.Forall₂ S bs cs := by
  constructor
  · intro h
    induction h with
    | nil => exact ⟨[], .nil, .nil⟩
    | cons hac _ ih =>
      obtain ⟨b, hab, hbc⟩ := hac
      obtain ⟨bs, has, hcs⟩ := ih
      exact ⟨b :: bs, .cons hab has, .cons hbc hcs⟩
  · rintro ⟨bs, has, hcs⟩
    induction has generalizing cs with
    | nil =>
      cases hcs
      exact .nil
    | cons hab _ ih =>
      cases hcs with
      | cons hbc hcs => exact .cons ⟨_, hab, hbc⟩ (ih hcs)

/-- Lists that are put together are related as far as the parts are. -/
theorem forall₂_flatMap_iff {γ : Type} {R : β → γ → Prop} {f : α → List β} {as : List α}
    {cs : List γ} : List.Forall₂ R (as.flatMap f) cs ↔
      ∃ groups, List.Forall₂ (fun a group => List.Forall₂ R (f a) group) as groups ∧
        groups.flatten = cs := by
  constructor
  · intro h
    induction as generalizing cs with
    | nil =>
      cases h
      exact ⟨[], .nil, rfl⟩
    | cons a as ih =>
      rw [List.flatMap_cons] at h
      have hgroup := (List.forall₂_take_append _ _ _ h.flip).flip
      obtain ⟨groups, hgroups, hflat⟩ := ih (List.forall₂_drop_append _ _ _ h.flip).flip
      refine ⟨cs.take (f a).length :: groups, .cons hgroup hgroups, ?_⟩
      rw [List.flatten_cons, hflat, List.take_append_drop]
  · rintro ⟨groups, hgroups, rfl⟩
    induction hgroups with
    | nil => exact .nil
    | cons hgroup _ ih =>
      rw [List.flatMap_cons, List.flatten_cons]
      exact List.rel_append hgroup ih

/-- A list is related to some list if each element is related to something. -/
theorem exists_forall₂_iff {R : α → β → Prop} {as : List α} :
    (∃ bs, List.Forall₂ R as bs) ↔ ∀ a ∈ as, ∃ b, R a b := by
  induction as with
  | nil => exact ⟨fun _ _ h => absurd h List.not_mem_nil, fun _ => ⟨[], .nil⟩⟩
  | cons a as ih =>
    rw [List.forall_mem_cons, ← ih]
    constructor
    · rintro ⟨_, _ | ⟨hab, h⟩⟩
      exact ⟨⟨_, hab⟩, _, h⟩
    · rintro ⟨⟨b, hab⟩, bs, h⟩
      exact ⟨b :: bs, .cons hab h⟩

/-- Lists whose elements are related alike are related alike. -/
theorem forall₂_iff_of_forall₂ {γ : Type} {R : α → γ → Prop} {S : β → γ → Prop} {T : α → β → Prop}
    {as : List α} {bs : List β} {cs : List γ} (h : List.Forall₂ T as bs)
    (hT : ∀ a b, T a b → ∀ c, R a c ↔ S b c) : List.Forall₂ R as cs ↔ List.Forall₂ S bs cs := by
  induction h generalizing cs with
  | nil => cases cs <;> simp
  | cons hab _ ih =>
    rw [List.forall₂_cons_left_iff, List.forall₂_cons_left_iff]
    simp only [hT _ _ hab, ih]

theorem map_eq_map_of_forall₂ {γ : Type} {f : α → γ} {g : β → γ} {as : List α} {bs : List β}
    (h : List.Forall₂ (fun a b => f a = g b) as bs) : as.map f = bs.map g := by
  induction h with
  | nil => rfl
  | cons hab _ ih => rw [List.map_cons, List.map_cons, hab, ih]

theorem exists_some_left {R : α → β → Prop} {a : Option α} {b : β}
    (h : Option.Rel R a (some b)) : ∃ x, a = some x ∧ R x b := by
  cases h with
  | some h => exact ⟨_, rfl, h⟩

theorem exists_some_right {R : α → β → Prop} {a : α} {b : Option β}
    (h : Option.Rel R (some a) b) : ∃ y, b = some y ∧ R a y := by
  cases h with
  | some h => exact ⟨_, rfl, h⟩

/-- A bind runs its second part in the state that the first one leaves. -/
theorem run_bind {σ : Type} (x : ExceptT ε (StateM σ) α) (f : α → ExceptT ε (StateM σ) β)
    (before : σ) :
    (x >>= f).run.run before
      = match x.run.run before with
        | (.ok a, middle) => (f a).run.run middle
        | (.error e, middle) => (.error e, middle) := by
  rw [ExceptT.run_bind]
  simp only [StateT.run_bind]
  show (match x.run.run before with | (a, s) => _) = _
  rcases x.run.run before with ⟨_ | a, middle⟩ <;> rfl

end TypedClients
