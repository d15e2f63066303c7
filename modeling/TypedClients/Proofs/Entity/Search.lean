import TypedClients.Entity.Cycle
import TypedClients.Proofs.Keyed
import Mathlib.Data.List.Chain
import Mathlib.Data.List.Nodup
import Mathlib.Logic.Relation

/-!
# The search for reference cycles

The search goes round by round: a pending name is taken out and, if it is new, its references become
pending. In what order names are taken makes no difference. Every round makes the search smaller
(`Round.size_lt`), so on every graph it ends; and what it has seen is closed under references up to
what is pending (`Progress`), so where nothing is pending any more, there is no cycle.
`isRecursive_iff` says that the answer is whether an entity lies on a cycle.

## How it is proved

A search is described apart from the order of its names, by the steps that are open to it (`Round`).
That every search ends is by its size: a visited name spends one of the pending ones, and adds no
more than its own references, which are not counted any more afterwards. That the answer is right is
by what is known on the way (`Progress`): every name that has been seen or is pending can be
reached, and every reference of a seen name is seen or pending. The search of the definition is one
of these (`exists_rounds_of_reaches`).
-/

namespace TypedClients.Entity

open Relation

/-- The entity called `a` refers to what is called `b`. -/
def Edge (entities : List Entity) (a b : String) : Prop :=
  ∃ entity ∈ entities, entity.name = a ∧ b ∈ entity.shape.references

/-- A chain of references, not empty, leads from the entity back to it. -/
def OnCycle (entities : List Entity) (name : String) : Prop :=
  TransGen (Edge entities) name name

/-- Where no two entities have the same name, the references that are looked up are those of the one
entity of the name. -/
theorem mem_edges_iff {entities : List Entity} (distinct : (entities.map Entity.name).Nodup)
    {a b : String} : b ∈ edges entities a ↔ Edge entities a b := by
  unfold edges
  cases hfind : entities.reverse.find? fun e => e.name == a with
  | some found =>
    have hmem : found ∈ entities := List.mem_reverse.mp (List.mem_of_find?_eq_some hfind)
    have hname : found.name = a := by simpa using List.find?_some hfind
    constructor
    · exact fun hb => ⟨found, hmem, hname, hb⟩
    · rintro ⟨entity, hentity, rfl, hb⟩
      rwa [List.inj_on_of_nodup_map distinct hmem hentity hname]
  | none =>
    have hnone : ∀ entity ∈ entities, entity.name ≠ a := by
      simpa using List.find?_eq_none.mp hfind
    refine iff_of_false List.not_mem_nil ?_
    rintro ⟨entity, hentity, hname, -⟩
    exact hnone entity hentity hname

/-! ### Rounds -/

/-- What a search has visited, and what it has still to visit. -/
structure Search where
  seen : List String
  pending : List String

namespace Search

variable {entities : List Entity} {start : String}

/-- The beginning of the search for a cycle through the entity called `start`. -/
def init (entities : List Entity) (start : String) : Search :=
  ⟨[], edges entities start⟩

/-- A round of the search. Any pending name may be taken out that is not the one looked for. -/
inductive Round (entities : List Entity) (start : String) : Search → Search → Prop
  | old {seen before after : List String} {name : String} (other : name ≠ start)
      (mem : name ∈ seen) :
      Round entities start ⟨seen, before ++ name :: after⟩ ⟨seen, before ++ after⟩
  | new {seen before after : List String} {name : String} (other : name ≠ start)
      (not_mem : name ∉ seen) :
      Round entities start ⟨seen, before ++ name :: after⟩
        ⟨name :: seen, edges entities name ++ (before ++ after)⟩

theorem Round.old_head {seen pending : List String} {name : String} (other : name ≠ start)
    (mem : name ∈ seen) : Round entities start ⟨seen, name :: pending⟩ ⟨seen, pending⟩ :=
  @Round.old entities start seen [] pending name other mem

theorem Round.new_head {seen pending : List String} {name : String} (other : name ≠ start)
    (not_mem : name ∉ seen) : Round entities start ⟨seen, name :: pending⟩
      ⟨name :: seen, edges entities name ++ pending⟩ :=
  @Round.new entities start seen [] pending name other not_mem

/-! ### The search ends -/

/-- The number of references of the entities that have not been visited. -/
def unseen (entities : List Entity) (seen : List String) : Nat :=
  (entities.flatMap fun e => if e.name ∈ seen then [] else e.shape.references).length

/-- The number of rounds that are left at most. -/
def size (entities : List Entity) (search : Search) : Nat :=
  search.pending.length + unseen entities search.seen

theorem unseen_nil (entities : List Entity) : unseen entities [] = edgeCount entities := by
  simp only [unseen, edgeCount, List.not_mem_nil, if_false]

theorem unseen_cons_le (entities : List Entity) (name : String) (seen : List String) :
    unseen entities (name :: seen) ≤ unseen entities seen := by
  induction entities with
  | nil => exact Nat.le_refl _
  | cons entity entities ih =>
    simp only [unseen, List.flatMap_cons, List.length_append] at ih ⊢
    refine Nat.add_le_add ?_ ih
    by_cases h : entity.name ∈ seen
    · rw [if_pos h, if_pos (List.mem_cons_of_mem _ h)]
    · rw [if_neg h]
      split
      · exact Nat.zero_le _
      · exact Nat.le_refl _

/-- The references of an entity are not counted any more once it has been visited. -/
theorem length_references_add_unseen_le {entity : Entity} {seen : List String}
    (hmem : entity ∈ entities) (h : entity.name ∉ seen) :
    entity.shape.references.length + unseen entities (entity.name :: seen)
      ≤ unseen entities seen := by
  induction entities with
  | nil => exact absurd hmem List.not_mem_nil
  | cons first entities ih =>
    have hfirst := unseen_cons_le [first] entity.name seen
    have hrest := unseen_cons_le entities entity.name seen
    simp only [unseen, List.flatMap_cons, List.flatMap_nil, List.length_append,
      List.length_nil] at ih hfirst hrest ⊢
    rcases List.mem_cons.mp hmem with rfl | hmem
    · rw [if_pos List.mem_cons_self, if_neg h, List.length_nil]
      omega
    · have := ih hmem
      omega

/-- What a visit makes pending is not counted any more. -/
theorem length_edges_add_unseen_le {seen : List String} {name : String} (h : name ∉ seen) :
    (edges entities name).length + unseen entities (name :: seen) ≤ unseen entities seen := by
  unfold edges
  split
  · next found hfind =>
    have hmem : found ∈ entities := List.mem_reverse.mp (List.mem_of_find?_eq_some hfind)
    obtain rfl : found.name = name := by simpa using List.find?_some hfind
    exact length_references_add_unseen_le hmem h
  · rw [List.length_nil, Nat.zero_add]
    exact unseen_cons_le entities name seen

theorem Round.size_lt {search next : Search} (h : Round entities start search next) :
    next.size entities < search.size entities := by
  cases h with
  | old other mem =>
    simp only [size, List.length_append, List.length_cons]
    omega
  | new other not_mem =>
    simp only [size, List.length_append, List.length_cons]
    have hle := @length_edges_add_unseen_le entities _ _ not_mem
    omega

/-- A search of rounds is no longer than its size. -/
theorem length_le_size {search : Search} {rounds : List Search}
    (h : List.IsChain (Round entities start) (search :: rounds)) :
    rounds.length ≤ search.size entities := by
  induction rounds generalizing search with
  | nil => exact Nat.zero_le _
  | cons next rounds ih =>
    rw [List.isChain_cons_cons] at h
    have hlt := h.1.size_lt
    have hle := ih h.2
    rw [List.length_cons]
    omega

/-- A search goes on until the name is found that it looks for, or nothing is pending. -/
theorem exists_round {search : Search} (hstart : start ∉ search.pending)
    (hpending : search.pending ≠ []) : ∃ next, Round entities start search next := by
  obtain ⟨seen, pending⟩ := search
  cases pending with
  | nil => exact absurd rfl hpending
  | cons name pending =>
    have hother : name ≠ start := fun h => hstart (h ▸ List.mem_cons_self)
    by_cases hseen : name ∈ seen
    · exact ⟨_, .old_head hother hseen⟩
    · exact ⟨_, .new_head hother hseen⟩

/-! ### The search is right -/

/-- What has been found out on the way. -/
structure Progress (entities : List Entity) (start : String) (search : Search) : Prop where
  /-- What is pending is reached from the start. -/
  reached : ∀ name ∈ search.pending, TransGen (fun a b => b ∈ edges entities a) start name
  start_not_mem : start ∉ search.seen
  /-- References of what has been visited have been visited too, or are pending. -/
  closed : ∀ a ∈ start :: search.seen, ∀ b ∈ edges entities a,
    b ∈ search.seen ∨ b ∈ search.pending

theorem progress_init (entities : List Entity) (start : String) :
    Progress entities start (init entities start) where
  reached := fun _ h => .single h
  start_not_mem := List.not_mem_nil
  closed := by
    intro a ha b hb
    obtain rfl := List.mem_singleton.mp ha
    exact .inr hb

theorem Round.progress {search next : Search} (h : Round entities start search next)
    (hsearch : Progress entities start search) : Progress entities start next := by
  cases h with
  | @old seen before after name other mem =>
    refine ⟨fun n hn => hsearch.reached n ?_, hsearch.start_not_mem, fun a ha b hb => ?_⟩
    · rw [List.mem_append] at hn
      exact List.mem_append.mpr (hn.imp_right (List.mem_cons_of_mem _))
    · rcases hsearch.closed a ha b hb with hseen | hpending
      · exact .inl hseen
      · rcases List.mem_append.mp hpending with hbefore | hafter
        · exact .inr (List.mem_append_left _ hbefore)
        · rcases List.mem_cons.mp hafter with rfl | hafter
          · exact .inl mem
          · exact .inr (List.mem_append_right _ hafter)
  | @new seen before after name other not_mem =>
    have hname : TransGen (fun a b => b ∈ edges entities a) start name :=
      hsearch.reached name (List.mem_append_right _ List.mem_cons_self)
    refine ⟨fun n hn => ?_, ?_, fun a ha b hb => ?_⟩
    · rcases List.mem_append.mp hn with hedge | hn
      · exact hname.tail hedge
      · rw [List.mem_append] at hn
        exact hsearch.reached n (List.mem_append.mpr (hn.imp_right (List.mem_cons_of_mem _)))
    · rw [List.mem_cons, not_or]
      exact ⟨other.symm, hsearch.start_not_mem⟩
    · by_cases hvisit : a = name
      · exact .inr (List.mem_append_left _ (hvisit ▸ hb))
      · have ha : a ∈ start :: seen := by simpa [hvisit] using ha
        rcases hsearch.closed a ha b hb with hseen | hpending
        · exact .inl (List.mem_cons_of_mem _ hseen)
        · rcases List.mem_append.mp hpending with hbefore | hafter
          · exact .inr (List.mem_append_right _ (List.mem_append_left _ hbefore))
          · rcases List.mem_cons.mp hafter with rfl | hafter
            · exact .inl List.mem_cons_self
            · exact .inr (List.mem_append_right _ (List.mem_append_right _ hafter))

theorem progress_of_rounds {search : Search}
    (h : ReflTransGen (Round entities start) (init entities start) search) :
    Progress entities start search := by
  induction h with
  | refl => exact progress_init entities start
  | tail _ round ih => exact round.progress ih

/-- Where nothing is pending, everything that is reached has been visited. -/
theorem Progress.mem_seen {search : Search} (h : Progress entities start search)
    (hpending : search.pending = []) {name : String}
    (hname : TransGen (fun a b => b ∈ edges entities a) start name) : name ∈ search.seen := by
  have hclosed : ∀ a ∈ start :: search.seen, ∀ b ∈ edges entities a, b ∈ search.seen := by
    intro a ha b hb
    have := h.closed a ha b hb
    rw [hpending] at this
    exact this.resolve_right List.not_mem_nil
  induction hname with
  | single hedge => exact hclosed _ List.mem_cons_self _ hedge
  | tail _ hedge ih => exact hclosed _ (List.mem_cons_of_mem _ ih) _ hedge

/-! ### The answer -/

/-- The search that is made goes by rounds to the name it looks for, or until nothing is pending. -/
theorem exists_rounds_of_reaches {bound : Nat} {seen pending : List String}
    (hbound : (Search.mk seen pending).size entities < bound) :
    ∃ search, ReflTransGen (Round entities start) ⟨seen, pending⟩ search ∧
      if reaches entities start bound seen pending then start ∈ search.pending
      else search.pending = [] := by
  induction bound generalizing seen pending with
  | zero => exact absurd hbound (Nat.not_lt_zero _)
  | succ bound ih =>
    cases pending with
    | nil => exact ⟨_, .refl, rfl⟩
    | cons name pending =>
      rw [reaches]
      by_cases hname : name = start
      · rw [if_pos hname]
        exact ⟨_, .refl, hname ▸ List.mem_cons_self⟩
      · rw [if_neg hname]
        by_cases hseen : name ∈ seen
        · have round := @Round.old_head entities start seen pending name hname hseen
          obtain ⟨search, rounds, hsearch⟩ := ih (Nat.lt_of_lt_of_le round.size_lt (by omega))
          rw [if_pos hseen]
          exact ⟨search, .head round rounds, hsearch⟩
        · have round := @Round.new_head entities start seen pending name hname hseen
          obtain ⟨search, rounds, hsearch⟩ := ih (Nat.lt_of_lt_of_le round.size_lt (by omega))
          rw [if_neg hseen]
          exact ⟨search, .head round rounds, hsearch⟩

/-- A search ends whatever pending names are taken, and with the right answer: it is known by then
that the name lies on a cycle if it is met, and that it does not if nothing is pending. -/
structure Decides (entities : List Entity) (start : String) : Prop where
  length_le : ∀ rounds, List.IsChain (Round entities start) (init entities start :: rounds) →
    rounds.length ≤ (edges entities start).length + edgeCount entities
  goes_on : ∀ search, start ∉ search.pending → search.pending ≠ [] →
    ∃ next, Round entities start search next
  found : ∀ search, ReflTransGen (Round entities start) (init entities start) search →
    start ∈ search.pending → OnCycle entities start
  exhausted : ∀ search, ReflTransGen (Round entities start) (init entities start) search →
    search.pending = [] → ¬ OnCycle entities start

theorem size_init (entities : List Entity) (start : String) :
    (init entities start).size entities = (edges entities start).length + edgeCount entities := by
  rw [size, init, unseen_nil]

theorem decides {entities : List Entity} (distinct : (entities.map Entity.name).Nodup)
    (start : String) : Decides entities start := by
  have hedges : (fun a b => b ∈ edges entities a) = Edge entities :=
    funext fun a => funext fun b => propext (mem_edges_iff distinct)
  refine ⟨fun rounds h => ?_, fun search => exists_round, fun search rounds hstart => ?_,
    fun search rounds hpending hcycle => ?_⟩
  · exact size_init entities start ▸ length_le_size h
  · have hreached := (progress_of_rounds rounds).reached start hstart
    rwa [hedges] at hreached
  · have hprogress := progress_of_rounds rounds
    rw [OnCycle, ← hedges] at hcycle
    exact hprogress.start_not_mem (hprogress.mem_seen hpending hcycle)

end Search

/-- The search finds out whether an entity lies on a cycle. -/
theorem isRecursive_iff {entities : List Entity} (distinct : (entities.map Entity.name).Nodup)
    {name : String} : isRecursive entities name = true ↔ OnCycle entities name := by
  have hbound : (Search.init entities name).size entities
      < (edges entities name).length + edgeCount entities + 1 := by
    rw [Search.size_init]
    exact Nat.lt_succ_self _
  obtain ⟨search, rounds, hsearch⟩ := Search.exists_rounds_of_reaches hbound
  have hdecides := Search.decides distinct name
  split at hsearch
  · next hreaches => exact iff_of_true hreaches (hdecides.found search rounds hsearch)
  · next hreaches => exact iff_of_false hreaches (hdecides.exhausted search rounds hsearch)

end TypedClients.Entity
