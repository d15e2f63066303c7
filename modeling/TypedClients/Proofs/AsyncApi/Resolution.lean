import Mathlib.Data.List.Perm.Subperm
import Mathlib.Logic.Function.Iterate
import Mathlib.Logic.Relation
import TypedClients.AsyncApi.Document
import TypedClients.Proofs.Keyed

/-!
# Chains of references

A node that is a reference leads to the value that its pointer names in the tree (`Leads`). It leads
to one value at most, so from every node there is one chain. It ends at a value that is no reference
or at a reference that leads nowhere, or it goes on forever.

A resolution follows the chain and ends as the chain does (`Document.resolve_outcome`). What it
keeps is the texts of the references that it has met. Each of them stands in the tree or is that of
the first node, so there are only so many (`Trail.length_le`); and a text that is met again leads
where it did before, so the chain goes round (`Circles.leads`).

## What is proved

* `Document.resolve_outcome` — the four ways in which a resolution can end, each told apart by the
  chain alone: with a value exactly if the chain ends at it, with an error about a reference exactly
  if the chain ends at that one, and with one about a circle exactly if the chain meets a text
  twice. A node that has been resolved is resolved to itself.
* `Trail.resolveFrom_add` — with the bound that the document sets, or any greater one, the outcome
  is the same.
* `Circles.goesOn` — a chain that is reported as a circle has indeed no end.

The induction goes along the run of the resolver, with the texts that have been met (`Trail`) for
its invariant.

## What is not here

Nothing is said of what the value is used for, and nothing of documents that are read from
elsewhere: a reference out of the document leads nowhere.
-/

namespace TypedClients

open Relation

/-! ### The references in a tree -/

namespace Json

theorem mem_refPathsOfItems {path : String} {item : Json} {items : List Json} (hitem : item ∈ items)
    (h : path ∈ item.refPaths) : path ∈ refPathsOfItems items := by
  induction items with
  | nil => cases hitem
  | cons first rest ih =>
    rw [refPathsOfItems, List.mem_append]
    rcases List.mem_cons.mp hitem with rfl | hitem
    · exact .inl h
    · exact .inr (ih hitem)

theorem mem_refPathsOfMembers {path : String} {m : String × Json} {members : List (String × Json)}
    (hm : m ∈ members) (h : path ∈ m.2.refPaths ∨ m = ("$ref", .string path)) :
    path ∈ refPathsOfMembers members := by
  induction members with
  | nil => cases hm
  | cons first rest ih =>
    obtain ⟨key, value⟩ := first
    rw [refPathsOfMembers.eq_def]
    dsimp only
    rw [List.mem_append]
    rcases List.mem_cons.mp hm with rfl | hm
    · left
      split
      · -- A string has no references in it.
        rcases h with h | h
        · cases h
        · cases h
          exact List.mem_singleton_self path
      · next hother =>
        rcases h with h | h
        · exact h
        · cases h
          exact absurd rfl (hother path rfl)
    · exact .inr (ih hm)

theorem refPaths_of_stepInto? {value next : Json} {step : List Char}
    (h : stepInto? value step = some next) : next.refPaths ⊆ value.refPaths := by
  intro path hpath
  cases value with
  | object members =>
    rw [refPaths]
    exact mem_refPathsOfMembers (Keyed.mem_of_get?_eq_some h) (.inl hpath)
  | array items =>
    obtain ⟨i, -, hi⟩ := Option.bind_eq_some_iff.mp h
    rw [refPaths]
    exact mem_refPathsOfItems (List.mem_of_getElem? hi) hpath
  | _ => cases h

theorem refPaths_of_steps {tree target : Json} {steps : List (List Char)}
    (h : steps.foldlM stepInto? tree = some target) : target.refPaths ⊆ tree.refPaths := by
  induction steps generalizing tree with
  | nil =>
    cases h
    exact List.Subset.refl _
  | cons step steps ih =>
    rw [List.foldlM_cons] at h
    obtain ⟨next, hnext, h⟩ := Option.bind_eq_some_iff.mp h
    exact List.Subset.trans (ih h) (refPaths_of_stepInto? hnext)

/-- The references in the value that a pointer names are references in the tree. -/
theorem refPaths_of_pointer? {tree target : Json} {pointer : List Char}
    (h : tree.pointer? pointer = some target) : target.refPaths ⊆ tree.refPaths := by
  obtain ⟨steps, -, h⟩ := Option.bind_eq_some_iff.mp h
  exact refPaths_of_steps h

end Json

namespace AsyncApi

variable {tree start node next other value : Json} {path : String} {seen : List String}

theorem mem_refPaths_of_refPath? (h : refPath? node = some path) : path ∈ node.refPaths := by
  obtain ⟨value, hvalue, hpath⟩ := Option.bind_eq_some_iff.mp h
  cases node with
  | object members =>
    cases value with
    | string text =>
      cases hpath
      exact Json.mem_refPathsOfMembers (Keyed.mem_of_get?_eq_some hvalue) (.inr rfl)
    | _ => cases hpath
  | _ => cases hvalue

/-! ### The chain from a node -/

/-- The node is a reference into the tree, to `next`. -/
def Leads (tree node next : Json) : Prop :=
  ∃ path pointer, refPath? node = some path ∧ path.toList = '#' :: pointer ∧
    tree.pointer? pointer = some next

/-- Following references from the node comes to `other`, in any number of steps. -/
def Reaches (tree : Json) : Json → Json → Prop :=
  ReflTransGen (Leads tree)

/-- References with one text lead to one value. -/
theorem Leads.of_same_path (h : Leads tree node next) (hpath : refPath? other = refPath? node) :
    Leads tree other next := by
  obtain ⟨path, pointer, hnode, hpointer, hnext⟩ := h
  exact ⟨path, pointer, hpath.trans hnode, hpointer, hnext⟩

theorem Leads.unique (h : Leads tree node next) (hother : Leads tree node other) :
    next = other := by
  obtain ⟨path, pointer, hnode, hpointer, hnext⟩ := h
  obtain ⟨_, _, hnode', hpointer', hother⟩ := hother
  cases hnode.symm.trans hnode'
  cases hpointer.symm.trans hpointer'
  exact Option.some.inj (hnext.symm.trans hother)

theorem rightUnique_leads : Relator.RightUnique (Leads tree) :=
  fun _ _ _ h hother => h.unique hother

/-- The chain ends at the node. -/
def Stops (tree node : Json) : Prop :=
  ∀ next, ¬ Leads tree node next

theorem Reaches.eq_of_stops (h : Reaches tree node other) (hstops : Stops tree node) :
    node = other := by
  rcases ReflTransGen.cases_head h with rfl | ⟨next, hnext, -⟩
  · rfl
  · exact absurd hnext (hstops next)

/-- A chain has one end. -/
theorem Reaches.end_unique (h : Reaches tree start node) (hstops : Stops tree node)
    (hother : Reaches tree start other) (hothers : Stops tree other) : node = other := by
  rcases ReflTransGen.total_of_right_unique rightUnique_leads h hother with h | h
  · exact Reaches.eq_of_stops h hstops
  · exact (Reaches.eq_of_stops h hothers).symm

/-- What comes of a chain that ends at the node. -/
inductive Ends (tree node : Json) : Except ResolveError Json → Prop
  | value (refers : refPath? node = none) : Ends tree node (.ok node)
  | unsupported {path : String} (refers : refPath? node = some path)
      (leads : path.toList.head? ≠ some '#') : Ends tree node (.error (.unsupportedRef path))
  | missing {path : String} {pointer : List Char} (refers : refPath? node = some path)
      (leads : path.toList = '#' :: pointer) (found : tree.pointer? pointer = none) :
    Ends tree node (.error (.targetNotFound path))

theorem Ends.stops {outcome : Except ResolveError Json} (h : Ends tree node outcome) :
    Stops tree node := by
  rintro next ⟨path, pointer, hpath, hpointer, hnext⟩
  cases h with
  | value refers => cases refers.symm.trans hpath
  | unsupported refers leads =>
    cases refers.symm.trans hpath
    exact leads (congrArg List.head? hpointer)
  | missing refers leads found =>
    cases refers.symm.trans hpath
    cases leads.symm.trans hpointer
    cases found.symm.trans hnext

theorem Ends.unique {outcome another : Except ResolveError Json} (h : Ends tree node outcome)
    (hanother : Ends tree node another) : outcome = another := by
  cases h with
  | value refers =>
    cases hanother with
    | value => rfl
    | unsupported refers' | missing refers' => cases refers.symm.trans refers'
  | unsupported refers leads =>
    cases hanother with
    | value refers' => cases refers.symm.trans refers'
    | unsupported refers' =>
      cases refers.symm.trans refers'
      rfl
    | missing refers' leads' =>
      cases refers.symm.trans refers'
      exact absurd (congrArg List.head? leads') leads
  | missing refers leads =>
    cases hanother with
    | value refers' => cases refers.symm.trans refers'
    | unsupported refers' leads' =>
      cases refers.symm.trans refers'
      exact absurd (congrArg List.head? leads) leads'
    | missing refers' =>
      cases refers.symm.trans refers'
      rfl

/-! ### Chains that go round -/

/-- The chain from the node meets the text of a reference twice. -/
def Circles (tree start : Json) (path : String) : Prop :=
  ∃ first again, Reaches tree start first ∧ refPath? first = some path ∧
    TransGen (Leads tree) first again ∧ refPath? again = some path

theorem reaches_back (hround : TransGen (Leads tree) node node) (h : Reaches tree node other) :
    Reaches tree other node := by
  induction h with
  | refl => exact .refl
  | tail _ hnext ih =>
    rcases ReflTransGen.cases_head ih with rfl | ⟨_, hstep, hback⟩
    · obtain ⟨_, hstep, hback⟩ := TransGen.head'_iff.mp hround
      rwa [hnext.unique hstep]
    · rwa [hnext.unique hstep]

/-- A chain that meets a text twice never ends: the second time it leads where it did before. -/
theorem Circles.leads (h : Circles tree start path) (hnode : Reaches tree start node) :
    ∃ next, Leads tree node next := by
  obtain ⟨first, again, hfirst, hpath, hagain, hpath'⟩ := h
  obtain ⟨next, hnext, hback⟩ := TransGen.head'_iff.mp hagain
  have hround : TransGen (Leads tree) again again :=
    .head' (hnext.of_same_path (hpath'.trans hpath.symm)) hback
  have honward : ∀ m, Reaches tree m again → ∃ n, Leads tree m n := by
    intro m hm
    rcases ReflTransGen.cases_head hm with rfl | ⟨n, hn, -⟩
    · exact ⟨next, hnext.of_same_path (hpath'.trans hpath.symm)⟩
    · exact ⟨n, hn⟩
  rcases ReflTransGen.total_of_right_unique rightUnique_leads hnode
    (hfirst.trans hagain.to_reflTransGen) with hnode | hnode
  · exact honward node hnode
  · exact honward node (reaches_back hround hnode)

/-- A chain from the node can be written down without an end. -/
def GoesOn (tree node : Json) : Prop :=
  ∃ chain : Nat → Json, chain 0 = node ∧ ∀ i, Leads tree (chain i) (chain (i + 1))

theorem not_stops_of_goesOn (h : GoesOn tree start) (hnode : Reaches tree start node) :
    ¬ Stops tree node := by
  obtain ⟨chain, rfl, hchain⟩ := h
  obtain ⟨i, rfl⟩ : ∃ i, node = chain i := by
    induction hnode with
    | refl => exact ⟨0, rfl⟩
    | tail _ hnext ih =>
      obtain ⟨i, rfl⟩ := ih
      exact ⟨i + 1, hnext.unique (hchain i)⟩
  exact fun hstops => hstops _ (hchain i)

theorem Circles.goesOn (h : Circles tree start path) : GoesOn tree start := by
  have honward : ∀ node : { node // Reaches tree start node }, ∃ next, Leads tree node.1 next :=
    fun node => h.leads node.2
  choose next hnext using honward
  let follow (node : { node // Reaches tree start node }) : { node // Reaches tree start node } :=
    ⟨next node, node.2.tail (hnext node)⟩
  have hstart : Reaches tree start start := .refl
  refine ⟨fun i => (follow^[i] ⟨start, hstart⟩).1, rfl, fun i => ?_⟩
  show Leads tree (follow^[i] ⟨start, hstart⟩).1 (follow^[i + 1] ⟨start, hstart⟩).1
  rw [Function.iterate_succ_apply']
  exact hnext _

/-! ### Runs -/

/-- The texts are those of references that the chain has met on its way to the node, each once. -/
structure Trail (tree start : Json) (seen : List String) (node : Json) : Prop where
  reached : Reaches tree start node
  nodup : seen.Nodup
  met : ∀ path ∈ seen, ∃ m, Reaches tree start m ∧ refPath? m = some path ∧
    TransGen (Leads tree) m node

theorem Trail.step (h : Trail tree start seen node) (hpath : refPath? node = some path)
    (hseen : path ∉ seen) (hnext : Leads tree node next) :
    Trail tree start (path :: seen) next where
  reached := h.reached.tail hnext
  nodup := List.nodup_cons.mpr ⟨hseen, h.nodup⟩
  met := by
    rw [List.forall_mem_cons]
    refine ⟨⟨node, h.reached, hpath, .single hnext⟩, fun p hp => ?_⟩
    obtain ⟨m, hm, hpath, hround⟩ := h.met p hp
    exact ⟨m, hm, hpath, hround.tail hnext⟩

/-- A text that a chain meets is that of the first node, or it stands in the tree. -/
theorem mem_of_reaches (h : Reaches tree start node) (hpath : refPath? node = some path) :
    path ∈ (refPath? start).toList ++ tree.refPaths := by
  rw [List.mem_append]
  cases ReflTransGen.cases_tail h with
  | inl hsame =>
    subst hsame
    exact .inl (Option.mem_toList.mpr hpath)
  | inr hlast =>
    obtain ⟨_, -, _, _, -, -, hnext⟩ := hlast
    exact .inr (Json.refPaths_of_pointer? hnext (mem_refPaths_of_refPath? hpath))

theorem Trail.length_le (h : Trail tree start seen node) :
    seen.length ≤ tree.refPaths.length + 1 := by
  have hsubset : seen ⊆ (refPath? start).toList ++ tree.refPaths := by
    intro path hpath
    obtain ⟨m, hm, hpath, -⟩ := h.met path hpath
    exact mem_of_reaches hm hpath
  have hlength := (h.nodup.subperm hsubset).length_le
  have hstart : (refPath? start).toList.length ≤ 1 := by
    cases refPath? start <;> simp
  rw [List.length_append] at hlength
  omega

/-- What comes of the chain from `start`. -/
inductive Outcome (tree start : Json) : Except ResolveError Json → Prop
  | ends {node : Json} {outcome : Except ResolveError Json} (reached : Reaches tree start node)
      (stops : Ends tree node outcome) : Outcome tree start outcome
  | circular {path : String} (circles : Circles tree start path) :
    Outcome tree start (.error (.circular path))

/-- A run that has the bound to meet every text says what becomes of the chain. -/
theorem Trail.outcome {bound : Nat} (h : Trail tree start seen node)
    (hbound : tree.refPaths.length + 2 ≤ bound + seen.length) :
    Outcome tree start (resolveFrom tree bound seen node) := by
  induction bound generalizing seen node with
  | zero =>
    have hlength := h.length_le
    omega
  | succ bound ih =>
    rw [resolveFrom]
    split
    · next hnone => exact .ends h.reached (.value hnone)
    · next path hpath =>
      split
      · next hseen =>
        obtain ⟨m, hm, hpath', hround⟩ := h.met path hseen
        exact .circular ⟨m, node, hm, hpath', hround, hpath⟩
      · next hseen =>
        split
        · next pointer hpointer =>
          split
          · next target htarget =>
            have hnext : Leads tree node target := ⟨path, pointer, hpath, hpointer, htarget⟩
            refine ih (h.step hpath hseen hnext) ?_
            rw [List.length_cons]
            omega
          · next hmissing => exact .ends h.reached (.missing hpath hpointer hmissing)
        · next hother =>
          refine .ends h.reached (.unsupported hpath fun hhead => ?_)
          obtain ⟨pointer, hpointer⟩ := List.head?_eq_some_iff.mp hhead
          exact hother pointer hpointer

/-- With that bound a greater one makes no difference. -/
theorem Trail.resolveFrom_add {bound : Nat} (h : Trail tree start seen node)
    (hbound : tree.refPaths.length + 2 ≤ bound + seen.length) (extra : Nat) :
    resolveFrom tree (bound + extra) seen node = resolveFrom tree bound seen node := by
  induction bound generalizing seen node with
  | zero =>
    have hlength := h.length_le
    omega
  | succ bound ih =>
    rw [Nat.add_right_comm, resolveFrom, resolveFrom]
    split
    · rfl
    · next path hpath =>
      split
      · rfl
      · next hseen =>
        split
        · next pointer hpointer =>
          split
          · next target htarget =>
            have hnext : Leads tree node target := ⟨path, pointer, hpath, hpointer, htarget⟩
            refine ih (h.step hpath hseen hnext) ?_
            rw [List.length_cons]
            omega
          · rfl
        · rfl

theorem trail_nil : Trail tree node [] node where
  reached := .refl
  nodup := List.nodup_nil
  met _ h := absurd h List.not_mem_nil

theorem outcome_resolve (document : Document) (node : Json) :
    Outcome document.tree node (document.resolve node) :=
  trail_nil.outcome (Nat.le_refl _)

theorem Outcome.eq_of_ends {outcome another : Except ResolveError Json}
    (h : Outcome tree start outcome) (hnode : Reaches tree start node)
    (hends : Ends tree node another) : outcome = another := by
  cases h with
  | ends reached stops =>
    cases Reaches.end_unique reached stops.stops hnode hends.stops
    exact stops.unique hends
  | circular circles =>
    obtain ⟨next, hnext⟩ := circles.leads hnode
    exact absurd hnext (hends.stops next)

theorem Outcome.circular_iff {outcome : Except ResolveError Json}
    (h : Outcome tree start outcome) :
    (∃ path, outcome = .error (.circular path)) ↔ GoesOn tree start := by
  constructor
  · rintro ⟨path, rfl⟩
    cases h with
    | ends _ stops => cases stops
    | circular circles => exact circles.goesOn
  · intro hgoes
    cases h with
    | ends reached stops => exact absurd stops.stops (not_stops_of_goesOn hgoes reached)
    | @circular path => exact ⟨path, rfl⟩

/-- A resolution ends as the chain of references from its node does: with the value at the end of
the chain, with the reference at its end that is no pointer or names nothing, or, if the chain goes
on forever, with a reference that it meets twice. It ends in no other way, and the bound it counts
down from makes no difference. So what it has come to is resolved to itself. -/
theorem Document.resolve_outcome (document : Document) (node : Json) :
    (∀ value, document.resolve node = .ok value ↔
        Reaches document.tree node value ∧ refPath? value = none) ∧
      ((∃ path, document.resolve node = .error (.circular path)) ↔
        ∃ chain : Nat → Json, chain 0 = node ∧
          ∀ i, Leads document.tree (chain i) (chain (i + 1))) ∧
      (∀ path, document.resolve node = .error (.circular path) →
        Circles document.tree node path) ∧
      (∀ path, document.resolve node = .error (.unsupportedRef path) ↔
        ∃ last, Reaches document.tree node last ∧ refPath? last = some path ∧
          path.toList.head? ≠ some '#') ∧
      (∀ path, document.resolve node = .error (.targetNotFound path) ↔
        ∃ last pointer, Reaches document.tree node last ∧ refPath? last = some path ∧
          path.toList = '#' :: pointer ∧ document.tree.pointer? pointer = none) ∧
      (∀ error, document.resolve node = .error error → ∃ path,
        error = .circular path ∨ error = .unsupportedRef path ∨ error = .targetNotFound path) ∧
      (∀ bound, document.tree.refPaths.length + 2 ≤ bound →
        resolveFrom document.tree bound [] node = document.resolve node) ∧
      ∀ value, document.resolve node = .ok value → document.resolve value = .ok value := by
  have hnode := outcome_resolve document node
  refine ⟨fun value => ⟨fun h => ?_, fun ⟨hreached, hvalue⟩ => ?_⟩, hnode.circular_iff,
    fun path h => ?_, fun path => ⟨fun h => ?_, fun ⟨last, hreached, hpath, hlead⟩ => ?_⟩,
    fun path => ⟨fun h => ?_, fun ⟨last, pointer, hreached, hpath, hpointer, hnone⟩ => ?_⟩,
    fun error h => ?_, fun bound hbound => ?_, fun value h => ?_⟩
  · rw [h] at hnode
    obtain ⟨reached, ⟨refers⟩⟩ := hnode
    exact ⟨reached, refers⟩
  · exact hnode.eq_of_ends hreached (.value hvalue)
  · rw [h] at hnode
    obtain ⟨-, ⟨⟩⟩ | circles := hnode
    exact circles
  · rw [h] at hnode
    obtain ⟨reached, stops⟩ := hnode
    cases stops with
    | unsupported refers leads => exact ⟨_, reached, refers, leads⟩
  · exact hnode.eq_of_ends hreached (.unsupported hpath hlead)
  · rw [h] at hnode
    obtain ⟨reached, stops⟩ := hnode
    cases stops with
    | missing refers leads found => exact ⟨_, _, reached, refers, leads, found⟩
  · exact hnode.eq_of_ends hreached (.missing hpath hpointer hnone)
  · rw [h] at hnode
    cases hnode with
    | ends _ stops =>
      cases stops with
      | unsupported => exact ⟨_, .inr (.inl rfl)⟩
      | missing => exact ⟨_, .inr (.inr rfl)⟩
    | circular => exact ⟨_, .inl rfl⟩
  · obtain ⟨extra, rfl⟩ := Nat.exists_eq_add_of_le hbound
    exact trail_nil.resolveFrom_add (Nat.le_refl _) extra
  · rw [h] at hnode
    obtain ⟨-, ⟨refers⟩⟩ := hnode
    exact (outcome_resolve document value).eq_of_ends .refl (.value refers)

/-- A document whose messages refer to each other: a chain of two references, a circle of two, and a
reference out of the document. -/
def mailroom : Document where
  version := "3.0.0"
  title := "Mail"
  channels := []
  operations := []
  tree := .object [
    ("sent", .object [("$ref", .string "#/in~1out/0")]),
    ("in/out", .array [.object [("payload", .null)]]),
    ("ping", .object [("$ref", .string "#/pong")]),
    ("pong", .object [("$ref", .string "#/ping")])]

/-- The reference with the given text. -/
def reference (path : String) : Json := .object [("$ref", .string path)]

theorem resolve_outcome_mailroom :
    mailroom.resolve (reference "#/sent") = .ok (.object [("payload", .null)]) ∧
      Reaches mailroom.tree (reference "#/sent") (.object [("payload", .null)]) ∧
      mailroom.resolve (.object [("payload", .null)]) = .ok (.object [("payload", .null)]) ∧
      mailroom.resolve (reference "#/ping") = .error (.circular "#/ping") ∧
      (∃ chain : Nat → Json, chain 0 = reference "#/ping" ∧
        ∀ i, Leads mailroom.tree (chain i) (chain (i + 1))) ∧
      Circles mailroom.tree (reference "#/ping") "#/ping" := by
  have hsent : mailroom.resolve (reference "#/sent") = .ok (.object [("payload", .null)]) := rfl
  have hping : mailroom.resolve (reference "#/ping") = .error (.circular "#/ping") := rfl
  obtain ⟨hvalue, -, -, -, -, -, -, hagain⟩ := mailroom.resolve_outcome (reference "#/sent")
  obtain ⟨-, hforever, hcircles, -⟩ := mailroom.resolve_outcome (reference "#/ping")
  exact ⟨hsent, ((hvalue _).mp hsent).1, hagain _ hsent, hping, hforever.mp ⟨_, hping⟩,
    hcircles _ hping⟩

end AsyncApi

end TypedClients
