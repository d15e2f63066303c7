import Mathlib.Data.List.Perm.Subperm
import TypedClients.Proofs.AsyncApi.Resolution
import TypedClients.Proofs.Json.Parts
import TypedClients.Socket.Channel

/-!
# Choices in payloads

The shape of a payload goes into the options of choices, and the options may be references to
choices, so a choice can be one of its own options. The shape is counted down from a bound that is
spent by one for each choice inside another; where the bound is spent the choice has no shape
(`payloadShape`). The bound is the size of the document and one more.

## What is proved

* A payload whose shape does not spend one bound does not spend a greater one, and has the same
  shape, or the same error, with it (`payloadShape_of_le`).
* In a document with `n` values in its tree no payload needs a bound above `n + 1`: one that spends
  this bound spends every bound (`payloadShape_add`).
* Where the choices end, the bound is not spent (`payloadShape_of_choicesEnd`). So it is for choices
  without an end only that the bound is what ends them.
* The payloads of the messages that a document is read with are values of its tree, so this holds of
  all payloads that the channels are made from (`payloadShape_message`).

The proof is by the least bound that a payload needs. One that needs more than another bound has an
option that needs that other bound (`SettlesAt.option`). So from a payload that needs `n + 1` options
lead down through payloads that need `n`, `n - 1` and so on; these are different values of the tree.

## What is not here

Nothing is said of how large a shape is. If each of a row of choices has the next one for two of its
options, by reference, then the shape of the first is twice as large with every choice in the row.
-/

namespace TypedClients.Socket

open AsyncApi

variable {document : Document} {entities : List String} {payload : Json} {n m : Nat}

/-- The options of the choice that a payload comes to, if it comes to one. -/
def optionsOf (document : Document) (payload : Json) : List Json :=
  match document.resolve payload with
  | .ok target => ((target.member? "oneOf").bind Json.array?).getD []
  | .error _ => []

/-! ### Greater bounds -/

/-- The reference that a resolution goes round by is a pointer. -/
theorem resolve_ne_circular (document : Document) (payload : Json) :
    document.resolve payload ≠ .error (.circular "oneOf") := by
  intro h
  have houtcome := outcome_resolve document payload
  rw [h] at houtcome
  cases houtcome with
  | ends _ stops => cases stops
  | circular circles =>
    obtain ⟨first, again, -, hpath, hround, -⟩ := circles
    obtain ⟨_, ⟨path, pointer, hpath', hpointer, -⟩, -⟩ := Relation.TransGen.head'_iff.mp hround
    cases hpath.symm.trans hpath'
    have hhead := congrArg List.head? hpointer
    rw [List.head?_cons] at hhead
    exact absurd hhead (by decide)

theorem plainPayload_ne_circular (entities : List String) (payload : Json) :
    plainPayload entities payload ≠ .error (.circular "oneOf") := by
  intro h
  unfold plainPayload at h
  split at h
  · split at h
    · split at h <;> cases h
    · cases h
  all_goals cases h

/-- A choice is made of the shapes of its options, and they are all that it uses of its bound. What is
no choice uses nothing of it. -/
theorem payloadShape_cases (document : Document) (entities : List String) (payload : Json) :
    (optionsOf document payload = [] ∧
      ∃ outcome, outcome ≠ .error (.circular "oneOf") ∧
        ∀ n, payloadShape document entities (n + 1) payload = outcome) ∨
    ∀ n, payloadShape document entities (n + 1) payload = (do
      let members ← (optionsOf document payload).mapM (payloadShape document entities n)
      .ok (if members.isEmpty then .prim .unknown else .union members)) := by
  unfold optionsOf
  cases hresolve : document.resolve payload with
  | error e =>
    have hne : e ≠ .circular "oneOf" := by
      rintro rfl
      exact resolve_ne_circular document payload hresolve
    refine .inl ⟨rfl, .error e, fun h => hne (Except.error.inj h), fun n => ?_⟩
    rw [payloadShape, hresolve]
    rfl
  | ok target =>
    cases hoptions : (target.member? "oneOf").bind Json.array? with
    | none =>
      refine .inl ⟨by simp only [hoptions, Option.getD_none], plainPayload entities target,
        plainPayload_ne_circular entities target, fun n => ?_⟩
      rw [payloadShape, hresolve]
      simp only [bind, Except.bind, hoptions]
    | some options =>
      refine .inr fun n => ?_
      rw [payloadShape, hresolve]
      simp only [bind, Except.bind, hoptions, Option.getD_some]

theorem payloadShape_congr
    (h : (optionsOf document payload).mapM (payloadShape document entities n)
      = (optionsOf document payload).mapM (payloadShape document entities m)) :
    payloadShape document entities (n + 1) payload
      = payloadShape document entities (m + 1) payload := by
  rcases payloadShape_cases document entities payload with ⟨-, outcome, -, hplain⟩ | hchoice
  · rw [hplain, hplain]
  · rw [hchoice, hchoice, h]

/-- If the options spend their bound, so does the choice. -/
theorem mapM_optionsOf_ne (h : payloadShape document entities (n + 1) payload
      ≠ .error (.circular "oneOf")) :
    (optionsOf document payload).mapM (payloadShape document entities n)
      ≠ .error (.circular "oneOf") := by
  intro hspent
  rcases payloadShape_cases document entities payload with ⟨hnone, -⟩ | hchoice
  · rw [hnone] at hspent
    cases hspent
  · apply h
    rw [hchoice, hspent]
    rfl

theorem payloadShape_succ (h : payloadShape document entities n payload
      ≠ .error (.circular "oneOf")) :
    payloadShape document entities (n + 1) payload = payloadShape document entities n payload := by
  induction n generalizing payload with
  | zero => exact absurd rfl h
  | succ n ih =>
    exact payloadShape_congr (mapM_eq_of_ne_error (fun _ _ hoption => ih hoption)
      (mapM_optionsOf_ne h))

/-- A bound that is not spent can be raised. -/
theorem payloadShape_of_le (h : payloadShape document entities n payload
      ≠ .error (.circular "oneOf")) (hle : n ≤ m) :
    payloadShape document entities m payload = payloadShape document entities n payload := by
  induction hle with
  | refl => rfl
  | step _ ih => rw [payloadShape_succ (ih ▸ h), ih]

/-! ### The bound that a payload needs -/

/-- The payload spends the bound `n`, and not the next one. -/
def SettlesAt (document : Document) (entities : List String) (n : Nat) (payload : Json) : Prop :=
  payloadShape document entities n payload = .error (.circular "oneOf") ∧
    payloadShape document entities (n + 1) payload ≠ .error (.circular "oneOf")

theorem SettlesAt.le_of_ne (h : SettlesAt document entities n payload)
    (hm : payloadShape document entities m payload ≠ .error (.circular "oneOf")) : n < m := by
  by_contra hle
  exact hm ((payloadShape_of_le hm (Nat.not_lt.mp hle)).symm.trans h.1)

theorem SettlesAt.unique (hn : SettlesAt document entities n payload)
    (hm : SettlesAt document entities m payload) : n = m :=
  Nat.le_antisymm (Nat.lt_succ_iff.mp (hn.le_of_ne hm.2)) (Nat.lt_succ_iff.mp (hm.le_of_ne hn.2))

theorem exists_settlesAt (h : payloadShape document entities n payload
      ≠ .error (.circular "oneOf")) : ∃ m, SettlesAt document entities m payload := by
  induction n with
  | zero => exact absurd rfl h
  | succ n ih =>
    by_cases hn : payloadShape document entities n payload = .error (.circular "oneOf")
    · exact ⟨n, hn, h⟩
    · exact ih hn

/-- What a payload needs beyond its own choice one of the options needs. -/
theorem SettlesAt.option (h : SettlesAt document entities (n + 1) payload) :
    ∃ option ∈ optionsOf document payload, SettlesAt document entities n option := by
  by_contra hnone
  apply h.2
  rw [← h.1]
  refine payloadShape_congr (mapM_congr_left fun option hoption => ?_)
  by_cases hspent : payloadShape document entities n option = .error (.circular "oneOf")
  · rw [hspent]
    by_contra hnext
    exact hnone ⟨option, hoption, hspent, hnext⟩
  · exact payloadShape_succ hspent

/-! ### Payloads in the tree -/

theorem mem_parts_of_resolve {target : Json} (hpayload : payload ∈ document.tree.parts)
    (h : document.resolve payload = .ok target) : target ∈ document.tree.parts := by
  have houtcome := outcome_resolve document payload
  rw [h] at houtcome
  obtain ⟨hreached, ⟨-⟩⟩ := houtcome
  rcases Relation.ReflTransGen.cases_tail hreached with rfl | ⟨_, -, _, _, -, -, hnext⟩
  · exact hpayload
  · exact Json.mem_parts_of_pointer? hnext

theorem mem_parts_of_mem_optionsOf {option : Json} (hpayload : payload ∈ document.tree.parts)
    (h : option ∈ optionsOf document payload) : option ∈ document.tree.parts := by
  unfold optionsOf at h
  split at h
  · next target hresolve =>
    have htarget := mem_parts_of_resolve hpayload hresolve
    cases hoptions : (target.member? "oneOf").bind Json.array? with
    | none =>
      rw [hoptions] at h
      cases h
    | some options =>
      rw [hoptions] at h
      obtain ⟨choice, hchoice, harray⟩ := Option.bind_eq_some_iff.mp hoptions
      have hpart := Json.mem_parts_of_member? htarget hchoice
      cases choice with
      | array items =>
        cases harray
        exact Json.mem_parts_of_mem_array hpart h
      | _ => cases harray
  · cases h

/-- From a payload that needs more than the bound `n` there are `n` others in the tree, which need
less and less. -/
theorem SettlesAt.exists_chain (h : SettlesAt document entities n payload)
    (hpayload : payload ∈ document.tree.parts) :
    ∃ chain : List Json, chain.Nodup ∧ chain.length = n ∧
      ∀ other ∈ chain, other ∈ document.tree.parts ∧
        ∃ m < n, SettlesAt document entities m other := by
  induction n generalizing payload with
  | zero => exact ⟨[], List.nodup_nil, rfl, fun _ h => absurd h List.not_mem_nil⟩
  | succ n ih =>
    obtain ⟨option, hoption, hsettles⟩ := h.option
    have hpart := mem_parts_of_mem_optionsOf hpayload hoption
    obtain ⟨chain, hnodup, hlength, hchain⟩ := ih hsettles hpart
    refine ⟨option :: chain, List.nodup_cons.mpr ⟨fun hmem => ?_, hnodup⟩, by
      rw [List.length_cons, hlength], List.forall_mem_cons.mpr ⟨⟨hpart, n, Nat.lt_succ_self n,
        hsettles⟩, fun other hother => ?_⟩⟩
    · obtain ⟨-, m, hm, hless⟩ := hchain option hmem
      exact absurd (hless.unique hsettles) (Nat.ne_of_lt hm)
    · obtain ⟨hmem, m, hm, hless⟩ := hchain other hother
      exact ⟨hmem, m, Nat.lt_succ_of_lt hm, hless⟩

theorem SettlesAt.le_size (h : SettlesAt document entities n payload)
    (hpayload : payload ∈ document.tree.parts) : n ≤ document.tree.size := by
  obtain ⟨chain, hnodup, hlength, hchain⟩ := h.exists_chain hpayload
  have hsubset : chain ⊆ document.tree.parts := fun other hother => (hchain other hother).1
  rw [← hlength, ← Json.length_parts]
  exact (hnodup.subperm hsubset).length_le

/-- For a payload in the tree of a document a bound above the size of the tree makes no difference. -/
theorem payloadShape_add (hpayload : payload ∈ document.tree.parts) (extra : Nat) :
    payloadShape document entities (document.tree.size + 1 + extra) payload
      = payloadShape document entities (document.tree.size + 1) payload := by
  by_cases hsettles : ∃ n, SettlesAt document entities n payload
  · obtain ⟨n, hn⟩ := hsettles
    have hle := hn.le_size hpayload
    rw [payloadShape_of_le hn.2 (m := document.tree.size + 1 + extra) (by omega),
      payloadShape_of_le hn.2 (m := document.tree.size + 1) (by omega)]
  · have hspent : ∀ bound, payloadShape document entities bound payload
        = .error (.circular "oneOf") :=
      fun bound => by_contra fun h => hsettles (exists_settlesAt h)
    rw [hspent, hspent]

/-! ### Choices that end -/

/-- Going into the options of choices comes to an end, whichever option is taken. -/
inductive ChoicesEnd (document : Document) : Json → Prop
  | intro {payload : Json}
    (options : ∀ option ∈ optionsOf document payload, ChoicesEnd document option) :
    ChoicesEnd document payload

/-- A bound that is enough for each of the options. -/
theorem exists_bound {options : List Json} (h : ∀ option ∈ options,
      ∃ n, payloadShape document entities n option ≠ .error (.circular "oneOf")) :
    ∃ n, ∀ option ∈ options,
      payloadShape document entities n option ≠ .error (.circular "oneOf") := by
  induction options with
  | nil => exact ⟨0, fun _ h => absurd h List.not_mem_nil⟩
  | cons option options ih =>
    rw [List.forall_mem_cons] at h
    obtain ⟨n, hn⟩ := h.1
    obtain ⟨m, hm⟩ := ih h.2
    refine ⟨max n m, List.forall_mem_cons.mpr ⟨?_, fun other hother => ?_⟩⟩
    · rwa [payloadShape_of_le hn (Nat.le_max_left n m)]
    · rw [payloadShape_of_le (hm other hother) (Nat.le_max_right n m)]
      exact hm other hother

theorem ChoicesEnd.exists_bound (entities : List String) (h : ChoicesEnd document payload) :
    ∃ n, payloadShape document entities n payload ≠ .error (.circular "oneOf") := by
  induction h with
  | @intro payload _ ih =>
    obtain ⟨n, hn⟩ := Socket.exists_bound ih
    refine ⟨n + 1, ?_⟩
    rcases payloadShape_cases document entities payload with ⟨-, outcome, hne, hplain⟩ | hchoice
    · rwa [hplain]
    · rw [hchoice]
      intro hspent
      cases hmembers : (optionsOf document payload).mapM (payloadShape document entities n) with
      | ok members =>
        rw [hmembers] at hspent
        cases hspent
      | error e =>
        rw [hmembers] at hspent
        cases hspent
        obtain ⟨option, hoption, hfails⟩ := exists_of_mapM_eq_error hmembers
        exact hn option hoption hfails

/-- Where the choices end, the bound is not what ends them. -/
theorem payloadShape_of_choicesEnd (h : ChoicesEnd document payload)
    (hpayload : payload ∈ document.tree.parts) :
    payloadShape document entities (document.tree.size + 1) payload
      ≠ .error (.circular "oneOf") := by
  obtain ⟨n, hn⟩ := h.exists_bound entities
  obtain ⟨m, hsettles⟩ := exists_settlesAt hn
  have hle := hsettles.le_size hpayload
  rw [payloadShape_of_le hsettles.2 (Nat.succ_le_succ hle)]
  exact hsettles.2

/-! ### The payloads of a document -/

/-- The messages of the channels and of the operations. -/
def messages (document : Document) : List Json :=
  document.channels.flatMap (fun entry => entry.2.messages.map Prod.snd)
    ++ document.operations.flatMap fun entry => entry.2.messages

theorem mem_parts_of_channelItem {tree value : Json} (hvalue : value ∈ tree.parts)
    {channel : ChannelItem} (h : ChannelItem.ofJson? value = some channel) {message : Json}
    (hmessage : message ∈ channel.messages.map Prod.snd) : message ∈ tree.parts := by
  simp only [ChannelItem.ofJson?, Option.bind_eq_bind, Option.bind_eq_some_iff] at h
  obtain ⟨record, hrecord, _, -, entries, hentries, h⟩ := h
  cases h
  obtain ⟨entry, hentry, rfl⟩ := List.mem_map.mp hmessage
  obtain ⟨field, hfield, hobject⟩ := Json.exists_of_mem_defaulted? hentries hentry
  have hpart := Json.mem_parts_of_record? hvalue hrecord hfield
  cases field with
  | object members =>
    cases hobject
    exact Json.mem_parts_of_mem_object hpart hentry
  | _ => cases hobject

theorem mem_parts_of_operation {tree value : Json} (hvalue : value ∈ tree.parts)
    {operation : Operation} (h : Operation.ofJson? value = some operation) {message : Json}
    (hmessage : message ∈ operation.messages) : message ∈ tree.parts := by
  simp only [Operation.ofJson?, Option.bind_eq_bind, Option.bind_eq_some_iff] at h
  obtain ⟨record, hrecord, _, -, _, -, items, hitems, _, -, h⟩ := h
  cases h
  obtain ⟨field, hfield, harray⟩ := Json.exists_of_mem_defaulted? hitems hmessage
  have hpart := Json.mem_parts_of_record? hvalue hrecord hfield
  cases field with
  | array items =>
    cases harray
    exact Json.mem_parts_of_mem_array hpart hmessage
  | _ => cases harray

/-- The messages that a document is read with are values of its tree. -/
theorem mem_parts_of_mem_messages {tree : Json} (h : Document.ofJson? tree = some document)
    {message : Json} (hmessage : message ∈ messages document) :
    message ∈ document.tree.parts := by
  simp only [Document.ofJson?, Option.bind_eq_bind, Option.bind_eq_some_iff] at h
  obtain ⟨record, hrecord, _, -, _, -, channels, hchannels, operations, hoperations, h⟩ := h
  cases h
  have hfields : ∀ m ∈ record, m.2 ∈ tree.parts :=
    fun m hm => Json.mem_parts_of_record? (Json.mem_parts_self tree) hrecord hm
  rcases List.mem_append.mp hmessage with hmessage | hmessage
  · obtain ⟨entry, hentry, hmessage⟩ := List.mem_flatMap.mp hmessage
    obtain ⟨field, hfield, hmap⟩ := Json.exists_of_mem_defaulted? hchannels hentry
    obtain ⟨value, hvalue, hchannel⟩ := Json.exists_part_of_mem_map? (hfields _ hfield) hmap hentry
    exact mem_parts_of_channelItem hvalue hchannel hmessage
  · obtain ⟨entry, hentry, hmessage⟩ := List.mem_flatMap.mp hmessage
    obtain ⟨field, hfield, hmap⟩ := Json.exists_of_mem_defaulted? hoperations hentry
    obtain ⟨value, hvalue, hoperation⟩ := Json.exists_part_of_mem_map? (hfields _ hfield) hmap hentry
    exact mem_parts_of_operation hvalue hoperation hmessage

/-- The shape of a message's payload does not depend on the bound: with any greater one it is the
same. If its choices end, the bound is not spent. -/
theorem payloadShape_message {tree message resolved : Json}
    (h : Document.ofJson? tree = some document) (hmessage : message ∈ messages document)
    (hresolved : document.resolve message = .ok resolved)
    (hpayload : resolved.member? "payload" = some payload) :
    (∀ extra, payloadShape document entities (document.tree.size + 1 + extra) payload
      = payloadShape document entities (document.tree.size + 1) payload) ∧
    (ChoicesEnd document payload → payloadShape document entities (document.tree.size + 1) payload
      ≠ .error (.circular "oneOf")) := by
  have hresolved := mem_parts_of_resolve (mem_parts_of_mem_messages h hmessage) hresolved
  have hpart := Json.mem_parts_of_member? hresolved hpayload
  exact ⟨payloadShape_add hpart, fun hends => payloadShape_of_choicesEnd hends hpart⟩

end TypedClients.Socket
