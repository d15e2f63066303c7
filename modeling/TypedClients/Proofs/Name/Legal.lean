import TypedClients.Endpoint.Basic
import TypedClients.Proofs.Node.TypeText

/-!
# Names that can be declared

A name for a declaration is an identifier and no reserved word, whatever text it is made of, and a text
that is both already is left as it is (`binding_eq_self_iff`). More may be written in front of such a
name or behind it, as long as no reserved word begins or ends like that. So the names of entities, of
what an operation declares and of clients can all be declared (`isLegal_names`).

## What is proved

`isLegal_names` — a name for a declaration can be declared, and making it again changes nothing; a
text stays as it is exactly if it can be declared. The names of entities, of an operation with and
without the endings for parameters, body and response, and of the classes of clients can be
declared, whatever they are made of.

## What is not here

That two such names differ. Different texts may give one name, and where it matters it is looked
for.
-/

namespace TypedClients

/-! ### Identifiers -/

/-- What holds of each code of ASCII holds of each character in it. -/
theorem Text.of_forall_ascii {p : Char → Prop} (hall : ∀ n < 0x80, p (Char.ofNat n)) {c : Char}
    (hc : c.toNat < 0x80) : p c := by
  have h := hall c.toNat hc
  rwa [Char.ofNat_toNat] at h

namespace Name

theorem toNat_lt_of_continuesIdentifier {c : Char} (h : continuesIdentifier c = true) :
    c.toNat < 0x80 := by
  have hletter : c.isAlpha = true → c.val ≤ 'Z'.val ∨ c.val ≤ 'z'.val := by
    intro h
    rcases (Bool.or_eq_true c.isUpper c.isLower).mp h with h | h
    · exact .inl (of_decide_eq_true h).2
    · exact .inr (of_decide_eq_true ((Bool.and_eq_true (c.val ≥ 'a'.val) _).mp h).2)
  simp only [continuesIdentifier, Char.isAlphanum, Bool.or_eq_true, beq_iff_eq] at h
  rcases h with ((h | h) | rfl) | rfl
  · rcases hletter h with h | h
    · exact Nat.lt_of_le_of_lt (UInt32.le_iff_toNat_le.mp h) (by decide)
    · exact Nat.lt_of_le_of_lt (UInt32.le_iff_toNat_le.mp h) (by decide)
  · exact Nat.lt_of_le_of_lt (Char.isDigit_iff_toNat.mp h).2 (by decide)
  · decide
  · decide

theorem isDigit_of_startsIdentifier {c : Char} (h : startsIdentifier c = true) :
    c.isDigit = false := by
  have hascii := toNat_lt_of_continuesIdentifier (Script.startsIdentifier_imp_continuesIdentifier h)
  exact Text.of_forall_ascii (p := fun c => startsIdentifier c = true → c.isDigit = false)
    (by decide) hascii h

/-- All the characters of an identifier can go on with one. -/
theorem all_continuesIdentifier {s : List Char} (h : isIdentifierChars s = true) :
    s.all continuesIdentifier = true := by
  cases s with
  | nil => rfl
  | cons c r =>
    simp only [isIdentifierChars, Bool.and_eq_true] at h
    simp only [List.all_cons, Bool.and_eq_true]
    exact ⟨Script.startsIdentifier_imp_continuesIdentifier h.1, h.2⟩

/-- Nothing is replaced in an identifier. -/
theorem sanitizeChars_of_isIdentifier {s : List Char} (h : isIdentifierChars s = true) :
    sanitizeChars s = s := by
  cases s with
  | nil => cases h
  | cons c r =>
    have hmap : ((c :: r).map fun c => if continuesIdentifier c then c else '_') = c :: r := by
      have hall := List.all_eq_true.mp (all_continuesIdentifier h)
      exact (List.map_congr_left fun x hx => if_pos (hall x hx)).trans (List.map_id _)
    simp only [isIdentifierChars, Bool.and_eq_true] at h
    rw [sanitizeChars, hmap]
    exact if_neg (by rw [isDigit_of_startsIdentifier h.1]; exact Bool.false_ne_true)

theorem sanitize_of_isIdentifier {s : String} (h : isIdentifier s = true) : sanitize s = s := by
  rw [sanitize, ← String.toList_inj, Text.toList_lift, sanitizeChars_of_isIdentifier h]

/-- An identifier in front of a sanitized text makes one with it. -/
theorem isIdentifier_append_sanitize {lead : String} (hlead : isIdentifier lead = true)
    (s : String) : isIdentifier (lead ++ sanitize s) = true := by
  rw [isIdentifier, String.toList_append]
  exact isIdentifierChars_append hlead (all_continuesIdentifier (isIdentifier_sanitize s))

/-! ### Reserved words -/

/-- A name that has what no reserved word has is none. -/
theorem isReserved_of_forall {p : String → Prop} (hwords : ∀ word ∈ reservedWords, ¬ p word)
    {s : String} (hs : p s) : isReserved s = false := by
  simp only [isReserved, List.contains_eq_mem, decide_eq_false_iff_not]
  exact fun hmem => hwords s hmem hs

/-! ### Names of declarations -/

theorem isLegal_binding (s : String) : IsLegal (binding s) :=
  ⟨isIdentifier_binding s, isReserved_binding s⟩

/-- A text stays as it is exactly if it can be declared. -/
theorem binding_eq_self_iff {s : String} : binding s = s ↔ IsLegal s := by
  constructor
  · intro h
    rw [← h]
    exact isLegal_binding s
  · rintro ⟨hname, hfree⟩
    rw [binding, sanitize_of_isIdentifier hname, hfree]
    rfl

/-- A name that can be declared stays one behind which some more is written, unless a reserved word
ends in that. -/
theorem isLegal_append {ending : String} (hchars : ending.toList.all continuesIdentifier = true)
    (hwords : ∀ word ∈ reservedWords, ¬ ending.toList <:+ word.toList) (s : String) :
    IsLegal (binding s ++ ending) := by
  constructor
  · rw [isIdentifier, String.toList_append]
    exact isIdentifierChars_append (isIdentifier_binding s) hchars
  · apply isReserved_of_forall hwords
    rw [String.toList_append]
    exact List.suffix_append _ _

/-- No reserved word begins like the class of a client. -/
theorem isLegal_clientClass (spaceName : String) : IsLegal (clientClass spaceName) := by
  have hwords : ∀ word ∈ reservedWords, ¬ "SocketClient".toList <+: word.toList := by decide
  refine ⟨isIdentifier_append_sanitize (by decide) _, isReserved_of_forall hwords ?_⟩
  rw [clientClass, String.toList_append]
  exact List.prefix_append _ _

/-- What the names of an operation's declarations begin with is made as a name for a declaration. -/
theorem exists_versioned_eq_binding (id : Option String) (method : Method) (path : String) :
    ∃ s, (OperationName.derive id method path).versioned = binding s := by
  simp only [OperationName.derive]
  exact ⟨_, rfl⟩

/-- Every name for a declaration can be declared, and is the text that it is made of exactly if that
can be. So are the names of entities, those of operations, alone or with what is written behind them
for parameters, bodies and responses, and those of the classes of clients. -/
theorem isLegal_names :
    (∀ s, IsLegal (binding s) ∧ (binding s = s ↔ IsLegal s) ∧ binding (binding s) = binding s) ∧
      (∀ raw, IsLegal (entity raw)) ∧
      (∀ id method path, let versioned := (OperationName.derive id method path).versioned
        IsLegal versioned ∧ IsLegal (versioned ++ "Params") ∧ IsLegal (versioned ++ "Body") ∧
          IsLegal (versioned ++ "Resp")) ∧
      ∀ spaceName, IsLegal (clientClass spaceName) := by
  refine ⟨fun s => ⟨isLegal_binding s, binding_eq_self_iff, ?_⟩, fun raw => isLegal_binding _,
    fun id method path => ?_, isLegal_clientClass⟩
  · exact binding_eq_self_iff.mpr (isLegal_binding s)
  · obtain ⟨s, hs⟩ := exists_versioned_eq_binding id method path
    dsimp only
    rw [hs]
    refine ⟨isLegal_binding s, ?_, ?_, ?_⟩
    · exact isLegal_append (by decide) (by decide) s
    · exact isLegal_append (by decide) (by decide) s
    · exact isLegal_append (by decide) (by decide) s

example : binding "delete" = "delete_" ∧ binding "" = "_" ∧ entity "2fa_token" = "_2faToken" ∧
    entity "straße" = "Stra_e" ∧ clientClass "new" = "SocketClientNew" := by decide

end Name

end TypedClients
