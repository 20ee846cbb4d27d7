import ZkLlmGateway.Common.Decoding
import ZkLlmGateway.Common.Sealing

/-!
# Envelopes as they are read

Whoever receives an envelope reads it from a document, in which every field is
under one of its names, in any order and next to fields that are ignored.  The
readers of documents and of UUIDs are a codec.
-/

namespace ZkLlmGateway.Common

open ZkLlmGateway.Encoding

/-! ## Codecs -/

/-- Documents, numbers and UUIDs are read as they were written. -/
structure Codec.Faithful (codec : Codec) : Prop where
  scan : ∀ document, Json.Numbers some document →
    codec.scan (utf8 document.render) = some document
  settled : Json.Settled codec.readNumber
  readUuid : ∀ id, codec.readUuid (Uuid.toText id) = some id

/-! ## Reading -/

/-- A field with an alias; `none` unless the document has it once. -/
def aliasedField (fields : List (Text × Json)) (names : List Text) : Option Json :=
  match fields.filter (·.1 ∈ names) with
  | [field] => some field.2
  | _ => none

def readU8 : Json → Option UInt8
  | .number token =>
      let value := token.foldl (fun total char => 10 * total + (char.toNat - 48)) 0
      if isDecimal token = true ∧ value < 2 ^ 8 then some (.ofNat value) else none
  | _ => none

namespace Envelope

def versionNames : List Text :=
  [text "v", text "version"]

def keyNames : List Text :=
  [text "eph_pubkey_b64", text "kem_pub_b64"]

/-- The names of every field. -/
def allNames : List (List Text) :=
  [versionNames, [text "token_class"], [text "request_id"], [text "client_nonce_b64"], keyNames,
    [text "nonce_b64"], [text "ciphertext_b64"]]

/-- The values of the fields, in their order. -/
def ofValues (readUuid : Text → Option Uuid) : List Json → Option Envelope
  | [version, tokenClass, requestId, clientNonceB64, kemPubB64, nonceB64, ciphertextB64] => do
      let version ← readU8 version
      let tokenClass ← TokenClass.ofJson tokenClass
      let requestId ← (readString requestId).bind readUuid
      let clientNonceB64 ← readString clientNonceB64
      let kemPubB64 ← readString kemPubB64
      let nonceB64 ← readString nonceB64
      let ciphertextB64 ← readString ciphertextB64
      return ⟨version, tokenClass, requestId, clientNonceB64, kemPubB64, nonceB64, ciphertextB64⟩
  | _ => none

/-- A struct without a flattened map, also in the form of an array. -/
def ofJson (readUuid : Text → Option Uuid) : Json → Option Envelope
  | .object fields => (allNames.mapM (aliasedField fields)).bind (ofValues readUuid)
  | .array values => ofValues readUuid values
  | _ => none

end Envelope

/-- `serde_json::from_slice`, of an envelope; what it ignores may be as deep as it likes. -/
def Codec.readEnvelope (codec : Codec) (bytes : Bytes) : Option Envelope :=
  (codec.scan bytes).bind (Envelope.ofJson codec.readUuid)

/-! ## Fields under one of their names -/

section Aliases

variable {fields : List (Text × Json)} {groups : List (List Text)}

theorem aliasedField_eq_some_iff {names : List Text} {value : Json} :
    aliasedField fields names = some value ↔
      ∃ entry, fields.filter (·.1 ∈ names) = [entry] ∧ entry.2 = value := by
  unfold aliasedField
  constructor
  · intro found
    split at found
    next entry one => exact ⟨entry, one, Option.some.inj found⟩
    next => contradiction
  · rintro ⟨entry, one, rfl⟩
    rw [one]

/-- Fields under other names are not looked at. -/
theorem aliasedField_filter {names others : List Text} (apart : List.Disjoint names others) :
    aliasedField (fields.filter (·.1 ∉ names)) others = aliasedField fields others := by
  have same : (fields.filter (·.1 ∉ names)).filter (·.1 ∈ others) =
      fields.filter (·.1 ∈ others) := by
    rw [List.filter_filter]
    apply List.filter_congr
    intro entry _
    rw [Bool.and_eq_left_iff_imp, decide_eq_true_eq, decide_eq_true_eq]
    exact fun isOther isName => apart isName isOther
  rw [aliasedField, aliasedField, same]

/-- One entry for every group, and entries that belong to no group. -/
structure Split (groups : List (List Text)) (fields named others : List (Text × Json)) : Prop where
  isNamed : List.Forall₂ (fun names entry => entry.1 ∈ names) groups named
  foreign : ∀ entry ∈ others, entry.1 ∉ groups.flatten
  perm : fields.Perm (named ++ others)

theorem exists_group {named : List (Text × Json)} {entry : Text × Json}
    (isNamed : List.Forall₂ (fun names entry => entry.1 ∈ names) groups named)
    (member : entry ∈ named) : ∃ names ∈ groups, entry.1 ∈ names := by
  induction isNamed with
  | nil => exact absurd member List.not_mem_nil
  | @cons names first groups named isFirst _ inductionHypothesis =>
      rcases List.mem_cons.mp member with rfl | later
      · exact ⟨names, List.mem_cons_self, isFirst⟩
      · obtain ⟨others, isGroup, within⟩ := inductionHypothesis later
        exact ⟨others, List.mem_cons_of_mem names isGroup, within⟩

theorem Split.cons {names : List Text} {named others : List (Text × Json)} {entry : Text × Json}
    (split : Split groups (fields.filter (·.1 ∉ names)) named others)
    (one : fields.filter (·.1 ∈ names) = [entry]) :
    Split (names :: groups) fields (entry :: named) others where
  isNamed := by
    have member : entry ∈ fields.filter (·.1 ∈ names) := one ▸ List.mem_singleton_self entry
    exact .cons (of_decide_eq_true (List.mem_filter.mp member).2) split.isNamed
  foreign := by
    intro other member
    have kept := split.perm.mem_iff.mpr (List.mem_append_right named member)
    rw [List.flatten_cons, List.mem_append, not_or]
    exact ⟨of_decide_eq_true (List.mem_filter.mp kept).2, split.foreign other member⟩
  perm := by
    have parted := List.filter_append_perm (fun entry : Text × Json => decide (entry.1 ∈ names))
      fields
    rw [one] at parted
    have rest : fields.filter (fun entry => !decide (entry.1 ∈ names)) =
        fields.filter (·.1 ∉ names) := by
      simp
    rw [rest] at parted
    exact parted.symm.trans (split.perm.cons entry)

theorem Split.of_cons {names : List Text} {named others : List (Text × Json)} {entry : Text × Json}
    (disjoint : ∀ others ∈ groups, List.Disjoint names others)
    (split : Split (names :: groups) fields (entry :: named) others) :
    fields.filter (·.1 ∈ names) = [entry] ∧
      Split groups (fields.filter (·.1 ∉ names)) named others := by
  obtain ⟨isNamed, foreign, perm⟩ := split
  rw [List.forall₂_cons] at isNamed
  have apart : ∀ other ∈ named ++ others, other.1 ∉ names := by
    intro other member
    rcases List.mem_append.mp member with isOther | isForeign
    · obtain ⟨group, isGroup, within⟩ := exists_group isNamed.2 isOther
      exact fun isName => disjoint group isGroup isName within
    · have far := foreign other isForeign
      rw [List.flatten_cons, List.mem_append, not_or] at far
      exact far.1
  have noName : (named ++ others).filter (·.1 ∈ names) = [] :=
    List.filter_eq_nil_iff.mpr fun other member => by simpa using apart other member
  have allOther : (named ++ others).filter (·.1 ∉ names) = named ++ others :=
    List.filter_eq_self.mpr fun other member => by simpa using apart other member
  constructor
  · have filtered := perm.filter (fun entry => decide (entry.1 ∈ names))
    rw [List.cons_append, List.filter_cons_of_pos (by simpa using isNamed.1), noName] at filtered
    exact List.perm_singleton.mp filtered
  · refine ⟨isNamed.2, fun other member => ?_, ?_⟩
    · have far := foreign other member
      rw [List.flatten_cons, List.mem_append, not_or] at far
      exact far.2
    · have filtered := perm.filter (fun entry => decide (entry.1 ∉ names))
      rw [List.cons_append, List.filter_cons_of_neg (by simpa using isNamed.1), allOther]
        at filtered
      exact filtered

theorem mapM_congr {α β : Type} {items : List α} {first second : α → Option β}
    (same : ∀ item ∈ items, first item = second item) : items.mapM first = items.mapM second := by
  induction items with
  | nil => rfl
  | cons item items inductionHypothesis =>
      rw [List.forall_mem_cons] at same
      rw [List.mapM_cons, List.mapM_cons, same.1, inductionHypothesis same.2]

/-- Every group is read if the fields are split. -/
theorem mapM_aliasedField_eq_some_iff (disjoint : groups.Pairwise List.Disjoint)
    {values : List Json} :
    groups.mapM (aliasedField fields) = some values ↔
      ∃ named others, Split groups fields named others ∧ named.map Prod.snd = values := by
  induction groups generalizing fields values with
  | nil =>
      rw [List.mapM_nil]
      constructor
      · intro none
        cases Option.some.inj none
        exact ⟨[], fields, ⟨.nil, fun _ _ => List.not_mem_nil, .refl _⟩, rfl⟩
      · rintro ⟨named, others, ⟨isNamed, _⟩, rfl⟩
        rw [List.forall₂_nil_left_iff] at isNamed
        rw [isNamed]
        rfl
  | cons names groups inductionHypothesis =>
      rw [List.pairwise_cons] at disjoint
      have same : groups.mapM (aliasedField (fields.filter (·.1 ∉ names))) =
          groups.mapM (aliasedField fields) :=
        mapM_congr fun others member => aliasedField_filter (disjoint.1 others member)
      simp only [List.mapM_cons, Option.bind_eq_bind, Option.bind_eq_some_iff, Option.pure_def,
        Option.some.injEq, aliasedField_eq_some_iff, ← same, inductionHypothesis disjoint.2]
      constructor
      · rintro ⟨_, ⟨entry, one, rfl⟩, _, ⟨named, others, split, rfl⟩, rfl⟩
        exact ⟨entry :: named, others, split.cons one, rfl⟩
      · rintro ⟨named, others, split, rfl⟩
        obtain ⟨entry, rest, _, _, rfl⟩ := List.forall₂_cons_left_iff.mp split.isNamed
        obtain ⟨one, parted⟩ := split.of_cons disjoint.1
        exact ⟨entry.2, ⟨entry, one, rfl⟩, _, ⟨rest, others, parted, rfl⟩, rfl⟩

end Aliases

/-! ## Envelopes -/

namespace Envelope

/-- A document that stands for an envelope: its fields in their order, or every field once
under one of its names, among others. -/
inductive Represents (readUuid : Text → Option Uuid) : Json → Envelope → Prop
  | array {values env} (isEnvelope : ofValues readUuid values = some env) :
      Represents readUuid (.array values) env
  | object {fields named others env} (split : Split allNames fields named others)
      (isEnvelope : ofValues readUuid (named.map Prod.snd) = some env) :
      Represents readUuid (.object fields) env

variable {readUuid : Text → Option Uuid} {document : Json} {env : Envelope}

theorem disjoint_allNames : allNames.Pairwise List.Disjoint := by
  have apart : allNames.Pairwise fun names others => names.all (· ∉ others) = true := by decide
  refine apart.imp fun {names others} apart name isName isOther => ?_
  exact of_decide_eq_true (List.all_eq_true.mp apart name isName) isOther

theorem ofJson_eq_some_iff :
    Envelope.ofJson readUuid document = some env ↔ Represents readUuid document env := by
  cases document with
  | object fields =>
      simp only [Envelope.ofJson, Option.bind_eq_some_iff,
        mapM_aliasedField_eq_some_iff disjoint_allNames]
      constructor
      · rintro ⟨_, ⟨named, others, split, rfl⟩, isEnvelope⟩
        exact .object split isEnvelope
      · rintro ⟨⟩
        next named others split isEnvelope => exact ⟨_, ⟨named, others, split, rfl⟩, isEnvelope⟩
  | array values =>
      constructor
      · exact .array
      · rintro ⟨isEnvelope⟩
        exact isEnvelope
  | _ =>
      constructor
      · nofun
      · rintro ⟨⟩

theorem readU8_decimal : ∀ n < 256, readU8 (.number (decimal n)) = some (.ofNat n) := by
  decide +kernel

theorem ofValues_eq (readsId : readUuid (Uuid.toText env.requestId) = some env.requestId) :
    ofValues readUuid [.number (decimal env.version.toNat), .string env.tokenClass.serdeName,
      .string (Uuid.toText env.requestId), .string env.clientNonceB64, .string env.kemPubB64,
      .string env.nonceB64, .string env.ciphertextB64] = some env := by
  have version := readU8_decimal env.version.toNat env.version.toNat_lt
  rw [UInt8.ofNat_toNat] at version
  simp only [ofValues, version, TokenClass.ofJson, TokenClass.ofName_serdeName, readString, readsId,
    Option.bind_eq_bind, Option.bind_some, Option.pure_def]

/-- What is written stands for the envelope. -/
theorem represents_toJson (readsId : readUuid (Uuid.toText env.requestId) = some env.requestId) :
    Represents readUuid env.toJson env := by
  have split : ∀ {fields}, List.Forall₂ (fun names entry => entry.1 ∈ names) allNames fields →
      Split allNames fields fields [] := fun isNamed =>
    ⟨isNamed, fun _ member => absurd member List.not_mem_nil, by rw [List.append_nil]⟩
  apply Represents.object (split _) (ofValues_eq readsId)
  simp [allNames, versionNames, keyNames]

theorem numbers_toJson (env : Envelope) : Json.Numbers some env.toJson := by
  rw [toJson, Json.Numbers, Json.numbersFields_iff]
  simp only [List.forall_mem_cons]
  exact ⟨⟨isNumber_decimal _, rfl⟩, trivial, trivial, trivial, trivial, trivial, trivial,
    fun _ member => absurd member List.not_mem_nil⟩

end Envelope

section Codecs

variable {codec : Codec}

theorem Codec.readEnvelope_eq_some_iff (faithful : codec.Faithful) {document : Json}
    (numbers : Json.Numbers some document) {env : Envelope} :
    codec.readEnvelope (utf8 document.render) = some env ↔
      Envelope.Represents codec.readUuid document env := by
  rw [readEnvelope, faithful.scan document numbers, Option.bind_some, Envelope.ofJson_eq_some_iff]

/-- An envelope is read as it was written. -/
theorem Codec.readEnvelope_toVec (faithful : codec.Faithful) (env : Envelope) :
    codec.readEnvelope env.toVec = some env :=
  (readEnvelope_eq_some_iff faithful (Envelope.numbers_toJson env)).mpr
    (Envelope.represents_toJson (faithful.readUuid env.requestId))

/-- How envelopes are read, from documents of any depth. -/
structure Codec.ReadsEnvelopes (codec : Codec) : Prop where
  accepts_iff : ∀ document env, Json.Numbers some document →
    (codec.readEnvelope (utf8 document.render) = some env ↔
      Envelope.Represents codec.readUuid document env)
  back : ∀ env : Envelope, codec.readEnvelope env.toVec = some env

/-- **Envelopes are read** from every document that has their fields, whatever the order and
whatever else is there, and from no other. -/
theorem Codec.readsEnvelopes (faithful : codec.Faithful) : codec.ReadsEnvelopes where
  accepts_iff := fun _ _ numbers => readEnvelope_eq_some_iff faithful numbers
  back := readEnvelope_toVec faithful

end Codecs

theorem Codec.faithful_standard : Codec.standard.Faithful where
  scan document numbers := by
    apply Json.parse_render numbers
    rw [length_utf8]
    exact Nat.le_trans document.depth_le_length_render (length_le_byteLen _)
  settled _ _ number isRead := by
    cases isRead
    exact ⟨number, rfl⟩
  readUuid := Uuid.ofText_toText

theorem Codec.readsEnvelopes_standard : Codec.standard.ReadsEnvelopes :=
  readsEnvelopes faithful_standard

end ZkLlmGateway.Common
