import ZkLlmGateway.Common.Decoding

/-!
# What a commitment covers

The bytes that are hashed determine every field of a request but its ticket, up
to the order in which maps are iterated.  A client and a gateway that read the
request it sends therefore commit to the same bytes.
-/

namespace ZkLlmGateway.Common

open ZkLlmGateway.Encoding

/-! ## Equality of requests -/

def SameMap (left right : List (Text × Json)) : Prop :=
  Json.Same (.object left) (.object right)

structure SameMessage (left right : ChatMessage) : Prop where
  role : left.role = right.role
  content : left.content = right.content
  extra : SameMap left.extra right.extra

/-- Equal but for the tickets and the order in maps. -/
structure SameRequest (left right : InferenceRequest) : Prop where
  requestId : left.requestId = right.requestId
  model : left.model = right.model
  messages : List.Forall₂ SameMessage left.messages right.messages
  maxTokens : left.maxTokens = right.maxTokens
  temperature : left.temperature = right.temperature
  stream : left.stream = right.stream
  tokenClass : left.tokenClass = right.tokenClass
  providerOptions : SameMap left.providerOptions right.providerOptions

/-- The bytes that are hashed. -/
def InferenceRequest.commitmentInput (request : InferenceRequest) : Bytes :=
  let encoded := utf8 (request.projection.canonicalize.render)
  commitmentLabel ++ toBeBytes 8 encoded.length ++ encoded

theorem InferenceRequest.authorizationCommitment_eq (shake256 : Bytes → Block 48)
    (request : InferenceRequest) :
    request.authorizationCommitment shake256 = (shake256 request.commitmentInput).val :=
  rfl

/-! ## Objects as maps -/

section Maps

variable {names : List Text} {lefts rights entries : List (Text × Json)}

theorem sameMap_iff : SameMap lefts rights ↔ lefts.length = rights.length ∧
    ∀ left ∈ lefts, ∃ right ∈ rights, left.1 = right.1 ∧ Json.Same left.2 right.2 := by
  rw [SameMap, Json.Same, Json.sameFields_iff]

theorem ProperEntries.tokens_object (proper : ProperEntries names entries) :
    Json.Tokens (.object entries) := by
  rw [Json.Tokens, Json.tokensFields_iff]
  exact proper.tokens

theorem ProperEntries.distinct_object (proper : ProperEntries names entries) :
    Json.Distinct (.object entries) := by
  rw [Json.Distinct, Json.distinctFields_iff]
  exact ⟨proper.distinctKeys, proper.distinct⟩

theorem sameMap_canonicalEntries (proper : ProperEntries names entries) :
    SameMap entries (canonicalEntries entries) := by
  rw [sameMap_iff, canonicalEntries, List.length_map]
  exact ⟨rfl, fun entry member => ⟨_, List.mem_map_of_mem member, rfl,
    Json.same_canonicalize (proper.distinct entry member)⟩⟩

/-- One entry that both maps have apart from the rest. -/
theorem sameMap_cons_iff {key : Text} {left right : Json}
    (absent : ∀ entry ∈ rights, entry.1 ≠ key) (absentLeft : ∀ entry ∈ lefts, entry.1 ≠ key) :
    SameMap ((key, left) :: lefts) ((key, right) :: rights) ↔
      Json.Same left right ∧ SameMap lefts rights := by
  rw [sameMap_iff, sameMap_iff, List.forall_mem_cons, List.length_cons, List.length_cons,
    Nat.add_right_cancel_iff]
  constructor
  · rintro ⟨lengths, ⟨first, isFirst, sameKey, sameValue⟩, rest⟩
    refine ⟨?_, lengths, fun entry member => ?_⟩
    · rcases List.mem_cons.mp isFirst with rfl | inRights
      · exact sameValue
      · exact absurd sameKey.symm (absent first inRights)
    · obtain ⟨other, isOther, otherKey, otherValue⟩ := rest entry member
      rcases List.mem_cons.mp isOther with rfl | inRights
      · exact absurd otherKey (absentLeft entry member)
      · exact ⟨other, inRights, otherKey, otherValue⟩
  · rintro ⟨sameValue, lengths, rest⟩
    refine ⟨lengths, ⟨_, List.mem_cons_self, rfl, sameValue⟩, fun entry member => ?_⟩
    obtain ⟨other, isOther, otherKey, otherValue⟩ := rest entry member
    exact ⟨other, List.mem_cons_of_mem _ isOther, otherKey, otherValue⟩

/-- Objects that are written with the same keys. -/
theorem sameMap_iff_forall₂ (sameKeys : lefts.map Prod.fst = rights.map Prod.fst)
    (distinctKeys : (lefts.map Prod.fst).Nodup) :
    SameMap lefts rights ↔
      List.Forall₂ (fun left right => Json.Same left.2 right.2) lefts rights := by
  induction lefts generalizing rights with
  | nil =>
      rw [List.map_nil, eq_comm, List.map_eq_nil_iff] at sameKeys
      subst sameKeys
      simp [sameMap_iff]
  | cons left lefts inductionHypothesis =>
      cases rights with
      | nil => contradiction
      | cons right rights =>
          rw [List.map_cons, List.map_cons, List.cons.injEq] at sameKeys
          rw [List.map_cons, List.nodup_cons] at distinctKeys
          obtain ⟨sameKey, sameRest⟩ := sameKeys
          obtain ⟨key, leftValue⟩ := left
          obtain ⟨otherKey, rightValue⟩ := right
          subst sameKey
          have absent : ∀ entries : List (Text × Json), key ∉ entries.map Prod.fst →
              ∀ entry ∈ entries, entry.1 ≠ key := fun entries missing entry member same =>
            missing (same ▸ List.mem_map_of_mem member)
          rw [sameMap_cons_iff (absent rights (sameRest ▸ distinctKeys.1))
            (absent lefts distinctKeys.1), List.forall₂_cons,
            inductionHypothesis sameRest distinctKeys.2]

end Maps

/-! ## Messages -/

section Messages

variable {left right message : ChatMessage}

theorem ChatMessage.absent {name : Text} (isName : name ∈ ChatMessage.names)
    (proper : ProperEntries ChatMessage.names message.extra) :
    ∀ entry ∈ message.extra, entry.1 ≠ name := fun entry member same =>
  proper.foreign entry member (same ▸ isName)

theorem ChatMessage.tokens_toJson (proper : ProperEntries ChatMessage.names message.extra) :
    Json.Tokens message.toJson := by
  rw [toJson, Json.Tokens, Json.tokensFields_iff, List.forall_mem_cons, List.forall_mem_cons]
  exact ⟨trivial, trivial, proper.tokens⟩

theorem ChatMessage.distinct_toJson (proper : ProperEntries ChatMessage.names message.extra) :
    Json.Distinct message.toJson := by
  rw [toJson, Json.Distinct, Json.distinctFields_iff, List.forall_mem_cons, List.forall_mem_cons]
  refine ⟨?_, trivial, trivial, proper.distinct⟩
  have keys : ∀ name ∈ names, name ∉ message.extra.map Prod.fst := by
    intro name isName member
    obtain ⟨entry, inside, rfl⟩ := List.mem_map.mp member
    exact proper.foreign entry inside isName
  simp only [names, List.forall_mem_cons] at keys
  rw [List.map_cons, List.map_cons, List.nodup_cons, List.nodup_cons, List.mem_cons, not_or]
  have apart : text "role" ≠ text "content" := by decide
  exact ⟨⟨apart, keys.1⟩, keys.2.1, proper.distinctKeys⟩

theorem sameMessage_iff (properLeft : ProperEntries ChatMessage.names left.extra)
    (properRight : ProperEntries ChatMessage.names right.extra) :
    Json.Same left.toJson right.toJson ↔ SameMessage left right := by
  have role : text "role" ∈ ChatMessage.names := by decide
  have content : text "content" ∈ ChatMessage.names := by decide
  have apart : text "content" ≠ text "role" := by decide
  rw [ChatMessage.toJson, ChatMessage.toJson, ← SameMap, sameMap_cons_iff, sameMap_cons_iff,
    Json.Same, Json.Same]
  · exact ⟨fun same => ⟨same.1, same.2.1, same.2.2⟩, fun same => ⟨same.1, same.2, same.3⟩⟩
  · exact ChatMessage.absent content properRight
  · exact ChatMessage.absent content properLeft
  · rw [List.forall_mem_cons]
    exact ⟨apart, ChatMessage.absent role properRight⟩
  · rw [List.forall_mem_cons]
    exact ⟨apart, ChatMessage.absent role properLeft⟩

theorem forall₂_toJson_iff {lefts rights : List ChatMessage}
    (properLefts : ∀ message ∈ lefts, ProperEntries ChatMessage.names message.extra)
    (properRights : ∀ message ∈ rights, ProperEntries ChatMessage.names message.extra) :
    List.Forall₂ Json.Same (lefts.map ChatMessage.toJson) (rights.map ChatMessage.toJson) ↔
      List.Forall₂ SameMessage lefts rights := by
  induction lefts generalizing rights with
  | nil => cases rights <;> simp
  | cons left lefts inductionHypothesis =>
      cases rights with
      | nil => simp
      | cons right rights =>
          rw [List.forall_mem_cons] at properLefts properRights
          rw [List.map_cons, List.map_cons, List.forall₂_cons, List.forall₂_cons,
            sameMessage_iff properLefts.1 properRights.1,
            inductionHypothesis properLefts.2 properRights.2]

end Messages

/-! ## Requests -/

/-- The entries of the projection. -/
def InferenceRequest.projectionFields (request : InferenceRequest) : List (Text × Json) := [
  (text "request_id", .string (Uuid.toText request.requestId)),
  (text "model", .string request.model),
  (text "messages", .array (request.messages.map ChatMessage.toJson)),
  (text "max_tokens", optionJson .number request.maxTokens),
  (text "temperature", optionJson F32.toJson request.temperature),
  (text "stream", optionJson .bool request.stream),
  (text "token_class", .string request.tokenClass.serdeName),
  (text "provider_options", .object request.providerOptions)]

theorem InferenceRequest.projection_eq (request : InferenceRequest) :
    request.projection = .object request.projectionFields :=
  rfl

section Requests

variable {left right request : InferenceRequest}

theorem same_optionJson_iff {α : Type} {write : α → Json}
    (inj : ∀ first second, Json.Same (write first) (write second) ↔ first = second)
    (notNull : ∀ value, ¬Json.Same .null (write value) ∧ ¬Json.Same (write value) .null)
    (first second : Option α) :
    Json.Same (optionJson write first) (optionJson write second) ↔ first = second := by
  cases first with
  | none =>
      cases second with
      | none => simp [optionJson, Json.Same]
      | some value => simp [optionJson, (notNull value).1]
  | some value =>
      cases second with
      | none => simp [optionJson, (notNull value).2]
      | some other => simp [optionJson, inj]

theorem same_optionNumber_iff (first second : Option Text) :
    Json.Same (optionJson .number first) (optionJson .number second) ↔ first = second :=
  same_optionJson_iff (fun _ _ => by rw [Json.Same]) (fun _ => by simp [Json.Same]) first second

/-- Finite temperatures, or none. -/
theorem same_optionF32_iff {first second : Option F32} (isFirst : first ≠ some .infinite)
    (isSecond : second ≠ some .infinite) :
    Json.Same (optionJson F32.toJson first) (optionJson F32.toJson second) ↔ first = second := by
  rcases first with none | ⟨token, isNumber⟩ | infinite
  · rcases second with none | ⟨other, isOther⟩ | infinite
    · simp [optionJson, Json.Same]
    · simp [optionJson, F32.toJson, Json.Same]
    · exact absurd rfl isSecond
  · rcases second with none | ⟨other, isOther⟩ | infinite
    · simp [optionJson, F32.toJson, Json.Same]
    · simp [optionJson, F32.toJson, Json.Same]
    · exact absurd rfl isSecond
  · exact absurd rfl isFirst

theorem same_optionBool_iff (first second : Option Bool) :
    Json.Same (optionJson .bool first) (optionJson .bool second) ↔ first = second :=
  same_optionJson_iff (fun _ _ => by rw [Json.Same]) (fun _ => by simp [Json.Same]) first second

theorem InferenceRequest.Proper.same_messages_iff (properLeft : left.Proper)
    (properRight : right.Proper) :
    Json.Same (.array (left.messages.map ChatMessage.toJson))
      (.array (right.messages.map ChatMessage.toJson)) ↔
        List.Forall₂ SameMessage left.messages right.messages := by
  rw [Json.Same, Json.sameItems_iff, forall₂_toJson_iff properLeft.messages properRight.messages]

theorem serdeName_inj {first second : TokenClass} :
    first.serdeName = second.serdeName ↔ first = second := by
  constructor
  · intro same
    have read := congrArg TokenClass.ofName same
    rw [TokenClass.ofName_serdeName, TokenClass.ofName_serdeName] at read
    exact Option.some.inj read
  · exact congrArg _

/-- The projections are the same value for the same requests only. -/
theorem same_projection_iff (properLeft : left.Proper) (properRight : right.Proper) :
    Json.Same left.projection right.projection ↔ SameRequest left right := by
  have keys : [text "request_id", text "model", text "messages", text "max_tokens",
      text "temperature", text "stream", text "token_class", text "provider_options"].Nodup := by
    decide
  have sameKeys : left.projectionFields.map Prod.fst = right.projectionFields.map Prod.fst := rfl
  have fieldwise := sameMap_iff_forall₂ sameKeys keys
  rw [InferenceRequest.projection_eq, InferenceRequest.projection_eq, ← SameMap, fieldwise]
  simp only [InferenceRequest.projectionFields, List.forall₂_cons, List.forall₂_nil_left_iff,
    and_true, properLeft.same_messages_iff properRight, same_optionNumber_iff,
    same_optionF32_iff properLeft.temperature properRight.temperature, same_optionBool_iff,
    Json.Same, serdeName_inj, Uuid.toText_injective.eq_iff]
  constructor
  · rintro ⟨requestId, model, messages, maxTokens, temperature, stream, tokenClass, lengths, each⟩
    refine ⟨requestId, model, messages, maxTokens, temperature, stream, tokenClass, ?_⟩
    rw [SameMap, Json.Same]
    exact ⟨lengths, each⟩
  · rintro ⟨requestId, model, messages, maxTokens, temperature, stream, tokenClass, options⟩
    rw [SameMap, Json.Same] at options
    exact ⟨requestId, model, messages, maxTokens, temperature, stream, tokenClass, options⟩

theorem InferenceRequest.Proper.tokens_messages (proper : request.Proper) :
    Json.Tokens (.array (request.messages.map ChatMessage.toJson)) := by
  rw [Json.Tokens, Json.tokensItems_iff, List.forall_mem_map]
  exact fun message member => ChatMessage.tokens_toJson (proper.messages message member)

theorem InferenceRequest.Proper.tokens_maxTokens (proper : request.Proper) :
    Json.Tokens (optionJson .number request.maxTokens) := by
  cases limit : request.maxTokens with
  | none => trivial
  | some token => exact isNumber_of_isU32 (proper.maxTokens token limit)

theorem tokens_temperature (request : InferenceRequest) :
    Json.Tokens (optionJson F32.toJson request.temperature) := by
  rcases request.temperature with none | ⟨token, isNumber⟩ | infinite
  · trivial
  · exact Json.isNumber_token isNumber
  · trivial

theorem InferenceRequest.Proper.tokens_projection (proper : request.Proper) :
    Json.Tokens request.projection := by
  have stream : Json.Tokens (optionJson .bool request.stream) := by
    cases request.stream <;> trivial
  rw [projection_eq, Json.Tokens, Json.tokensFields_iff, projectionFields]
  simp only [List.forall_mem_cons]
  exact ⟨trivial, trivial, proper.tokens_messages, proper.tokens_maxTokens,
    tokens_temperature request, stream, trivial, proper.providerOptions.tokens_object, by simp⟩

theorem InferenceRequest.Proper.tokens_toJson (proper : request.Proper) :
    Json.Tokens request.toJson := by
  have stream : ∀ field ∈
    (request.stream.map fun stream => (text "stream", Json.bool stream)).toList,
      Json.Tokens field.2 := by
    cases request.stream <;> simp [Json.Tokens]
  have ticket : Json.Tokens request.ticket.toJson := by
    simp [ZkTicket.toJson, Json.Tokens, Json.TokensFields, Json.TokensField]
  rw [toJson, Json.Tokens, Json.tokensFields_iff]
  simp only [List.forall_mem_append, List.forall_mem_cons]
  exact ⟨⟨⟨⟨trivial, trivial, proper.tokens_messages, proper.tokens_maxTokens,
    tokens_temperature request, by simp⟩, stream⟩, trivial, ticket, by simp⟩,
    proper.providerOptions.tokens⟩

theorem InferenceRequest.Proper.distinct_projection (proper : request.Proper) :
    Json.Distinct request.projection := by
  have maxTokens : Json.Distinct (optionJson .number request.maxTokens) := by
    cases request.maxTokens <;> trivial
  have temperature : Json.Distinct (optionJson F32.toJson request.temperature) := by
    rcases request.temperature with none | ⟨token, isNumber⟩ | infinite <;> trivial
  have stream : Json.Distinct (optionJson .bool request.stream) := by
    cases request.stream <;> trivial
  have messages : Json.Distinct (.array (request.messages.map ChatMessage.toJson)) := by
    rw [Json.Distinct, Json.distinctItems_iff, List.forall_mem_map]
    exact fun message member => ChatMessage.distinct_toJson (proper.messages message member)
  rw [projection_eq, Json.Distinct, Json.distinctFields_iff, projectionFields]
  have keys : [text "request_id", text "model", text "messages", text "max_tokens",
      text "temperature", text "stream", text "token_class", text "provider_options"].Nodup := by
    decide
  refine ⟨keys, ?_⟩
  simp only [List.forall_mem_cons]
  exact ⟨trivial, trivial, messages, maxTokens, temperature, stream, trivial,
    proper.providerOptions.distinct_object, by simp⟩

/-- **The hashed bytes cover the request**: they are equal for the same requests only. -/
theorem commitmentInput_eq_iff (properLeft : left.Proper) (properRight : right.Proper) :
    left.commitmentInput = right.commitmentInput ↔ SameRequest left right := by
  rw [← same_projection_iff properLeft properRight, ← Json.canonicalize_eq_iff_same _
    properLeft.distinct_projection _ properRight.distinct_projection]
  constructor
  · intro equal
    have encoded := (List.append_inj equal (by simp)).2
    exact Json.render_inj properLeft.tokens_projection.canonicalize
      properRight.tokens_projection.canonicalize (utf8_injective encoded)
  · intro equal
    rw [InferenceRequest.commitmentInput, equal]
    rfl

end Requests

/-! ## Iteration order -/

structure ChatMessage.Reordered (left right : ChatMessage) : Prop where
  role : left.role = right.role
  content : left.content = right.content
  extra : left.extra.Perm right.extra

/-- The same request, with its maps iterated in another order. -/
structure InferenceRequest.Reordered (left right : InferenceRequest) : Prop where
  requestId : left.requestId = right.requestId
  model : left.model = right.model
  messages : List.Forall₂ ChatMessage.Reordered left.messages right.messages
  maxTokens : left.maxTokens = right.maxTokens
  temperature : left.temperature = right.temperature
  stream : left.stream = right.stream
  tokenClass : left.tokenClass = right.tokenClass
  ticket : left.ticket = right.ticket
  providerOptions : left.providerOptions.Perm right.providerOptions

/-- A document is read as a request, whose maps may be iterated in any order. -/
def Decodes (codec : Codec) (document : Json) (request : InferenceRequest) : Prop :=
  ∃ first, InferenceRequest.ofJson codec document = some first ∧ first.Reordered request

section Reordering

variable {names : List Text} {entries others : List (Text × Json)}
  {left right request : InferenceRequest}

theorem ProperEntries.perm (proper : ProperEntries names entries) (perm : entries.Perm others) :
    ProperEntries names others where
  foreign := fun entry member => proper.foreign entry (perm.mem_iff.mpr member)
  distinctKeys := (perm.map Prod.fst).nodup_iff.mp proper.distinctKeys
  tokens := fun entry member => proper.tokens entry (perm.mem_iff.mpr member)
  distinct := fun entry member => proper.distinct entry (perm.mem_iff.mpr member)

theorem ProperEntries.sameMap_of_perm (proper : ProperEntries names entries)
    (perm : entries.Perm others) : SameMap entries others := by
  refine sameMap_iff.mpr ⟨perm.length_eq, fun entry member => ?_⟩
  have distinct := proper.distinct entry member
  exact ⟨entry, perm.mem_iff.mp member, rfl,
    (Json.canonicalize_eq_iff_same _ distinct _ distinct).mp rfl⟩

theorem InferenceRequest.Proper.reordered (proper : left.Proper)
    (reordered : left.Reordered right) :
    right.Proper where
  messages := by
    have each := proper.messages
    have pairs := reordered.messages
    generalize left.messages = lefts at each pairs
    generalize right.messages = rights at pairs ⊢
    induction pairs with
    | nil => simp
    | cons first rest inductionHypothesis =>
        rw [List.forall_mem_cons] at each ⊢
        exact ⟨each.1.perm first.extra, inductionHypothesis each.2⟩
  maxTokens := reordered.maxTokens ▸ proper.maxTokens
  temperature := reordered.temperature ▸ proper.temperature
  providerOptions := proper.providerOptions.perm reordered.providerOptions

theorem InferenceRequest.Proper.same_of_reordered (proper : left.Proper)
    (reordered : left.Reordered right) : SameRequest left right where
  requestId := reordered.requestId
  model := reordered.model
  messages := by
    have each := proper.messages
    have pairs := reordered.messages
    generalize left.messages = lefts at each pairs ⊢
    generalize right.messages = rights at pairs ⊢
    induction pairs with
    | nil => exact .nil
    | cons first rest inductionHypothesis =>
        rw [List.forall_mem_cons] at each
        exact .cons ⟨first.role, first.content, each.1.sameMap_of_perm first.extra⟩
          (inductionHypothesis each.2)
  maxTokens := reordered.maxTokens
  temperature := reordered.temperature
  stream := reordered.stream
  tokenClass := reordered.tokenClass
  providerOptions := proper.providerOptions.sameMap_of_perm reordered.providerOptions

theorem Decodes.proper {codec : Codec} {document : Json} (decodes : Decodes codec document request)
    (tokens : Json.Tokens document) (finite : request.temperature ≠ some .infinite) :
    request.Proper := by
  rcases decodes with ⟨first, read, reordered⟩
  have finiteFirst : first.temperature ≠ some .infinite := by rwa [reordered.temperature]
  exact (InferenceRequest.proper_of_ofJson tokens read finiteFirst).reordered reordered

theorem sameMessages_canonical {messages : List ChatMessage}
    (proper : ∀ message ∈ messages, ProperEntries ChatMessage.names message.extra) :
    List.Forall₂ SameMessage messages (messages.map ChatMessage.canonical) := by
  rw [List.forall₂_map_right_iff, List.forall₂_same]
  exact fun message member => ⟨rfl, rfl, sameMap_canonicalEntries (proper message member)⟩

/-- A request is the same after it was written and read. -/
theorem InferenceRequest.Proper.same_canonical (proper : request.Proper) :
    SameRequest request request.canonical where
  requestId := rfl
  model := rfl
  messages := sameMessages_canonical proper.messages
  maxTokens := rfl
  temperature := rfl
  stream := rfl
  tokenClass := rfl
  providerOptions := sameMap_canonicalEntries proper.providerOptions

theorem ProperEntries.canonical (proper : ProperEntries names entries) :
    ProperEntries names (canonicalEntries entries) := by
  refine ⟨?_, ?_, ?_, ?_⟩
  · rw [canonicalEntries, List.forall_mem_map]
    exact proper.foreign
  · rw [canonicalEntries, List.map_map]
    exact proper.distinctKeys
  · rw [canonicalEntries, List.forall_mem_map]
    exact fun entry member => (proper.tokens entry member).canonicalize
  · rw [canonicalEntries, List.forall_mem_map]
    exact fun entry _ => Json.distinct_canonicalize entry.2

theorem InferenceRequest.Proper.canonical (proper : request.Proper) : request.canonical.Proper where
  messages := by
    rw [InferenceRequest.canonical, List.forall_mem_map]
    exact fun message member => (proper.messages message member).canonical
  maxTokens := proper.maxTokens
  temperature := proper.temperature
  providerOptions := proper.providerOptions.canonical

theorem InferenceRequest.Reordered.refl (request : InferenceRequest) :
    request.Reordered request where
  requestId := rfl
  model := rfl
  messages := List.forall₂_same.mpr fun _ _ => ⟨rfl, rfl, List.Perm.refl _⟩
  maxTokens := rfl
  temperature := rfl
  stream := rfl
  tokenClass := rfl
  ticket := rfl
  providerOptions := List.Perm.refl _

end Reordering

/-! ## Client and gateway -/

/-- `serde_json::from_slice` on bytes that `parse` reads as a document. -/
def ReadsRequest (parse : Bytes → Option Json) (codec : Codec) (bytes : Bytes)
    (request : InferenceRequest) : Prop :=
  ∃ document, parse bytes = some document ∧ Decodes codec document request

section ClientAndGateway

variable {codec : Codec} {request received : InferenceRequest}

/-- What a request is read as has its commitment and its ticket. -/
theorem commitment_of_decodes (proper : request.Proper) (reads : codec.Reads request)
    (decodes : Decodes codec request.toJson received) :
    received.ticket = request.ticket ∧ ∀ shake256 : Bytes → Block 48,
      received.authorizationCommitment shake256 = request.authorizationCommitment shake256 := by
  rcases decodes with ⟨first, isFirst, reordered⟩
  rw [InferenceRequest.ofJson_toJson proper reads, Option.some.injEq] at isFirst
  subst isFirst
  refine ⟨reordered.ticket.symm, fun shake256 => ?_⟩
  have properReceived := proper.canonical.reordered reordered
  have atGateway := (commitmentInput_eq_iff proper.canonical properReceived).mpr
    (proper.canonical.same_of_reordered reordered)
  have written := (commitmentInput_eq_iff proper proper.canonical).mpr proper.same_canonical
  rw [InferenceRequest.authorizationCommitment_eq, InferenceRequest.authorizationCommitment_eq,
    ← atGateway, written]

/-- The bytes of a request are its document, if it is not too deep. -/
theorem readsRequest_iff (numbers : Json.Numbers codec.readNumber request.toJson) :
    ReadsRequest codec.parse codec (utf8 request.toJson.render) received ↔
      request.toJson.depth ≤ maxDepth ∧ Decodes codec request.toJson received := by
  rw [ReadsRequest, Codec.parse, Json.parse_render_eq numbers]
  split
  next within => simp [within]
  next deep => simp [deep]

/-- **Client and gateway compute one commitment**: what the client serializes is read as a
request, unless it is nested too deep, and every request it is read as has its commitment and
its ticket. -/
theorem commitment_of_readsRequest (proper : request.Proper)
    (numbers : Json.Numbers codec.readNumber request.toJson) (reads : codec.Reads request) :
    ((∃ received, ReadsRequest codec.parse codec (utf8 request.toJson.render) received) ↔
        request.toJson.depth ≤ maxDepth) ∧
      ∀ received, ReadsRequest codec.parse codec (utf8 request.toJson.render) received →
        received.ticket = request.ticket ∧ ∀ shake256 : Bytes → Block 48,
          received.authorizationCommitment shake256 =
            request.authorizationCommitment shake256 := by
  simp only [readsRequest_iff numbers]
  refine ⟨⟨fun ⟨_, within, _⟩ => within, fun within => ?_⟩, fun received ⟨_, decodes⟩ =>
    commitment_of_decodes proper reads decodes⟩
  exact ⟨request.canonical, within, _, InferenceRequest.ofJson_toJson proper reads, .refl _⟩

end ClientAndGateway

/-- A request for a short answer, with nested options. -/
def seededRequest : InferenceRequest where
  requestId := .replicate 16 7
  model := text "gpt-4o-mini"
  messages := [⟨text "user", text "Hi", [(text "name", .string (text "Ann"))]⟩]
  maxTokens := some (text "64")
  temperature := some (.finite (text "0.5") rfl)
  stream := none
  tokenClass := .c256
  ticket := ⟨[1], [2], .c256, [3]⟩
  providerOptions := [
    (text "seed", .number (text "7")),
    (text "metadata", .object [(text "user", .null), (text "job", .array [.bool true])])]

theorem proper_seededRequest : seededRequest.Proper where
  messages := by
    rw [seededRequest, List.forall_mem_singleton]
    exact ⟨by decide +kernel, by decide +kernel, by simp [Json.Tokens], by simp [Json.Distinct]⟩
  maxTokens := by
    rw [seededRequest]
    decide
  temperature := by decide
  providerOptions := by
    have isNumber : Json.IsNumber (text "7") := by decide
    have keys : text "user" ≠ text "job" := by decide
    refine ⟨by decide +kernel, by decide +kernel, ?_, ?_⟩
    · simp [seededRequest, Json.Tokens, Json.TokensFields, Json.TokensField, Json.TokensItems,
        isNumber]
    · simp [seededRequest, Json.Distinct, Json.DistinctFields, Json.DistinctField,
        Json.DistinctItems, keys]

theorem numbers_seededRequest :
    Json.Numbers Codec.standard.readNumber seededRequest.toJson := by
  have short : Json.isNumber (text "64") = true ∧ Json.isNumber (text "0.5") = true ∧
      Json.isNumber (text "7") = true := by decide
  simp [seededRequest, InferenceRequest.toJson, ChatMessage.toJson, ZkTicket.toJson, optionJson,
    F32.toJson, Codec.standard, Json.Numbers, Json.NumbersItems, Json.NumbersFields, short]

theorem reads_standard (request : InferenceRequest) : Codec.standard.Reads request where
  requestId := Uuid.ofText_toText request.requestId
  temperature _ isNumber _ := dif_pos isNumber

theorem readsRequest_seededRequest :
    ReadsRequest Codec.standard.parse Codec.standard (utf8 seededRequest.toJson.render)
      seededRequest.canonical := by
  have decodes := InferenceRequest.ofJson_toJson proper_seededRequest (reads_standard _)
  exact (readsRequest_iff numbers_seededRequest).mpr ⟨by decide +kernel, _, decodes, .refl _⟩

theorem commitment_of_seededRequest :
    ((∃ received, ReadsRequest Codec.standard.parse Codec.standard
        (utf8 seededRequest.toJson.render) received) ↔ seededRequest.toJson.depth ≤ maxDepth) ∧
      ∀ received, ReadsRequest Codec.standard.parse Codec.standard
          (utf8 seededRequest.toJson.render) received →
        received.ticket = seededRequest.ticket ∧ ∀ shake256 : Bytes → Block 48,
          received.authorizationCommitment shake256 =
            seededRequest.authorizationCommitment shake256 :=
  commitment_of_readsRequest proper_seededRequest numbers_seededRequest
    (reads_standard seededRequest)

/-- Arrays inside one another. -/
def nestedArrays : Nat → Json
  | 0 => .null
  | levels + 1 => .array [nestedArrays levels]

/-- A request with an option that is too deep. -/
def nestedRequest : InferenceRequest :=
  { seededRequest with providerOptions := [(text "logit_bias", nestedArrays 127)] }

section Nested

theorem numbers_nestedArrays (readNumber : Text → Option Text) (levels : Nat) :
    Json.Numbers readNumber (nestedArrays levels) := by
  induction levels with
  | zero => trivial
  | succ levels inductionHypothesis => exact ⟨inductionHypothesis, trivial⟩

theorem distinct_nestedArrays (levels : Nat) : Json.Distinct (nestedArrays levels) := by
  induction levels with
  | zero => trivial
  | succ levels inductionHypothesis => exact ⟨inductionHypothesis, trivial⟩

theorem depth_nestedArrays (levels : Nat) : (nestedArrays levels).depth = levels := by
  induction levels with
  | zero => rfl
  | succ levels inductionHypothesis =>
      rw [nestedArrays, Json.depth, Json.depthItems, Json.depthItems, inductionHypothesis,
        Nat.max_zero]

theorem proper_nestedRequest : nestedRequest.Proper where
  messages := proper_seededRequest.messages
  maxTokens := proper_seededRequest.maxTokens
  temperature := proper_seededRequest.temperature
  providerOptions := by
    refine ⟨by decide +kernel, by decide +kernel, ?_, ?_⟩
    · rw [nestedRequest, List.forall_mem_singleton]
      exact Json.tokens_of_numbers (numbers_nestedArrays some 127)
    · rw [nestedRequest, List.forall_mem_singleton]
      exact distinct_nestedArrays 127

theorem numbers_nestedRequest :
    Json.Numbers Codec.standard.readNumber nestedRequest.toJson := by
  have short : Json.isNumber (text "64") = true ∧ Json.isNumber (text "0.5") = true := by decide
  simp [nestedRequest, seededRequest, InferenceRequest.toJson, ChatMessage.toJson, ZkTicket.toJson,
    optionJson, F32.toJson, Codec.standard, Json.Numbers, Json.NumbersItems, Json.NumbersFields,
    short, numbers_nestedArrays]

theorem deep_nestedRequest : ¬nestedRequest.toJson.depth ≤ maxDepth := by
  intro within
  have field : (text "logit_bias", nestedArrays 127) ∈
      nestedRequest.ownFields ++ nestedRequest.providerOptions :=
    List.mem_append_right _ List.mem_cons_self
  have limit : maxDepth = 126 + 1 := rfl
  rw [InferenceRequest.toJson_eq, limit, Json.depth_object_le_iff] at within
  have short := within _ field
  rw [depth_nestedArrays] at short
  exact Nat.not_succ_le_self 126 short

/-- **A request that is nested too deep** is written and not read. -/
theorem not_readsRequest_nestedRequest :
    nestedRequest.Proper ∧ Json.Numbers Codec.standard.readNumber nestedRequest.toJson ∧
      Codec.standard.Reads nestedRequest ∧
      ¬∃ received, ReadsRequest Codec.standard.parse Codec.standard
        (utf8 nestedRequest.toJson.render) received :=
  ⟨proper_nestedRequest, numbers_nestedRequest, reads_standard nestedRequest,
    fun ⟨_, reads⟩ => deep_nestedRequest ((readsRequest_iff numbers_nestedRequest).mp reads).1⟩

end Nested

end ZkLlmGateway.Common
