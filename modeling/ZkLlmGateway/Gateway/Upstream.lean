import ZkLlmGateway.Common.Commitment
import ZkLlmGateway.Gateway.Infer

/-!
# What is sent upstream

The body of the provider call takes all it holds from fields that the request's
commitment covers: requests with one commitment are sent upstream as one value.
-/

namespace ZkLlmGateway.Gateway

open ZkLlmGateway.Encoding ZkLlmGateway.Common

/-- An absent temperature or `stream` is skipped, and the extra fields are flattened. -/
def ProviderChatCompletionRequest.toJson (body : ProviderChatCompletionRequest) : Json :=
  .object ([
    (text "model", .string body.model),
    (text "messages", .array (body.messages.map ChatMessage.toJson)),
    (text "max_tokens", .number (decimal body.maxTokens))] ++
    (body.temperature.map fun heat => (text "temperature", heat.toJson)).toList ++
    (body.stream.map fun stream => (text "stream", Json.bool stream)).toList ++ body.extra)

section Bodies

variable {left right : InferenceRequest}

theorem sameMap_append {lefts rights others more : List (Text × Json)}
    (front : SameMap lefts rights) (back : SameMap others more) :
    SameMap (lefts ++ others) (rights ++ more) := by
  rw [sameMap_iff] at front back ⊢
  rw [List.length_append, List.length_append, front.1, back.1]
  refine ⟨rfl, fun entry member => ?_⟩
  rcases List.mem_append.mp member with inFront | inBack
  · obtain ⟨other, inRights, same⟩ := front.2 entry inFront
    exact ⟨other, List.mem_append_left _ inRights, same⟩
  · obtain ⟨other, inMore, same⟩ := back.2 entry inBack
    exact ⟨other, List.mem_append_right _ inMore, same⟩

theorem sameMap_singleton (key : Text) {value other : Json} (same : Json.Same value other) :
    SameMap [(key, value)] [(key, other)] := by
  have keys : ([(key, value)].map Prod.fst).Nodup := List.nodup_singleton key
  have sameKeys : [(key, value)].map Prod.fst = [(key, other)].map Prod.fst := rfl
  exact (sameMap_iff_forall₂ sameKeys keys).mpr (.cons same .nil)

theorem sameMap_optional {α : Type} (key : Text) (write : α → Json) (content : Option α)
    (same : ∀ value, Json.Same (write value) (write value)) :
    SameMap (content.map fun value => (key, write value)).toList
      (content.map fun value => (key, write value)).toList := by
  cases content with
  | none => exact sameMap_iff.mpr ⟨rfl, by simp⟩
  | some value => exact sameMap_singleton key (same value)

/-- The same requests are sent upstream as one value. -/
theorem same_providerRequest (properLeft : left.Proper) (properRight : right.Proper)
    (same : SameRequest left right) :
    Json.Same (providerRequest left).toJson (providerRequest right).toJson := by
  have messages := (properLeft.same_messages_iff properRight).mpr same.messages
  have model : Json.Same (.string left.model) (.string right.model) := by
    rw [Json.Same]
    exact same.model
  have maxTokens : Json.Same (.number (decimal left.tokenClass.maxCompletionTokens))
      (.number (decimal right.tokenClass.maxCompletionTokens)) := by
    rw [Json.Same, same.tokenClass]
  have front := sameMap_append (sameMap_singleton (text "model") model)
    (sameMap_append (sameMap_singleton (text "messages") messages)
      (sameMap_singleton (text "max_tokens") maxTokens))
  have temperature := sameMap_optional (text "temperature") F32.toJson left.temperature
    fun heat => by cases heat <;> simp [F32.toJson, Json.Same]
  have stream := sameMap_optional (text "stream") Json.bool left.stream fun _ => by rw [Json.Same]
  have whole := sameMap_append (sameMap_append (sameMap_append front temperature) stream)
    same.providerOptions
  rw [SameMap] at whole
  simp only [providerRequest, ProviderChatCompletionRequest.toJson, ← same.temperature,
    ← same.stream]
  exact whole

end Bodies

/-- **The commitment covers what is executed**: the hashed bytes are equal for the same
requests only, and then the bodies sent upstream are the same. -/
theorem commitment_covers_upstream {codec : Codec} {leftDocument rightDocument : Json}
    {left right : InferenceRequest} (tokensLeft : Json.Tokens leftDocument)
    (tokensRight : Json.Tokens rightDocument) (decodesLeft : Decodes codec leftDocument left)
    (decodesRight : Decodes codec rightDocument right)
    (finiteLeft : left.temperature ≠ some .infinite)
    (finiteRight : right.temperature ≠ some .infinite) :
    (left.commitmentInput = right.commitmentInput ↔ SameRequest left right) ∧
      (left.commitmentInput = right.commitmentInput →
        Json.Same (providerRequest left).toJson (providerRequest right).toJson) := by
  have properLeft := decodesLeft.proper tokensLeft finiteLeft
  have properRight := decodesRight.proper tokensRight finiteRight
  have covers := commitmentInput_eq_iff properLeft properRight
  exact ⟨covers, fun equal => same_providerRequest properLeft properRight (covers.mp equal)⟩

/-- The same request with another ticket and its options in another order. -/
def retriedRequest : InferenceRequest :=
  { seededRequest with
    ticket := ⟨[4], [5], .c512, []⟩
    providerOptions := seededRequest.providerOptions.reverse }

theorem proper_retriedRequest : retriedRequest.Proper where
  messages := proper_seededRequest.messages
  maxTokens := proper_seededRequest.maxTokens
  temperature := proper_seededRequest.temperature
  providerOptions := proper_seededRequest.providerOptions.perm (List.reverse_perm _).symm

theorem commitment_covers_retriedRequest :
    (seededRequest.canonical.commitmentInput = retriedRequest.canonical.commitmentInput ↔
        SameRequest seededRequest.canonical retriedRequest.canonical) ∧
      (seededRequest.canonical.commitmentInput = retriedRequest.canonical.commitmentInput →
        Json.Same (providerRequest seededRequest.canonical).toJson
          (providerRequest retriedRequest.canonical).toJson) :=
  commitment_covers_upstream proper_seededRequest.tokens_toJson proper_retriedRequest.tokens_toJson
    ⟨_, InferenceRequest.ofJson_toJson proper_seededRequest (reads_standard _), .refl _⟩
    ⟨_, InferenceRequest.ofJson_toJson proper_retriedRequest (reads_standard _), .refl _⟩
    proper_seededRequest.temperature proper_retriedRequest.temperature

/-! ## Where the body comes from -/

/-- An object has its own entries and, of a source, the last value of every key that is not one of
the names; no key is there twice. -/
structure Flattens (names : List Text) (source own fields : List (Text × Json)) : Prop where
  distinctKeys : (fields.map Prod.fst).Nodup
  entries : ∀ key value, (key, value) ∈ fields ↔ (key, value) ∈ own ∨
    key ∉ names ∧ ∃ last, lastValue source key = some last ∧ value = last.canonicalize

theorem flattens_append {names : List Text} {source own extra : List (Text × Json)}
    (isExtra : (otherFields names source).Perm extra) (isOwn : ∀ entry ∈ own, entry.1 ∈ names)
    (distinctOwn : (own.map Prod.fst).Nodup) : Flattens names source own (own ++ extra) where
  distinctKeys := by
    rw [List.map_append, List.nodup_append]
    refine ⟨distinctOwn,
      (isExtra.map Prod.fst).nodup_iff.mp (nodup_keys_otherFields names source), ?_⟩
    rintro _ inOwn key inExtra rfl
    obtain ⟨entry, isEntry, sameKey⟩ := List.mem_map.mp inOwn
    obtain ⟨⟨key, value⟩, isOther, rfl⟩ := List.mem_map.mp inExtra
    have isName := isOwn entry isEntry
    rw [sameKey] at isName
    exact (mem_otherFields_iff.mp (isExtra.mem_iff.mpr isOther)).1 isName
  entries := fun key value => by
    rw [List.mem_append, ← isExtra.mem_iff, mem_otherFields_iff]

namespace ProviderChatCompletionRequest

/-- The entries of the body that are not flattened into it. -/
def ownFields (body : ProviderChatCompletionRequest) : List (Text × Json) := [
    (text "model", .string body.model),
    (text "messages", .array (body.messages.map ChatMessage.toJson)),
    (text "max_tokens", .number (decimal body.maxTokens))] ++
    (body.temperature.map fun heat => (text "temperature", heat.toJson)).toList ++
    (body.stream.map fun stream => (text "stream", Json.bool stream)).toList

def names : List Text :=
  [text "model", text "messages", text "max_tokens", text "temperature", text "stream"]

theorem keys_ownFields (body : ProviderChatCompletionRequest) :
    (body.ownFields.map Prod.fst).Sublist names := by
  have shown : ∀ withHeat withStream : Bool,
      ([text "model", text "messages", text "max_tokens"] ++
        (if withHeat then [text "temperature"] else []) ++
          if withStream then [text "stream"] else []).Sublist names := by decide +kernel
  unfold ownFields
  cases body.temperature with
  | none =>
      cases body.stream with
      | none => exact shown false false
      | some stream => exact shown false true
  | some heat =>
      cases body.stream with
      | none => exact shown true false
      | some stream => exact shown true true

theorem toJson_eq (body : ProviderChatCompletionRequest) :
    body.toJson = .object (body.ownFields ++ body.extra) := by
  rw [toJson, ownFields]

end ProviderChatCompletionRequest

/-- A message is sent with the role and the content of the object that it was read from, and with
the last value of every other key. -/
def SendsMessage (item : Json) (message : ChatMessage) : Prop :=
  ∃ source fields, item = .object source ∧ message.toJson = .object fields ∧
    requiredField source (text "role") = some (.string message.role) ∧
    (ownField source (text "content")).map deserializeChatMessageContent = some message.content ∧
    Flattens ChatMessage.names source
      [(text "role", .string message.role), (text "content", .string message.content)] fields

/-- What is sent upstream was read from an object. -/
structure SendsRequest (codec : Codec) (source : List (Text × Json))
    (request : InferenceRequest) : Prop where
  model : requiredField source (text "model") = some (.string request.model)
  temperature : (ownField source (text "temperature")).bind (readOption codec.readF32) =
    some request.temperature
  stream : (ownField source (text "stream")).bind (readOption readBool) = some request.stream
  messages : ∃ items, requiredField source (text "messages") = some (.array items) ∧
    List.Forall₂ SendsMessage items request.messages
  /-- The body has the limit of the token class, and nothing of what stays here. -/
  body : ∃ fields, (providerRequest request).toJson = .object fields ∧
    Flattens InferenceRequest.names source ([
      (text "model", .string request.model),
      (text "messages", .array (request.messages.map ChatMessage.toJson)),
      (text "max_tokens", .number (decimal request.tokenClass.maxCompletionTokens))] ++
      (request.temperature.map fun heat => (text "temperature", heat.toJson)).toList ++
      (request.stream.map fun stream => (text "stream", Json.bool stream)).toList) fields ∧
    ∀ name ∈ [text "request_id", text "token_class", text "ticket"],
      name ∉ fields.map Prod.fst

section Sending

variable {value item : Json} {content : Text}

theorem readString_eq_some (isString : readString value = some content) :
    value = .string content := by
  cases value with
  | string own => exact congrArg Json.string (Option.some.inj isString)
  | _ => contradiction

theorem sendsMessage_of_ofJson {first message : ChatMessage}
    (isRead : ChatMessage.ofJson item = some first) (reordered : first.Reordered message) :
    SendsMessage item message := by
  cases item with
  | object source =>
      simp only [ChatMessage.ofJson, Option.bind_eq_bind, Option.bind_eq_some_iff,
        Option.pure_def, Option.some.injEq] at isRead
      obtain ⟨role, ⟨value, isField, isString⟩, content, isContent, rfl⟩ := isRead
      obtain rfl := readString_eq_some isString
      have sameRole : role = message.role := reordered.role
      have sameContent : deserializeChatMessageContent content = message.content :=
        reordered.content
      have isOwn : ∀ entry ∈ [(text "role", Json.string message.role),
          (text "content", Json.string message.content)], entry.1 ∈ ChatMessage.names := by
        simp [ChatMessage.names]
      have distinct : [text "role", text "content"].Nodup := by decide
      refine ⟨source, _, rfl, rfl, by rw [isField, sameRole], ?_,
        flattens_append reordered.extra isOwn distinct⟩
      rw [isContent, Option.map_some, sameContent]
  | _ => contradiction

theorem sendsMessage_of_mapM {items : List Json} {firsts messages : List ChatMessage}
    (areRead : items.mapM ChatMessage.ofJson = some firsts)
    (reordered : List.Forall₂ ChatMessage.Reordered firsts messages) :
    List.Forall₂ SendsMessage items messages := by
  have pairs := forall₂_of_mapM areRead
  clear areRead
  induction pairs generalizing messages with
  | nil =>
      cases reordered
      exact .nil
  | cons isRead _ inductionHypothesis =>
      cases reordered with
      | cons same rest =>
          exact .cons (sendsMessage_of_ofJson isRead same) (inductionHypothesis rest)

theorem flattens_providerRequest {source : List (Text × Json)} {request : InferenceRequest}
    (options : (otherFields InferenceRequest.names source).Perm request.providerOptions) :
    Flattens InferenceRequest.names source (providerRequest request).ownFields
      ((providerRequest request).ownFields ++ request.providerOptions) := by
  have keys := (providerRequest request).keys_ownFields
  have known : ProviderChatCompletionRequest.names ⊆ InferenceRequest.names := by decide +kernel
  have distinct : ProviderChatCompletionRequest.names.Nodup := by decide +kernel
  exact flattens_append options
    (fun entry member => known (keys.subset (List.mem_map_of_mem member))) (distinct.sublist keys)

end Sending

/-- **The body cannot be smuggled past the clamp.** -/
theorem sendsRequest_of_readsRequest {parse : Bytes → Option Json} {codec : Codec} {bytes : Bytes}
    {request : InferenceRequest} (reads : ReadsRequest parse codec bytes request) :
    ∃ source, parse bytes = some (.object source) ∧ SendsRequest codec source request := by
  obtain ⟨document, isDocument, first, isRead, reordered⟩ := reads
  cases document with
  | object source =>
      refine ⟨source, isDocument, ?_⟩
      simp only [InferenceRequest.ofJson, Option.bind_eq_bind, Option.bind_eq_some_iff,
        Option.pure_def, Option.some.injEq] at isRead
      obtain ⟨idText, _, requestId, _, model, ⟨modelValue, isModel, isString⟩, messages,
        ⟨list, isList, areMessages⟩, maxTokens, _, temperature, isTemperature, stream, isStream,
        tokenClass, _, ticket, _, rfl⟩ := isRead
      obtain rfl := readString_eq_some isString
      have flattens := flattens_providerRequest reordered.providerOptions
      refine ⟨by rw [isModel, ← reordered.model], ?_, ?_, ?_, _,
        (providerRequest request).toJson_eq, flattens, fun name isName member => ?_⟩
      · rw [← reordered.temperature, Option.bind_eq_some_iff]
        exact isTemperature
      · rw [← reordered.stream, Option.bind_eq_some_iff]
        exact isStream
      · cases list with
        | array items =>
            exact ⟨items, isList, sendsMessage_of_mapM areMessages reordered.messages⟩
        | _ => contradiction
      · obtain ⟨⟨key, value⟩, inBody, rfl⟩ := List.mem_map.mp member
        have known : ∀ name ∈ [text "request_id", text "token_class", text "ticket"],
            name ∈ InferenceRequest.names ∧ name ∉ ProviderChatCompletionRequest.names := by
          decide +kernel
        rcases (flattens.entries key value).mp inBody with isOwn | ⟨foreign, _⟩
        · exact (known key isName).2
            ((providerRequest request).keys_ownFields.subset (List.mem_map_of_mem isOwn))
        · exact foreign (known key isName).1
  | _ => contradiction

theorem sendsRequest_seededRequest :
    ∃ source, Codec.standard.parse (utf8 seededRequest.toJson.render) = some (.object source) ∧
      SendsRequest Codec.standard source seededRequest.canonical :=
  sendsRequest_of_readsRequest readsRequest_seededRequest

end ZkLlmGateway.Gateway
