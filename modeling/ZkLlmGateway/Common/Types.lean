import ZkLlmGateway.Common.Token
import ZkLlmGateway.Encoding.Parse

/-!
# Requests, tickets and response payloads

The structures that travel inside an encrypted envelope, with the JSON each is
serialized to, and the commitment an authorization binds a request by.
-/

namespace ZkLlmGateway.Common

open ZkLlmGateway.Encoding

/-! ## Request identifiers -/

/-- A UUID, as its sixteen bytes. -/
abbrev Uuid := Block 16

namespace Uuid

/-- The hyphenated lower-case form. -/
def toText (id : Uuid) : Text :=
  toHex (id.val.take 4) ++ '-' :: (toHex ((id.val.drop 4).take 2) ++
    '-' :: (toHex ((id.val.drop 6).take 2) ++
      '-' :: (toHex ((id.val.drop 8).take 2) ++ '-' :: toHex (id.val.drop 10))))

theorem length_toText (id : Uuid) : (toText id).length = 36 := by
  simp [toText, id.property]

private theorem append_hyphen_inj {left right : Bytes} {leftRest rightRest : Text}
    (lengths : left.length = right.length)
    (equal : toHex left ++ '-' :: leftRest = toHex right ++ '-' :: rightRest) :
    left = right ∧ leftRest = rightRest := by
  obtain ⟨heads, tails⟩ := List.append_inj equal (by simp [lengths])
  exact ⟨toHex_injective heads, (List.cons.inj tails).2⟩

theorem toText_injective : Function.Injective toText := by
  intro left right equal
  have leftLength := left.property
  have rightLength := right.property
  obtain ⟨first, equal⟩ := append_hyphen_inj (by simp [leftLength, rightLength]) equal
  obtain ⟨second, equal⟩ := append_hyphen_inj (by simp [leftLength, rightLength]) equal
  obtain ⟨third, equal⟩ := append_hyphen_inj (by simp [leftLength, rightLength]) equal
  obtain ⟨fourth, equal⟩ := append_hyphen_inj (by simp [leftLength, rightLength]) equal
  have fifth := toHex_injective equal
  apply Subtype.ext
  calc
    left.val = left.val.take 4 ++ ((left.val.drop 4).take 2 ++ ((left.val.drop 6).take 2 ++
        ((left.val.drop 8).take 2 ++ left.val.drop 10))) := split left.val
    _ = right.val.take 4 ++ ((right.val.drop 4).take 2 ++ ((right.val.drop 6).take 2 ++
        ((right.val.drop 8).take 2 ++ right.val.drop 10))) := by
          rw [first, second, third, fourth, fifth]
    _ = right.val := (split right.val).symm
where
  split (bytes : Bytes) :
      bytes = bytes.take 4 ++ ((bytes.drop 4).take 2 ++ ((bytes.drop 6).take 2 ++
        ((bytes.drop 8).take 2 ++ bytes.drop 10))) := by
    rw [show bytes.drop 10 = (bytes.drop 8).drop 2 by rw [List.drop_drop],
      List.take_append_drop, show bytes.drop 8 = (bytes.drop 6).drop 2 by rw [List.drop_drop],
      List.take_append_drop, show bytes.drop 6 = (bytes.drop 4).drop 2 by rw [List.drop_drop],
      List.take_append_drop, List.take_append_drop]

theorem plain_toText (id : Uuid) : Json.Plain (toText id) := by
  have hyphen : '-'.utf8Size = 1 ∧ Json.escapeCost '-' = 0 := by decide
  intro char member
  simp only [toText, List.mem_append, List.mem_cons] at member
  rcases member with digit | rfl | digit | rfl | digit | rfl | digit | rfl | digit
  all_goals first | exact hyphen | exact Json.plain_toHex _ char digit

end Uuid

/-! ## Chat messages and tickets -/

/-- A minimal OpenAI-compatible chat message; `extra` holds its unknown fields
in iteration order. -/
structure ChatMessage where
  role : Text
  content : Text
  extra : List (Text × Json)

/-- The flattened object a message is serialized to. -/
def ChatMessage.toJson (message : ChatMessage) : Json :=
  .object ((text "role", .string message.role) ::
    (text "content", .string message.content) :: message.extra)

/-- Anonymous usage authorization for a single call. -/
structure ZkTicket where
  commitmentRoot : Bytes
  nullifier : Bytes
  tokenClass : TokenClass
  proof : Bytes
  deriving DecidableEq

/-- A 32-bit float that is not a NaN; a finite one is the text that it is written as. -/
inductive F32 where
  | finite (token : Text) (isNumber : Json.isNumber token = true)
  | infinite
  deriving DecidableEq

/-- An infinity is written as `null`. -/
def F32.toJson : F32 → Json
  | finite token _ => .number token
  | infinite => .null

/-- The request that travels inside the encrypted envelope.  A number is an
opaque JSON token. -/
structure InferenceRequest where
  requestId : Uuid
  model : Text
  messages : List ChatMessage
  maxTokens : Option Text
  temperature : Option F32
  stream : Option Bool
  tokenClass : TokenClass
  ticket : ZkTicket
  providerOptions : List (Text × Json)

/-! ## The authorization commitment -/

/-- `null` for an absent value. -/
def optionJson {α : Type} (toJson : α → Json) : Option α → Json
  | none => .null
  | some value => toJson value

/-- The ticket-free projection of a request that is committed to. -/
def InferenceRequest.projection (request : InferenceRequest) : Json :=
  .object [
    (text "request_id", .string (Uuid.toText request.requestId)),
    (text "model", .string request.model),
    (text "messages", .array (request.messages.map ChatMessage.toJson)),
    (text "max_tokens", optionJson .number request.maxTokens),
    (text "temperature", optionJson F32.toJson request.temperature),
    (text "stream", optionJson .bool request.stream),
    (text "token_class", .string request.tokenClass.serdeName),
    (text "provider_options", .object request.providerOptions)]

/-- The domain separator of the commitment. -/
def commitmentLabel : Bytes :=
  utf8 (text "ACTIVECHAIN-ZEROK-INFERENCE-AUTHORIZATION-V1\x00")

/-- SHAKE256, squeezed to 48 bytes, over the label, the length and the
canonical JSON of the projection. -/
def InferenceRequest.authorizationCommitment (shake256 : Bytes → Block 48)
    (request : InferenceRequest) : Bytes :=
  let encoded := utf8 (request.projection.canonicalize.render)
  (shake256 (commitmentLabel ++ toBeBytes 8 encoded.length ++ encoded)).val

/-! ## Responses -/

/-- The answer to an inference request. -/
structure InferenceResponse where
  requestId : Uuid
  model : Text
  output : Text
  billedTokenClass : TokenClass
  upstream : Option Json

/-- A machine-readable error. -/
structure ErrorResponse where
  requestId : Option Uuid
  code : Text
  message : Text

/-- The plaintext that is encrypted inside gateway envelopes. -/
inductive GatewayEnvelopePayload
  | ok (response : InferenceResponse)
  | err (error : ErrorResponse)

/-- An absent upstream body is skipped. -/
def InferenceResponse.toJson (response : InferenceResponse) : Json :=
  .object ([
    (text "request_id", .string (Uuid.toText response.requestId)),
    (text "model", .string response.model),
    (text "output", .string response.output),
    (text "billed_token_class", .string response.billedTokenClass.serdeName)] ++
    (response.upstream.map fun body => (text "upstream", body)).toList)

def ErrorResponse.toJson (error : ErrorResponse) : Json :=
  .object [
    (text "request_id", optionJson (fun id => .string (Uuid.toText id)) error.requestId),
    (text "code", .string error.code),
    (text "message", .string error.message)]

namespace GatewayEnvelopePayload

/-- The internally tagged object. -/
def toJson : GatewayEnvelopePayload → Json
  | ok response => .object [(text "kind", .string (text "ok")), (text "response", response.toJson)]
  | err error => .object [(text "kind", .string (text "err")), (text "error", error.toJson)]

/-- The serialized payload. -/
def toVec (payload : GatewayEnvelopePayload) : Bytes :=
  utf8 payload.toJson.render

/-- The length of a payload that carries an answer: its fixed text and the
serialized model, output, class and body. -/
theorem length_toVec_ok (requestId : Uuid) (model output : Text) (tokenClass : TokenClass)
    (body : Json) :
    (toVec (.ok ⟨requestId, model, output, tokenClass, some body⟩)).length =
      133 + byteLen (Json.renderString model) + byteLen (Json.renderString output) +
        tokenClass.serdeName.length + byteLen body.render := by
  have className : byteLen (Json.renderString tokenClass.serdeName) =
      tokenClass.serdeName.length + 2 := by
    cases tokenClass <;> decide
  have idText : byteLen (Json.renderString (Uuid.toText requestId)) = 38 := by
    rw [(Uuid.plain_toText requestId).byteLen_renderString, Uuid.length_toText]
  have punctuation : '{'.utf8Size = 1 ∧ '}'.utf8Size = 1 ∧ ':'.utf8Size = 1 ∧
      ','.utf8Size = 1 := by decide
  have names : byteLen (Json.renderString (text "kind")) = 6 ∧
      byteLen (Json.renderString (text "ok")) = 4 ∧
      byteLen (Json.renderString (text "response")) = 10 ∧
      byteLen (Json.renderString (text "request_id")) = 12 ∧
      byteLen (Json.renderString (text "model")) = 7 ∧
      byteLen (Json.renderString (text "output")) = 8 ∧
      byteLen (Json.renderString (text "billed_token_class")) = 20 ∧
      byteLen (Json.renderString (text "upstream")) = 10 := by decide
  simp only [toVec, toJson, InferenceResponse.toJson, length_utf8, Json.render,
    Json.renderFields, Json.renderMoreFields, Json.renderField, Option.map_some,
    Option.toList_some, List.cons_append, List.nil_append, byteLen_cons, byteLen_append,
    byteLen_nil, className, idText]
  omega

/-- An object ends with a brace. -/
theorem utf8_render_object (fields : List (Text × Json)) :
    ∃ data, utf8 (Json.object fields).render = data ++ [125] := by
  refine ⟨utf8 ('{' :: Json.renderFields fields), ?_⟩
  rw [Json.render, ← List.cons_append, utf8_append]
  rfl

/-- A payload ends with a brace. -/
theorem toVec_eq_concat (payload : GatewayEnvelopePayload) :
    ∃ data, payload.toVec = data ++ [125] := by
  cases payload <;> exact utf8_render_object _

def isOk : GatewayEnvelopePayload → Bool
  | ok _ => true
  | err _ => false

end GatewayEnvelopePayload

end ZkLlmGateway.Common
