import ZkLlmGateway.Client.Sending
import ZkLlmGateway.Client.SessionFile
import ZkLlmGateway.Common.Wire

/-!
# Payloads as they are read

What a client makes of the plaintext of a reply.  The tag of a payload is looked for first,
so that the rest of it is read from a buffer.
-/

namespace ZkLlmGateway.Client

open ZkLlmGateway.Encoding ZkLlmGateway.Common

/-! ## Reading -/

/-- A unit variant that was buffered. -/
def readBufferedClass : Json → Option TokenClass
  | .object [(name, .object [])] => TokenClass.ofName name
  | document => TokenClass.ofJson document

def readId (readUuid : Text → Option Uuid) (document : Json) : Option Uuid :=
  (readString document).bind readUuid

def responseNames : List Text :=
  [text "request_id", text "model", text "output", text "billed_token_class", text "upstream"]

def readInferenceResponse (readUuid : Text → Option Uuid) (document : Json) :
    Option InferenceResponse := do
  let fields ← asFields responseNames document
  let requestId ← (requiredField fields (text "request_id")).bind (readId readUuid)
  let model ← (requiredField fields (text "model")).bind readString
  let output ← (requiredField fields (text "output")).bind readString
  let billedTokenClass ← (requiredField fields (text "billed_token_class")).bind readBufferedClass
  let upstream ← (ownField fields (text "upstream")).bind
    (readOption fun value => some value.canonicalize)
  return ⟨requestId, model, output, billedTokenClass, upstream⟩

def errorNames : List Text :=
  [text "request_id", text "code", text "message"]

def readErrorResponse (readUuid : Text → Option Uuid) (document : Json) :
    Option ErrorResponse := do
  let fields ← asFields errorNames document
  let requestId ← (ownField fields (text "request_id")).bind (readOption (readId readUuid))
  let code ← (requiredField fields (text "code")).bind readString
  let message ← (requiredField fields (text "message")).bind readString
  return ⟨requestId, code, message⟩

def readEnvelopePayload (readUuid : Text → Option Uuid) (document : Json) :
    Option GatewayEnvelopePayload := do
  let (kind, content) ← SessionDisk.tagged (text "kind") document
  if kind = text "ok" then
    let fields ← asFields [text "response"] content
    let response ← (requiredField fields (text "response")).bind (readInferenceResponse readUuid)
    return .ok response
  else if kind = text "err" then
    let fields ← asFields [text "error"] content
    let error ← (requiredField fields (text "error")).bind (readErrorResponse readUuid)
    return .err error
  else none

/-- `serde_json::from_slice` -/
def readPayload (codec : Codec) (bytes : Bytes) : Option GatewayEnvelopePayload :=
  (codec.parse bytes).bind (readEnvelopePayload codec.readUuid)

/-- The readers of a codec, and how a client shows what is no envelope. -/
def replyLibrary (codec : Codec) (displayStatus : Nat → Text) (fromUtf8Lossy : Bytes → Text) :
    ReplyLibrary where
  readEnvelope := codec.readEnvelope
  readPayload := readPayload codec
  displayStatus := displayStatus
  fromUtf8Lossy := fromUtf8Lossy

/-! ## Reading what was written -/

section Payloads

variable {readUuid : Text → Option Uuid}

/-- An upstream body as it is read; `null` is none. -/
def readUpstream : Option Json → Option Json
  | none | some .null => none
  | some body => some body.canonicalize

theorem readOption_upstream (body : Option Json) :
    readOption (fun value => some value.canonicalize) body = some (readUpstream body) := by
  cases body with
  | none => rfl
  | some body => cases body <;> rfl

theorem readInferenceResponse_toJson {response : InferenceResponse}
    (readsId : readUuid (Uuid.toText response.requestId) = some response.requestId) :
    readInferenceResponse readUuid response.toJson =
      some { response with upstream := readUpstream response.upstream } := by
  obtain ⟨requestId, model, output, billedTokenClass, upstream⟩ := response
  have fields : readInferenceResponse readUuid
      (InferenceResponse.toJson ⟨requestId, model, output, billedTokenClass, upstream⟩) =
        (readUuid (Uuid.toText requestId)).bind fun requestId =>
          (readBufferedClass (.string billedTokenClass.serdeName)).bind fun billedTokenClass =>
            (readOption (fun value => some value.canonicalize) upstream).bind fun upstream =>
              some ⟨requestId, model, output, billedTokenClass, upstream⟩ := by
    cases upstream <;> rfl
  rw [fields, readsId, readBufferedClass, TokenClass.ofJson, TokenClass.ofName_serdeName,
    readOption_upstream]
  · rfl
  · simp

theorem readErrorResponse_toJson {error : ErrorResponse}
    (readsId : ∀ requestId ∈ error.requestId, readUuid (Uuid.toText requestId) = some requestId) :
    readErrorResponse readUuid error.toJson = some error := by
  obtain ⟨requestId, code, message⟩ := error
  have fields : readErrorResponse readUuid (ErrorResponse.toJson ⟨requestId, code, message⟩) =
      (readOption (readId readUuid)
        (some (optionJson (fun id => .string (Uuid.toText id)) requestId))).bind fun requestId =>
          some ⟨requestId, code, message⟩ := rfl
  have back : readOption (readId readUuid)
      (some (optionJson (fun id => .string (Uuid.toText id)) requestId)) = some requestId :=
    readOption_optionJson fun id isId => ⟨by simp, readsId id isId⟩
  rw [fields, back]
  rfl

/-- A payload as it is read after it was written. -/
def asRead : GatewayEnvelopePayload → GatewayEnvelopePayload
  | .ok response => .ok { response with upstream := readUpstream response.upstream }
  | .err error => .err error

/-- **A payload is read as it was written.** -/
theorem readEnvelopePayload_toJson (readsIds : ∀ id, readUuid (Uuid.toText id) = some id)
    (payload : GatewayEnvelopePayload) :
    readEnvelopePayload readUuid payload.toJson =
      some (asRead payload) := by
  cases payload with
  | ok response =>
      have fields : readEnvelopePayload readUuid (GatewayEnvelopePayload.ok response).toJson =
          (readInferenceResponse readUuid response.toJson).bind fun response =>
            some (.ok response) := rfl
      rw [fields, readInferenceResponse_toJson (readsIds _)]
      rfl
  | err error =>
      have fields : readEnvelopePayload readUuid (GatewayEnvelopePayload.err error).toJson =
          (readErrorResponse readUuid error.toJson).bind fun error => some (.err error) := rfl
      rw [fields, readErrorResponse_toJson fun id _ => readsIds id]
      rfl

/-! ## Depth and numbers -/

/-- A payload is two objects around the upstream body. -/
theorem depth_ok_le_iff {limit : Nat} {response : InferenceResponse} :
    (GatewayEnvelopePayload.ok response).toJson.depth ≤ limit + 2 ↔
      ∀ body ∈ response.upstream, body.depth ≤ limit := by
  rcases response with ⟨requestId, model, output, billedTokenClass, none | body⟩ <;>
    simp [GatewayEnvelopePayload.toJson, InferenceResponse.toJson, Json.depth, Json.depthFields]

theorem numbers_ok {readNumber : Text → Option Text} {response : InferenceResponse}
    (numbers : ∀ body ∈ response.upstream, Json.Numbers readNumber body) :
    Json.Numbers readNumber (GatewayEnvelopePayload.ok response).toJson := by
  rcases response with ⟨requestId, model, output, billedTokenClass, none | body⟩
  · exact ⟨trivial, ⟨trivial, trivial, trivial, trivial, trivial⟩, trivial⟩
  · exact ⟨trivial, ⟨trivial, trivial, trivial, trivial, numbers body rfl, trivial⟩, trivial⟩

theorem depth_err (error : ErrorResponse) :
    (GatewayEnvelopePayload.err error).toJson.depth ≤ maxDepth := by
  rcases error with ⟨none | id, code, message⟩ <;> exact Nat.le_of_ble_eq_true rfl

theorem numbers_err (readNumber : Text → Option Text) (error : ErrorResponse) :
    Json.Numbers readNumber (GatewayEnvelopePayload.err error).toJson := by
  rcases error with ⟨none | id, code, message⟩ <;>
    exact ⟨trivial, ⟨trivial, trivial, trivial, trivial⟩, trivial⟩

end Payloads

end ZkLlmGateway.Client
