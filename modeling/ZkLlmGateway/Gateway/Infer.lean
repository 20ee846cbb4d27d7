import ZkLlmGateway.Gateway.Nullifier

/-!
# The canonical inference handler

`inferCanonical` checks a decrypted request, verifies and reserves its ticket,
calls the provider, marks the ticket spent and encrypts the payload.  The
delays before the response are left out: they touch no state.
-/

namespace ZkLlmGateway.Gateway

open ZkLlmGateway.Encoding ZkLlmGateway.Common ZkLlmGateway.Interaction

/-! ## Errors -/

/-- An error that is returned inside the encrypted envelope. -/
structure EncryptedError where
  code : Text
  message : Text

namespace EncryptedError

def badRequest (_requestId : Uuid) (code message : Text) : EncryptedError :=
  ⟨code, message⟩

def paymentRequired (_requestId : Uuid) (code message : Text) : EncryptedError :=
  ⟨code, message⟩

def upstream (_requestId : Uuid) (code message : Text) : EncryptedError :=
  ⟨code, message⟩

/-- Internal details are coarsened. -/
def internal (_requestId : Uuid) (_message : Text) : EncryptedError :=
  ⟨text "internal_error", text "internal error"⟩

end EncryptedError

def mapZkError (requestId : Uuid) : ZkVerifyError → EncryptedError
  | .invalidProof =>
      .paymentRequired requestId (text "invalid_proof") (text "invalid usage proof")
  | .internal _ => .internal requestId (text "verifier error")

def mapReserveError (requestId : Uuid) : ReserveError → EncryptedError
  | .alreadyUsed =>
      .paymentRequired requestId (text "double_spend") (text "ticket nullifier already used")
  | .db => .internal requestId (text "db error")

/-- An error that is returned in clear. -/
inductive ApiError
  | badRequest (error : ErrorResponse)
  | internal (error : ErrorResponse)

def ApiError.ofBadRequest (requestId : Option Uuid) (code message : Text) : ApiError :=
  .badRequest ⟨requestId, code, message⟩

def ApiError.ofInternal (requestId : Option Uuid) (message : Text) : ApiError :=
  .internal ⟨requestId, text "internal_error", message⟩

/-! ## The provider -/

structure ProviderChatCompletionResult where
  body : Json
  output : Text

/-- The value of a field of an object. -/
def jsonGet (body : Json) (name : Text) : Option Json :=
  match body with
  | .object fields => (fields.find? (·.1 == name)).map Prod.snd
  | _ => none

/-- The first item of an array. -/
def jsonFirst : Json → Option Json
  | .array items => items.head?
  | _ => none

def extractProviderOutput (body : Json) : Text :=
  let content := (jsonGet body (text "choices")).bind fun choices =>
    (jsonFirst choices).bind fun choice =>
      (jsonGet choice (text "message")).bind fun message => jsonGet message (text "content")
  match content with
  | some (.string content) => content
  | some .null | none => []
  | some other => other.render

/-- `StatusCode::is_success` -/
def isSuccess (status : Nat) : Bool :=
  200 ≤ status && status < 300

/-- What the gateway makes of the provider's answer. -/
def readProviderAnswer (library : Library) (requestId : Uuid) :
    HttpAnswer → Except EncryptedError ProviderChatCompletionResult
  | .sendFailed =>
      .error (.upstream requestId (text "upstream_network") (text "upstream network error"))
  | .readFailed _ =>
      .error (.upstream requestId (text "upstream_read") (text "upstream read error"))
  | .response status bytes =>
      if isSuccess status then
        match library.readJson bytes with
        | none =>
            .error (.upstream requestId (text "upstream_parse") (text "upstream parse error"))
        | some body => .ok { body := body, output := extractProviderOutput body }
      else
        .error (.upstream requestId (text "upstream_error") (text "upstream returned error"))

/-- The class maximum replaces the client's own token limit. -/
def providerRequest (req : InferenceRequest) : ProviderChatCompletionRequest where
  model := req.model
  messages := req.messages
  maxTokens := req.tokenClass.maxCompletionTokens
  temperature := req.temperature
  stream := req.stream
  extra := req.providerOptions

def providerCall (state : AppState) (req : InferenceRequest) : Call :=
  .post (state.providerBaseUrl.rdropWhile (· == '/') ++ text "/v1/chat/completions")
    state.providerApiKey (providerRequest req)

def callProvider (state : AppState) (req : InferenceRequest) :
    Handler (Except EncryptedError ProviderChatCompletionResult) :=
  .call (providerCall state req) fun answer =>
    .done (readProviderAnswer state.library req.requestId answer)

/-! ## The handler -/

/-- Length of the serialized messages. -/
def approxPromptBytes (messages : List ChatMessage) : Nat :=
  byteLen (Json.array (messages.map ChatMessage.toJson)).render

/-- The stable replay key of a ticket. -/
def replayKey (library : Library) (ticket : ZkTicket) : Bytes :=
  library.sha256 ticket.nullifier

/-- A verifier that names no key leaves the choice to the gateway. -/
def ticketKey (library : Library) (ticket : ZkTicket) (verified : VerifiedTicket) : Bytes :=
  if verified.nullifierKey.isEmpty then replayKey library ticket else verified.nullifierKey

/-- The checks that need no call. -/
def checkRequest (env : Envelope) (req : InferenceRequest) : Except EncryptedError Unit :=
  if req.tokenClass ≠ env.tokenClass then
    .error (.badRequest req.requestId (text "token_class_mismatch")
      (text "request token_class does not match envelope"))
  else if req.ticket.tokenClass ≠ req.tokenClass then
    .error (.badRequest req.requestId (text "token_class_mismatch")
      (text "ticket token_class does not match request"))
  else if approxPromptBytes req.messages > req.tokenClass.maxPromptBytes then
    .error (.badRequest req.requestId (text "prompt_too_large")
      (text "prompt exceeds token-class size limit"))
  else if req.stream = some true then
    .error (.badRequest req.requestId (text "stream_unsupported")
      (text "stream=true is not supported on /v1/infer"))
  else
    .ok ()

def verifyCall (state : AppState) (req : InferenceRequest) : Call :=
  .verify req.ticket ⟨req.authorizationCommitment state.library.shake256⟩

/-- With the ticket reserved: call the provider, then release or mark. -/
def answerReserved (state : AppState) (req : InferenceRequest) (rkey pendingVal : Bytes) :
    Handler (Except EncryptedError ProviderChatCompletionResult) := do
  match ← callProvider state req with
  | .error e =>
      -- Best effort: a release that fails is only logged.
      let _ ← releasePendingNullifier rkey pendingVal
      return .error e
  | .ok response =>
      let spentNow ← nowMsU64
      let spentVal := encodeNullifierValue spentStatus spentNow
      match ← markNullifierSpent rkey pendingVal spentVal with
      | .error _ => return .error (.internal req.requestId (text "db error"))
      | .ok () => return .ok response

/-- With the ticket verified: reserve its key before the provider is called. -/
def chargeTicket (state : AppState) (req : InferenceRequest) (rkey : Bytes) :
    Handler (Except EncryptedError ProviderChatCompletionResult) := do
  let now ← nowMsU64
  let pendingVal := encodeNullifierValue pendingStatus now
  match ← reserveNullifier rkey pendingVal state.nullifierPendingTtlMs with
  | .error e => return .error (mapReserveError req.requestId e)
  | .ok () => answerReserved state req rkey pendingVal

/-- The part of the handler whose errors are returned encrypted. -/
def inferResult (state : AppState) (env : Envelope) (req : InferenceRequest) :
    Handler (Except EncryptedError ProviderChatCompletionResult) :=
  match checkRequest env req with
  | .error e => .done (.error e)
  | .ok () =>
      .call (verifyCall state req) fun
        | .error e => .done (.error (mapZkError req.requestId e))
        | .ok verified => chargeTicket state req (ticketKey state.library req.ticket verified)

/-- The payload that is encrypted. -/
def resultPayload (req : InferenceRequest) :
    Except EncryptedError ProviderChatCompletionResult → GatewayEnvelopePayload
  | .ok response => .ok {
      requestId := req.requestId
      model := req.model
      output := response.output
      billedTokenClass := req.tokenClass
      upstream := some response.body }
  | .error e => .err {
      requestId := some req.requestId
      code := e.code
      message := e.message }

def finalizeEncryptedResponse (state : AppState) (reqEnv : Envelope) (payloadJson : Bytes)
    (requestId : Option Uuid) : Handler (Except ApiError Envelope) := do
  let nonce ← fillNonce
  match sealResponseAtGateway state.primitives state.aead nonce state.keypair reqEnv
      payloadJson with
  | .error e => return .error (.ofInternal requestId (text "encrypt: " ++ e.message))
  | .ok env => return .ok env

def inferCanonical (state : AppState) (env : Envelope) (req : InferenceRequest) :
    Handler (Except ApiError Envelope) := do
  let result ← inferResult state env req
  finalizeEncryptedResponse state env (resultPayload req result).toVec (some req.requestId)

/-- The envelope request handler. -/
def infer (state : AppState) (env : Envelope) : Handler (Except ApiError Envelope) :=
  match openRequestAtGateway state.primitives state.aead state.keypair env with
  | .error e => .done (.error (.ofBadRequest none (text "decrypt_failed") e.message))
  | .ok plaintext =>
      match state.library.readRequest plaintext with
      | .error e => .done (.error (.ofBadRequest none (text "invalid_json") e))
      | .ok req => inferCanonical state env req

end ZkLlmGateway.Gateway
