import ZkLlmGateway.Common.Wire
import ZkLlmGateway.Gateway.Infer

/-!
# The endpoint of the gateway

The body of a request is read as an envelope before the handler runs, and what the
handler returns is written to the body of a reply.
-/

namespace ZkLlmGateway.Gateway

open ZkLlmGateway.Encoding ZkLlmGateway.Common ZkLlmGateway.Interaction

/-! ## Replies -/

structure HttpReply where
  status : Nat
  body : Bytes
  deriving DecidableEq

def ApiError.intoResponse : ApiError → HttpReply
  | .badRequest error => ⟨400, utf8 error.toJson.render⟩
  | .internal error => ⟨500, utf8 error.toJson.render⟩

/-- `Result<Json<Envelope>, ApiError>` as a reply. -/
def replyOf : Except ApiError Envelope → HttpReply
  | .ok env => ⟨200, env.toVec⟩
  | .error error => error.intoResponse

/-! ## Bodies -/

/-- What servers do with the bodies of requests: the codec that reads them, and the replies to
those that are no envelopes. -/
structure Server where
  codec : Codec
  rejection : Bytes → HttpReply

/-- Longer bodies are not read. -/
def bodyLimit : Nat := 2 * 1024 * 1024

/-- The extractor `Json<Envelope>`. -/
def Server.extract (server : Server) (body : Bytes) : Except HttpReply Envelope :=
  if body.length ≤ bodyLimit then
    match server.codec.readEnvelope body with
    | none => .error (server.rejection body)
    | some env => .ok env
  else .error (server.rejection body)

/-- `POST /v1/infer` -/
def Server.inferEndpoint (server : Server) (state : AppState) (body : Bytes) : Handler HttpReply :=
  match server.extract body with
  | .error reply => .done reply
  | .ok env => do
      let result ← infer state env
      return replyOf result

section Endpoint

variable {server : Server} {state : AppState} {body : Bytes} {env : Envelope}

theorem Server.extract_eq_ok_iff :
    server.extract body = .ok env ↔
      body.length ≤ bodyLimit ∧ server.codec.readEnvelope body = some env := by
  unfold extract
  split
  next short => cases server.codec.readEnvelope body <;> simp [short]
  next long => simp [long]

theorem Server.extract_toVec (faithful : server.codec.Faithful)
    (short : env.toVec.length ≤ bodyLimit) : server.extract env.toVec = .ok env :=
  extract_eq_ok_iff.mpr ⟨short, Codec.readEnvelope_toVec faithful env⟩

end Endpoint

end ZkLlmGateway.Gateway
