import ZkLlmGateway.Gateway.Endpoint
import ZkLlmGateway.Gateway.Payment
import ZkLlmGateway.Interaction.Interpret

/-!
# The relay

The relay reads an envelope, forwards it once and returns the envelope of the reply.
In front of a gateway it is the gateway itself, but for errors, which become one
constant text, and for replies that it does not wait for or that are lost.
-/

namespace ZkLlmGateway.Relay

open ZkLlmGateway.Encoding ZkLlmGateway.Common ZkLlmGateway.Interaction ZkLlmGateway.Gateway

/-! ## Forwarding -/

inductive Call
  | post (url : Text) (body : Bytes)

/-- How a forwarded request ends. -/
inductive Forwarded
  | timeout
  | ended (answer : HttpAnswer)

@[reducible]
def Answer : Call → Type
  | .post _ _ => Forwarded

inductive RelayError
  | timeout
  | unreachable
  | gatewayError
  deriving DecidableEq

def RelayError.message : RelayError → Text
  | timeout => text "gateway timeout"
  | unreachable => text "gateway unreachable"
  | gatewayError => text "gateway error"

def RelayError.status : RelayError → Nat
  | timeout => 504
  | unreachable => 502
  | gatewayError => 502

def RelayError.intoResponse (error : RelayError) : HttpReply :=
  ⟨error.status, utf8 error.message⟩

/-- What the relay makes of the answer. -/
def readForwarded (codec : Codec) : Forwarded → Except RelayError Envelope
  | .timeout => .error .timeout
  | .ended .sendFailed => .error .unreachable
  | .ended (.readFailed _) => .error .unreachable
  | .ended (.response status bytes) =>
      if isSuccess status then
        match codec.readEnvelope bytes with
        | none => .error .gatewayError
        | some out => .ok out
      else .error .gatewayError

def relay (codec : Codec) (gatewayUrl : Text) (env : Envelope) :
    Program Call Answer (Except RelayError Envelope) :=
  .call (.post gatewayUrl env.toVec) fun answer => .done (readForwarded codec answer)

def replyOf : Except RelayError Envelope → HttpReply
  | .ok env => ⟨200, env.toVec⟩
  | .error error => error.intoResponse

/-- `POST /relay` -/
def relayEndpoint (server : Server) (gatewayUrl : Text) (body : Bytes) :
    Program Call Answer HttpReply :=
  match server.extract body with
  | .error reply => .done reply
  | .ok env => do
      let result ← relay server.codec gatewayUrl env
      return replyOf result

/-! ## In front of a gateway -/

/-- How a request is lost to the relay. -/
inductive Loss
  | timeout
  | sendFailed
  | readFailed (status : Nat)

def Loss.forwarded : Loss → Forwarded
  | timeout => .timeout
  | sendFailed => .ended .sendFailed
  | readFailed status => .ended (.readFailed status)

/-- What the relay makes of a loss. -/
def Loss.relayError : Loss → RelayError
  | timeout => .timeout
  | sendFailed => .unreachable
  | readFailed _ => .unreachable

/-- The fate of a forwarded request: the reply arrives, or it is lost after some of the calls
of the gateway. -/
inductive Fate
  | arrives
  | lost (loss : Loss) (calls : Nat)

/-- A gateway with a network in front of it. -/
def gatewayAt (server : Server) (state : AppState) (fate : Fate) :
    (query : Call) → Program Gateway.Call Gateway.Answer (Answer query)
  | .post _ body =>
      match fate with
      | .arrives => do
          let reply ← server.inferEndpoint state body
          return .ended (.response reply.status reply.body)
      | .lost loss calls => do
          let _ ← (server.inferEndpoint state body).upTo calls
          return loss.forwarded

/-- The relay and the gateway behind it. -/
def relayed (server gateway : Server) (state : AppState) (fate : Fate) (gatewayUrl : Text)
    (body : Bytes) : Handler HttpReply :=
  (relayEndpoint server gatewayUrl body).interpret (gatewayAt gateway state fate)

/-- Only envelopes pass the relay. -/
def coarsen (reply : HttpReply) : HttpReply :=
  if isSuccess reply.status then reply else RelayError.gatewayError.intoResponse

section Transparency

variable {server gateway : Server} {state : AppState} {gatewayUrl : Text} {body : Bytes}
  {env : Envelope}

/-- The relay returns the gateway's envelopes. -/
theorem replyOf_readForwarded (faithful : server.codec.Faithful)
    (result : Except ApiError Envelope) :
    replyOf (readForwarded server.codec
      (.ended (.response (Gateway.replyOf result).status (Gateway.replyOf result).body))) =
      coarsen (Gateway.replyOf result) := by
  have success : isSuccess 200 = true ∧ isSuccess 400 = false ∧ isSuccess 500 = false := by decide
  obtain ⟨onOk, onBadRequest, onInternal⟩ := success
  rcases result with (error | error) | out
  · simp [Gateway.replyOf, ApiError.intoResponse, readForwarded, coarsen, replyOf, onBadRequest]
  · simp [Gateway.replyOf, ApiError.intoResponse, readForwarded, coarsen, replyOf, onInternal]
  · simp [Gateway.replyOf, readForwarded, coarsen, replyOf, onOk,
      Codec.readEnvelope_toVec faithful]

theorem replyOf_lost (codec : Codec) (loss : Loss) :
    replyOf (readForwarded codec loss.forwarded) = loss.relayError.intoResponse := by
  cases loss <;> rfl

/-- What is made of an envelope that both can extract. -/
theorem inferEndpoint_of_extract (extracted : gateway.extract body = .ok env) :
    gateway.inferEndpoint state body =
      (infer state env).bind fun result => .done (Gateway.replyOf result) := by
  rw [Server.inferEndpoint, extracted]
  rfl

/-- What a gateway behind the relay replies to an envelope that it extracts. -/
theorem relayed_of_extract (faithful : server.codec.Faithful)
    (extracted : server.extract body = .ok env)
    (forwarded : gateway.extract env.toVec = .ok env) :
    relayed server gateway state .arrives gatewayUrl body =
      (infer state env).bind fun result => .done (coarsen (Gateway.replyOf result)) := by
  have composed : relayed server gateway state .arrives gatewayUrl body =
      ((gateway.inferEndpoint state env.toVec).bind fun reply =>
        .done (.ended (.response reply.status reply.body))).bind fun answer =>
          .done (replyOf (readForwarded server.codec answer)) := by
    rw [relayed, relayEndpoint, extracted]
    rfl
  rw [composed, inferEndpoint_of_extract forwarded, Program.bind_assoc, Program.bind_assoc]
  simp only [Program.bind_done, replyOf_readForwarded faithful]

/-- A lost reply is the relay's own error, whatever the gateway has called. -/
theorem relayed_of_lost (loss : Loss) (calls : Nat) (extracted : server.extract body = .ok env) :
    relayed server gateway state (.lost loss calls) gatewayUrl body =
      ((gateway.inferEndpoint state env.toVec).upTo calls).bind fun _ =>
        .done loss.relayError.intoResponse := by
  have composed : relayed server gateway state (.lost loss calls) gatewayUrl body =
      (((gateway.inferEndpoint state env.toVec).upTo calls).bind fun _ =>
        .done loss.forwarded).bind fun answer =>
          .done (replyOf (readForwarded server.codec answer)) := by
    rw [relayed, relayEndpoint, extracted]
    rfl
  rw [composed, Program.bind_assoc]
  simp only [Program.bind_done, replyOf_lost]

end Transparency

/-- A server that answers what is no envelope with this status. -/
def plainServer (status : Nat) : Server where
  codec := .standard
  rejection _ := ⟨status, []⟩

end ZkLlmGateway.Relay
