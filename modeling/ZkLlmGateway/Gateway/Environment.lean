import ZkLlmGateway.Common.Envelope
import ZkLlmGateway.Interaction.Program

/-!
# What the gateway calls

The handler of a request runs between calls to the ticket verifier, the wall
clock, the nullifier store, the upstream provider and the random generator.
Each call suspends it, so that any number of handlers may interleave there.
-/

namespace ZkLlmGateway.Gateway

open ZkLlmGateway.Encoding ZkLlmGateway.Common ZkLlmGateway.Interaction

/-! ## Ticket verification -/

/-- Information returned by a ticket verifier on success. -/
structure VerifiedTicket where
  tokenClass : TokenClass
  nullifierKey : Bytes

inductive ZkVerifyError
  | invalidProof
  | internal (message : Text)

/-- Commitment to the exact request, excluding its ticket. -/
structure VerificationContext where
  requestCommitment : Bytes

/-! ## The upstream provider -/

structure ProviderChatCompletionRequest where
  model : Text
  messages : List ChatMessage
  maxTokens : Nat
  temperature : Option F32
  stream : Option Bool
  extra : List (Text × Json)

/-- How a request to the provider ends. -/
inductive HttpAnswer
  | sendFailed
  | readFailed (status : Nat)
  | response (status : Nat) (body : Bytes)

/-! ## The nullifier store -/

/-- An error of the store. -/
inductive StoreError
  | failed
  deriving DecidableEq

/-! ## Calls and answers -/

inductive Call
  | verify (ticket : ZkTicket) (context : VerificationContext)
  | now
  | compareAndSwap (key : Bytes) (old new : Option Bytes)
  | get (key : Bytes)
  | flush
  | post (url : Text) (bearer : Option Text) (body : ProviderChatCompletionRequest)
  | fillNonce

/-- A swap answers whether the old value was found. -/
@[reducible]
def Answer : Call → Type
  | .verify _ _ => Except ZkVerifyError VerifiedTicket
  | .now => UInt64
  | .compareAndSwap _ _ _ => Except StoreError Bool
  | .get _ => Except StoreError (Option Bytes)
  | .flush => Except StoreError Unit
  | .post _ _ _ => HttpAnswer
  | .fillNonce => Block 12

/-- Code of the gateway that returns an `α`. -/
abbrev Handler (α : Type) := Program Call Answer α

/-- `db.compare_and_swap` -/
def compareAndSwap (key : Bytes) (old new : Option Bytes) : Handler (Except StoreError Bool) :=
  .call (.compareAndSwap key old new) .done

/-- `db.get` -/
def getValue (key : Bytes) : Handler (Except StoreError (Option Bytes)) :=
  .call (.get key) .done

/-- `db.flush` -/
def flush : Handler (Except StoreError Unit) :=
  .call .flush .done

def nowMsU64 : Handler UInt64 :=
  .call .now .done

/-- Twelve random bytes. -/
def fillNonce : Handler (Block 12) :=
  .call .fillNonce .done

/-- Library functions the gateway uses: SHA-256, SHAKE256 and the JSON readers. -/
structure Library where
  sha256 : Bytes → Bytes
  shake256 : Bytes → Block 48
  readJson : Bytes → Option Json
  readRequest : Bytes → Except Text InferenceRequest

/-- The state the handlers share. -/
structure AppState where
  library : Library
  primitives : Primitives
  aead : Aead primitives.Key
  keypair : GatewayKeypair
  providerBaseUrl : Text
  providerApiKey : Option Text
  nullifierPendingTtlMs : UInt64

end ZkLlmGateway.Gateway
