import ZkLlmGateway.Gateway.Actum

/-!
# The start of the gateway

A gateway starts with the verifier that is named to it, and with none if none is named.
The verifier for development accepts every ticket that has a nullifier, so it is started
only where it is allowed; the one whose circuit is missing accepts none.
-/

namespace ZkLlmGateway.Gateway

open ZkLlmGateway.Encoding ZkLlmGateway.Common ZkLlmGateway.Interaction

/-! ## Verifiers -/

inductive ZkVerifierKind
  | dummy
  | halo2
  | actum
  deriving DecidableEq

/-- `DummyVerifier::verify` -/
def dummyVerify (ticket : ZkTicket) : Except ZkVerifyError VerifiedTicket :=
  if ticket.nullifier.isEmpty then .error .invalidProof
  else .ok ⟨ticket.tokenClass, ticket.nullifier⟩

/-- The verifier with its key and its parameters, which no proof is verified with yet. -/
structure Halo2PlonkVerifier where
  vkBytes : Bytes
  paramsBytes : Option Bytes

def Halo2PlonkVerifier.verify (_verifier : Halo2PlonkVerifier) (_ticket : ZkTicket) :
    Except ZkVerifyError VerifiedTicket :=
  .error (.internal
    (text "halo2 proof verification is not implemented; refusing to accept tickets"))

inductive Verifier
  | dummy
  | halo2 (verifier : Halo2PlonkVerifier)
  | actum (verifier : ActumVerifier)

namespace Verifier

def kind : Verifier → ZkVerifierKind
  | .dummy => .dummy
  | .halo2 _ => .halo2
  | .actum _ => .actum

def verify (library : Library) (ticket : ZkTicket) (context : VerificationContext) :
    Verifier → Program ServiceCall ServiceAnswer (Except ZkVerifyError VerifiedTicket)
  | .dummy => .done (dummyVerify ticket)
  | .halo2 verifier => .done (verifier.verify ticket)
  | .actum verifier => verifier.verify library ticket context

/-- The verifier verifies tickets, and all other calls stay as they are. -/
def serve (verifier : Verifier) (library : Library) :
    (query : Call) → Program ServiceCall ServiceAnswer (Answer query)
  | .verify ticket context => verifier.verify library ticket context
  | .now => .call (.gateway .now) .done
  | .compareAndSwap key old new => .call (.gateway (.compareAndSwap key old new)) .done
  | .get key => .call (.gateway (.get key)) .done
  | .flush => .call (.gateway .flush) .done
  | .post url bearer body => .call (.gateway (.post url bearer body)) .done
  | .fillNonce => .call (.gateway .fillNonce) .done

end Verifier

/-! ## Addresses -/

inductive IpAddr
  | v4 (a b c d : UInt8)
  | v6 (segments : Block 16)

def IpAddr.isLoopback : IpAddr → Bool
  | .v4 a _ _ _ => a = 127
  | .v6 segments => segments.val = List.replicate 15 0 ++ [1]

structure SocketAddr where
  ip : IpAddr
  port : UInt16

def isDummyBindAllowed (addr : SocketAddr) (allowNonLoopbackLocalDemo : Bool) : Bool :=
  addr.ip.isLoopback || allowNonLoopbackLocalDemo

/-! ## Arguments -/

structure Cli where
  listenAddr : Text
  gatewaySecretKeyB64 : Option Text
  dbPath : Text
  allowDummyVerifier : Bool
  allowDummyNonLoopbackLocalDemo : Bool
  zkVerifier : Option ZkVerifierKind
  halo2VkPath : Option Text
  halo2ParamsPath : Option Text
  actumVerifierUrl : Option Text
  actumVerifierBearerToken : Option Text
  actumAudience : Option Text
  actumAllowInsecureHttpLocalDev : Bool
  providerBaseUrl : Text
  providerApiKey : Option Text
  nullifierPendingTtlMs : UInt64
  corsAllowedOrigins : Text

structure Url where
  scheme : Text
  shown : Text

/-- What the gateway finds where it starts, and the library functions that it uses.  `halo2` tells
whether it is built with that feature. -/
structure Machine where
  halo2 : Bool
  library : Library
  primitives : Primitives
  aead : Aead primitives.Key
  parseAddr : Text → Option SocketAddr
  parseUrl : Text → Except Text Url
  readFile : Text → Except Text Bytes
  opensDb : Text → Bool
  buildsClient : Bool
  buildsCorsLayer : Text → Bool
  binds : SocketAddr → Bool
  showStatus : Nat → Text
  readVerifyResponse : Bytes → Except Text VerifyResponse

/-- Why a gateway does not start. -/
inductive StartError
  | secretKeyMissing
  | secretKeyBase64
  | secretKeyLength
  | listenAddr
  | zkVerifierMissing
  | dummyBind
  | openDb
  | dummyDisabled
  | halo2VkMissing
  | halo2Init
  | actumUrlMissing
  | actumTokenMissing
  | actumAudienceMissing
  | actumInit
  | httpClient
  | corsOrigin
  | bind
  deriving DecidableEq

/-- `Option::context` -/
def orFail {ε α : Type} (problem : ε) : Option α → Except ε α
  | none => .error problem
  | some value => .ok value

/-- Whatever the error is, this one is returned. -/
def context {ε ε' α : Type} (problem : ε') : Except ε α → Except ε' α
  | .error _ => .error problem
  | .ok value => .ok value

def require {ε : Type} (condition : Prop) [Decidable condition] (problem : ε) : Except ε Unit :=
  if condition then .ok () else .error problem

/-! ## The verifier of a start -/

def Halo2PlonkVerifier.new (machine : Machine) (verifyingKeyPath : Text)
    (paramsPath : Option Text) : Except Text Halo2PlonkVerifier :=
  if machine.halo2 then do
    let vkBytes ← machine.readFile verifyingKeyPath
    let paramsBytes ← match paramsPath with
      | none => .ok none
      | some path => (machine.readFile path).map some
    return ⟨vkBytes, paramsBytes⟩
  else
    .error (text "Halo2 verifier not enabled in this build. Recompile with --features halo2")

def ActumVerifier.new (machine : Machine) (endpoint bearerToken audience : Text)
    (allowInsecureHttp : Bool) : Except Text ActumVerifier := do
  let endpoint ← machine.parseUrl endpoint
  require (endpoint.scheme = text "https" ∨ allowInsecureHttp)
    (text "ACTUM_VERIFIER_URL must use https outside local development")
  require (bearerToken ≠ []) (text "ACTUM_VERIFIER_BEARER_TOKEN is required")
  require (audience ≠ []) (text "ACTUM_AUDIENCE is required")
  require machine.buildsClient (text "builder error")
  return {
    endpoint := endpoint.shown
    bearerToken := bearerToken
    audience := audience
    showStatus := machine.showStatus
    readResponse := machine.readVerifyResponse }

def selectVerifier (machine : Machine) (cli : Cli) :
    ZkVerifierKind → Except StartError Verifier
  | .dummy => if cli.allowDummyVerifier then .ok .dummy else .error .dummyDisabled
  | .halo2 => do
      let vkPath ← orFail .halo2VkMissing cli.halo2VkPath
      let verifier ← context .halo2Init
        (Halo2PlonkVerifier.new machine vkPath cli.halo2ParamsPath)
      return .halo2 verifier
  | .actum => do
      let url ← orFail .actumUrlMissing cli.actumVerifierUrl
      let bearerToken ← orFail .actumTokenMissing cli.actumVerifierBearerToken
      let audience ← orFail .actumAudienceMissing cli.actumAudience
      let verifier ← context .actumInit
        (ActumVerifier.new machine url bearerToken audience cli.actumAllowInsecureHttpLocalDev)
      return .actum verifier

/-! ## The start -/

/-- A gateway that listens, with its secret key and its verifier. -/
structure Listening where
  addr : SocketAddr
  keypair : GatewayKeypair
  verifier : Verifier

/-- `main` of a gateway that is not to generate keys, up to where it serves. -/
def start (machine : Machine) (cli : Cli) : Except StartError Listening := do
  let secretB64 ← orFail .secretKeyMissing cli.gatewaySecretKeyB64
  let secretBytes ← orFail .secretKeyBase64 (Base64.decode secretB64)
  let secret ← orFail .secretKeyLength (Block.ofBytes? 32 secretBytes)
  let addr ← orFail .listenAddr (machine.parseAddr cli.listenAddr)
  let kind ← orFail .zkVerifierMissing cli.zkVerifier
  require (kind = .dummy → isDummyBindAllowed addr cli.allowDummyNonLoopbackLocalDemo) .dummyBind
  require (machine.opensDb cli.dbPath) .openDb
  let verifier ← selectVerifier machine cli kind
  require machine.buildsClient .httpClient
  require (machine.buildsCorsLayer cli.corsAllowedOrigins) .corsOrigin
  require (machine.binds addr) .bind
  return ⟨addr, ⟨secret⟩, verifier⟩

/-- A gateway that has been started. -/
structure GatewayProcess where
  machine : Machine
  cli : Cli
  listening : Listening
  started : start machine cli = .ok listening

namespace GatewayProcess

def verifier (gateway : GatewayProcess) : Verifier :=
  gateway.listening.verifier

def state (gateway : GatewayProcess) : AppState where
  library := gateway.machine.library
  primitives := gateway.machine.primitives
  aead := gateway.machine.aead
  keypair := gateway.listening.keypair
  providerBaseUrl := gateway.cli.providerBaseUrl
  providerApiKey := gateway.cli.providerApiKey
  nullifierPendingTtlMs := gateway.cli.nullifierPendingTtlMs

end GatewayProcess

/-! ## What a started gateway has -/

/-- Where a verifier is started. -/
def Verifier.Started (machine : Machine) (cli : Cli) (addr : SocketAddr) : Verifier → Prop
  | .dummy => cli.allowDummyVerifier ∧
      (addr.ip.isLoopback ∨ cli.allowDummyNonLoopbackLocalDemo)
  | .halo2 _ => machine.halo2
  | .actum verifier => ∃ endpoint url,
      cli.actumVerifierUrl = some url ∧ machine.parseUrl url = .ok endpoint ∧
      (endpoint.scheme = text "https" ∨ cli.actumAllowInsecureHttpLocalDev) ∧
      verifier.endpoint = endpoint.shown ∧
      cli.actumVerifierBearerToken = some verifier.bearerToken ∧ verifier.bearerToken ≠ [] ∧
      cli.actumAudience = some verifier.audience ∧ verifier.audience ≠ []

section Start

variable {machine : Machine} {cli : Cli}

theorem orFail_eq_ok_iff {ε α : Type} {problem : ε} {found : Option α} {value : α} :
    orFail problem found = .ok value ↔ found = some value := by
  cases found <;> simp [orFail]

theorem context_eq_ok_iff {ε ε' α : Type} {problem : ε'} {outcome : Except ε α} {value : α} :
    context problem outcome = .ok value ↔ outcome = .ok value := by
  cases outcome <;> simp [context]

theorem require_eq_ok_iff {ε : Type} {condition : Prop} [Decidable condition] {problem : ε}
    {value : Unit} : require condition problem = .ok value ↔ condition := by
  unfold require
  split <;> simp [*]

/-- What the arguments of a verifier that is made were. -/
theorem ActumVerifier.of_new {url bearerToken audience : Text} {insecure : Bool}
    {verifier : ActumVerifier}
    (made : ActumVerifier.new machine url bearerToken audience insecure = .ok verifier) :
    ∃ endpoint, machine.parseUrl url = .ok endpoint ∧
      (endpoint.scheme = text "https" ∨ insecure) ∧ verifier.endpoint = endpoint.shown ∧
      verifier.bearerToken = bearerToken ∧ bearerToken ≠ [] ∧
      verifier.audience = audience ∧ audience ≠ [] := by
  simp only [ActumVerifier.new, bind_eq_ok_iff, require_eq_ok_iff] at made
  rcases made with ⟨endpoint, isUrl, _, secure, _, hasToken, _, hasAudience, _, _, returned⟩
  cases returned
  exact ⟨endpoint, isUrl, secure, rfl, rfl, hasToken, rfl, hasAudience⟩

theorem started_of_selectVerifier {kind : ZkVerifierKind} {verifier : Verifier} {addr : SocketAddr}
    (allowed : kind = .dummy → isDummyBindAllowed addr cli.allowDummyNonLoopbackLocalDemo)
    (selected : selectVerifier machine cli kind = .ok verifier) :
    verifier.kind = kind ∧ verifier.Started machine cli addr := by
  cases kind with
  | dummy =>
      rw [selectVerifier] at selected
      split at selected
      next dummyAllowed =>
        cases selected
        have bindAllowed := allowed rfl
        rw [isDummyBindAllowed, Bool.or_eq_true] at bindAllowed
        exact ⟨rfl, dummyAllowed, bindAllowed⟩
      next => cases selected
  | halo2 =>
      simp only [selectVerifier, bind_eq_ok_iff, orFail_eq_ok_iff, context_eq_ok_iff] at selected
      rcases selected with ⟨vkPath, _, verifier, made, returned⟩
      cases returned
      rw [Halo2PlonkVerifier.new] at made
      split at made
      next enabled => exact ⟨rfl, enabled⟩
      next => cases made
  | actum =>
      simp only [selectVerifier, bind_eq_ok_iff, orFail_eq_ok_iff, context_eq_ok_iff] at selected
      rcases selected with
        ⟨url, isUrl, bearerToken, isToken, audience, isAudience, verifier, made, returned⟩
      cases returned
      rcases ActumVerifier.of_new made with
        ⟨endpoint, parsed, secure, isEndpoint, rfl, hasToken, rfl, hasAudience⟩
      exact ⟨rfl, endpoint, url, isUrl, parsed, secure, isEndpoint, isToken, hasToken, isAudience,
        hasAudience⟩

/-- A gateway has the verifier that it was started with, where this may be. -/
theorem GatewayProcess.hasStarted (gateway : GatewayProcess) :
    gateway.cli.zkVerifier = some gateway.verifier.kind ∧
      gateway.verifier.Started gateway.machine gateway.cli gateway.listening.addr := by
  have started := gateway.started
  simp only [start, bind_eq_ok_iff, require_eq_ok_iff, orFail_eq_ok_iff] at started
  rcases started with ⟨_, _, _, _, secret, _, addr, _, kind, isKind, _, allowed, _, _, verifier,
    selected, _, _, _, _, _, _, returned⟩
  have listening := Except.ok.inj returned
  rcases started_of_selectVerifier allowed selected with ⟨isVerifier, isStarted⟩
  rw [GatewayProcess.verifier, ← listening, isVerifier]
  exact ⟨isKind, isStarted⟩

end Start

end ZkLlmGateway.Gateway
