import ZkLlmGateway.Common.Envelope
import ZkLlmGateway.Transition.System

/-!
# Envelopes against a hostile relay

Any number of clients seal requests, one gateway opens what reaches it and
seals responses, and a relay carries every envelope: it may keep, drop, repeat,
reflect and edit them, so the gateway and the clients are given arbitrary
envelopes.  Encryption is ideal: a ciphertext is opened only under the key, the
nonce and the associated data it was produced under.  The associated data
carries the whole transcript, so neither the hash nor the key derivation has to
be injective.
-/

namespace ZkLlmGateway.Common

open ZkLlmGateway.Encoding ZkLlmGateway.Transition

/-! ## The associated data binds the transcript -/

theorem bindingMaterial_injective {label : Bytes} {version : UInt8} :
    Function.Injective (bindingMaterial label version) := by
  intro left right equal
  have idLength : ∀ id : Uuid, (utf8 (Uuid.toText id)).length = 36 := by
    intro id
    rw [length_utf8, (Uuid.plain_toText id).byteLen_eq, Uuid.length_toText]
  obtain ⟨leftClass, leftId, leftNonce, leftEph, leftGateway⟩ := left
  obtain ⟨rightClass, rightId, rightNonce, rightEph, rightGateway⟩ := right
  simp only [bindingMaterial, List.append_cancel_left_eq, List.cons.injEq, true_and] at equal
  obtain ⟨sameClass, rest⟩ := equal
  obtain ⟨sameId, rest⟩ := List.append_inj rest (by rw [idLength, idLength])
  obtain ⟨sameNonce, rest⟩ := List.append_inj rest
    (leftNonce.property.trans rightNonce.property.symm)
  obtain ⟨sameEph, sameGateway⟩ := List.append_inj rest
    (leftEph.property.trans rightEph.property.symm)
  simp only [Transcript.mk.injEq]
  exact ⟨TokenClass.idU8_injective sameClass, Uuid.toText_injective (utf8_injective sameId),
    Subtype.ext sameNonce, Subtype.ext sameEph, Subtype.ext sameGateway⟩

/-- Equal associated data: one direction, one transcript. -/
theorem aadBytes_inj {version : UInt8} {leftDirection rightDirection : KeyDirection}
    {left right : Transcript}
    (equal : aadBytes version leftDirection left = aadBytes version rightDirection right) :
    leftDirection = rightDirection ∧ left = right := by
  obtain ⟨material, direction⟩ := List.append_inj' equal
    (by cases leftDirection <;> cases rightDirection <;> rfl)
  refine ⟨?_, bindingMaterial_injective material⟩
  cases leftDirection <;> cases rightDirection <;> first | rfl | contradiction

/-! ## Ideal encryption -/

/-- One encryption that was performed. -/
structure Sealing (Key : Type) where
  key : Key
  nonce : Block 12
  aad : Bytes
  message : Bytes
  ciphertext : Bytes

/-- The cipher that knows the encryptions of a log and no others. -/
def Aead.ofLog {Key : Type} [DecidableEq Key] (log : List (Sealing Key)) : Aead Key where
  encrypt key nonce aad message :=
    (log.find? fun sealing => sealing.key = key ∧ sealing.nonce = nonce ∧ sealing.aad = aad ∧
      sealing.message = message).map Sealing.ciphertext
  decrypt key nonce aad ciphertext :=
    (log.find? fun sealing => sealing.key = key ∧ sealing.nonce = nonce ∧ sealing.aad = aad ∧
      sealing.ciphertext = ciphertext).map Sealing.message

section Log

variable {Key : Type} [DecidableEq Key] {key : Key} {nonce : Block 12}
  {aad message ciphertext : Bytes}

/-- What opens was sealed. -/
theorem Aead.mem_of_decrypt_ofLog {log : List (Sealing Key)}
    (opened : (Aead.ofLog log).decrypt key nonce aad ciphertext = some message) :
    ∃ sealing ∈ log, sealing.key = key ∧ sealing.nonce = nonce ∧ sealing.aad = aad ∧
      sealing.ciphertext = ciphertext := by
  obtain ⟨sealing, found, _⟩ := Option.map_eq_some_iff.mp opened
  have matched := List.find?_some found
  simp only [decide_eq_true_eq] at matched
  exact ⟨sealing, List.mem_of_find?_eq_some found, matched⟩

/-- The last encryption of a log opens. -/
theorem Aead.decrypt_ofLog_cons (sealing : Sealing Key) (log : List (Sealing Key)) :
    (Aead.ofLog (sealing :: log)).decrypt sealing.key sealing.nonce sealing.aad
      sealing.ciphertext = some sealing.message := by
  simp [Aead.ofLog]

/-- A log of one encryption answers for that one. -/
theorem Aead.encrypt_ofLog_singleton {sealing : Sealing Key}
    (encrypted : (Aead.ofLog [sealing]).encrypt key nonce aad message = some ciphertext) :
    sealing = ⟨key, nonce, aad, message, ciphertext⟩ := by
  obtain ⟨entry, found, rfl⟩ := Option.map_eq_some_iff.mp encrypted
  have matched := List.find?_some found
  simp only [decide_eq_true_eq] at matched
  obtain ⟨rfl, rfl, rfl, rfl⟩ := matched
  exact (List.mem_singleton.mp (List.mem_of_find?_eq_some found)).symm

theorem Aead.encrypt_ofLog_self (sealing : Sealing Key) :
    (Aead.ofLog [sealing]).encrypt sealing.key sealing.nonce sealing.aad sealing.message =
      some sealing.ciphertext := by
  simp [Aead.ofLog]

end Log

/-! ## The network -/

/-- What has happened: the encryptions, the calls of `sealRequestForGateway`
with what they returned, the envelopes the gateway opened, and the responses it
sealed, each with the request envelope it answers. -/
structure Network (Key : Type) where
  log : List (Sealing Key)
  calls : List (Envelope × ClientCryptoContext)
  accepted : List Envelope
  responses : List (Envelope × Envelope)

/-- A step of a client, of the gateway or of the relay.  Each encryption is an
argument, to be the one the code asks for. -/
inductive NetworkEvent (Key : Type)
  | sealRequest (ephSecret clientNonce : Block 32) (nonce : Block 12)
      (gatewayPublicBytes : Block 32) (tokenClass : TokenClass) (requestId : Uuid)
      (plaintextJson : Bytes) (sealing : Sealing Key)
  | openRequest (env : Envelope)
  | sealResponse (requestEnv : Envelope) (nonce : Block 12) (plaintextJson : Bytes)
      (sealing : Sealing Key)
  | relaySeal (sealing : Sealing Key)

section Network

variable (primitives : Primitives) [DecidableEq primitives.Key] (keypair : GatewayKeypair)

/-- A client seals for any public key, the gateway opens any envelope and
answers what it opened, and the relay encrypts what it likes. -/
def Network.step (net : Network primitives.Key) :
    NetworkEvent primitives.Key → Option (Network primitives.Key)
  | .sealRequest ephSecret clientNonce nonce gatewayPublicBytes tokenClass requestId plaintextJson
      sealing =>
      match sealRequestForGateway primitives (.ofLog [sealing]) ephSecret clientNonce nonce
          gatewayPublicBytes tokenClass requestId plaintextJson with
      | .error _ => none
      | .ok call => some { net with log := sealing :: net.log, calls := call :: net.calls }
  | .openRequest env =>
      match openRequestAtGateway primitives (.ofLog net.log) keypair env with
      | .error _ => none
      | .ok _ => some { net with accepted := env :: net.accepted }
  | .sealResponse requestEnv nonce plaintextJson sealing =>
      if requestEnv ∈ net.accepted then
        match sealResponseAtGateway primitives (.ofLog [sealing]) nonce keypair requestEnv
            plaintextJson with
        | .error _ => none
        | .ok env => some { net with
            log := sealing :: net.log, responses := (requestEnv, env) :: net.responses }
      else none
  | .relaySeal sealing => some { net with log := sealing :: net.log }

def Network.system : System (Network primitives.Key) (NetworkEvent primitives.Key) where
  init net := net = ⟨[], [], [], []⟩
  step := Network.step primitives keypair

/-- A key that the gateway and the owner of an ephemeral key derive from the
secret they share. -/
def SessionKey (key : primitives.Key) : Prop :=
  ∃ direction transcript, transcript.gatewayPub = keypair.publicBytes primitives ∧
    key = deriveKey primitives (primitives.diffieHellman keypair.secret transcript.ephPub)
      direction transcript

/-- A ciphertext belongs to one key, nonce and associated data. -/
def Network.Fresh {Key : Type} (net : Network Key) (sealing : Sealing Key) : Prop :=
  ∀ earlier ∈ net.log, earlier.ciphertext = sealing.ciphertext →
    earlier.key = sealing.key ∧ earlier.nonce = sealing.nonce ∧ earlier.aad = sealing.aad

/-- The ideal model: ciphertexts are fresh, and a Diffie-Hellman secret of the
gateway is known only to its two ends, so that no ephemeral key is drawn twice
and the relay has no session key. -/
def Ideal (net : Network primitives.Key) : NetworkEvent primitives.Key → Prop
  | .sealRequest ephSecret _ _ _ _ _ _ sealing =>
      net.Fresh sealing ∧ ∀ call ∈ net.calls, call.2.ephPubBytes ≠ primitives.publicKey ephSecret
  | .openRequest _ => True
  | .sealResponse _ _ _ sealing => net.Fresh sealing
  | .relaySeal sealing => net.Fresh sealing ∧ ¬SessionKey primitives keypair sealing.key

/-! ## What every encryption is -/

/-- Where an encryption of the log comes from. -/
inductive Network.Origin (net : Network primitives.Key) (sealing : Sealing primitives.Key) : Prop
  | request (env : Envelope) (context : ClientCryptoContext) :
      (env, context) ∈ net.calls →
      sealing.aad = aadBytes Envelope.VERSION .request context.transcript →
      env.Carries context.transcript → env.Holds sealing.nonce sealing.ciphertext →
      Origin net sealing
  | response (requestEnv env : Envelope) (transcript : Transcript) :
      (requestEnv, env) ∈ net.responses →
      sealing.aad = aadBytes Envelope.VERSION .response transcript →
      env.Carries transcript → env.Holds sealing.nonce sealing.ciphertext →
      Origin net sealing
  | relay : ¬SessionKey primitives keypair sealing.key → Origin net sealing

/-- A call of `sealRequestForGateway`: its envelope carries the transcript of
its context, and its ciphertext is in the log. -/
structure Network.Called (net : Network primitives.Key) (env : Envelope)
    (context : ClientCryptoContext) : Prop where
  ephPub : context.ephPubBytes = primitives.publicKey context.ephSecretBytes
  carries : env.Carries context.transcript
  logged : ∃ sealing ∈ net.log,
    sealing.aad = aadBytes Envelope.VERSION .request context.transcript ∧
      env.Holds sealing.nonce sealing.ciphertext

/-- A response of the gateway carries the transcript of the request it answers. -/
structure Network.Responded (net : Network primitives.Key) (requestEnv env : Envelope) :
    Prop where
  accepted : requestEnv ∈ net.accepted
  carries : ∃ transcript, transcript.gatewayPub = keypair.publicBytes primitives ∧
    requestEnv.Carries transcript ∧ env.Carries transcript

/-- What holds on the network at any time. -/
structure Network.Consistent (net : Network primitives.Key) : Prop where
  origin : ∀ sealing ∈ net.log, net.Origin primitives keypair sealing
  unique : ∀ first ∈ net.log, net.Fresh first
  called : ∀ env context, (env, context) ∈ net.calls → net.Called primitives env context
  distinct : ∀ first ∈ net.calls, ∀ second ∈ net.calls,
    first.2.ephPubBytes = second.2.ephPubBytes → first = second
  accepted : ∀ env ∈ net.accepted, ∃ context, (env, context) ∈ net.calls ∧
    context.gatewayPublicBytes = keypair.publicBytes primitives
  responded : ∀ requestEnv env, (requestEnv, env) ∈ net.responses →
    net.Responded primitives keypair requestEnv env

end Network

section Consistency

variable {primitives : Primitives} {keypair : GatewayKeypair} {net : Network primitives.Key}

theorem Network.Origin.mono {next : Network primitives.Key} {sealing : Sealing primitives.Key}
    (calls : net.calls ⊆ next.calls) (responses : net.responses ⊆ next.responses)
    (origin : net.Origin primitives keypair sealing) : next.Origin primitives keypair sealing := by
  cases origin with
  | request env context called aad carries holds =>
      exact .request env context (calls called) aad carries holds
  | response requestEnv env transcript responded aad carries holds =>
      exact .response requestEnv env transcript (responses responded) aad carries holds
  | relay foreign => exact .relay foreign

theorem Network.Called.mono {next : Network primitives.Key} {env : Envelope}
    {context : ClientCryptoContext} (log : net.log ⊆ next.log)
    (called : net.Called primitives env context) : next.Called primitives env context := by
  obtain ⟨sealing, member, aad, holds⟩ := called.logged
  exact ⟨called.ephPub, called.carries, sealing, log member, aad, holds⟩

/-- One more fresh encryption keeps every ciphertext under one key. -/
theorem Network.unique_cons (consistent : net.Consistent primitives keypair)
    {sealing : Sealing primitives.Key} (fresh : net.Fresh sealing) {next : Network primitives.Key}
    (log : next.log = sealing :: net.log) : ∀ first ∈ next.log, next.Fresh first := by
  intro first firstMember second secondMember same
  rw [log, List.mem_cons] at firstMember secondMember
  rcases firstMember with rfl | firstMember
  · rcases secondMember with rfl | secondMember
    · exact ⟨rfl, rfl, rfl⟩
    · exact fresh second secondMember same
  · rcases secondMember with rfl | secondMember
    · obtain ⟨key, nonce, aad⟩ := fresh first firstMember same.symm
      exact ⟨key.symm, nonce.symm, aad.symm⟩
    · exact consistent.unique first firstMember second secondMember same

/-- A response that carries the transcript of a call answers that call. -/
theorem Network.Consistent.answers_own (consistent : net.Consistent primitives keypair)
    {requestEnv answered env : Envelope} {context : ClientCryptoContext}
    (called : (requestEnv, context) ∈ net.calls)
    (gateway : context.gatewayPublicBytes = keypair.publicBytes primitives)
    (responded : (answered, env) ∈ net.responses) (carries : env.Carries context.transcript) :
    answered = requestEnv := by
  obtain ⟨accepted, transcript, ofGateway, answeredCarries, envCarries⟩ :=
    consistent.responded _ _ responded
  obtain ⟨other, otherCalled, otherGateway⟩ := consistent.accepted _ accepted
  have first : transcript = context.transcript :=
    envCarries.transcript_unique carries (ofGateway.trans gateway.symm)
  subst first
  have second : context.transcript = other.transcript :=
    answeredCarries.transcript_unique (consistent.called _ _ otherCalled).carries
      (gateway.trans otherGateway.symm)
  have sameCall := consistent.distinct _ called _ otherCalled (congrArg Transcript.ephPub second)
  exact (congrArg Prod.fst sameCall).symm

/-- The relay encrypts under a key that is not a session key. -/
theorem Network.Consistent.relaySeal (consistent : net.Consistent primitives keypair)
    {sealing : Sealing primitives.Key} (fresh : net.Fresh sealing)
    (foreign : ¬SessionKey primitives keypair sealing.key) :
    Consistent primitives keypair { net with log := sealing :: net.log } := by
  refine ⟨?_, Network.unique_cons consistent fresh rfl, ?_, consistent.distinct,
    consistent.accepted, ?_⟩
  · intro earlier member
    rcases List.mem_cons.mp member with rfl | before
    · exact .relay foreign
    · exact (consistent.origin _ before).mono (List.Subset.refl net.calls)
        (List.Subset.refl net.responses)
  · intro other context member
    exact (consistent.called _ _ member).mono (List.subset_cons_self _ _)
  · intro answered other member
    obtain ⟨accepted, transcripts⟩ := consistent.responded _ _ member
    exact ⟨accepted, transcripts⟩

variable [DecidableEq primitives.Key]

/-- An envelope that opens at the gateway is that of one call for its key. -/
theorem Network.Consistent.call_of_opened (consistent : net.Consistent primitives keypair)
    {env : Envelope} {plaintext : Bytes}
    (opened : openRequestAtGateway primitives (.ofLog net.log) keypair env = .ok plaintext) :
    ∃ context, (env, context) ∈ net.calls ∧
      context.gatewayPublicBytes = keypair.publicBytes primitives := by
  obtain ⟨transcript, carries, gateway, _, nonce, ciphertext, padded, holds, decrypted, _⟩ :=
    openRequestAtGateway_eq_ok_iff.mp opened
  obtain ⟨sealing, member, sealedKey, rfl, sealedAad, rfl⟩ := Aead.mem_of_decrypt_ofLog decrypted
  cases consistent.origin _ member with
  | request sealedEnv context called aad sealedCarries sealedHolds =>
      obtain ⟨_, rfl⟩ := aadBytes_inj (sealedAad.symm.trans aad)
      have same : env = sealedEnv :=
        Envelope.eq_of_carries_holds carries holds sealedCarries sealedHolds
      subst same
      exact ⟨context, called, gateway⟩
  | response requestEnv sealedEnv other responded aad =>
      obtain ⟨direction, _⟩ := aadBytes_inj (sealedAad.symm.trans aad)
      contradiction
  | relay foreign => exact absurd ⟨.request, transcript, gateway, sealedKey⟩ foreign

/-- A response that opens for a client of the gateway was sealed for its call. -/
theorem Network.Consistent.response_of_opened (consistent : net.Consistent primitives keypair)
    (agreement : ∀ left right, primitives.diffieHellman left (primitives.publicKey right) =
      primitives.diffieHellman right (primitives.publicKey left))
    {requestEnv env : Envelope} {context : ClientCryptoContext} {plaintext : Bytes}
    (called : (requestEnv, context) ∈ net.calls)
    (gateway : context.gatewayPublicBytes = keypair.publicBytes primitives)
    (opened : openResponse primitives (.ofLog net.log) context env = .ok plaintext) :
    ∃ sealing ∈ net.log, sealing.aad = aadBytes Envelope.VERSION .response context.transcript ∧
      env.Holds sealing.nonce sealing.ciphertext ∧
      ∃ answered, (answered, env) ∈ net.responses := by
  obtain ⟨carries, _, nonce, ciphertext, padded, holds, decrypted, _⟩ :=
    openResponse_eq_ok_iff.mp opened
  obtain ⟨sealing, member, sealedKey, rfl, sealedAad, rfl⟩ := Aead.mem_of_decrypt_ofLog decrypted
  refine ⟨sealing, member, sealedAad, holds, ?_⟩
  cases consistent.origin _ member with
  | request sealedEnv other called aad =>
      obtain ⟨direction, _⟩ := aadBytes_inj (sealedAad.symm.trans aad)
      contradiction
  | response answered sealedEnv transcript responded aad sealedCarries sealedHolds =>
      obtain ⟨_, rfl⟩ := aadBytes_inj (sealedAad.symm.trans aad)
      have same : env = sealedEnv :=
        Envelope.eq_of_carries_holds carries holds sealedCarries sealedHolds
      subst same
      exact ⟨answered, responded⟩
  | relay foreign =>
      have secret : primitives.diffieHellman context.ephSecretBytes context.gatewayPublicBytes =
          primitives.diffieHellman keypair.secret context.ephPubBytes := by
        rw [gateway, (consistent.called _ _ called).ephPub]
        exact agreement _ _
      rw [secret] at sealedKey
      exact absurd ⟨.response, context.transcript, gateway, sealedKey⟩ foreign

/-! ## Every step keeps the network consistent -/

/-- A client's call. -/
theorem Network.Consistent.sealRequest (consistent : net.Consistent primitives keypair)
    {ephSecret clientNonce : Block 32} {nonce : Block 12} {gatewayPublicBytes : Block 32}
    {tokenClass : TokenClass} {requestId : Uuid} {plaintextJson : Bytes}
    {sealing : Sealing primitives.Key} {call : Envelope × ClientCryptoContext}
    (fresh : net.Fresh sealing)
    (unused : ∀ earlier ∈ net.calls, earlier.2.ephPubBytes ≠ primitives.publicKey ephSecret)
    (requested : sealRequestForGateway primitives (.ofLog [sealing]) ephSecret clientNonce nonce
      gatewayPublicBytes tokenClass requestId plaintextJson = .ok call) :
    Consistent primitives keypair
      { net with log := sealing :: net.log, calls := call :: net.calls } := by
  obtain ⟨env, context⟩ := call
  obtain ⟨rfl, carries, _, padded, ciphertext, _, encrypted, holds⟩ :=
    sealRequestForGateway_eq_ok_iff.mp requested
  obtain rfl := Aead.encrypt_ofLog_singleton encrypted
  refine ⟨?_, Network.unique_cons consistent fresh rfl, ?_, ?_, ?_, ?_⟩
  · intro earlier member
    rcases List.mem_cons.mp member with rfl | before
    · exact .request _ _ List.mem_cons_self rfl carries holds
    · exact (consistent.origin _ before).mono (List.subset_cons_self _ _)
        (List.Subset.refl net.responses)
  · intro other otherContext member
    rcases List.mem_cons.mp member with equal | before
    · cases equal
      exact ⟨rfl, carries, _, List.mem_cons_self, rfl, holds⟩
    · exact (consistent.called _ _ before).mono (List.subset_cons_self _ _)
  · intro first firstMember second secondMember same
    rcases List.mem_cons.mp firstMember with rfl | firstBefore
    · rcases List.mem_cons.mp secondMember with rfl | secondBefore
      · rfl
      · exact absurd same.symm (unused _ secondBefore)
    · rcases List.mem_cons.mp secondMember with rfl | secondBefore
      · exact absurd same (unused _ firstBefore)
      · exact consistent.distinct _ firstBefore _ secondBefore same
  · intro other member
    obtain ⟨otherContext, called, gateway⟩ := consistent.accepted _ member
    exact ⟨otherContext, List.mem_cons_of_mem _ called, gateway⟩
  · intro answered other member
    obtain ⟨accepted, transcripts⟩ := consistent.responded _ _ member
    exact ⟨accepted, transcripts⟩

/-- The gateway opens an envelope. -/
theorem Network.Consistent.openRequest (consistent : net.Consistent primitives keypair)
    {env : Envelope} {plaintext : Bytes}
    (opened : openRequestAtGateway primitives (.ofLog net.log) keypair env = .ok plaintext) :
    Consistent primitives keypair { net with accepted := env :: net.accepted } := by
  refine ⟨?_, consistent.unique, ?_, consistent.distinct, ?_, ?_⟩
  · intro sealing member
    exact (consistent.origin _ member).mono (List.Subset.refl net.calls)
      (List.Subset.refl net.responses)
  · intro other context member
    exact (consistent.called _ _ member).mono (List.Subset.refl net.log)
  · intro other member
    rcases List.mem_cons.mp member with rfl | before
    · exact consistent.call_of_opened opened
    · exact consistent.accepted _ before
  · intro answered other member
    obtain ⟨accepted, transcripts⟩ := consistent.responded _ _ member
    exact ⟨List.mem_cons_of_mem _ accepted, transcripts⟩

/-- The gateway answers an envelope it opened. -/
theorem Network.Consistent.sealResponse (consistent : net.Consistent primitives keypair)
    {requestEnv env : Envelope} {nonce : Block 12} {plaintextJson : Bytes}
    {sealing : Sealing primitives.Key} (fresh : net.Fresh sealing)
    (accepted : requestEnv ∈ net.accepted)
    (responded : sealResponseAtGateway primitives (.ofLog [sealing]) nonce keypair requestEnv
      plaintextJson = .ok env) :
    Consistent primitives keypair
      { net with log := sealing :: net.log, responses := (requestEnv, env) :: net.responses } := by
  obtain ⟨transcript, requestCarries, carries, gateway, _, padded, ciphertext, _, encrypted,
    holds⟩ := sealResponseAtGateway_eq_ok_iff.mp responded
  obtain rfl := Aead.encrypt_ofLog_singleton encrypted
  refine ⟨?_, Network.unique_cons consistent fresh rfl, ?_, consistent.distinct,
    consistent.accepted, ?_⟩
  · intro earlier member
    rcases List.mem_cons.mp member with rfl | before
    · exact .response _ _ _ List.mem_cons_self rfl carries holds
    · exact (consistent.origin _ before).mono (List.Subset.refl net.calls)
        (List.subset_cons_self _ _)
  · intro other context member
    exact (consistent.called _ _ member).mono (List.subset_cons_self _ _)
  · intro answered other member
    rcases List.mem_cons.mp member with equal | before
    · cases equal
      exact ⟨accepted, transcript, gateway, requestCarries, carries⟩
    · obtain ⟨earlier, transcripts⟩ := consistent.responded _ _ before
      exact ⟨earlier, transcripts⟩

theorem Network.consistent_of_reachable
    (reachable : (Network.system primitives keypair).Reachable (Ideal primitives keypair) net) :
    net.Consistent primitives keypair := by
  apply reachable.invariant
  · rintro _ rfl
    constructor <;> simp
  · intro before event after consistent ideal stepped
    cases event with
    | sealRequest ephSecret clientNonce nonce gatewayPublicBytes tokenClass requestId plaintextJson
        sealing =>
        simp only [Network.system, Network.step] at stepped
        split at stepped
        next => contradiction
        next call requested =>
          cases stepped
          exact consistent.sealRequest ideal.1 ideal.2 requested
    | openRequest env =>
        simp only [Network.system, Network.step] at stepped
        split at stepped
        next => contradiction
        next plaintext opened =>
          cases stepped
          exact consistent.openRequest opened
    | sealResponse requestEnv nonce plaintextJson sealing =>
        simp only [Network.system, Network.step] at stepped
        split at stepped
        next accepted =>
          split at stepped
          next => contradiction
          next env responded =>
            cases stepped
            exact consistent.sealResponse ideal accepted responded
        next => contradiction
    | relaySeal sealing =>
        cases stepped
        exact consistent.relaySeal ideal.1 ideal.2

/-- **End-to-end binding.**  In the ideal model, whatever the relay does: an
envelope opens at the gateway only if it is, in every field, the envelope of a
`sealRequestForGateway` call for the gateway's key; an envelope opens as the
response to a client's call only if the gateway sealed it as the response to
the envelope of that very call; no request envelope opens as a response; and a
response does not open under the context of another request. -/
theorem bound_end_to_end
    (agreement : ∀ left right, primitives.diffieHellman left (primitives.publicKey right) =
      primitives.diffieHellman right (primitives.publicKey left))
    (reachable : (Network.system primitives keypair).Reachable (Ideal primitives keypair) net) :
    (∀ env plaintext,
      openRequestAtGateway primitives (.ofLog net.log) keypair env = .ok plaintext →
        ∃ context, (env, context) ∈ net.calls ∧
          context.gatewayPublicBytes = keypair.publicBytes primitives) ∧
    ∀ requestEnv context, (requestEnv, context) ∈ net.calls →
      context.gatewayPublicBytes = keypair.publicBytes primitives →
      ∀ env plaintext, openResponse primitives (.ofLog net.log) context env = .ok plaintext →
        (requestEnv, env) ∈ net.responses ∧
        (∀ otherContext, (env, otherContext) ∉ net.calls) ∧
        (∀ otherEnv, (otherEnv, env) ∈ net.responses → otherEnv = requestEnv) := by
  have consistent := Network.consistent_of_reachable reachable
  constructor
  · intro env plaintext opened
    exact consistent.call_of_opened opened
  · intro requestEnv context called gateway env plaintext opened
    have carries : env.Carries context.transcript := (openResponse_eq_ok_iff.mp opened).1
    obtain ⟨sealing, member, aad, holds, answered, responded⟩ :=
      consistent.response_of_opened agreement called gateway opened
    have own : ∀ otherEnv, (otherEnv, env) ∈ net.responses → otherEnv = requestEnv :=
      fun otherEnv other => consistent.answers_own called gateway other carries
    refine ⟨own answered responded ▸ responded, ?_, own⟩
    intro otherContext otherCalled
    obtain ⟨requestSealing, requestMember, requestAad, requestHolds⟩ :=
      (consistent.called _ _ otherCalled).logged
    have ciphertext : requestSealing.ciphertext = sealing.ciphertext :=
      Base64.encode_injective (requestHolds.ciphertext.symm.trans holds.ciphertext)
    have sameAad := (consistent.unique _ member _ requestMember ciphertext).2.2
    rw [aad, requestAad] at sameAad
    obtain ⟨direction, _⟩ := aadBytes_inj sameAad
    contradiction

/-! ## One exchange -/

theorem reachable_sealRequest {ephSecret clientNonce : Block 32} {nonce : Block 12}
    {gatewayPublicBytes : Block 32} {tokenClass : TokenClass} {requestId : Uuid}
    {plaintextJson : Bytes} {sealing : Sealing primitives.Key}
    {call : Envelope × ClientCryptoContext}
    (reachable : (Network.system primitives keypair).Reachable (Ideal primitives keypair) net)
    (fresh : net.Fresh sealing)
    (unused : ∀ earlier ∈ net.calls, earlier.2.ephPubBytes ≠ primitives.publicKey ephSecret)
    (requested : sealRequestForGateway primitives (.ofLog [sealing]) ephSecret clientNonce nonce
      gatewayPublicBytes tokenClass requestId plaintextJson = .ok call) :
    (Network.system primitives keypair).Reachable (Ideal primitives keypair)
      { net with log := sealing :: net.log, calls := call :: net.calls } := by
  have allowed : Ideal primitives keypair net (.sealRequest ephSecret clientNonce nonce
      gatewayPublicBytes tokenClass requestId plaintextJson sealing) := ⟨fresh, unused⟩
  apply reachable.next allowed
  simp only [Network.system, Network.step, requested]

theorem reachable_openRequest {env : Envelope} {plaintext : Bytes}
    (reachable : (Network.system primitives keypair).Reachable (Ideal primitives keypair) net)
    (opened : openRequestAtGateway primitives (.ofLog net.log) keypair env = .ok plaintext) :
    (Network.system primitives keypair).Reachable (Ideal primitives keypair)
      { net with accepted := env :: net.accepted } := by
  have allowed : Ideal primitives keypair net (.openRequest env) := trivial
  apply reachable.next allowed
  simp only [Network.system, Network.step, opened]

theorem reachable_sealResponse {requestEnv env : Envelope} {nonce : Block 12}
    {plaintextJson : Bytes} {sealing : Sealing primitives.Key}
    (reachable : (Network.system primitives keypair).Reachable (Ideal primitives keypair) net)
    (fresh : net.Fresh sealing) (accepted : requestEnv ∈ net.accepted)
    (responded : sealResponseAtGateway primitives (.ofLog [sealing]) nonce keypair requestEnv
      plaintextJson = .ok env) :
    (Network.system primitives keypair).Reachable (Ideal primitives keypair)
      { net with
        log := sealing :: net.log, responses := (requestEnv, env) :: net.responses } := by
  have allowed : Ideal primitives keypair net
      (.sealResponse requestEnv nonce plaintextJson sealing) := fresh
  apply reachable.next allowed
  simp only [Network.system, Network.step, responded, if_pos accepted]

end Consistency

def exchangeKeypair : GatewayKeypair :=
  ⟨Block.replicate 32 1⟩

def exchangeContext : ClientCryptoContext where
  ephSecretBytes := Block.replicate 32 0
  ephPubBytes := Block.replicate 32 0
  gatewayPublicBytes := Block.replicate 32 1
  clientNonceBytes := Block.replicate 32 0
  requestId := Block.replicate 16 0
  tokenClass := .c256

/-- The encryption of an empty document in one direction of the exchange. -/
def exchangeSealing (direction : KeyDirection) (ciphertext : Bytes) :
    Sealing Primitives.transparent.Key where
  key := deriveKey .transparent (Block.replicate 32 1) direction exchangeContext.transcript
  nonce := Block.replicate 12 0
  aad := aadBytes Envelope.VERSION direction exchangeContext.transcript
  message := List.replicate 8192 0
  ciphertext := ciphertext

def exchangeEnvelope (ciphertext : Bytes) : Envelope where
  version := Envelope.VERSION
  tokenClass := .c256
  requestId := Block.replicate 16 0
  clientNonceB64 := Base64.encode (List.replicate 32 0)
  kemPubB64 := Base64.encode (List.replicate 32 0)
  nonceB64 := Base64.encode (List.replicate 12 0)
  ciphertextB64 := Base64.encode ciphertext

instance : DecidableEq Primitives.transparent.Key :=
  inferInstanceAs (DecidableEq (Bytes × Block 32 × Bytes))

/-- A request was sealed and opened, and a response to it was sealed. -/
def exchanged : Network Primitives.transparent.Key where
  log := [exchangeSealing .response [2], exchangeSealing .request [1]]
  calls := [(exchangeEnvelope [1], exchangeContext)]
  accepted := [exchangeEnvelope [1]]
  responses := [(exchangeEnvelope [1], exchangeEnvelope [2])]

theorem exchange_requested :
    sealRequestForGateway .transparent (.ofLog [exchangeSealing .request [1]])
      (Block.replicate 32 0) (Block.replicate 32 0) (Block.replicate 12 0) (Block.replicate 32 1)
      .c256 (Block.replicate 16 0) [] = .ok (exchangeEnvelope [1], exchangeContext) :=
  sealRequestForGateway_eq_ok_iff.mpr ⟨rfl, ⟨rfl, rfl, rfl, rfl, rfl⟩, rfl, _, _, rfl,
    Aead.encrypt_ofLog_self _, rfl, rfl⟩

theorem exchange_opened :
    openRequestAtGateway .transparent (.ofLog [exchangeSealing .request [1]]) exchangeKeypair
      (exchangeEnvelope [1]) = .ok (trimZeroPadding (List.replicate 8192 0)) :=
  openRequestAtGateway_eq_ok_iff.mpr ⟨exchangeContext.transcript, ⟨rfl, rfl, rfl, rfl, rfl⟩, rfl,
    rfl, _, _, _, ⟨rfl, rfl⟩, Aead.decrypt_ofLog_cons _ _, rfl⟩

theorem exchange_responded :
    sealResponseAtGateway .transparent (.ofLog [exchangeSealing .response [2]])
      (Block.replicate 12 0) exchangeKeypair (exchangeEnvelope [1]) [] =
        .ok (exchangeEnvelope [2]) :=
  sealResponseAtGateway_eq_ok_iff.mpr ⟨exchangeContext.transcript, ⟨rfl, rfl, rfl, rfl, rfl⟩,
    ⟨rfl, rfl, rfl, rfl, rfl⟩, rfl, rfl, _, _, rfl, Aead.encrypt_ofLog_self _, rfl, rfl⟩

theorem exchange_read :
    openResponse .transparent (.ofLog exchanged.log) exchangeContext (exchangeEnvelope [2]) =
      .ok (trimZeroPadding (List.replicate 8192 0)) :=
  openResponse_eq_ok_iff.mpr ⟨⟨rfl, rfl, rfl, rfl, rfl⟩, rfl, _, _, _, ⟨rfl, rfl⟩,
    Aead.decrypt_ofLog_cons _ _, rfl⟩

theorem reachable_exchanged :
    (Network.system .transparent exchangeKeypair).Reachable (Ideal .transparent exchangeKeypair)
      exchanged := by
  have start : (Network.system .transparent exchangeKeypair).Reachable
      (Ideal .transparent exchangeKeypair) ⟨[], [], [], []⟩ := .start rfl
  have requested := reachable_sealRequest start (fun _ member => absurd member List.not_mem_nil)
    (fun _ member => absurd member List.not_mem_nil) exchange_requested
  have opened := reachable_openRequest requested exchange_opened
  refine reachable_sealResponse opened ?_ List.mem_cons_self exchange_responded
  intro earlier member same
  rw [List.mem_singleton.mp member] at same
  have distinct : ([1] : Bytes) ≠ [2] := by decide
  exact absurd same distinct

/-- The response of the exchange opens for the client that sealed the request. -/
theorem bound_end_to_end_exchanged :
    (exchangeEnvelope [1], exchangeEnvelope [2]) ∈ exchanged.responses ∧
      (∀ otherContext, (exchangeEnvelope [2], otherContext) ∉ exchanged.calls) ∧
      ∀ otherEnv, (otherEnv, exchangeEnvelope [2]) ∈ exchanged.responses →
        otherEnv = exchangeEnvelope [1] :=
  (bound_end_to_end correct_transparent.agreement reachable_exchanged).2 (exchangeEnvelope [1])
    exchangeContext List.mem_cons_self rfl _ _ exchange_read

end ZkLlmGateway.Common
