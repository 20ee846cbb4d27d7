import ZkLlmGateway.Common.Envelope
import ZkLlmGateway.Encoding.Canonical

/-!
# Sealed envelopes on the wire

A plaintext that fits its class is sealed, opened at the other end and trimmed.
The envelope is as long as every other envelope of its class and direction.
-/

namespace ZkLlmGateway.Common

open ZkLlmGateway.Encoding

/-! ## Serialized envelopes -/

def Envelope.toJson (env : Envelope) : Json :=
  .object [
    (text "v", .number (decimal env.version.toNat)),
    (text "token_class", .string env.tokenClass.serdeName),
    (text "request_id", .string (Uuid.toText env.requestId)),
    (text "client_nonce_b64", .string env.clientNonceB64),
    (text "eph_pubkey_b64", .string env.kemPubB64),
    (text "nonce_b64", .string env.nonceB64),
    (text "ciphertext_b64", .string env.ciphertextB64)]

def Envelope.toVec (env : Envelope) : Bytes :=
  utf8 env.toJson.render

/-- Target plaintext size before encryption. -/
def TokenClass.plaintextBytes (tokenClass : TokenClass) : KeyDirection → Nat
  | .request => tokenClass.envelopeRequestPlaintextBytes
  | .response => tokenClass.envelopeResponsePlaintextBytes

/-- The length of a serialized envelope, which ends in the padded plaintext and its tag. -/
def envelopeLen (tokenClass : TokenClass) (direction : KeyDirection) : Nat :=
  257 + tokenClass.serdeName.length + 4 * ((tokenClass.plaintextBytes direction + 16 + 2) / 3)

/-- A ciphertext is its message and a tag of sixteen bytes. -/
def Tagged {Key : Type} (aead : Aead Key) : Prop :=
  ∀ key nonce aad message ciphertext, aead.encrypt key nonce aad message = some ciphertext →
    ciphertext.length = message.length + 16

section Lengths

theorem mem_alphabet_digit (value : Nat) : Base64.digit value ∈ Base64.alphabet := by
  rw [Base64.digit, List.getD_eq_getElem?_getD]
  cases found : Base64.alphabet[value]? with
  | none => decide
  | some char => exact List.mem_of_getElem? found

/-- Letters, digits and signs that JSON does not escape. -/
theorem plain_encode (bytes : Bytes) : Json.Plain (Base64.encode bytes) := by
  have pad : '='.utf8Size = 1 ∧ Json.escapeCost '=' = 0 := by decide
  have all : Base64.alphabet.all (fun char => char.utf8Size = 1 ∧ Json.escapeCost char = 0) =
      true := by decide
  have digit : ∀ value, (Base64.digit value).utf8Size = 1 ∧
      Json.escapeCost (Base64.digit value) = 0 := fun value => by
    simpa using List.all_eq_true.mp all _ (mem_alphabet_digit value)
  induction bytes using Base64.encode.induct with
  | case1 => exact fun char member => absurd member List.not_mem_nil
  | case2 a =>
      simp only [Json.Plain, Base64.encode, List.forall_mem_cons]
      exact ⟨digit _, digit _, pad, pad, by simp⟩
  | case3 a b =>
      simp only [Json.Plain, Base64.encode, List.forall_mem_cons]
      exact ⟨digit _, digit _, digit _, pad, by simp⟩
  | case4 a b c rest inductionHypothesis =>
      simp only [Json.Plain, Base64.encode, List.forall_mem_cons]
      exact ⟨digit _, digit _, digit _, digit _, inductionHypothesis⟩

theorem byteLen_renderString_encode (bytes : Bytes) :
    byteLen (Json.renderString (Base64.encode bytes)) = 4 * ((bytes.length + 2) / 3) + 2 := by
  rw [(plain_encode bytes).byteLen_renderString, Base64.length_encode]

/-- The clear fields of an envelope have one length. -/
theorem Envelope.length_toVec {env : Envelope} {transcript : Transcript} {nonce : Block 12}
    {ciphertext : Bytes} (carries : env.Carries transcript) (holds : env.Holds nonce ciphertext) :
    env.toVec.length =
      257 + transcript.tokenClass.serdeName.length + 4 * ((ciphertext.length + 2) / 3) := by
  have className : byteLen (Json.renderString transcript.tokenClass.serdeName) =
      transcript.tokenClass.serdeName.length + 2 := by
    cases transcript.tokenClass <;> decide
  have idText : byteLen (Json.renderString (Uuid.toText transcript.requestId)) = 38 := by
    rw [(Uuid.plain_toText transcript.requestId).byteLen_renderString, Uuid.length_toText]
  have version : byteLen (decimal Envelope.VERSION.toNat) = 1 := by decide
  have punctuation : '{'.utf8Size = 1 ∧ '}'.utf8Size = 1 ∧ ':'.utf8Size = 1 ∧
      ','.utf8Size = 1 := by decide
  have names : byteLen (Json.renderString (text "v")) = 3 ∧
      byteLen (Json.renderString (text "token_class")) = 13 ∧
      byteLen (Json.renderString (text "request_id")) = 12 ∧
      byteLen (Json.renderString (text "client_nonce_b64")) = 18 ∧
      byteLen (Json.renderString (text "eph_pubkey_b64")) = 16 ∧
      byteLen (Json.renderString (text "nonce_b64")) = 11 ∧
      byteLen (Json.renderString (text "ciphertext_b64")) = 16 := by decide
  simp only [toVec, toJson, length_utf8, Json.render, Json.renderFields, Json.renderMoreFields,
    Json.renderField, byteLen_cons, byteLen_append,
    byteLen_nil, carries.version, carries.tokenClass, carries.requestId, carries.clientNonce,
    carries.ephPub, holds.nonce, holds.ciphertext, byteLen_renderString_encode, className, idText,
    version, transcript.clientNonce.property, transcript.ephPub.property, nonce.property]
  omega

end Lengths

/-! ## Documents -/

/-- The characters a document ends with. -/
def endings : Text :=
  ['"', ']', '}'] ++ text "le0123456789+-.E"

theorem trimZeroPadding_utf8_concat {front : Text} {char : Char} (ending : char ∈ endings) :
    trimZeroPadding (utf8 (front ++ [char])) = utf8 (front ++ [char]) := by
  have all : endings.all (fun char =>
      utf8 [char] = [UInt8.ofNat char.toNat] ∧ UInt8.ofNat char.toNat ≠ 0) = true := by decide
  obtain ⟨byte, nonzero⟩ := of_decide_eq_true (List.all_eq_true.mp all char ending)
  rw [utf8_append, byte, trimZeroPadding_concat nonzero]

/-- No document ends with a zero byte. -/
theorem trimZeroPadding_render {document : Json} (tokens : Json.Tokens document) :
    trimZeroPadding (utf8 document.render) = utf8 document.render := by
  suffices ∃ front, ∃ char ∈ endings, document.render = front ++ [char] by
    obtain ⟨front, char, ending, rendered⟩ := this
    rw [rendered, trimZeroPadding_utf8_concat ending]
  cases document with
  | null => exact ⟨text "nul", 'l', by decide, rfl⟩
  | bool value =>
      cases value with
      | true => exact ⟨text "tru", 'e', by decide, rfl⟩
      | false => exact ⟨text "fals", 'e', by decide, rfl⟩
  | number token =>
      obtain ⟨nonempty, isNumberChar⟩ := tokens
      have last := isNumberChar _ (List.getLast_mem nonempty)
      have ending : ∀ char, Json.isNumberChar char = true → char ∈ endings := by
        have all : (text "0123456789+-.eE").all (· ∈ endings) = true := by decide
        exact fun char isChar =>
          of_decide_eq_true (List.all_eq_true.mp all char (List.elem_iff.mp isChar))
      exact ⟨_, _, ending _ last, (List.dropLast_concat_getLast nonempty).symm⟩
  | string content => exact ⟨'"' :: content.flatMap Json.escapeChar, '"', by decide, rfl⟩
  | array items => exact ⟨'[' :: Json.renderItems items, ']', by decide, rfl⟩
  | object fields => exact ⟨'{' :: Json.renderFields fields, '}', by decide, rfl⟩

/-! ## Sealing and opening -/

/-- What one end seals, the other end reads, and its length says nothing about it. -/
structure SealsUniformly (sealing : Bytes → Except EnvelopeError Envelope)
    (opening : Envelope → Except EnvelopeError Bytes) (tokenClass : TokenClass)
    (direction : KeyDirection) : Prop where
  error_iff : ∀ plaintext, (∃ problem, sealing plaintext = .error problem) ↔
    tokenClass.plaintextBytes direction < plaintext.length
  opens : ∀ plaintext env, sealing plaintext = .ok env →
    opening env = .ok (trimZeroPadding plaintext)
  opensDocument : ∀ document, Json.Tokens document → ∀ env,
    sealing (utf8 document.render) = .ok env → opening env = .ok (utf8 document.render)
  length : ∀ plaintext env, sealing plaintext = .ok env →
    env.toVec.length = envelopeLen tokenClass direction

section Sealing

variable {primitives : Primitives} {aead : Aead primitives.Key}

theorem SealedUnder.length_toVec (tagged : Tagged aead) {shared : Block 32}
    {direction : KeyDirection} {transcript : Transcript} {nonce : Block 12} {plaintext : Bytes}
    {env : Envelope} (carries : env.Carries transcript)
    (isSealed : SealedUnder primitives aead shared direction transcript
      (transcript.tokenClass.plaintextBytes direction) nonce plaintext env) :
    env.toVec.length = envelopeLen transcript.tokenClass direction := by
  obtain ⟨_, padded, ciphertext, isPadded, encrypted, holds⟩ := isSealed
  rw [Envelope.length_toVec carries holds, tagged _ _ _ _ _ encrypted, length_of_padToLen isPadded,
    envelopeLen]

theorem exists_error_iff {α : Type} {outcome : Except EnvelopeError α} :
    (∃ problem, outcome = .error problem) ↔ ¬∃ value, outcome = .ok value := by
  cases outcome <;> simp

/-- A request is sealed exactly when it fits its class. -/
theorem sealRequestForGateway_isOk_iff (correct : Correct primitives aead)
    {ephSecret gatewayPublicBytes : Block 32} {tokenClass : TokenClass}
    (contributory : Contributory (primitives.diffieHellman ephSecret gatewayPublicBytes))
    (clientNonce : Block 32) (nonce : Block 12) (requestId : Uuid) (plaintextJson : Bytes) :
    (∃ result, sealRequestForGateway primitives aead ephSecret clientNonce nonce gatewayPublicBytes
      tokenClass requestId plaintextJson = .ok result) ↔
        plaintextJson.length ≤ tokenClass.envelopeRequestPlaintextBytes := by
  constructor
  · rintro ⟨⟨env, context⟩, isSealed⟩
    obtain ⟨_, _, _, _, _, isPadded, _⟩ := sealRequestForGateway_eq_ok_iff.mp isSealed
    exact (padToLen_eq_ok_iff.mp isPadded).1
  · intro fits
    have isPadded := padToLen_eq_ok_iff.mpr ⟨fits, rfl⟩
    have small : tokenClass.envelopeRequestPlaintextBytes ≤ 2 ^ 38 - 64 := by
      cases tokenClass <;> decide
    let transcript : Transcript :=
      ⟨tokenClass, requestId, clientNonce, primitives.publicKey ephSecret, gatewayPublicBytes⟩
    obtain ⟨ciphertext, encrypted, _⟩ := correct.decrypts
      (deriveKey primitives (primitives.diffieHellman ephSecret gatewayPublicBytes) .request
        transcript) nonce (aadBytes Envelope.VERSION .request transcript) _
      ((length_of_padToLen isPadded).trans_le small)
    exact ⟨(⟨_, _, _, _, _, _, _⟩, _), sealRequestForGateway_eq_ok_iff.mpr ⟨rfl,
      ⟨rfl, rfl, rfl, rfl, rfl⟩, contributory, _, ciphertext, isPadded, encrypted, ⟨rfl, rfl⟩⟩⟩

theorem SealsUniformly.of_opens {sealing : Bytes → Except EnvelopeError Envelope}
    {opening : Envelope → Except EnvelopeError Bytes} {tokenClass : TokenClass}
    {direction : KeyDirection}
    (isOk_iff : ∀ plaintext, (∃ env, sealing plaintext = .ok env) ↔
      plaintext.length ≤ tokenClass.plaintextBytes direction)
    (opens : ∀ plaintext env, sealing plaintext = .ok env →
      opening env = .ok (trimZeroPadding plaintext))
    (length : ∀ plaintext env, sealing plaintext = .ok env →
      env.toVec.length = envelopeLen tokenClass direction) :
    SealsUniformly sealing opening tokenClass direction where
  error_iff := fun plaintext => by rw [exists_error_iff, isOk_iff, Nat.not_le]
  opens := opens
  opensDocument := fun document tokens env isSealed => by
    rw [opens _ env isSealed, trimZeroPadding_render tokens]
  length := length

/-- **Requests and responses are sealed uniformly**: they fail when they are too long for
their class only, are read as they were sent, and have the length of their class. -/
theorem sealsUniformly (correct : Correct primitives aead) (tagged : Tagged aead)
    (keypair : GatewayKeypair) (tokenClass : TokenClass) (requestId : Uuid)
    (ephSecret clientNonce : Block 32) (nonce : Block 12)
    (contributory : Contributory
      (primitives.diffieHellman ephSecret (keypair.publicBytes primitives))) :
    SealsUniformly
      (fun plaintext => (sealRequestForGateway primitives aead ephSecret clientNonce nonce
        (keypair.publicBytes primitives) tokenClass requestId plaintext).map Prod.fst)
      (openRequestAtGateway primitives aead keypair) tokenClass .request ∧
    ∀ requestJson requestEnv context, sealRequestForGateway primitives aead ephSecret clientNonce
        nonce (keypair.publicBytes primitives) tokenClass requestId requestJson =
          .ok (requestEnv, context) →
      ∀ responseNonce, SealsUniformly
        (sealResponseAtGateway primitives aead responseNonce keypair requestEnv)
        (openResponse primitives aead context) tokenClass .response := by
  have map_fst : ∀ {plaintext env}, (sealRequestForGateway primitives aead ephSecret clientNonce
      nonce (keypair.publicBytes primitives) tokenClass requestId plaintext).map Prod.fst =
        .ok env ↔ ∃ context, sealRequestForGateway primitives aead ephSecret clientNonce nonce
          (keypair.publicBytes primitives) tokenClass requestId plaintext = .ok (env, context) := by
    intro plaintext env
    cases sealRequestForGateway primitives aead ephSecret clientNonce nonce
      (keypair.publicBytes primitives) tokenClass requestId plaintext <;>
      simp [Except.map, Prod.ext_iff]
  constructor
  · refine .of_opens (fun plaintext => ?_) (fun plaintext env isSealed => ?_)
      fun plaintext env isSealed => ?_
    · rw [TokenClass.plaintextBytes, ← sealRequestForGateway_isOk_iff correct contributory
        clientNonce nonce requestId]
      simp only [map_fst, Prod.exists]
    · obtain ⟨context, requested⟩ := map_fst.mp isSealed
      exact openRequestAtGateway_of_seal correct requested
    · obtain ⟨context, requested⟩ := map_fst.mp isSealed
      obtain ⟨rfl, carries, isSealed⟩ := sealRequestForGateway_eq_ok_iff.mp requested
      exact isSealed.length_toVec tagged carries
  · intro requestJson requestEnv context requested responseNonce
    have opened := openRequestAtGateway_of_seal correct requested
    obtain ⟨rfl, requestCarries, _⟩ := sealRequestForGateway_eq_ok_iff.mp requested
    have sameClass : requestEnv.tokenClass = tokenClass := requestCarries.tokenClass
    refine .of_opens (fun plaintext => ?_) (fun plaintext env isSealed => ?_)
      fun plaintext env isSealed => ?_
    · rw [TokenClass.plaintextBytes, ← sameClass]
      exact sealResponseAtGateway_isOk_iff correct opened responseNonce plaintext
    · exact openResponse_of_seal correct requested isSealed
    · obtain ⟨transcript, carriesRequest, carries, _, responded⟩ :=
        sealResponseAtGateway_eq_ok_iff.mp isSealed
      rw [carriesRequest.tokenClass] at responded
      rw [← sameClass, carriesRequest.tokenClass]
      exact responded.length_toVec tagged carries

end Sealing

/-- Ciphertexts are their messages and sixteen zeros. -/
def Aead.tagged (Key : Type) : Aead Key where
  encrypt _ _ _ message := some (message ++ List.replicate 16 0)
  decrypt _ _ _ ciphertext := some (ciphertext.take (ciphertext.length - 16))

theorem correct_tagged : Correct Primitives.transparent (Aead.tagged _) where
  agreement := correct_transparent.agreement
  decrypts _ _ _ message _ := ⟨message ++ List.replicate 16 0, rfl, by simp [Aead.tagged]⟩

theorem tagged_tagged (Key : Type) : Tagged (Aead.tagged Key) := by
  intro _ _ _ message ciphertext encrypted
  obtain rfl := Option.some.inj encrypted
  simp

theorem sealsUniformly_tagged :
    SealsUniformly
      (fun plaintext => (sealRequestForGateway .transparent (.tagged _) (.replicate 32 1)
        (.replicate 32 2) (.replicate 12 3) (.replicate 32 4) .c256 (.replicate 16 5)
          plaintext).map Prod.fst)
      (openRequestAtGateway .transparent (.tagged _) ⟨.replicate 32 4⟩) .c256 .request ∧
    ∀ requestJson requestEnv context, sealRequestForGateway .transparent (.tagged _)
        (.replicate 32 1) (.replicate 32 2) (.replicate 12 3) (.replicate 32 4) .c256
        (.replicate 16 5) requestJson = .ok (requestEnv, context) →
      ∀ responseNonce, SealsUniformly
        (sealResponseAtGateway .transparent (.tagged _) responseNonce ⟨.replicate 32 4⟩ requestEnv)
        (openResponse .transparent (.tagged _) context) .c256 .response :=
  sealsUniformly correct_tagged (tagged_tagged _) ⟨.replicate 32 4⟩ .c256 (.replicate 16 5)
    (.replicate 32 1) (.replicate 32 2) (.replicate 12 3) rfl

end ZkLlmGateway.Common
