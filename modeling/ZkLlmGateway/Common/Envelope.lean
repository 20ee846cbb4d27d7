import ZkLlmGateway.Common.Types
import ZkLlmGateway.Encoding.Base64

/-!
# Encrypted envelopes

A client seals a request under a fresh ephemeral key, the gateway opens it,
and both ends derive the response key from the same transcript.  The
cryptographic primitives are parameters: `Primitives` has the key agreement,
the hash and the key derivation, `Aead` the authenticated encryption.  Random
bytes are arguments.
-/

namespace ZkLlmGateway.Common

open ZkLlmGateway.Encoding

/-- X25519, SHA-256 and HKDF-SHA256.  The hash and the derived key keep types
of their own, so that a reading in which both are injective is possible. -/
structure Primitives where
  Digest : Type
  Key : Type
  publicKey : Block 32 → Block 32
  diffieHellman : Block 32 → Block 32 → Block 32
  sha256 : Bytes → Digest
  hkdf : Digest → Block 32 → Bytes → Key

/-- ChaCha20-Poly1305: key, nonce, associated data and message. -/
structure Aead (Key : Type) where
  encrypt : Key → Block 12 → Bytes → Bytes → Option Bytes
  decrypt : Key → Block 12 → Bytes → Bytes → Option Bytes

/-! ## Envelopes and their errors -/

/-- A relay-friendly encrypted envelope. -/
structure Envelope where
  version : UInt8
  tokenClass : TokenClass
  requestId : Uuid
  clientNonceB64 : Text
  kemPubB64 : Text
  nonceB64 : Text
  ciphertextB64 : Text
  deriving DecidableEq

/-- Protocol version. -/
def Envelope.VERSION : UInt8 := 2

/-- Why an envelope is not sealed or not opened. -/
inductive EnvelopeError
  | unsupportedVersion (version : UInt8)
  | requestIdMismatch
  | tokenClassMismatch
  | unexpectedEphPubkey
  | clientNonceMismatch
  | invalidNonceB64
  | nonceWrongLength
  | invalidCiphertextB64
  | invalidKemPubB64
  | kemPubWrongLength
  | invalidClientNonceB64
  | clientNonceWrongLength
  | invalidSharedSecret
  | aeadEncryptFailed
  | aeadDecryptFailed
  | padding (error : PaddingError)
  deriving DecidableEq

/-- The decimal form of a number. -/
def decimal (n : Nat) : Text :=
  Nat.toDigits 10 n

theorem head?_decimal {n : Nat} (positive : 0 < n) : (decimal n).head? ≠ some '0' := by
  have digits : ∀ n < 10, 0 < n → n.digitChar ≠ '0' := by decide
  induction n using Nat.strong_induction_on with
  | _ n inductionHypothesis =>
      rw [decimal, Nat.toDigits_eq_if (by decide)]
      split
      next small =>
        rw [List.head?_cons, ne_eq, Option.some.injEq]
        exact digits n small positive
      next large =>
        have quotient : 0 < n / 10 := Nat.div_pos (Nat.le_of_not_lt large) (by decide)
        have front := inductionHypothesis (n / 10) (Nat.div_lt_self positive (by decide)) quotient
        rw [List.head?_append_of_ne_nil _ Nat.toDigits_ne_nil]
        exact front

/-- The digits of a number, with a sign or without, are a number. -/
theorem isNumber_of_unsigned {n : Nat} {token : Text}
    (magnitude : Json.unsigned (text "-") token = decimal n) : Json.isNumber token = true := by
  have digits : ∀ char ∈ decimal n, char.isDigit = true := fun char member =>
    Nat.isDigit_of_mem_toDigits (by decide) (by decide) member
  have whole : (decimal n).takeWhile Char.isDigit = decimal n ∧
      (decimal n).dropWhile Char.isDigit = [] :=
    ⟨List.takeWhile_eq_self_iff.mpr digits, List.dropWhile_eq_nil_iff.mpr digits⟩
  have nonempty : (decimal n).isEmpty = false :=
    List.isEmpty_eq_false_iff.mpr Nat.toDigits_ne_nil
  have all : (decimal n).all Char.isDigit = true := List.all_eq_true.mpr digits
  have canonical : (decimal n).head? ≠ some '0' ∨ (decimal n).length = 1 := by
    rcases Nat.eq_zero_or_pos n with rfl | positive
    · exact .inr rfl
    · exact .inl (head?_decimal positive)
  simp only [Json.isNumber, magnitude, whole, Json.isDigits, nonempty, all]
  simpa [Json.isFraction, Json.isExponent] using canonical

theorem unsigned_decimal (n : Nat) : Json.unsigned (text "-") (decimal n) = decimal n := by
  have digits : ∀ char ∈ decimal n, char.isDigit = true := fun char member =>
    Nat.isDigit_of_mem_toDigits (by decide) (by decide) member
  cases shown : decimal n with
  | nil => rfl
  | cons first rest =>
      have isDigit := digits first (shown ▸ List.mem_cons_self)
      have notSign : (text "-").contains first = false := by
        rw [← Bool.not_eq_true]
        intro contained
        rw [List.mem_singleton.mp (List.elem_iff.mp contained)] at isDigit
        contradiction
      rw [Json.unsigned, notSign, if_neg Bool.false_ne_true]

theorem isNumber_decimal (n : Nat) : Json.isNumber (decimal n) = true :=
  isNumber_of_unsigned (unsigned_decimal n)

def PaddingError.message : PaddingError → Text
  | .tooLarge len max =>
      text "payload too large for token class (len=" ++ decimal len ++ text ", max=" ++
        decimal max ++ text ")"

def EnvelopeError.message : EnvelopeError → Text
  | unsupportedVersion version => text "unsupported envelope version: " ++ decimal version.toNat
  | requestIdMismatch => text "request_id mismatch"
  | tokenClassMismatch => text "token class mismatch"
  | unexpectedEphPubkey => text "unexpected eph_pubkey in response"
  | clientNonceMismatch => text "client nonce mismatch"
  | invalidNonceB64 => text "invalid nonce_b64"
  | nonceWrongLength => text "nonce wrong length"
  | invalidCiphertextB64 => text "invalid ciphertext_b64"
  | invalidKemPubB64 => text "invalid kem_pub_b64"
  | kemPubWrongLength => text "kem_pub wrong length"
  | invalidClientNonceB64 => text "invalid client_nonce_b64"
  | clientNonceWrongLength => text "client_nonce wrong length"
  | invalidSharedSecret => text "invalid x25519 shared secret"
  | aeadEncryptFailed => text "AEAD encrypt failed"
  | aeadDecryptFailed => text "AEAD decrypt failed"
  | padding error => error.message

@[simp]
theorem PaddingError.message_tooLarge (len max : Nat) :
    (PaddingError.tooLarge len max).message =
      text "payload too large for token class (len=" ++ decimal len ++ text ", max=" ++
        decimal max ++ text ")" :=
  rfl

@[simp]
theorem EnvelopeError.message_padding (error : PaddingError) :
    (EnvelopeError.padding error).message = error.message :=
  rfl

/-- Decode a base64 field of a fixed length. -/
def decodeBlock (size : Nat) (invalid wrongLength : EnvelopeError) (content : Text) :
    Except EnvelopeError (Block size) :=
  match Base64.decode content with
  | none => .error invalid
  | some bytes =>
      match Block.ofBytes? size bytes with
      | none => .error wrongLength
      | some block => .ok block

theorem decodeBlock_eq_ok_iff {size : Nat} {invalid wrongLength : EnvelopeError}
    {content : Text} {block : Block size} :
    decodeBlock size invalid wrongLength content = .ok block ↔
      content = Base64.encode block.val := by
  unfold decodeBlock
  constructor
  · intro decoded
    split at decoded
    next => contradiction
    next bytes read =>
      split at decoded
      next => contradiction
      next fitting fits =>
        cases decoded
        rw [Block.ofBytes?_eq_some_iff] at fits
        rw [fits]
        exact (Base64.encode_of_decode read).symm
  · rintro rfl
    simp [Base64.decode_encode]

def decodeEphPubkey (env : Envelope) : Except EnvelopeError (Block 32) :=
  decodeBlock 32 .invalidKemPubB64 .kemPubWrongLength env.kemPubB64

def decodeClientNonce (env : Envelope) : Except EnvelopeError (Block 32) :=
  decodeBlock 32 .invalidClientNonceB64 .clientNonceWrongLength env.clientNonceB64

def decodeNonce (env : Envelope) : Except EnvelopeError (Block 12) :=
  decodeBlock 12 .invalidNonceB64 .nonceWrongLength env.nonceB64

def decodeCiphertext (env : Envelope) : Except EnvelopeError Bytes :=
  match Base64.decode env.ciphertextB64 with
  | none => .error .invalidCiphertextB64
  | some bytes => .ok bytes

theorem decodeCiphertext_eq_ok_iff {env : Envelope} {bytes : Bytes} :
    decodeCiphertext env = .ok bytes ↔ env.ciphertextB64 = Base64.encode bytes := by
  unfold decodeCiphertext
  constructor
  · intro decoded
    split at decoded
    next => contradiction
    next read =>
      cases decoded
      exact (Base64.encode_of_decode read).symm
  · intro encoded
    rw [encoded, Base64.decode_encode]

/-! ## Key derivation -/

inductive KeyDirection
  | request
  | response
  deriving DecidableEq

/-- What both the derived key and the associated data of a message bind. -/
structure Transcript where
  tokenClass : TokenClass
  requestId : Uuid
  clientNonce : Block 32
  ephPub : Block 32
  gatewayPub : Block 32
  deriving DecidableEq

def bindingMaterial (label : Bytes) (version : UInt8) (transcript : Transcript) : Bytes :=
  label ++ version :: transcript.tokenClass.idU8 ::
    (utf8 (Uuid.toText transcript.requestId) ++ (transcript.clientNonce.val ++
      (transcript.ephPub.val ++ transcript.gatewayPub.val)))

def bindingSalt (primitives : Primitives) (version : UInt8) (transcript : Transcript) :
    primitives.Digest :=
  primitives.sha256
    (bindingMaterial (utf8 (text "zk-llm-gateway-envelope-kdf-v2")) version transcript)

def hkdfInfo (tokenClass : TokenClass) (direction : KeyDirection) : Bytes :=
  utf8 (text "zk-llm-gateway-envelope-v2") ++
    (match direction with
      | .request => utf8 (text "/req")
      | .response => utf8 (text "/resp")) ++ [tokenClass.idU8]

/-- Thirty-two bytes are always within what HKDF can expand to. -/
def deriveKey (primitives : Primitives) (shared : Block 32) (direction : KeyDirection)
    (transcript : Transcript) : primitives.Key :=
  primitives.hkdf (bindingSalt primitives Envelope.VERSION transcript) shared
    (hkdfInfo transcript.tokenClass direction)

def aadBytes (version : UInt8) (direction : KeyDirection) (transcript : Transcript) : Bytes :=
  bindingMaterial (utf8 (text "zk-llm-gateway-envelope-aad-v2")) version transcript ++
    match direction with
      | .request => [(1 : UInt8)]
      | .response => [(2 : UInt8)]

/-- Return early with an error unless a condition holds. -/
def ensure (condition : Prop) [Decidable condition] (problem : EnvelopeError) :
    Except EnvelopeError Unit :=
  if condition then .ok () else .error problem

def ensureContributory (shared : Block 32) : Except EnvelopeError Unit :=
  if shared.val.all (· == 0) then .error .invalidSharedSecret else .ok ()

/-! ## Sealing and opening -/

/-- Static keypair used by the gateway to decrypt envelopes. -/
structure GatewayKeypair where
  secret : Block 32

def GatewayKeypair.publicBytes (primitives : Primitives) (keypair : GatewayKeypair) : Block 32 :=
  primitives.publicKey keypair.secret

/-- Client-side context needed to decrypt the gateway's response. -/
structure ClientCryptoContext where
  ephSecretBytes : Block 32
  ephPubBytes : Block 32
  gatewayPublicBytes : Block 32
  clientNonceBytes : Block 32
  requestId : Uuid
  tokenClass : TokenClass
  deriving DecidableEq

/-- The transcript a context was created for. -/
def ClientCryptoContext.transcript (context : ClientCryptoContext) : Transcript where
  tokenClass := context.tokenClass
  requestId := context.requestId
  clientNonce := context.clientNonceBytes
  ephPub := context.ephPubBytes
  gatewayPub := context.gatewayPublicBytes

section Protocol

variable (primitives : Primitives) (aead : Aead primitives.Key)

def encrypt (key : primitives.Key) (nonce : Block 12) (aad message : Bytes) :
    Except EnvelopeError Bytes :=
  match aead.encrypt key nonce aad message with
  | none => .error .aeadEncryptFailed
  | some ciphertext => .ok ciphertext

def decrypt (key : primitives.Key) (nonce : Block 12) (aad ciphertext : Bytes) :
    Except EnvelopeError Bytes :=
  match aead.decrypt key nonce aad ciphertext with
  | none => .error .aeadDecryptFailed
  | some message => .ok message

def padPlaintext (plaintext : Bytes) (targetLen : Nat) : Except EnvelopeError Bytes :=
  (padToLen plaintext targetLen).mapError .padding

/-- Encrypt a request for the gateway.  `ephSecret`, `clientNonce` and `nonce`
are the random bytes it draws. -/
def sealRequestForGateway (ephSecret clientNonce : Block 32) (nonce : Block 12)
    (gatewayPublicBytes : Block 32) (tokenClass : TokenClass) (requestId : Uuid)
    (plaintextJson : Bytes) : Except EnvelopeError (Envelope × ClientCryptoContext) := do
  let ephPub := primitives.publicKey ephSecret
  let padded ← padPlaintext plaintextJson tokenClass.envelopeRequestPlaintextBytes
  let shared := primitives.diffieHellman ephSecret gatewayPublicBytes
  ensureContributory shared
  let transcript : Transcript := ⟨tokenClass, requestId, clientNonce, ephPub, gatewayPublicBytes⟩
  let ciphertext ← encrypt primitives aead (deriveKey primitives shared .request transcript) nonce
    (aadBytes Envelope.VERSION .request transcript) padded
  return ({
      version := Envelope.VERSION
      tokenClass := tokenClass
      requestId := requestId
      clientNonceB64 := Base64.encode clientNonce.val
      kemPubB64 := Base64.encode ephPub.val
      nonceB64 := Base64.encode nonce.val
      ciphertextB64 := Base64.encode ciphertext },
    { ephSecretBytes := ephSecret
      ephPubBytes := ephPub
      gatewayPublicBytes := gatewayPublicBytes
      clientNonceBytes := clientNonce
      requestId := requestId
      tokenClass := tokenClass })

/-- Decrypt a request envelope at the gateway. -/
def openRequestAtGateway (keypair : GatewayKeypair) (env : Envelope) :
    Except EnvelopeError Bytes := do
  ensure (env.version = Envelope.VERSION) (.unsupportedVersion env.version)
  let ephPub ← decodeEphPubkey env
  let clientNonce ← decodeClientNonce env
  let nonce ← decodeNonce env
  let ciphertext ← decodeCiphertext env
  let shared := primitives.diffieHellman keypair.secret ephPub
  ensureContributory shared
  let transcript : Transcript :=
    ⟨env.tokenClass, env.requestId, clientNonce, ephPub, keypair.publicBytes primitives⟩
  let padded ← decrypt primitives aead (deriveKey primitives shared .request transcript) nonce
    (aadBytes env.version .request transcript) ciphertext
  return trimZeroPadding padded

/-- Encrypt a response using the same key agreement as the request. -/
def sealResponseAtGateway (nonce : Block 12) (keypair : GatewayKeypair) (requestEnv : Envelope)
    (plaintextJson : Bytes) : Except EnvelopeError Envelope := do
  ensure (requestEnv.version = Envelope.VERSION) (.unsupportedVersion requestEnv.version)
  let ephPub ← decodeEphPubkey requestEnv
  let clientNonce ← decodeClientNonce requestEnv
  let padded ← padPlaintext plaintextJson requestEnv.tokenClass.envelopeResponsePlaintextBytes
  let shared := primitives.diffieHellman keypair.secret ephPub
  ensureContributory shared
  let transcript : Transcript := ⟨requestEnv.tokenClass, requestEnv.requestId, clientNonce, ephPub,
    keypair.publicBytes primitives⟩
  let ciphertext ← encrypt primitives aead (deriveKey primitives shared .response transcript) nonce
    (aadBytes requestEnv.version .response transcript) padded
  return {
    version := Envelope.VERSION
    tokenClass := requestEnv.tokenClass
    requestId := requestEnv.requestId
    clientNonceB64 := requestEnv.clientNonceB64
    kemPubB64 := requestEnv.kemPubB64
    nonceB64 := Base64.encode nonce.val
    ciphertextB64 := Base64.encode ciphertext }

/-- Decrypt an encrypted response from the gateway. -/
def openResponse (context : ClientCryptoContext) (env : Envelope) :
    Except EnvelopeError Bytes := do
  ensure (env.version = Envelope.VERSION) (.unsupportedVersion env.version)
  ensure (env.requestId = context.requestId) .requestIdMismatch
  ensure (env.tokenClass = context.tokenClass) .tokenClassMismatch
  let ephPub ← decodeEphPubkey env
  ensure (ephPub = context.ephPubBytes) .unexpectedEphPubkey
  let clientNonce ← decodeClientNonce env
  ensure (clientNonce = context.clientNonceBytes) .clientNonceMismatch
  let nonce ← decodeNonce env
  let ciphertext ← decodeCiphertext env
  let shared := primitives.diffieHellman context.ephSecretBytes context.gatewayPublicBytes
  ensureContributory shared
  let padded ← decrypt primitives aead
    (deriveKey primitives shared .response context.transcript) nonce
    (aadBytes env.version .response context.transcript) ciphertext
  return trimZeroPadding padded

end Protocol

/-! ## A transparent instance

The hash, the derived key and the ciphertext are what went into them.  It
stands in where a run is computed. -/

/-- Bytewise exclusive or. -/
def xorBlock {size : Nat} (left right : Block size) : Block size :=
  ⟨List.zipWith (· ^^^ ·) left.val right.val, by simp [left.property, right.property]⟩

def Primitives.transparent : Primitives where
  Digest := Bytes
  Key := Bytes × Block 32 × Bytes
  publicKey := id
  diffieHellman := xorBlock
  sha256 := id
  hkdf salt shared info := (salt, shared, info)

def Aead.transparent (Key : Type) : Aead Key where
  encrypt _ _ _ message := some message
  decrypt _ _ _ ciphertext := some ciphertext

/-! ## What a successful call says

Every success lemma states the message as the transcript it carries, so that
the two ends can be compared field by field. -/

/-- The clear fields of an envelope are those of a transcript. -/
structure Envelope.Carries (env : Envelope) (transcript : Transcript) : Prop where
  version : env.version = Envelope.VERSION
  tokenClass : env.tokenClass = transcript.tokenClass
  requestId : env.requestId = transcript.requestId
  clientNonce : env.clientNonceB64 = Base64.encode transcript.clientNonce.val
  ephPub : env.kemPubB64 = Base64.encode transcript.ephPub.val

/-- The encrypted fields of an envelope. -/
structure Envelope.Holds (env : Envelope) (nonce : Block 12) (ciphertext : Bytes) : Prop where
  nonce : env.nonceB64 = Base64.encode nonce.val
  ciphertext : env.ciphertextB64 = Base64.encode ciphertext

/-- The secret both ends agree on is not all zero. -/
def Contributory (shared : Block 32) : Prop :=
  shared.val.all (· == 0) = false

theorem Envelope.Carries.transcript_unique {env : Envelope} {left right : Transcript}
    (first : env.Carries left) (second : env.Carries right)
    (sameGateway : left.gatewayPub = right.gatewayPub) : left = right := by
  have clientNonce : left.clientNonce = right.clientNonce :=
    Subtype.ext (Base64.encode_injective (first.clientNonce.symm.trans second.clientNonce))
  have ephPub : left.ephPub = right.ephPub :=
    Subtype.ext (Base64.encode_injective (first.ephPub.symm.trans second.ephPub))
  cases left
  cases right
  simp only [Transcript.mk.injEq]
  exact ⟨first.tokenClass.symm.trans second.tokenClass,
    first.requestId.symm.trans second.requestId, clientNonce, ephPub, sameGateway⟩

/-- The transcript, the nonce and the ciphertext determine every field. -/
theorem Envelope.eq_of_carries_holds {left right : Envelope} {transcript : Transcript}
    {nonce : Block 12} {ciphertext : Bytes} (leftCarries : left.Carries transcript)
    (leftHolds : left.Holds nonce ciphertext) (rightCarries : right.Carries transcript)
    (rightHolds : right.Holds nonce ciphertext) : left = right := by
  cases left
  cases right
  simp only [Envelope.mk.injEq]
  exact ⟨leftCarries.version.trans rightCarries.version.symm,
    leftCarries.tokenClass.trans rightCarries.tokenClass.symm,
    leftCarries.requestId.trans rightCarries.requestId.symm,
    leftCarries.clientNonce.trans rightCarries.clientNonce.symm,
    leftCarries.ephPub.trans rightCarries.ephPub.symm,
    leftHolds.nonce.trans rightHolds.nonce.symm,
    leftHolds.ciphertext.trans rightHolds.ciphertext.symm⟩

theorem bind_eq_ok_iff {ε α β : Type} {first : Except ε α} {next : α → Except ε β} {result : β} :
    (first >>= next) = .ok result ↔ ∃ value, first = .ok value ∧ next value = .ok result := by
  cases first with
  | error problem => simp [bind, Except.bind]
  | ok value => simp [bind, Except.bind]

theorem ensure_eq_ok_iff {condition : Prop} [Decidable condition] {problem : EnvelopeError}
    {value : Unit} : ensure condition problem = .ok value ↔ condition := by
  unfold ensure
  split <;> simp_all

theorem ensureContributory_eq_ok_iff {shared : Block 32} {value : Unit} :
    ensureContributory shared = .ok value ↔ Contributory shared := by
  unfold ensureContributory Contributory
  cases shared.val.all (· == 0) <;> simp

theorem padPlaintext_eq_ok_iff {plaintext padded : Bytes} {targetLen : Nat} :
    padPlaintext plaintext targetLen = .ok padded ↔ padToLen plaintext targetLen = .ok padded := by
  unfold padPlaintext
  cases padToLen plaintext targetLen <;> simp [Except.mapError]

section Success

variable {primitives : Primitives} {aead : Aead primitives.Key}

theorem encrypt_eq_ok_iff {key : primitives.Key} {nonce : Block 12}
    {aad message ciphertext : Bytes} :
    encrypt primitives aead key nonce aad message = .ok ciphertext ↔
      aead.encrypt key nonce aad message = some ciphertext := by
  unfold encrypt
  cases aead.encrypt key nonce aad message <;> simp

theorem decrypt_eq_ok_iff {key : primitives.Key} {nonce : Block 12}
    {aad message ciphertext : Bytes} :
    decrypt primitives aead key nonce aad ciphertext = .ok message ↔
      aead.decrypt key nonce aad ciphertext = some message := by
  unfold decrypt
  cases aead.decrypt key nonce aad ciphertext <;> simp

/-- `env` holds the encryption of `plaintext`, padded, in one direction of a
transcript. -/
def SealedUnder (primitives : Primitives) (aead : Aead primitives.Key) (shared : Block 32)
    (direction : KeyDirection) (transcript : Transcript) (targetLen : Nat) (nonce : Block 12)
    (plaintext : Bytes) (env : Envelope) : Prop :=
  Contributory shared ∧ ∃ padded ciphertext,
    padToLen plaintext targetLen = .ok padded ∧
    aead.encrypt (deriveKey primitives shared direction transcript) nonce
      (aadBytes Envelope.VERSION direction transcript) padded = some ciphertext ∧
    env.Holds nonce ciphertext

/-- `env` holds a ciphertext that opens in one direction of a transcript. -/
def OpenedUnder (primitives : Primitives) (aead : Aead primitives.Key) (shared : Block 32)
    (direction : KeyDirection) (transcript : Transcript) (env : Envelope)
    (plaintext : Bytes) : Prop :=
  Contributory shared ∧ ∃ nonce ciphertext padded,
    env.Holds nonce ciphertext ∧
    aead.decrypt (deriveKey primitives shared direction transcript) nonce
      (aadBytes Envelope.VERSION direction transcript) ciphertext = some padded ∧
    plaintext = trimZeroPadding padded

/-- What a successful seal of a request computed. -/
theorem sealRequestForGateway_eq_ok_iff {ephSecret clientNonce : Block 32} {nonce : Block 12}
    {gatewayPublicBytes : Block 32} {tokenClass : TokenClass} {requestId : Uuid}
    {plaintextJson : Bytes} {env : Envelope} {context : ClientCryptoContext} :
    sealRequestForGateway primitives aead ephSecret clientNonce nonce gatewayPublicBytes tokenClass
        requestId plaintextJson = .ok (env, context) ↔
      context = ⟨ephSecret, primitives.publicKey ephSecret, gatewayPublicBytes, clientNonce,
        requestId, tokenClass⟩ ∧
      env.Carries context.transcript ∧
      SealedUnder primitives aead (primitives.diffieHellman ephSecret gatewayPublicBytes) .request
        context.transcript tokenClass.envelopeRequestPlaintextBytes nonce plaintextJson env := by
  simp only [sealRequestForGateway, bind_eq_ok_iff, padPlaintext_eq_ok_iff, encrypt_eq_ok_iff,
    ensureContributory_eq_ok_iff]
  constructor
  · rintro ⟨padded, isPadded, _, contributory, ciphertext, encrypted, returned⟩
    cases returned
    exact ⟨rfl, ⟨rfl, rfl, rfl, rfl, rfl⟩, contributory, padded, ciphertext, isPadded, encrypted,
      ⟨rfl, rfl⟩⟩
  · rintro ⟨rfl, carries, contributory, padded, ciphertext, isPadded, encrypted, holds⟩
    refine ⟨padded, isPadded, (), contributory, ciphertext, encrypted, ?_⟩
    have sealedEnv : env = ⟨_, _, _, _, _, _, _⟩ := Envelope.eq_of_carries_holds carries holds
      ⟨rfl, rfl, rfl, rfl, rfl⟩ ⟨rfl, rfl⟩
    rw [sealedEnv]
    rfl

/-- What a successful opening of a request computed. -/
theorem openRequestAtGateway_eq_ok_iff {keypair : GatewayKeypair} {env : Envelope}
    {plaintext : Bytes} :
    openRequestAtGateway primitives aead keypair env = .ok plaintext ↔
      ∃ transcript, env.Carries transcript ∧
        transcript.gatewayPub = keypair.publicBytes primitives ∧
        OpenedUnder primitives aead (primitives.diffieHellman keypair.secret transcript.ephPub)
          .request transcript env plaintext := by
  simp only [openRequestAtGateway, bind_eq_ok_iff, decrypt_eq_ok_iff,
    ensureContributory_eq_ok_iff, decodeEphPubkey, decodeClientNonce, decodeNonce,
    decodeBlock_eq_ok_iff, decodeCiphertext_eq_ok_iff, ensure_eq_ok_iff]
  constructor
  · rintro ⟨_, version, ephPub, sameEph, clientNonce, sameNonce, nonce, nonceHeld, ciphertext,
      ciphertextHeld, _, contributory, padded, decrypted, returned⟩
    cases returned
    rw [version] at decrypted
    exact ⟨_, ⟨version, rfl, rfl, sameNonce, sameEph⟩, rfl, contributory, nonce, ciphertext,
      padded, ⟨nonceHeld, ciphertextHeld⟩, decrypted, rfl⟩
  · rintro ⟨⟨tokenClass, requestId, clientNonce, ephPub, gatewayPub⟩, carries, rfl, contributory,
      nonce, ciphertext, padded, holds, decrypted, rfl⟩
    obtain ⟨version, rfl, rfl, sameNonce, sameEph⟩ := carries
    refine ⟨(), version, ephPub, sameEph, clientNonce, sameNonce, nonce, holds.nonce, ciphertext,
      holds.ciphertext, (), contributory, padded, ?_, rfl⟩
    rw [version]
    exact decrypted

/-- What a successful seal of a response computed. -/
theorem sealResponseAtGateway_eq_ok_iff {nonce : Block 12} {keypair : GatewayKeypair}
    {requestEnv env : Envelope} {plaintextJson : Bytes} :
    sealResponseAtGateway primitives aead nonce keypair requestEnv plaintextJson = .ok env ↔
      ∃ transcript, requestEnv.Carries transcript ∧ env.Carries transcript ∧
        transcript.gatewayPub = keypair.publicBytes primitives ∧
        SealedUnder primitives aead (primitives.diffieHellman keypair.secret transcript.ephPub)
          .response transcript requestEnv.tokenClass.envelopeResponsePlaintextBytes nonce
          plaintextJson env := by
  simp only [sealResponseAtGateway, bind_eq_ok_iff, encrypt_eq_ok_iff, padPlaintext_eq_ok_iff,
    ensureContributory_eq_ok_iff, decodeEphPubkey, decodeClientNonce,
    decodeBlock_eq_ok_iff, ensure_eq_ok_iff]
  constructor
  · rintro ⟨_, version, ephPub, sameEph, clientNonce, sameNonce, padded, isPadded, _,
      contributory, ciphertext, encrypted, returned⟩
    cases returned
    rw [version] at encrypted
    exact ⟨_, ⟨version, rfl, rfl, sameNonce, sameEph⟩, ⟨rfl, rfl, rfl, sameNonce, sameEph⟩, rfl,
      contributory, padded, ciphertext, isPadded, encrypted, rfl, rfl⟩
  · rintro ⟨⟨tokenClass, requestId, clientNonce, ephPub, gatewayPub⟩, requestCarries, carries,
      rfl, contributory, padded, ciphertext, isPadded, encrypted, holds⟩
    obtain ⟨version, rfl, rfl, sameNonce, sameEph⟩ := requestCarries
    refine ⟨(), version, ephPub, sameEph, clientNonce, sameNonce, padded, isPadded, (),
      contributory, ciphertext, ?_, ?_⟩
    · rw [version]
      exact encrypted
    · have sealedEnv : env = ⟨_, _, _, _, _, _, _⟩ := Envelope.eq_of_carries_holds carries holds
        ⟨rfl, rfl, rfl, sameNonce, sameEph⟩ ⟨rfl, rfl⟩
      rw [sealedEnv]
      rfl

/-- What a successful opening of a response computed. -/
theorem openResponse_eq_ok_iff {context : ClientCryptoContext} {env : Envelope}
    {plaintext : Bytes} :
    openResponse primitives aead context env = .ok plaintext ↔
      env.Carries context.transcript ∧
        OpenedUnder primitives aead
          (primitives.diffieHellman context.ephSecretBytes context.gatewayPublicBytes)
          .response context.transcript env plaintext := by
  simp only [openResponse, bind_eq_ok_iff, decrypt_eq_ok_iff,
    ensureContributory_eq_ok_iff, decodeEphPubkey, decodeClientNonce, decodeNonce,
    decodeBlock_eq_ok_iff, decodeCiphertext_eq_ok_iff, ensure_eq_ok_iff]
  constructor
  · rintro ⟨_, version, _, requestId, _, tokenClass, ephPub, sameEph, _, ephMatches, clientNonce,
      sameNonce, _, nonceMatches, nonce, nonceHeld, ciphertext, ciphertextHeld, _, contributory,
      padded, decrypted, returned⟩
    cases returned
    cases ephMatches
    cases nonceMatches
    rw [version] at decrypted
    exact ⟨⟨version, tokenClass, requestId, sameNonce, sameEph⟩, contributory, nonce, ciphertext,
      padded, ⟨nonceHeld, ciphertextHeld⟩, decrypted, rfl⟩
  · rintro ⟨carries, contributory, nonce, ciphertext, padded, holds, decrypted, rfl⟩
    refine ⟨(), carries.version, (), carries.requestId, (), carries.tokenClass,
      context.ephPubBytes, carries.ephPub, (), rfl, context.clientNonceBytes, carries.clientNonce,
      (), rfl, nonce, holds.nonce, ciphertext, holds.ciphertext, (), contributory, padded, ?_, rfl⟩
    rw [carries.version]
    exact decrypted

/-! ## Round trips -/

/-- What X25519 and ChaCha20-Poly1305 promise: both ends of a key agreement
compute one secret, and a message within the cipher's limit is encrypted to a
ciphertext that decrypts to it. -/
structure Correct (primitives : Primitives) (aead : Aead primitives.Key) : Prop where
  agreement : ∀ left right, primitives.diffieHellman left (primitives.publicKey right) =
    primitives.diffieHellman right (primitives.publicKey left)
  decrypts : ∀ key nonce aad message, message.length ≤ 2 ^ 38 - 64 →
    ∃ ciphertext, aead.encrypt key nonce aad message = some ciphertext ∧
      aead.decrypt key nonce aad ciphertext = some message

theorem correct_transparent : Correct Primitives.transparent (Aead.transparent _) where
  agreement left right := by
    apply Subtype.ext
    exact List.zipWith_comm_of_comm UInt8.xor_comm
  decrypts _ _ _ message _ := ⟨message, rfl, rfl⟩

/-- For a request that was opened, a response is sealed exactly when its
plaintext fits the class. -/
theorem sealResponseAtGateway_isOk_iff (correct : Correct primitives aead)
    {keypair : GatewayKeypair} {requestEnv : Envelope} {plaintext : Bytes}
    (opened : openRequestAtGateway primitives aead keypair requestEnv = .ok plaintext)
    (nonce : Block 12) (plaintextJson : Bytes) :
    (∃ env, sealResponseAtGateway primitives aead nonce keypair requestEnv plaintextJson =
        .ok env) ↔
      plaintextJson.length ≤ requestEnv.tokenClass.envelopeResponsePlaintextBytes := by
  obtain ⟨transcript, carries, gateway, contributory, _⟩ :=
    openRequestAtGateway_eq_ok_iff.mp opened
  constructor
  · rintro ⟨env, isSealed⟩
    obtain ⟨_, _, _, _, _, _, _, isPadded, _⟩ := sealResponseAtGateway_eq_ok_iff.mp isSealed
    exact (padToLen_eq_ok_iff.mp isPadded).1
  · intro fits
    have isPadded := padToLen_eq_ok_iff.mpr ⟨fits, rfl⟩
    have small : requestEnv.tokenClass.envelopeResponsePlaintextBytes ≤ 2 ^ 38 - 64 := by
      cases requestEnv.tokenClass <;> decide
    obtain ⟨ciphertext, encrypted, _⟩ := correct.decrypts
      (deriveKey primitives (primitives.diffieHellman keypair.secret transcript.ephPub) .response
        transcript) nonce (aadBytes Envelope.VERSION .response transcript) _
      ((length_of_padToLen isPadded).trans_le small)
    exact ⟨⟨_, _, _, _, _, _, _⟩, sealResponseAtGateway_eq_ok_iff.mpr ⟨transcript, carries,
      ⟨rfl, rfl, rfl, rfl, rfl⟩, gateway, contributory, _, ciphertext, isPadded, encrypted,
      ⟨rfl, rfl⟩⟩⟩

/-- The gateway a request was sealed for reads what was sealed, less its last zeros. -/
theorem openRequestAtGateway_of_seal (correct : Correct primitives aead)
    {keypair : GatewayKeypair} {ephSecret clientNonce : Block 32} {nonce : Block 12}
    {tokenClass : TokenClass} {requestId : Uuid} {plaintextJson : Bytes} {env : Envelope}
    {context : ClientCryptoContext}
    (requested : sealRequestForGateway primitives aead ephSecret clientNonce nonce
      (keypair.publicBytes primitives) tokenClass requestId plaintextJson = .ok (env, context)) :
    openRequestAtGateway primitives aead keypair env = .ok (trimZeroPadding plaintextJson) := by
  obtain ⟨rfl, carries, contributory, padded, ciphertext, isPadded, encrypted, holds⟩ :=
    sealRequestForGateway_eq_ok_iff.mp requested
  have secret : primitives.diffieHellman ephSecret (keypair.publicBytes primitives) =
      primitives.diffieHellman keypair.secret (primitives.publicKey ephSecret) :=
    correct.agreement ephSecret keypair.secret
  rw [secret] at contributory encrypted
  have small : tokenClass.envelopeRequestPlaintextBytes ≤ 2 ^ 38 - 64 := by
    cases tokenClass <;> decide
  obtain ⟨opening, sealsTo, decrypted⟩ := correct.decrypts
    (deriveKey primitives (primitives.diffieHellman keypair.secret (primitives.publicKey ephSecret))
      .request _) nonce (aadBytes Envelope.VERSION .request _) padded
    ((length_of_padToLen isPadded).trans_le small)
  obtain rfl := Option.some.inj (sealsTo.symm.trans encrypted)
  exact openRequestAtGateway_eq_ok_iff.mpr ⟨_, carries, rfl, contributory, nonce, opening, padded,
    holds, decrypted, (trimZeroPadding_of_padToLen isPadded).symm⟩

/-- The client whose request was answered reads what was sealed, less its last zeros. -/
theorem openResponse_of_seal (correct : Correct primitives aead) {keypair : GatewayKeypair}
    {ephSecret clientNonce : Block 32} {requestNonce nonce : Block 12} {tokenClass : TokenClass}
    {requestId : Uuid} {requestJson responseJson : Bytes} {requestEnv env : Envelope}
    {context : ClientCryptoContext}
    (requested : sealRequestForGateway primitives aead ephSecret clientNonce requestNonce
      (keypair.publicBytes primitives) tokenClass requestId requestJson =
        .ok (requestEnv, context))
    (responded : sealResponseAtGateway primitives aead nonce keypair requestEnv responseJson =
      .ok env) :
    openResponse primitives aead context env = .ok (trimZeroPadding responseJson) := by
  obtain ⟨rfl, requestCarries, _⟩ := sealRequestForGateway_eq_ok_iff.mp requested
  obtain ⟨transcript, carriesRequest, carries, gateway, contributory, padded, ciphertext, isPadded,
    encrypted, holds⟩ := sealResponseAtGateway_eq_ok_iff.mp responded
  have same := carriesRequest.transcript_unique requestCarries gateway
  subst same
  have secret : primitives.diffieHellman ephSecret (keypair.publicBytes primitives) =
      primitives.diffieHellman keypair.secret (primitives.publicKey ephSecret) :=
    correct.agreement ephSecret keypair.secret
  have small : requestEnv.tokenClass.envelopeResponsePlaintextBytes ≤ 2 ^ 38 - 64 := by
    cases requestEnv.tokenClass <;> decide
  obtain ⟨opening, sealsTo, decrypted⟩ := correct.decrypts
    (deriveKey primitives (primitives.diffieHellman keypair.secret (primitives.publicKey ephSecret))
      .response _) nonce (aadBytes Envelope.VERSION .response _) padded
    ((length_of_padToLen isPadded).trans_le small)
  obtain rfl := Option.some.inj (sealsTo.symm.trans encrypted)
  refine openResponse_eq_ok_iff.mpr ⟨carries, ?_, nonce, opening, padded, holds, ?_, ?_⟩
  · exact secret ▸ contributory
  · exact secret ▸ decrypted
  · exact (trimZeroPadding_of_padToLen isPadded).symm

end Success

end ZkLlmGateway.Common
