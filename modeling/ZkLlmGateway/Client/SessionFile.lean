import ZkLlmGateway.Client.Manager
import ZkLlmGateway.Client.SessionJson

/-!
# The bytes of session files

A session is saved behind a tag, as it is or encrypted.  A file without the tag may be
the bare list of messages that an earlier version stored.
-/

namespace ZkLlmGateway.Client

open ZkLlmGateway.Encoding ZkLlmGateway.Common

inductive SessionDisk
  | plain (session : Session)
  | encrypted (encVersion : Nat) (saltB64 nonceB64 ciphertextB64 : Text)

namespace SessionDisk

def toJson : SessionDisk → Json
  | plain session =>
      .object [(text "kind", .string (text "plain")), (text "session", session.toJson)]
  | encrypted encVersion saltB64 nonceB64 ciphertextB64 =>
      .object [
        (text "kind", .string (text "encrypted")),
        (text "enc_version", .number (decimal encVersion)),
        (text "salt_b64", .string saltB64),
        (text "nonce_b64", .string nonceB64),
        (text "ciphertext_b64", .string ciphertextB64)]

/-- The tag of an enum, and what is buffered of the rest.  In an array the tag comes first. -/
def tagged (tag : Text) : Json → Option (Text × Json)
  | .object fields => do
      let name ← (requiredField fields tag).bind readString
      return (name, .object (fields.filter (·.1 ≠ tag)))
  | .array (first :: rest) => do
      let name ← readString first
      return (name, .array rest)
  | _ => none

def ofJson (readUuid : Text → Option Uuid) (document : Json) : Option SessionDisk := do
  let (kind, content) ← tagged (text "kind") document
  if kind = text "plain" then
    let fields ← asFields [text "session"] content
    let session ← (requiredField fields (text "session")).bind (Session.ofJson true readUuid)
    return .plain session
  else if kind = text "encrypted" then
    let fields ← asFields [text "enc_version", text "salt_b64", text "nonce_b64",
      text "ciphertext_b64"] content
    let encVersion ← (requiredField fields (text "enc_version")).bind readNat32
    let saltB64 ← (requiredField fields (text "salt_b64")).bind readString
    let nonceB64 ← (requiredField fields (text "nonce_b64")).bind readString
    let ciphertextB64 ← (requiredField fields (text "ciphertext_b64")).bind readString
    return .encrypted encVersion saltB64 nonceB64 ciphertextB64
  else none

end SessionDisk

/-! ## Saving and loading -/

/-- The library functions of session files: what a number is read as, the parser of UUIDs,
HKDF-SHA256 with its salt, key and info, and ChaCha20-Poly1305. -/
structure SessionLibrary where
  readNumber : Text → Option Text
  readUuid : Text → Option Uuid
  hkdf : Block 16 → Block 32 → Bytes → Block 32
  aead : Aead (Block 32)

/-- What saving an encrypted session draws. -/
structure FileDraw where
  salt : Block 16
  nonce : Block 12

inductive SessionFileError
  | unsupportedVersion (encVersion : Nat)
  | noSessionKey
  | invalidSalt
  | saltLength
  | invalidNonce
  | nonceLength
  | invalidCiphertext
  | decryptFailed
  | parseDecrypted
  | unrecognized
  | encryptFailed
  deriving DecidableEq

/-- The outermost context of the error. -/
def SessionFileError.message : SessionFileError → Text
  | unsupportedVersion encVersion => text "unsupported session enc_version=" ++ decimal encVersion
  | noSessionKey => text "session file is encrypted; provide --session-key-b64"
  | invalidSalt => text "invalid encrypted session salt"
  | saltLength => text "encrypted session salt must be 16 bytes"
  | invalidNonce => text "invalid encrypted session nonce"
  | nonceLength => text "encrypted session nonce must be 12 bytes"
  | invalidCiphertext => text "invalid encrypted session ciphertext"
  | decryptFailed => text "session decrypt failed"
  | parseDecrypted => text "parse decrypted session json"
  | unrecognized => text "unrecognized session file format"
  | encryptFailed => text "encrypt session failed"

/-- The value, or the error when there is none. -/
def orError {α : Type} (problem : SessionFileError) : Option α → Except SessionFileError α
  | none => .error problem
  | some value => .ok value

def sessionLabel : Bytes :=
  utf8 (text "zk-llm-session-v1")

namespace SessionLibrary

/-- `serde_json::from_slice`, of a whole document. -/
def parse (library : SessionLibrary) : Bytes → Option Json :=
  Json.parse library.readNumber maxDepth

/-- Thirty-two bytes are always within what HKDF can expand to. -/
def deriveSessionKey (library : SessionLibrary) (master : Block 32) (salt : Block 16) : Block 32 :=
  library.hkdf salt master sessionLabel

/-- What is written to the file of a session. -/
def diskOf (library : SessionLibrary) (draw : FileDraw) (session : Session) :
    Option (Block 32) → Except SessionFileError SessionDisk
  | none => .ok (.plain session)
  | some key => do
      let aeadKey := library.deriveSessionKey key draw.salt
      let ciphertext ← orError .encryptFailed
        (library.aead.encrypt aeadKey draw.nonce sessionLabel (utf8 session.toJson.render))
      return .encrypted 1 (Base64.encode draw.salt.val) (Base64.encode draw.nonce.val)
        (Base64.encode ciphertext)

/-- `save_session`: the new bytes of the file. -/
def saveSession (library : SessionLibrary) (draw : FileDraw) (session : Session)
    (sessionKey : Option (Block 32)) : Except SessionFileError Bytes :=
  (library.diskOf draw session sessionKey).map fun disk => utf8 (disk.toJson.renderPretty 0)

def openDisk (library : SessionLibrary) (sessionKey : Option (Block 32)) :
    SessionDisk → Except SessionFileError Session
  | .plain session => .ok session
  | .encrypted encVersion saltB64 nonceB64 ciphertextB64 => do
      if encVersion ≠ 1 then .error (.unsupportedVersion encVersion)
      else
        let key ← orError .noSessionKey sessionKey
        let salt ← orError .invalidSalt (Base64.decode saltB64)
        let salt ← orError .saltLength (Block.ofBytes? 16 salt)
        let nonce ← orError .invalidNonce (Base64.decode nonceB64)
        let nonce ← orError .nonceLength (Block.ofBytes? 12 nonce)
        let ciphertext ← orError .invalidCiphertext (Base64.decode ciphertextB64)
        let aeadKey := library.deriveSessionKey key salt
        let plaintext ← orError .decryptFailed
          (library.aead.decrypt aeadKey nonce sessionLabel ciphertext)
        orError .parseDecrypted
          ((library.parse plaintext).bind (Session.ofJson false library.readUuid))

/-- `load_session`, once the file is read; the clock and the salt are for a new session. -/
def loadSession (library : SessionLibrary) (nowMs : Int) (salt : Block 32) (bytes : Bytes)
    (sessionKey : Option (Block 32)) : Except SessionFileError Session :=
  match (library.parse bytes).bind (SessionDisk.ofJson library.readUuid) with
  | some disk => library.openDisk sessionKey disk
  | none =>
      match (library.parse bytes).bind (readArray ChatMessage.ofJson) with
      | some history => .ok { Session.new (text "You are a helpful assistant.") nowMs salt with
          messages := history }
      | none => .error .unrecognized

end SessionLibrary

/-! ## Three formats -/

section Formats

variable {readUuid : Text → Option Uuid} {document : Json} {history : List ChatMessage}

theorem SessionDisk.ofJson_plain (session : Session) :
    SessionDisk.ofJson readUuid (SessionDisk.plain session).toJson =
      (Session.ofJson true readUuid session.toJson).map .plain := by
  have fields : SessionDisk.ofJson readUuid (SessionDisk.plain session).toJson =
      (Session.ofJson true readUuid session.toJson).bind fun session => some (.plain session) := rfl
  rw [fields, Option.map_eq_bind]
  rfl

theorem SessionDisk.ofJson_encrypted {encVersion : Nat} (small : encVersion < 2 ^ 32)
    (saltB64 nonceB64 ciphertextB64 : Text) :
    SessionDisk.ofJson readUuid
        (SessionDisk.encrypted encVersion saltB64 nonceB64 ciphertextB64).toJson =
      some (.encrypted encVersion saltB64 nonceB64 ciphertextB64) := by
  have fields : SessionDisk.ofJson readUuid
      (SessionDisk.encrypted encVersion saltB64 nonceB64 ciphertextB64).toJson =
        (readNat32 (.number (decimal encVersion))).bind fun encVersion =>
          some (.encrypted encVersion saltB64 nonceB64 ciphertextB64) := rfl
  rw [fields, readNat32_decimal small]
  rfl

/-- The first item of a list of messages is an object, which is no tag. -/
theorem SessionDisk.ofJson_eq_none_of_history
    (isHistory : readArray ChatMessage.ofJson document = some history) :
    SessionDisk.ofJson readUuid document = none := by
  cases document with
  | array items =>
      cases items with
      | nil => rfl
      | cons first rest =>
          cases forall₂_of_mapM isHistory with
          | cons isMessage _ =>
              cases first with
              | object fields => rfl
              | _ => contradiction
  | _ => contradiction

end Formats

namespace SessionLibrary

/-! ## The round trip -/

/-- What ChaCha20-Poly1305 and HKDF-SHA256 promise in an ideal model: a ciphertext opens to its
message, and under no other key, and different keys are derived from different keys. -/
structure Ideal (library : SessionLibrary) : Prop where
  decrypts : ∀ key nonce aad message ciphertext,
    library.aead.encrypt key nonce aad message = some ciphertext →
      library.aead.decrypt key nonce aad ciphertext = some message
  opensOwn : ∀ key other nonce aad message ciphertext,
    library.aead.encrypt key nonce aad message = some ciphertext → other ≠ key →
      library.aead.decrypt other nonce aad ciphertext = none
  separates : ∀ salt info, Function.Injective fun master => library.hkdf salt master info

/-- How deep the document is that a session is parsed from; under a key, it is in the
ciphertext. -/
def storedDepth (session : Session) : Option (Block 32) → Nat
  | none => session.toJson.depth + 1
  | some _ => session.toJson.depth

section RoundTrip

variable {library : SessionLibrary} {draw : FileDraw} {session : Session} {key : Block 32}
  {bytes : Bytes} {disk : SessionDisk} {nowMs : Int} {salt : Block 32}

theorem loadSession_of_disk {document : Json} (parsed : library.parse bytes = some document)
    (isDisk : SessionDisk.ofJson library.readUuid document = some disk)
    (sessionKey : Option (Block 32)) :
    library.loadSession nowMs salt bytes sessionKey = library.openDisk sessionKey disk := by
  rw [loadSession, parsed, Option.bind_some, isDisk]

theorem loadSession_of_history {document : Json} {history : List ChatMessage}
    (parsed : library.parse bytes = some document)
    (isHistory : readArray ChatMessage.ofJson document = some history)
    (sessionKey : Option (Block 32)) :
    library.loadSession nowMs salt bytes sessionKey =
      .ok { Session.new (text "You are a helpful assistant.") nowMs salt with
        messages := history } := by
  rw [loadSession, parsed, Option.bind_some,
    SessionDisk.ofJson_eq_none_of_history isHistory, Option.bind_some, isHistory]

theorem diskOf_some_eq_ok (isDisk : library.diskOf draw session (some key) = .ok disk) :
    ∃ ciphertext, library.aead.encrypt (library.deriveSessionKey key draw.salt) draw.nonce
        sessionLabel (utf8 session.toJson.render) = some ciphertext ∧
      disk = .encrypted 1 (Base64.encode draw.salt.val) (Base64.encode draw.nonce.val)
        (Base64.encode ciphertext) := by
  cases encrypted : library.aead.encrypt (library.deriveSessionKey key draw.salt) draw.nonce
      sessionLabel (utf8 session.toJson.render) with
  | none =>
      simp only [diskOf, encrypted, orError] at isDisk
      contradiction
  | some ciphertext =>
      simp only [diskOf, encrypted, orError] at isDisk
      exact ⟨ciphertext, rfl, (Except.ok.inj isDisk).symm⟩

/-- What is in the file is decrypted under the key derived from the one given. -/
theorem openDisk_encrypted (fileSalt : Block 16) (nonce : Block 12) (ciphertext : Bytes) :
    library.openDisk (some key) (.encrypted 1 (Base64.encode fileSalt.val)
        (Base64.encode nonce.val) (Base64.encode ciphertext)) =
      match library.aead.decrypt (library.deriveSessionKey key fileSalt) nonce sessionLabel
        ciphertext with
      | none => .error .decryptFailed
      | some plaintext => orError .parseDecrypted
          ((library.parse plaintext).bind (Session.ofJson false library.readUuid)) := by
  simp only [openDisk, ne_eq, not_true_eq_false, if_false, orError, Base64.decode_encode, bind,
    Except.bind, Block.ofBytes?_val]
  cases library.aead.decrypt (library.deriveSessionKey key fileSalt) nonce sessionLabel
    ciphertext <;> rfl

theorem openDisk_none (saltB64 nonceB64 ciphertextB64 : Text) :
    library.openDisk none (.encrypted 1 saltB64 nonceB64 ciphertextB64) = .error .noSessionKey :=
  rfl

theorem depth_plain (session : Session) :
    (SessionDisk.plain session).toJson.depth = session.toJson.depth + 1 := by
  simp [SessionDisk.toJson, Json.depth, Json.depthFields]

/-- The file of an encrypted session is read. -/
theorem parse_encrypted
    (integers : ∀ n, IsI64 n → library.readNumber (integer n) = some (integer n))
    (saltB64 nonceB64 ciphertextB64 : Text) :
    library.parse
        (utf8 ((SessionDisk.encrypted 1 saltB64 nonceB64 ciphertextB64).toJson.renderPretty 0)) =
      some (SessionDisk.encrypted 1 saltB64 nonceB64 ciphertextB64).toJson := by
  have numbers : Json.Numbers library.readNumber
      (SessionDisk.encrypted 1 saltB64 nonceB64 ciphertextB64).toJson :=
    ⟨trivial, numbers_decimal integers (by decide), trivial, trivial, trivial, trivial⟩
  have depth : (SessionDisk.encrypted 1 saltB64 nonceB64 ciphertextB64).toJson.depth = 1 := rfl
  exact Json.parse_renderPretty numbers (depth.trans_le (by decide)) 0

/-- A document that is not read is no session. -/
theorem loadSession_of_none (parsed : library.parse bytes = none) (sessionKey : Option (Block 32)) :
    library.loadSession nowMs salt bytes sessionKey = .error .unrecognized := by
  rw [loadSession, parsed]
  rfl

variable {sessionKey : Option (Block 32)}

section Saved

variable (proper : session.Proper) (back : session.Back library.readNumber library.readUuid)

include proper back

theorem parse_plain (saved : library.saveSession draw session none = .ok bytes) :
    library.parse bytes = if storedDepth session none ≤ maxDepth then
      some (SessionDisk.plain session).toJson else none := by
  obtain rfl := Except.ok.inj saved
  have numbers : Json.Numbers library.readNumber (SessionDisk.plain session).toJson :=
    ⟨trivial, back.numbers_toJson proper, trivial⟩
  rw [parse, Json.parse_renderPretty_eq numbers, depth_plain]
  rfl

/-- A plain session is loaded whatever the key. -/
theorem loadSession_plain (saved : library.saveSession draw session none = .ok bytes)
    (within : storedDepth session none ≤ maxDepth) (sessionKey : Option (Block 32)) :
    library.loadSession nowMs salt bytes sessionKey = .ok session.canonical := by
  have parsed := parse_plain proper back saved
  rw [if_pos within] at parsed
  have isPlain : SessionDisk.ofJson library.readUuid (SessionDisk.plain session).toJson =
      some (.plain session.canonical) := by
    rw [SessionDisk.ofJson_plain, Session.ofJson_toJson proper back.ids, Option.map_some]
  rw [loadSession_of_disk parsed isPlain]
  rfl

theorem loadSession_plain_deep (saved : library.saveSession draw session none = .ok bytes)
    (deep : ¬storedDepth session none ≤ maxDepth) (sessionKey : Option (Block 32)) :
    library.loadSession nowMs salt bytes sessionKey = .error .unrecognized := by
  have parsed := parse_plain proper back saved
  rw [if_neg deep] at parsed
  exact loadSession_of_none parsed sessionKey

omit proper in
/-- An encrypted session is what is found in its file. -/
theorem loadSession_encrypted (saved : library.saveSession draw session (some key) = .ok bytes) :
    ∃ ciphertext, library.aead.encrypt (library.deriveSessionKey key draw.salt) draw.nonce
        sessionLabel (utf8 session.toJson.render) = some ciphertext ∧
      ∀ sessionKey, library.loadSession nowMs salt bytes sessionKey =
        library.openDisk sessionKey (.encrypted 1 (Base64.encode draw.salt.val)
          (Base64.encode draw.nonce.val) (Base64.encode ciphertext)) := by
  cases isDisk : library.diskOf draw session (some key) with
  | error problem =>
      rw [saveSession, isDisk] at saved
      contradiction
  | ok disk =>
      rw [saveSession, isDisk] at saved
      obtain rfl := Except.ok.inj saved
      rcases diskOf_some_eq_ok isDisk with ⟨ciphertext, encrypted, rfl⟩
      have parsed := parse_encrypted back.integers (Base64.encode draw.salt.val)
        (Base64.encode draw.nonce.val) (Base64.encode ciphertext)
      exact ⟨ciphertext, encrypted, loadSession_of_disk parsed
        (SessionDisk.ofJson_encrypted (by decide) _ _ _)⟩

theorem loadSession_own (ideal : library.Ideal)
    (saved : library.saveSession draw session (some key) = .ok bytes) :
    library.loadSession nowMs salt bytes (some key) =
      if storedDepth session (some key) ≤ maxDepth then .ok session.canonical
      else .error .parseDecrypted := by
  rcases loadSession_encrypted back saved with ⟨ciphertext, encrypted, loads⟩
  have decrypted := ideal.decrypts _ _ _ _ _ encrypted
  have parsed := Json.parse_render_eq (back.numbers_toJson proper) maxDepth
  rw [loads, openDisk_encrypted, decrypted, storedDepth]
  by_cases within : session.toJson.depth ≤ maxDepth
  · rw [if_pos within] at parsed ⊢
    simp only [parse, parsed, Option.bind_some, Session.ofJson_toJson proper back.ids, orError]
  · rw [if_neg within] at parsed ⊢
    simp only [parse, parsed, Option.bind_none, orError]

omit proper in
theorem loadSession_other (ideal : library.Ideal)
    (saved : library.saveSession draw session (some key) = .ok bytes)
    (other : sessionKey ≠ some key) :
    ∃ problem, library.loadSession nowMs salt bytes sessionKey = .error problem := by
  rcases loadSession_encrypted back saved with ⟨ciphertext, encrypted, loads⟩
  rw [loads]
  cases sessionKey with
  | none => exact ⟨_, openDisk_none _ _ _⟩
  | some wrong =>
      have otherKey : library.deriveSessionKey wrong draw.salt ≠
          library.deriveSessionKey key draw.salt := fun same =>
        other (congrArg some (ideal.separates _ _ same))
      have notDecrypted := ideal.opensOwn _ _ _ _ _ _ encrypted otherKey
      rw [openDisk_encrypted, notDecrypted]
      exact ⟨_, rfl⟩

end Saved

/-- The bytes of a session that was saved under a key or without one. -/
structure SavedAs (library : SessionLibrary) (session : Session) (sessionKey : Option (Block 32))
    (bytes : Bytes) (nowMs : Int) (salt : Block 32) : Prop where
  /-- It is loaded as it was, and without a key under any. -/
  loads : storedDepth session sessionKey ≤ maxDepth → ∀ other,
    other = sessionKey ∨ sessionKey = none →
      ∃ loaded, library.loadSession nowMs salt bytes other = .ok loaded ∧
        SameSession session loaded
  tooDeep : ¬storedDepth session sessionKey ≤ maxDepth → ∀ other,
    ∃ problem, library.loadSession nowMs salt bytes other = .error problem
  otherKey : ∀ key, sessionKey = some key → ∀ other, other ≠ some key →
    ∃ problem, library.loadSession nowMs salt bytes other = .error problem

/-- The bare list of messages that an earlier version stored. -/
structure LoadsHistories (library : SessionLibrary) (nowMs : Int) (salt : Block 32) : Prop where
  /-- Whatever is read as a list of messages is loaded as that list, and is not tagged. -/
  listed : ∀ bytes document history, library.parse bytes = some document →
    readArray ChatMessage.ofJson document = some history →
      SessionDisk.ofJson library.readUuid document = none ∧
        ∀ sessionKey, library.loadSession nowMs salt bytes sessionKey =
          .ok { Session.new (text "You are a helpful assistant.") nowMs salt with
            messages := history }
  written : ∀ messages, (∀ message ∈ messages, ProperEntries ChatMessage.names message.extra) →
    (∀ message ∈ messages, ∀ entry ∈ message.extra, Json.Numbers library.readNumber entry.2) →
      let document := Json.array (messages.map ChatMessage.toJson)
      ∀ bytes ∈ [utf8 document.render, utf8 (document.renderPretty 0)],
        (document.depth ≤ maxDepth → ∃ history, List.Forall₂ SameMessage messages history ∧
          ∀ sessionKey, library.loadSession nowMs salt bytes sessionKey =
            .ok { Session.new (text "You are a helpful assistant.") nowMs salt with
              messages := history }) ∧
        (¬document.depth ≤ maxDepth → ∀ sessionKey,
          library.loadSession nowMs salt bytes sessionKey = .error .unrecognized)

theorem loadsHistories (library : SessionLibrary) (nowMs : Int) (salt : Block 32) :
    LoadsHistories library nowMs salt where
  listed bytes document history parsed isHistory :=
    ⟨SessionDisk.ofJson_eq_none_of_history isHistory, loadSession_of_history parsed isHistory⟩
  written messages properMessages entries := by
    intro document bytes isWritten
    have numbers : Json.Numbers library.readNumber document := numbers_messages entries
    have parsed : library.parse bytes =
        if document.depth ≤ maxDepth then some document else none := by
      rcases List.mem_pair.mp isWritten with rfl | rfl
      · exact Json.parse_render_eq numbers maxDepth
      · exact Json.parse_renderPretty_eq numbers maxDepth 0
    constructor
    · intro within
      rw [if_pos within] at parsed
      exact ⟨_, sameMessages_canonical properMessages,
        loadSession_of_history parsed (readArray_messages properMessages)⟩
    · intro deep
      rw [if_neg deep] at parsed
      exact loadSession_of_none parsed

end RoundTrip

/-- **A session file round trip**: a session is loaded as it was saved, under its key or, if it
has none, under any, unless it is nested too deep; with a key it is not loaded without it; and
the bare list of messages of an earlier version is loaded as that list. -/
theorem sessionFile_roundTrip {library : SessionLibrary} (ideal : library.Ideal) {draw : FileDraw}
    {session : Session} (proper : session.Proper)
    (back : session.Back library.readNumber library.readUuid) {sessionKey : Option (Block 32)}
    {bytes : Bytes} (saved : library.saveSession draw session sessionKey = .ok bytes)
    (nowMs : Int) (salt : Block 32) :
    SavedAs library session sessionKey bytes nowMs salt ∧ LoadsHistories library nowMs salt := by
  refine ⟨?_, loadsHistories library nowMs salt⟩
  cases sessionKey with
  | none =>
      refine ⟨fun within other _ => ?_, fun deep other => ?_, fun key isKey => by contradiction⟩
      · exact ⟨_, loadSession_plain proper back saved within other, proper.same_canonical⟩
      · exact ⟨_, loadSession_plain_deep proper back saved deep other⟩
  | some key =>
      refine ⟨fun within other isOther => ?_, fun deep other => ?_, fun own isOwn other => ?_⟩
      · rcases isOther with rfl | isNone
        · rw [loadSession_own proper back ideal saved, if_pos within]
          exact ⟨_, rfl, proper.same_canonical⟩
        · contradiction
      · by_cases same : other = some key
        · subst same
          rw [loadSession_own proper back ideal saved, if_neg deep]
          exact ⟨_, rfl⟩
        · exact loadSession_other back ideal saved same
      · cases isOwn
        exact loadSession_other back ideal saved

/-! ## What the manager finds -/

/-- What the file is read as by the calls of a session manager. -/
def readsAs (library : SessionLibrary) (sessionKey : Option (Block 32)) (bytes : Bytes) :
    SessionFile :=
  match (library.parse bytes).bind (SessionDisk.ofJson library.readUuid) with
  | some disk =>
      match library.openDisk sessionKey disk with
      | .ok session => .session session
      | .error _ => .unreadable
  | none =>
      match (library.parse bytes).bind (readArray ChatMessage.ofJson) with
      | some history => .history history
      | none => .unreadable

/-- **The manager's files are these files.** -/
theorem toOption_loadSession (library : SessionLibrary) (sessionKey : Option (Block 32))
    (bytes : Bytes) (nowMs : Int) (salt : Block 32) :
    (library.loadSession nowMs salt bytes sessionKey).toOption =
      Client.loadSession (library.readsAs sessionKey bytes) nowMs salt := by
  unfold loadSession readsAs
  cases (library.parse bytes).bind (SessionDisk.ofJson library.readUuid) with
  | some disk =>
      simp only
      cases library.openDisk sessionKey disk <;> rfl
  | none =>
      simp only
      cases (library.parse bytes).bind (readArray ChatMessage.ofJson) <;> rfl

end SessionLibrary

/-! ## An encrypted session -/

/-- A session with an unknown field, a memory item and a placeholder. -/
def notedSession : Session where
  version := 1
  createdAtMs := -5
  systemPrompt := text "Be brief."
  messages := [⟨text "user", text "Hi", [(text "name", .string (text "Ann"))]⟩]
  memory := [⟨.replicate 16 7, 1700000000000, text "Ann likes tea", [text "tea"]⟩]
  summary := []
  redaction := ⟨text "salt", [⟨text "<EMAIL_0>", text "a@b.c", .email⟩], [text "Ann"]⟩

theorem proper_notedSession : notedSession.Proper where
  version := by decide
  createdAtMs := by
    unfold IsI64
    decide
  messages := by
    rw [notedSession, List.forall_mem_singleton]
    exact ⟨by decide +kernel, by decide +kernel, by simp [Json.Tokens], by simp [Json.Distinct]⟩
  memory := by
    rw [notedSession, List.forall_mem_singleton]
    unfold IsI64
    decide

/-- A ciphertext is the key and the message. -/
def keyedAead : Aead (Block 32) where
  encrypt key _ _ message := some (key.val ++ message)
  decrypt key _ _ ciphertext :=
    if ciphertext.take 32 = key.val then some (ciphertext.drop 32) else none

def notedKey : Block 32 :=
  .replicate 32 9

def notedDisk : SessionDisk :=
  .encrypted 1 (Base64.encode (List.replicate 16 1)) (Base64.encode (List.replicate 12 2))
    (Base64.encode (notedKey.val ++ utf8 notedSession.toJson.render))

/-- Numbers are taken as they are, and the derived key is the key. -/
def notedLibrary : SessionLibrary where
  readNumber := some
  readUuid := Uuid.ofText
  hkdf _ master _ := master
  aead := keyedAead

theorem ideal_notedLibrary : notedLibrary.Ideal where
  decrypts key nonce aad message ciphertext encrypted := by
    obtain rfl : key.val ++ message = ciphertext := Option.some.inj encrypted
    have front : (key.val ++ message).take 32 = key.val := List.take_left' key.property
    have rest : (key.val ++ message).drop 32 = message := List.drop_left' key.property
    change (if (key.val ++ message).take 32 = key.val then some ((key.val ++ message).drop 32)
      else none) = some message
    rw [if_pos front, rest]
  opensOwn key other nonce aad message ciphertext encrypted differ := by
    obtain rfl : key.val ++ message = ciphertext := Option.some.inj encrypted
    have front : (key.val ++ message).take 32 = key.val := List.take_left' key.property
    change (if (key.val ++ message).take 32 = other.val then some ((key.val ++ message).drop 32)
      else none) = none
    rw [front, if_neg fun same => differ (Subtype.ext same.symm)]
  separates _ _ := fun _ _ same => same

theorem back_notedSession :
    notedSession.Back notedLibrary.readNumber notedLibrary.readUuid where
  ids _ _ := Uuid.ofText_toText _
  integers _ _ := rfl
  entries := by
    rw [notedSession, List.forall_mem_singleton, List.forall_mem_singleton]
    trivial

theorem sessionFile_roundTrip_noted :
    notedLibrary.SavedAs notedSession (some notedKey) (utf8 (notedDisk.toJson.renderPretty 0)) 0
        (.replicate 32 0) ∧
      notedLibrary.LoadsHistories 0 (.replicate 32 0) := by
  have saved : notedLibrary.saveSession ⟨.replicate 16 1, .replicate 12 2⟩ notedSession
      (some notedKey) = .ok (utf8 (notedDisk.toJson.renderPretty 0)) := rfl
  exact SessionLibrary.sessionFile_roundTrip ideal_notedLibrary proper_notedSession
    back_notedSession saved 0 (.replicate 32 0)

/-- The session with a field of a message that is nested too deep. -/
def nestedSession : Session :=
  { notedSession with
    messages := [⟨text "user", text "Hi", [(text "name", nestedArrays 124)]⟩] }

theorem proper_nestedSession : nestedSession.Proper where
  version := proper_notedSession.version
  createdAtMs := proper_notedSession.createdAtMs
  messages := by
    rw [nestedSession, List.forall_mem_singleton]
    refine ⟨by decide +kernel, by decide +kernel, ?_, ?_⟩
    · rw [List.forall_mem_singleton]
      exact Json.tokens_of_numbers (numbers_nestedArrays some 124)
    · rw [List.forall_mem_singleton]
      exact distinct_nestedArrays 124
  memory := proper_notedSession.memory

theorem back_nestedSession :
    nestedSession.Back notedLibrary.readNumber notedLibrary.readUuid where
  ids := back_notedSession.ids
  integers := back_notedSession.integers
  entries := by
    rw [nestedSession, List.forall_mem_singleton, List.forall_mem_singleton]
    exact numbers_nestedArrays _ 124

theorem deep_nestedSession : ¬SessionLibrary.storedDepth nestedSession none ≤ maxDepth := by
  decide +kernel

/-- **A session that is nested too deep** is saved and not loaded. -/
theorem not_loads_nestedSession :
    nestedSession.Proper ∧ nestedSession.Back notedLibrary.readNumber notedLibrary.readUuid ∧
      notedLibrary.saveSession ⟨.replicate 16 1, .replicate 12 2⟩ nestedSession none =
        .ok (utf8 ((SessionDisk.plain nestedSession).toJson.renderPretty 0)) ∧
      ∀ sessionKey, notedLibrary.loadSession 0 (.replicate 32 0)
        (utf8 ((SessionDisk.plain nestedSession).toJson.renderPretty 0)) sessionKey =
          .error .unrecognized := by
  have saved : notedLibrary.saveSession ⟨.replicate 16 1, .replicate 12 2⟩ nestedSession none =
      .ok (utf8 ((SessionDisk.plain nestedSession).toJson.renderPretty 0)) := rfl
  exact ⟨proper_nestedSession, back_nestedSession, saved,
    SessionLibrary.loadSession_plain_deep proper_nestedSession back_nestedSession saved
      deep_nestedSession⟩

end ZkLlmGateway.Client
