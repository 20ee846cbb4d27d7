import ZkLlmGateway.Client.Agent
import ZkLlmGateway.Common.Commitment
import ZkLlmGateway.Common.Envelope

/-!
# Sessions as JSON

A session is written as an object of its fields.  It is read from an object or from an
array that has the fields in their places, and so are the structures inside it; only a
message, with its unknown fields, has to be an object.  What was buffered to find the tag
of an enum is read as the document would be, but for an empty object that stands for a unit.
-/

namespace ZkLlmGateway.Client

open ZkLlmGateway.Encoding ZkLlmGateway.Common

/-! ## Integers -/

def decimalValue (digits : Text) : Nat :=
  digits.foldl (fun total char => 10 * total + (char.toNat - 48)) 0

def readNat32 (value : Json) : Option Nat :=
  (readU32 value).map decimalValue

/-- The decimal form of an integer. -/
def integer (n : Int) : Text :=
  if n < 0 then '-' :: decimal n.natAbs else decimal n.natAbs

/-- An `i64`; minus zero is not an integer. -/
def readI64 : Json → Option Int
  | .number ('-' :: digits) =>
      if isDecimal digits = true ∧ 0 < decimalValue digits ∧ decimalValue digits ≤ 2 ^ 63 then
        some (-(decimalValue digits : Int))
      else none
  | .number digits =>
      if isDecimal digits = true ∧ decimalValue digits < 2 ^ 63 then
        some (decimalValue digits : Int)
      else none
  | _ => none

def IsI64 (n : Int) : Prop :=
  -2 ^ 63 ≤ n ∧ n < 2 ^ 63

/-! ## Writing -/

def MemoryItem.toJson (item : MemoryItem) : Json :=
  .object [
    (Encoding.text "id", .string item.id.toText),
    (Encoding.text "created_at_ms", .number (integer item.createdAtMs)),
    (Encoding.text "text", .string item.text),
    (Encoding.text "tags", .array (item.tags.map .string))]

/-- The serialized name. -/
def RedactionKind.serdeName : RedactionKind → Text
  | privateKey => text "private_key"
  | apiKey => text "api_key"
  | email => text "email"
  | phone => text "phone"
  | ethAddress => text "eth_address"
  | url => text "url"
  | custom => text "custom"

def RedactionEntry.toJson (entry : RedactionEntry) : Json :=
  .object [
    (text "placeholder", .string entry.placeholder),
    (text "original", .string entry.original),
    (text "kind", .string entry.kind.serdeName)]

def RedactionState.toJson (state : RedactionState) : Json :=
  .object [
    (text "salt_b64", .string state.saltB64),
    (text "entries", .array (state.entries.map RedactionEntry.toJson)),
    (text "custom_terms", .array (state.customTerms.map .string))]

def Session.toJson (session : Session) : Json :=
  .object [
    (text "version", .number (decimal session.version)),
    (text "created_at_ms", .number (integer session.createdAtMs)),
    (text "system_prompt", .string session.systemPrompt),
    (text "messages", .array (session.messages.map ChatMessage.toJson)),
    (text "memory", .array (session.memory.map MemoryItem.toJson)),
    (text "summary", .string session.summary),
    (text "redaction", session.redaction.toJson)]

/-! ## Reading -/

/-- The fields of a struct without a flattened map. -/
def asFields (names : List Text) : Json → Option (List (Text × Json))
  | .object fields => some fields
  | .array items => if items.length ≤ names.length then some (names.zip items) else none
  | _ => none

/-- A field that may be missing. -/
def readDefault {α : Type} (read : Json → Option α) (default : α) : Option Json → Option α
  | none => some default
  | some value => read value

def MemoryItem.names : List Text :=
  [Encoding.text "id", Encoding.text "created_at_ms", Encoding.text "text", Encoding.text "tags"]

def MemoryItem.ofJson (readUuid : Text → Option Uuid) (document : Json) : Option MemoryItem := do
  let fields ← asFields names document
  let id ← (requiredField fields (Encoding.text "id")).bind readString
  let id ← readUuid id
  let createdAtMs ← (requiredField fields (Encoding.text "created_at_ms")).bind readI64
  let content ← (requiredField fields (Encoding.text "text")).bind readString
  let tags ← (ownField fields (Encoding.text "tags")).bind (readDefault (readArray readString) [])
  return ⟨id, createdAtMs, content, tags⟩

def RedactionKind.ofName (name : Text) : Option RedactionKind :=
  [privateKey, apiKey, email, phone, ethAddress, url, custom].find? (·.serdeName = name)

/-- A unit variant, also in the form of an object. -/
def RedactionKind.ofJson (buffered : Bool) : Json → Option RedactionKind
  | .string name => ofName name
  | .object [(name, .null)] => ofName name
  | .object [(name, .object [])] => if buffered then ofName name else none
  | _ => none

def RedactionEntry.names : List Text :=
  [text "placeholder", text "original", text "kind"]

def RedactionEntry.ofJson (buffered : Bool) (document : Json) : Option RedactionEntry := do
  let fields ← asFields names document
  let placeholder ← (requiredField fields (text "placeholder")).bind readString
  let original ← (requiredField fields (text "original")).bind readString
  let kind ← (requiredField fields (text "kind")).bind (RedactionKind.ofJson buffered)
  return ⟨placeholder, original, kind⟩

def RedactionState.names : List Text :=
  [text "salt_b64", text "entries", text "custom_terms"]

def RedactionState.ofJson (buffered : Bool) (document : Json) : Option RedactionState := do
  let fields ← asFields names document
  let saltB64 ← (requiredField fields (text "salt_b64")).bind readString
  let entries ← (requiredField fields (text "entries")).bind
    (readArray (RedactionEntry.ofJson buffered))
  let customTerms ← (requiredField fields (text "custom_terms")).bind (readArray readString)
  return ⟨saltB64, entries, customTerms⟩

def Session.names : List Text :=
  [text "version", text "created_at_ms", text "system_prompt", text "messages", text "memory",
    text "summary", text "redaction"]

def Session.ofJson (buffered : Bool) (readUuid : Text → Option Uuid) (document : Json) :
    Option Session := do
  let fields ← asFields names document
  let version ← (requiredField fields (text "version")).bind readNat32
  let createdAtMs ← (requiredField fields (text "created_at_ms")).bind readI64
  let systemPrompt ← (requiredField fields (text "system_prompt")).bind readString
  let messages ← (requiredField fields (text "messages")).bind (readArray ChatMessage.ofJson)
  let memory ← (ownField fields (text "memory")).bind
    (readDefault (readArray (MemoryItem.ofJson readUuid)) [])
  let summary ← (ownField fields (text "summary")).bind (readDefault readString [])
  let redaction ← (requiredField fields (text "redaction")).bind (RedactionState.ofJson buffered)
  return {
    version := version
    createdAtMs := createdAtMs
    systemPrompt := systemPrompt
    messages := messages
    memory := memory
    summary := summary
    redaction := redaction }

/-! ## Reading what was written -/

/-- What the types of a session allow, with no entry of a message in the place of a field. -/
structure Session.Proper (session : Session) : Prop where
  version : session.version < 2 ^ 32
  createdAtMs : IsI64 session.createdAtMs
  messages : ∀ message ∈ session.messages, ProperEntries ChatMessage.names message.extra
  memory : ∀ item ∈ session.memory, IsI64 item.createdAtMs

/-- Equal but for the order in maps. -/
structure SameSession (left right : Session) : Prop where
  version : left.version = right.version
  createdAtMs : left.createdAtMs = right.createdAtMs
  systemPrompt : left.systemPrompt = right.systemPrompt
  messages : List.Forall₂ SameMessage left.messages right.messages
  memory : left.memory = right.memory
  summary : left.summary = right.summary
  redaction : left.redaction = right.redaction

/-- A session as it is read after it was written. -/
def Session.canonical (session : Session) : Session :=
  { session with messages := session.messages.map ChatMessage.canonical }

section Integers

@[simp]
theorem decimalValue_decimal (n : Nat) : decimalValue (decimal n) = n :=
  Nat.ofDigitChars_toDigits (by decide) (by decide)

@[simp]
theorem isDecimal_decimal (n : Nat) : isDecimal (decimal n) = true := by
  have digits : (List.range' 48 10).all
      (fun code => (text "0123456789").contains (Char.ofNat code)) = true := by decide
  simp only [isDecimal, Bool.and_eq_true, Bool.not_eq_true', List.isEmpty_eq_false_iff,
    List.all_eq_true]
  refine ⟨Nat.toDigits_ne_nil, fun char member => ?_⟩
  have isDigit := Nat.isDigit_of_mem_toDigits (by decide) (by decide) member
  simp only [Char.isDigit, Bool.and_eq_true, decide_eq_true_eq, UInt32.le_iff_toNat_le] at isDigit
  have inRange : char.toNat ∈ List.range' 48 10 := by
    rw [List.mem_range'_1]
    exact ⟨isDigit.1, Nat.lt_succ_of_le isDigit.2⟩
  have found := List.all_eq_true.mp digits char.toNat inRange
  rwa [Char.ofNat_toNat] at found

theorem isNumber_integer (n : Int) : Json.isNumber (integer n) = true := by
  unfold integer
  split
  next => exact isNumber_of_unsigned rfl
  next => exact isNumber_decimal n.natAbs

theorem readNat32_decimal {n : Nat} (small : n < 2 ^ 32) :
    readNat32 (.number (decimal n)) = some n := by
  have isU32 : IsU32 (decimal n) := ⟨isDecimal_decimal n, by
    rw [show (decimal n).foldl _ 0 = decimalValue (decimal n) from rfl, decimalValue_decimal]
    exact small⟩
  rw [readNat32, readU32, if_pos isU32, Option.map_some, decimalValue_decimal]

theorem readI64_integer {n : Int} (isI64 : IsI64 n) : readI64 (.number (integer n)) = some n := by
  obtain ⟨atLeast, below⟩ := isI64
  unfold integer
  split
  next negative =>
    rw [readI64, if_pos ⟨isDecimal_decimal _, by rw [decimalValue_decimal]; omega, by
      rw [decimalValue_decimal]; omega⟩, decimalValue_decimal]
    congr 1
    omega
  next =>
    have noSign : ∀ digits, decimal n.natAbs ≠ '-' :: digits := by
      intro digits same
      have isDigits := isDecimal_decimal n.natAbs
      have noDigit : (text "0123456789").contains '-' = false := by decide
      rw [same, isDecimal, List.all_cons, noDigit, Bool.false_and, Bool.and_false] at isDigits
      contradiction
    rw [readI64.eq_2 _ noSign, if_pos ⟨isDecimal_decimal _, by rw [decimalValue_decimal]; omega⟩,
      decimalValue_decimal]
    congr 1
    omega

end Integers

section Structures

variable {buffered : Bool} {readUuid : Text → Option Uuid}

/-- Items that are read as they were written. -/
theorem readArray_of_back {α : Type} {read : Json → Option α} {write : α → Json} {items : List α}
    (back : ∀ item ∈ items, read (write item) = some item) :
    readArray read (.array (items.map write)) = some items := by
  have isRead : readArray read (.array (items.map write)) = some (items.map id) :=
    readArray_map back
  rwa [List.map_id] at isRead

theorem readArray_strings (items : List Text) :
    readArray readString (.array (items.map .string)) = some items :=
  readArray_of_back fun _ _ => rfl

theorem MemoryItem.ofJson_toJson {item : MemoryItem} (isI64 : IsI64 item.createdAtMs)
    (readsId : readUuid (Uuid.toText item.id) = some item.id) :
    MemoryItem.ofJson readUuid item.toJson = some item := by
  have fields : MemoryItem.ofJson readUuid item.toJson =
      (readUuid item.id.toText).bind fun id =>
        (readI64 (.number (integer item.createdAtMs))).bind fun createdAtMs =>
          (readArray readString (.array (item.tags.map .string))).bind fun tags =>
            some ⟨id, createdAtMs, item.text, tags⟩ := rfl
  rw [fields, readsId, readI64_integer isI64, readArray_strings]
  rfl

theorem RedactionKind.ofName_serdeName (kind : RedactionKind) :
    RedactionKind.ofName kind.serdeName = some kind := by
  cases kind <;> decide

theorem RedactionEntry.ofJson_toJson (entry : RedactionEntry) :
    RedactionEntry.ofJson buffered entry.toJson = some entry := by
  have fields : RedactionEntry.ofJson buffered entry.toJson =
      (RedactionKind.ofJson buffered (.string entry.kind.serdeName)).bind fun kind =>
        some ⟨entry.placeholder, entry.original, kind⟩ := rfl
  rw [fields, RedactionKind.ofJson, RedactionKind.ofName_serdeName]
  rfl

theorem RedactionState.ofJson_toJson (state : RedactionState) :
    RedactionState.ofJson buffered state.toJson = some state := by
  have fields : RedactionState.ofJson buffered state.toJson =
      (readArray (RedactionEntry.ofJson buffered)
          (.array (state.entries.map RedactionEntry.toJson))).bind fun entries =>
        (readArray readString (.array (state.customTerms.map .string))).bind fun customTerms =>
          some ⟨state.saltB64, entries, customTerms⟩ := rfl
  rw [fields, readArray_of_back fun entry _ => RedactionEntry.ofJson_toJson entry,
    readArray_strings]
  rfl

theorem readArray_messages {messages : List ChatMessage}
    (proper : ∀ message ∈ messages, ProperEntries ChatMessage.names message.extra) :
    readArray ChatMessage.ofJson (.array (messages.map ChatMessage.toJson)) =
      some (messages.map ChatMessage.canonical) :=
  readArray_map fun message member => ChatMessage.ofJson_toJson (proper message member)

/-- **A session is read as it was written**, directly or from a buffer. -/
theorem Session.ofJson_toJson {session : Session} (proper : session.Proper)
    (readsIds : ∀ item ∈ session.memory, readUuid (Uuid.toText item.id) = some item.id) :
    Session.ofJson buffered readUuid session.toJson = some session.canonical := by
  have fields : Session.ofJson buffered readUuid session.toJson =
      (readNat32 (.number (decimal session.version))).bind fun version =>
        (readI64 (.number (integer session.createdAtMs))).bind fun createdAtMs =>
          (readArray ChatMessage.ofJson (.array (session.messages.map ChatMessage.toJson))).bind
            fun messages =>
              (readArray (MemoryItem.ofJson readUuid)
                  (.array (session.memory.map MemoryItem.toJson))).bind fun memory =>
                (RedactionState.ofJson buffered session.redaction.toJson).bind fun redaction =>
                  some ⟨version, createdAtMs, session.systemPrompt, messages, memory,
                    session.summary, redaction⟩ := rfl
  rw [fields, readNat32_decimal proper.version, readI64_integer proper.createdAtMs,
    readArray_messages proper.messages, readArray_of_back fun item member =>
      MemoryItem.ofJson_toJson (proper.memory item member) (readsIds item member),
    RedactionState.ofJson_toJson]
  rfl

/-- The identifiers and the numbers of a session are read as they are written. -/
structure Session.Back (readNumber : Text → Option Text) (readUuid : Text → Option Uuid)
    (session : Session) : Prop where
  ids : ∀ item ∈ session.memory, readUuid (Uuid.toText item.id) = some item.id
  integers : ∀ n, IsI64 n → readNumber (integer n) = some (integer n)
  entries : ∀ message ∈ session.messages, ∀ entry ∈ message.extra,
    Json.Numbers readNumber entry.2

section Numbers

variable {readNumber : Text → Option Text}

theorem numbers_integer (integers : ∀ n, IsI64 n → readNumber (integer n) = some (integer n))
    {n : Int} (isI64 : IsI64 n) : Json.Numbers readNumber (.number (integer n)) :=
  ⟨isNumber_integer n, integers n isI64⟩

theorem numbers_decimal (integers : ∀ n, IsI64 n → readNumber (integer n) = some (integer n))
    {n : Nat} (small : n < 2 ^ 32) : Json.Numbers readNumber (.number (decimal n)) := by
  have isI64 : IsI64 n := by
    unfold IsI64
    omega
  exact numbers_integer integers isI64

theorem numbers_strings (contents : List Text) :
    Json.Numbers readNumber (.array (contents.map .string)) := by
  rw [Json.Numbers, Json.numbersItems_iff, List.forall_mem_map]
  exact fun _ _ => trivial

theorem numbers_message {message : ChatMessage}
    (entries : ∀ entry ∈ message.extra, Json.Numbers readNumber entry.2) :
    Json.Numbers readNumber message.toJson := by
  rw [ChatMessage.toJson, Json.Numbers, Json.numbersFields_iff, List.forall_mem_cons,
    List.forall_mem_cons]
  exact ⟨trivial, trivial, entries⟩

theorem numbers_messages {messages : List ChatMessage}
    (entries : ∀ message ∈ messages, ∀ entry ∈ message.extra, Json.Numbers readNumber entry.2) :
    Json.Numbers readNumber (.array (messages.map ChatMessage.toJson)) := by
  rw [Json.Numbers, Json.numbersItems_iff, List.forall_mem_map]
  exact fun message member => numbers_message (entries message member)

theorem numbers_redaction (state : RedactionState) : Json.Numbers readNumber state.toJson := by
  have entries : Json.Numbers readNumber (.array (state.entries.map RedactionEntry.toJson)) := by
    rw [Json.Numbers, Json.numbersItems_iff, List.forall_mem_map]
    exact fun _ _ => ⟨trivial, trivial, trivial, trivial⟩
  exact ⟨trivial, entries, numbers_strings _, trivial⟩

/-- Every number that is written of a session is read as itself. -/
theorem Session.Back.numbers_toJson {readUuid : Text → Option Uuid} {session : Session}
    (back : session.Back readNumber readUuid) (proper : session.Proper) :
    Json.Numbers readNumber session.toJson := by
  have memory : Json.Numbers readNumber (.array (session.memory.map MemoryItem.toJson)) := by
    rw [Json.Numbers, Json.numbersItems_iff, List.forall_mem_map]
    exact fun item member => ⟨trivial, numbers_integer back.integers (proper.memory item member),
      trivial, numbers_strings _, trivial⟩
  exact ⟨numbers_decimal back.integers proper.version,
    numbers_integer back.integers proper.createdAtMs, trivial, numbers_messages back.entries,
    memory, trivial, numbers_redaction _, trivial⟩

end Numbers

theorem Session.Proper.same_canonical {session : Session} (proper : session.Proper) :
    SameSession session session.canonical :=
  ⟨rfl, rfl, rfl, sameMessages_canonical proper.messages, rfl, rfl, rfl⟩

end Structures

end ZkLlmGateway.Client
