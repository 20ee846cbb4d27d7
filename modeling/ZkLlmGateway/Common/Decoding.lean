import ZkLlmGateway.Common.Types
import ZkLlmGateway.Encoding.Base64
import ZkLlmGateway.Encoding.Canonical

/-!
# Requests as JSON

How a request is written to a document and read from one.  A document keeps its
entries in the order in which they are written, repetitions included; what is
read of it into a map keeps the last entry of every key.  The maps of a request
are lists in the order in which they are iterated.
-/

namespace ZkLlmGateway.Common

open ZkLlmGateway.Encoding

/-! ## Writing -/

def ZkTicket.toJson (ticket : ZkTicket) : Json :=
  .object [
    (text "commitment_root", .string (Base64.encode ticket.commitmentRoot)),
    (text "nullifier", .string (Base64.encode ticket.nullifier)),
    (text "token_class", .string ticket.tokenClass.serdeName),
    (text "proof", .string (Base64.encode ticket.proof))]

/-- An absent `stream` is skipped, and the provider options are flattened. -/
def InferenceRequest.toJson (request : InferenceRequest) : Json :=
  .object ([
    (text "request_id", .string (Uuid.toText request.requestId)),
    (text "model", .string request.model),
    (text "messages", .array (request.messages.map ChatMessage.toJson)),
    (text "max_tokens", optionJson .number request.maxTokens),
    (text "temperature", optionJson F32.toJson request.temperature)] ++
    (request.stream.map fun stream => (text "stream", Json.bool stream)).toList ++ [
    (text "token_class", .string request.tokenClass.serdeName),
    (text "ticket", request.ticket.toJson)] ++ request.providerOptions)

/-! ## Reading -/

/-- Library functions.  A document is scanned for some of its fields and may be as deep as it
likes in the others; what is read of a number is the text of its value. -/
structure Codec where
  scan : Bytes → Option Json
  readNumber : Text → Option Text
  readSingle : Text → Option F32
  readUuid : Text → Option Uuid

/-- Arrays and objects that are nested deeper are not read. -/
def maxDepth : Nat := 127

/-- `serde_json::from_slice`, of a whole document. -/
def Codec.parse (codec : Codec) : Bytes → Option Json :=
  Json.parse codec.readNumber maxDepth

/-- The value of a struct's own field, if the document has one; `none` when it has two. -/
def ownField (fields : List (Text × Json)) (name : Text) : Option (Option Json) :=
  match fields.filter (·.1 = name) with
  | [] => some none
  | [field] => some (some field.2)
  | _ => none

def requiredField (fields : List (Text × Json)) (name : Text) : Option Json :=
  (ownField fields name).join

/-- `HashMap::insert` -/
def insertEntry (entries : List (Text × Json)) (entry : Text × Json) : List (Text × Json) :=
  entries.filter (·.1 ≠ entry.1) ++ [entry]

/-- The flattened map of a struct with these fields of its own. -/
def otherFields (names : List Text) (fields : List (Text × Json)) : List (Text × Json) :=
  (fields.filter (·.1 ∉ names)).foldl
    (fun entries field => insertEntry entries (field.1, field.2.canonicalize)) []

def readString : Json → Option Text
  | .string content => some content
  | _ => none

/-- A missing field and `null` stand for an absent value. -/
def readOption {α : Type} (read : Json → Option α) : Option Json → Option (Option α)
  | none | some .null => some none
  | some value => (read value).map some

/-- Content that is not a string is written back as JSON. -/
def deserializeChatMessageContent : Option Json → Text
  | none | some .null => []
  | some (.string content) => content
  | some other => other.canonicalize.render

def ChatMessage.names : List Text :=
  [text "role", text "content"]

def ChatMessage.ofJson : Json → Option ChatMessage
  | .object fields => do
      let role ← (requiredField fields (text "role")).bind readString
      let content ← ownField fields (text "content")
      return {
        role := role
        content := deserializeChatMessageContent content
        extra := otherFields names fields }
  | _ => none

def TokenClass.ofName (name : Text) : Option TokenClass :=
  [TokenClass.c256, .c512, .c1024, .c2048, .c4096].find? (·.serdeName = name)

/-- A unit variant, also in the form of an object. -/
def TokenClass.ofJson : Json → Option TokenClass
  | .string name => ofName name
  | .object [(name, .null)] => ofName name
  | _ => none

def readB64Bytes : Json → Option Bytes
  | .string content => Base64.decode content
  | _ => none

def ZkTicket.ofFields (commitmentRoot nullifier tokenClass proof : Json) : Option ZkTicket := do
  return {
    commitmentRoot := ← readB64Bytes commitmentRoot
    nullifier := ← readB64Bytes nullifier
    tokenClass := ← TokenClass.ofJson tokenClass
    proof := ← readB64Bytes proof }

/-- A struct without a flattened map, also in the form of an array. -/
def ZkTicket.ofJson : Json → Option ZkTicket
  | .object fields => do
      let commitmentRoot ← requiredField fields (text "commitment_root")
      let nullifier ← requiredField fields (text "nullifier")
      let tokenClass ← requiredField fields (text "token_class")
      let proof ← requiredField fields (text "proof")
      ofFields commitmentRoot nullifier tokenClass proof
  | .array [commitmentRoot, nullifier, tokenClass, proof] =>
      ofFields commitmentRoot nullifier tokenClass proof
  | _ => none

def isDecimal (token : Text) : Bool :=
  !token.isEmpty && token.all fun char => (text "0123456789").contains char

/-- A `u32`, as its token. -/
def IsU32 (token : Text) : Prop :=
  isDecimal token = true ∧
    token.foldl (fun total char => 10 * total + (char.toNat - 48)) 0 < 2 ^ 32

instance (token : Text) : Decidable (IsU32 token) :=
  inferInstanceAs (Decidable (_ ∧ _))

def readU32 : Json → Option Text
  | .number token => if IsU32 token then some token else none
  | _ => none

/-- The `f32` that is nearest to a number. -/
def Codec.readF32 (codec : Codec) : Json → Option F32
  | .number token => codec.readSingle token
  | _ => none

def readBool : Json → Option Bool
  | .bool value => some value
  | _ => none

def readArray {α : Type} (read : Json → Option α) : Json → Option (List α)
  | .array items => items.mapM read
  | _ => none

def InferenceRequest.names : List Text :=
  [text "request_id", text "model", text "messages", text "max_tokens", text "temperature",
    text "stream", text "token_class", text "ticket"]

/-- A request, with its UUID in one of the forms that the codec knows. -/
def InferenceRequest.ofJson (codec : Codec) : Json → Option InferenceRequest
  | .object fields => do
      let requestId ← (requiredField fields (text "request_id")).bind readString
      let requestId ← codec.readUuid requestId
      let model ← (requiredField fields (text "model")).bind readString
      let messages ← (requiredField fields (text "messages")).bind (readArray ChatMessage.ofJson)
      let maxTokens ← (ownField fields (text "max_tokens")).bind (readOption readU32)
      let temperature ← (ownField fields (text "temperature")).bind (readOption codec.readF32)
      let stream ← (ownField fields (text "stream")).bind (readOption readBool)
      let tokenClass ← (requiredField fields (text "token_class")).bind TokenClass.ofJson
      let ticket ← (requiredField fields (text "ticket")).bind ZkTicket.ofJson
      return {
        requestId := requestId
        model := model
        messages := messages
        maxTokens := maxTokens
        temperature := temperature
        stream := stream
        tokenClass := tokenClass
        ticket := ticket
        providerOptions := otherFields names fields }
  | _ => none

/-! ## The entries besides a struct's own fields -/

/-- Entries of a map that may stand next to the fields with these names. -/
structure ProperEntries (names : List Text) (entries : List (Text × Json)) : Prop where
  foreign : ∀ entry ∈ entries, entry.1 ∉ names
  distinctKeys : (entries.map Prod.fst).Nodup
  tokens : ∀ entry ∈ entries, Json.Tokens entry.2
  distinct : ∀ entry ∈ entries, Json.Distinct entry.2

section Entries

variable {names : List Text} {fields entries : List (Text × Json)}

theorem nodup_keys_insertEntry (distinctKeys : (entries.map Prod.fst).Nodup)
    (entry : Text × Json) : ((insertEntry entries entry).map Prod.fst).Nodup := by
  rw [insertEntry, List.map_append, List.nodup_append]
  refine ⟨distinctKeys.sublist (List.filter_sublist.map _), List.nodup_singleton _, ?_⟩
  intro key inFront last isLast
  obtain ⟨other, isOther, rfl⟩ := List.mem_map.mp inFront
  rw [List.map_singleton, List.mem_singleton] at isLast
  rw [isLast]
  exact of_decide_eq_true (List.mem_filter.mp isOther).2

theorem ProperEntries.insertEntry (proper : ProperEntries names entries) {entry : Text × Json}
    (foreign : entry.1 ∉ names) (tokens : Json.Tokens entry.2) (distinct : Json.Distinct entry.2) :
    ProperEntries names (insertEntry entries entry) := by
  have inside : ∀ {other}, other ∈ Common.insertEntry entries entry →
      other ∈ entries ∨ other = entry := by
    intro other member
    rcases List.mem_append.mp member with before | last
    · exact .inl (List.mem_of_mem_filter before)
    · exact .inr (List.mem_singleton.mp last)
  refine ⟨fun other member => ?_, nodup_keys_insertEntry proper.distinctKeys entry,
    fun other member => ?_, fun other member => ?_⟩
  · rcases inside member with before | rfl
    · exact proper.foreign other before
    · exact foreign
  · rcases inside member with before | rfl
    · exact proper.tokens other before
    · exact tokens
  · rcases inside member with before | rfl
    · exact proper.distinct other before
    · exact distinct

/-- What is read into a map are proper entries of it. -/
theorem properEntries_otherFields (tokens : ∀ field ∈ fields, Json.Tokens field.2) :
    ProperEntries names (otherFields names fields) := by
  unfold otherFields
  have each : ∀ field ∈ fields.filter (·.1 ∉ names), field.1 ∉ names ∧ Json.Tokens field.2 :=
    fun field member => ⟨of_decide_eq_true (List.mem_filter.mp member).2,
      tokens field (List.mem_of_mem_filter member)⟩
  generalize fields.filter (·.1 ∉ names) = others at each
  have start : ProperEntries names [] := ⟨by simp, List.nodup_nil, by simp, by simp⟩
  generalize ([] : List (Text × Json)) = entries at start
  induction others generalizing entries with
  | nil => exact start
  | cons field others inductionHypothesis =>
      rw [List.forall_mem_cons] at each
      rw [List.foldl_cons]
      exact inductionHypothesis each.2 _ (start.insertEntry each.1.1 each.1.2.canonicalize
        (Json.distinct_canonicalize field.2))

/-- The value of the last entry with a key. -/
def lastValue (fields : List (Text × Json)) (key : Text) : Option Json :=
  (fields.filter (·.1 = key)).getLast?.map Prod.snd

theorem lastValue_concat (fields : List (Text × Json)) (field : Text × Json) (key : Text) :
    lastValue (fields ++ [field]) key =
      if field.1 = key then some field.2 else lastValue fields key := by
  unfold lastValue
  split
  next isKey => simp [List.filter_append, isKey]
  next other => simp [List.filter_append, other]

theorem otherFields_concat (names : List Text) (fields : List (Text × Json))
    (field : Text × Json) :
    otherFields names (fields ++ [field]) =
      if field.1 ∈ names then otherFields names fields
      else insertEntry (otherFields names fields) (field.1, field.2.canonicalize) := by
  unfold otherFields
  split
  next isName => simp [List.filter_append, isName]
  next foreign => simp [List.filter_append, List.foldl_append, foreign]

theorem mem_insertEntry_iff {entry other : Text × Json} :
    other ∈ insertEntry entries entry ↔ other ∈ entries ∧ other.1 ≠ entry.1 ∨ other = entry := by
  rw [insertEntry, List.mem_append, List.mem_filter, List.mem_singleton, decide_eq_true_eq]

/-- **A map keeps the last value** of every key that is not a field of the struct. -/
theorem mem_otherFields_iff {key : Text} {value : Json} :
    (key, value) ∈ otherFields names fields ↔
      key ∉ names ∧ ∃ last, lastValue fields key = some last ∧ value = last.canonicalize := by
  induction fields using List.reverseRecOn with
  | nil => simp [otherFields, lastValue]
  | append_singleton fields field inductionHypothesis =>
      rw [otherFields_concat, lastValue_concat]
      by_cases isKey : field.1 = key
      · subst isKey
        split
        next isName => simp [inductionHypothesis, isName]
        next foreign => simp [mem_insertEntry_iff, foreign]
      · rw [if_neg isKey, ← inductionHypothesis]
        split
        next => rfl
        next foreign =>
          rw [mem_insertEntry_iff]
          refine ⟨fun member => ?_, fun member => .inl ⟨member, fun same => isKey same.symm⟩⟩
          exact member.elim And.left fun same => absurd (congrArg Prod.fst same).symm isKey

theorem nodup_keys_otherFields (names : List Text) (fields : List (Text × Json)) :
    ((otherFields names fields).map Prod.fst).Nodup := by
  induction fields using List.reverseRecOn with
  | nil => exact List.nodup_nil
  | append_singleton fields field inductionHypothesis =>
      rw [otherFields_concat]
      split
      next => exact inductionHypothesis
      next => exact nodup_keys_insertEntry inductionHypothesis _

/-- The values of a map, as they are read. -/
def canonicalEntries (entries : List (Text × Json)) : List (Text × Json) :=
  entries.map fun entry => (entry.1, entry.2.canonicalize)

theorem foldl_insertEntry (distinctKeys : ((entries ++ fields).map Prod.fst).Nodup) :
    fields.foldl (fun entries field => insertEntry entries (field.1, field.2.canonicalize))
      entries = entries ++ canonicalEntries fields := by
  induction fields generalizing entries with
  | nil => rw [List.foldl_nil, canonicalEntries, List.map_nil, List.append_nil]
  | cons field fields inductionHypothesis =>
      have absent : ∀ entry ∈ entries, entry.1 ≠ field.1 := by
        rw [List.map_append, List.nodup_append] at distinctKeys
        exact fun entry member => distinctKeys.2.2 entry.1 (List.mem_map_of_mem member) field.1
          List.mem_cons_self
      have inserted : insertEntry entries (field.1, field.2.canonicalize) =
          entries ++ [(field.1, field.2.canonicalize)] := by
        rw [insertEntry, List.filter_eq_self.mpr]
        exact fun entry member => decide_eq_true (absent entry member)
      have again : ((entries ++ [(field.1, field.2.canonicalize)] ++ fields).map
        Prod.fst).Nodup := by
        simpa using distinctKeys
      rw [List.foldl_cons, inserted, inductionHypothesis again, List.append_assoc]
      rfl

/-- Reading the entries that were written after the fields of a struct. -/
theorem otherFields_append {own : List (Text × Json)} (isOwn : ∀ field ∈ own, field.1 ∈ names)
    (proper : ProperEntries names entries) :
    otherFields names (own ++ entries) = canonicalEntries entries := by
  have others : (own ++ entries).filter (·.1 ∉ names) = entries := by
    rw [List.filter_append, List.filter_eq_nil_iff.mpr, List.nil_append, List.filter_eq_self.mpr]
    · exact fun entry member => decide_eq_true (proper.foreign entry member)
    · exact fun field member => by simpa using isOwn field member
  rw [otherFields, others, foldl_insertEntry (by simpa using proper.distinctKeys), List.nil_append]

/-- A field of a struct is not found among its other entries. -/
theorem ownField_append {own : List (Text × Json)} {name : Text} (isName : name ∈ names)
    (proper : ProperEntries names entries) :
    ownField (own ++ entries) name = ownField own name := by
  have absent : entries.filter (·.1 = name) = [] := by
    refine List.filter_eq_nil_iff.mpr fun entry member => ?_
    simp only [decide_eq_true_eq]
    rintro rfl
    exact proper.foreign entry member isName
  simp only [ownField, List.filter_append, absent, List.append_nil]

end Entries

/-! ## What is read -/

/-- What the types of a request allow, with no entry in the place of a field. -/
structure InferenceRequest.Proper (request : InferenceRequest) : Prop where
  messages : ∀ message ∈ request.messages, ProperEntries ChatMessage.names message.extra
  maxTokens : ∀ token ∈ request.maxTokens, IsU32 token
  temperature : request.temperature ≠ some .infinite
  providerOptions : ProperEntries InferenceRequest.names request.providerOptions

theorem isNumber_of_isU32 {token : Text} (isU32 : IsU32 token) : Json.IsNumber token := by
  obtain ⟨isDecimal, _⟩ := isU32
  simp only [Common.isDecimal, Bool.and_eq_true, Bool.not_eq_true', List.isEmpty_eq_false_iff,
    List.all_eq_true] at isDecimal
  obtain ⟨nonempty, all⟩ := isDecimal
  refine ⟨nonempty, fun char member => ?_⟩
  have digits : (text "0123456789").all Json.isNumberChar = true := by decide
  exact List.all_eq_true.mp digits char (List.elem_iff.mp (all char member))

section Reading

variable {fields : List (Text × Json)} {name : Text} {value : Json}

theorem mem_of_ownField (found : ownField fields name = some (some value)) :
    ∃ field ∈ fields, field.2 = value := by
  unfold ownField at found
  split at found
  next => simp at found
  next field one =>
    have member : field ∈ fields := List.mem_of_mem_filter (one ▸ List.mem_singleton_self field)
    exact ⟨field, member, Option.some.inj (Option.some.inj found)⟩
  next => contradiction

theorem mem_of_requiredField (found : requiredField fields name = some value) :
    ∃ field ∈ fields, field.2 = value := by
  cases own : ownField fields name with
  | none =>
      rw [requiredField, own] at found
      contradiction
  | some field =>
      rw [requiredField, own, Option.join_some] at found
      rw [found] at own
      exact mem_of_ownField own

theorem ChatMessage.proper_of_ofJson {document : Json} {message : ChatMessage}
    (tokens : Json.Tokens document) (read : ChatMessage.ofJson document = some message) :
    ProperEntries ChatMessage.names message.extra := by
  cases document with
  | object fields =>
      rw [Json.Tokens, Json.tokensFields_iff] at tokens
      simp only [ChatMessage.ofJson, Option.bind_eq_bind, Option.bind_eq_some_iff,
        Option.pure_def, Option.some.injEq] at read
      obtain ⟨role, _, content, _, rfl⟩ := read
      exact properEntries_otherFields tokens
  | _ => contradiction

theorem of_readOption {α : Type} {read : Json → Option α} {document : Option Json} {result : α}
    (isRead : readOption read document = some (some result)) :
    ∃ value, document = some value ∧ read value = some result := by
  rcases document with none | document
  · simp [readOption] at isRead
  · cases document with
    | null => simp [readOption] at isRead
    | _ =>
        simp only [readOption, Option.map_eq_some_iff, Option.some.injEq, exists_eq_right] at isRead
        exact ⟨_, rfl, isRead⟩

theorem forall₂_of_mapM {α β : Type} {read : α → Option β} {items : List α} {results : List β}
    (isRead : items.mapM read = some results) :
    List.Forall₂ (fun item result => read item = some result) items results := by
  induction items generalizing results with
  | nil =>
      rw [List.mapM_nil, Option.pure_def, Option.some.injEq] at isRead
      subst isRead
      exact .nil
  | cons item items inductionHypothesis =>
      simp only [List.mapM_cons, Option.bind_eq_bind, Option.bind_eq_some_iff, Option.pure_def,
        Option.some.injEq] at isRead
      obtain ⟨first, isFirst, rest, isRest, rfl⟩ := isRead
      exact .cons isFirst (inductionHypothesis isRest)

theorem forall_of_mapM {α β : Type} {read : α → Option β} {items : List α} {results : List β}
    (isRead : items.mapM read = some results) :
    ∀ result ∈ results, ∃ item ∈ items, read item = some result := by
  intro result member
  have pairs := forall₂_of_mapM isRead
  obtain ⟨i, inside, rfl⟩ := List.mem_iff_getElem.mp member
  have inItems : i < items.length := by
    rw [pairs.length_eq]
    exact inside
  exact ⟨items[i], List.getElem_mem inItems, (List.forall₂_iff_get.mp pairs).2 i inItems inside⟩

end Reading

/-- **What is read is proper.** -/
theorem InferenceRequest.proper_of_ofJson {codec : Codec} {document : Json}
    {request : InferenceRequest} (tokens : Json.Tokens document)
    (read : InferenceRequest.ofJson codec document = some request)
    (finite : request.temperature ≠ some .infinite) : request.Proper := by
  cases document with
  | object fields =>
      rw [Json.Tokens, Json.tokensFields_iff] at tokens
      simp only [InferenceRequest.ofJson, Option.bind_eq_bind, Option.bind_eq_some_iff,
        Option.pure_def, Option.some.injEq] at read
      obtain ⟨idText, _, requestId, _, model, _, messages, ⟨list, isList, isMessages⟩,
        maxTokens, ⟨limit, _, isMaxTokens⟩, temperature, _, stream, _, tokenClass, _, ticket, _,
        rfl⟩ := read
      refine ⟨fun message member => ?_, fun token isToken => ?_, finite,
        properEntries_otherFields tokens⟩
      · obtain ⟨field, inFields, rfl⟩ := mem_of_requiredField isList
        have tokensList := tokens field inFields
        cases isArray : field.2 with
        | array items =>
            rw [isArray] at isMessages tokensList
            rw [Json.Tokens, Json.tokensItems_iff] at tokensList
            obtain ⟨item, inItems, isItem⟩ := forall_of_mapM isMessages message member
            exact ChatMessage.proper_of_ofJson (tokensList item inItems) isItem
        | _ =>
            rw [isArray] at isMessages
            contradiction
      · rw [Option.mem_def] at isToken
        subst isToken
        obtain ⟨value, _, isValue⟩ := of_readOption isMaxTokens
        cases value with
        | number content =>
            rw [readU32, Option.ite_none_right_eq_some, Option.some.injEq] at isValue
            exact isValue.2 ▸ isValue.1
        | _ => contradiction
  | _ => contradiction

/-! ## Reading what was written -/

def ChatMessage.canonical (message : ChatMessage) : ChatMessage :=
  { message with extra := canonicalEntries message.extra }

/-- A request as it is read after it was written. -/
def InferenceRequest.canonical (request : InferenceRequest) : InferenceRequest :=
  { request with
    messages := request.messages.map ChatMessage.canonical
    providerOptions := canonicalEntries request.providerOptions }

theorem TokenClass.ofName_serdeName (tokenClass : TokenClass) :
    TokenClass.ofName tokenClass.serdeName = some tokenClass := by
  cases tokenClass <;> decide

theorem ZkTicket.ofJson_toJson (ticket : ZkTicket) :
    ZkTicket.ofJson ticket.toJson = some ticket := by
  have fields : ZkTicket.ofJson ticket.toJson = ZkTicket.ofFields
      (.string (Base64.encode ticket.commitmentRoot)) (.string (Base64.encode ticket.nullifier))
      (.string ticket.tokenClass.serdeName) (.string (Base64.encode ticket.proof)) := rfl
  rw [fields]
  simp [ZkTicket.ofFields, readB64Bytes, Base64.decode_encode, TokenClass.ofJson,
    TokenClass.ofName_serdeName]

theorem ChatMessage.ofJson_toJson {message : ChatMessage}
    (proper : ProperEntries ChatMessage.names message.extra) :
    ChatMessage.ofJson message.toJson = some message.canonical := by
  have isOwn : ∀ field ∈ [(text "role", Json.string message.role),
      (text "content", Json.string message.content)], field.1 ∈ ChatMessage.names := by
    simp [ChatMessage.names]
  have split : message.toJson = .object ([(text "role", .string message.role),
      (text "content", .string message.content)] ++ message.extra) := rfl
  have role : ownField [(text "role", Json.string message.role),
      (text "content", Json.string message.content)] (text "role") =
      some (some (.string message.role)) := rfl
  have content : ownField [(text "role", Json.string message.role),
      (text "content", Json.string message.content)] (text "content") =
      some (some (.string message.content)) := rfl
  have roleName : text "role" ∈ ChatMessage.names := by decide
  have contentName : text "content" ∈ ChatMessage.names := by decide
  simp only [split, ChatMessage.ofJson, requiredField, ownField_append roleName proper, role,
    ownField_append contentName proper, content, otherFields_append isOwn proper]
  rfl

/-- The entries of a request that are not provider options. -/
def InferenceRequest.ownFields (request : InferenceRequest) : List (Text × Json) := [
    (text "request_id", .string (Uuid.toText request.requestId)),
    (text "model", .string request.model),
    (text "messages", .array (request.messages.map ChatMessage.toJson)),
    (text "max_tokens", optionJson .number request.maxTokens),
    (text "temperature", optionJson F32.toJson request.temperature)] ++
    (request.stream.map fun stream => (text "stream", Json.bool stream)).toList ++ [
    (text "token_class", .string request.tokenClass.serdeName),
    (text "ticket", request.ticket.toJson)]

theorem InferenceRequest.toJson_eq (request : InferenceRequest) :
    request.toJson = .object (request.ownFields ++ request.providerOptions) := by
  rw [toJson, ownFields, List.append_assoc]

theorem InferenceRequest.ownField_eq (request : InferenceRequest) :
    ownField request.ownFields (text "request_id") =
        some (some (.string (Uuid.toText request.requestId))) ∧
      ownField request.ownFields (text "model") = some (some (.string request.model)) ∧
      ownField request.ownFields (text "messages") =
        some (some (.array (request.messages.map ChatMessage.toJson))) ∧
      ownField request.ownFields (text "max_tokens") =
        some (some (optionJson .number request.maxTokens)) ∧
      ownField request.ownFields (text "temperature") =
        some (some (optionJson F32.toJson request.temperature)) ∧
      ownField request.ownFields (text "stream") = some (request.stream.map Json.bool) ∧
      ownField request.ownFields (text "token_class") =
        some (some (.string request.tokenClass.serdeName)) ∧
      ownField request.ownFields (text "ticket") = some (some request.ticket.toJson) := by
  unfold ownFields
  cases request.stream <;> exact ⟨rfl, rfl, rfl, rfl, rfl, rfl, rfl, rfl⟩

theorem readOption_optionJson {α : Type} {read : Json → Option α} {write : α → Json}
    {content : Option α} (back : ∀ value ∈ content, write value ≠ .null ∧
      read (write value) = some value) :
    readOption read (some (optionJson write content)) = some content := by
  cases content with
  | none => rfl
  | some value =>
      obtain ⟨notNull, isRead⟩ := back value rfl
      rw [optionJson, readOption, isRead, Option.map_some]
      exact notNull

theorem readArray_map {α : Type} {read : Json → Option α} {write : α → Json} {change : α → α}
    {items : List α} (back : ∀ item ∈ items, read (write item) = some (change item)) :
    readArray read (.array (items.map write)) = some (items.map change) := by
  induction items with
  | nil => rfl
  | cons item items inductionHypothesis =>
      rw [List.forall_mem_cons] at back
      have rest := inductionHypothesis back.2
      rw [readArray] at rest ⊢
      simp only [List.map_cons, List.mapM_cons, back.1, rest, Option.bind_eq_bind,
        Option.bind_some, Option.pure_def]

/-- The identifier and the temperature of a request are read as they are written. -/
structure Codec.Reads (codec : Codec) (request : InferenceRequest) : Prop where
  requestId : codec.readUuid (Uuid.toText request.requestId) = some request.requestId
  temperature : ∀ token isNumber, request.temperature = some (.finite token isNumber) →
    codec.readSingle token = some (.finite token isNumber)

theorem readOption_temperature {codec : Codec} {request : InferenceRequest}
    (proper : request.Proper) (reads : codec.Reads request) :
    readOption codec.readF32 (some (optionJson F32.toJson request.temperature)) =
      some request.temperature := by
  apply readOption_optionJson
  intro heat isHeat
  cases heat with
  | finite token isNumber => exact ⟨by simp [F32.toJson], reads.temperature token isNumber isHeat⟩
  | infinite => exact absurd isHeat proper.temperature

/-- **A request is read as it was written**, with its values in canonical form. -/
theorem InferenceRequest.ofJson_toJson {codec : Codec} {request : InferenceRequest}
    (proper : request.Proper) (reads : codec.Reads request) :
    InferenceRequest.ofJson codec request.toJson = some request.canonical := by
  have isOwn : ∀ field ∈ request.ownFields, field.1 ∈ names := by
    unfold ownFields
    cases request.stream <;> simp [names]
  have isName : ∀ name ∈ names, ownField (request.ownFields ++ request.providerOptions) name =
      ownField request.ownFields name := fun name member =>
    ownField_append member proper.providerOptions
  have messages := readArray_map fun message member =>
    ChatMessage.ofJson_toJson (proper.messages message member)
  have maxTokens : readOption readU32 (some (optionJson .number request.maxTokens)) =
      some request.maxTokens :=
    readOption_optionJson fun token isToken => ⟨by simp, if_pos (proper.maxTokens token isToken)⟩
  have temperature := readOption_temperature proper reads
  have stream : readOption readBool (request.stream.map Json.bool) = some request.stream := by
    cases request.stream <;> rfl
  obtain ⟨isId, isModel, isMessages, isMaxTokens, isTemperature, isStream, isClass, isTicket⟩ :=
    request.ownField_eq
  simp only [names, List.forall_mem_cons] at isName
  obtain ⟨onId, onModel, onMessages, onMaxTokens, onTemperature, onStream, onClass, onTicket, _⟩ :=
    isName
  rw [toJson_eq]
  simp only [ofJson, requiredField, onId, onModel, onMessages, onMaxTokens, onTemperature,
    onStream, onClass, onTicket, isId, isModel, isMessages, isMaxTokens, isTemperature, isStream,
    isClass, isTicket, Option.join_some, Option.bind_eq_bind, Option.bind_some, readString,
    reads.requestId, messages, maxTokens, temperature, stream, TokenClass.ofJson,
    TokenClass.ofName_serdeName,
    ZkTicket.ofJson_toJson, otherFields_append isOwn proper.providerOptions, Option.pure_def]
  rfl

/-! ## A codec -/

def ofHex : Text → Bytes
  | high :: low :: rest => .ofNat (16 * Json.hexValue high + Json.hexValue low) :: ofHex rest
  | _ => []

/-- A UUID in its hyphenated form. -/
def Uuid.ofText (content : Text) : Option Uuid :=
  let bytes := ofHex (content.filter (· ≠ '-'))
  if long : bytes.length = 16 then
    if toText ⟨bytes, long⟩ = content then some ⟨bytes, long⟩ else none
  else none

/-- A number that is taken as it is. -/
def F32.ofToken (token : Text) : Option F32 :=
  if isNumber : Json.isNumber token = true then some (.finite token isNumber) else none

/-- A codec that takes all numbers as they are. -/
def Codec.standard : Codec where
  scan bytes := Json.parse some bytes.length bytes
  readNumber := some
  readSingle := F32.ofToken
  readUuid := Uuid.ofText

theorem ofHex_toHex (bytes : Bytes) : ofHex (toHex bytes) = bytes := by
  have digits : ∀ n < 256, 16 * Json.hexValue (hexDigit (n / 16)) +
      Json.hexValue (hexDigit (n % 16)) = n := by decide +kernel
  induction bytes with
  | nil => rfl
  | cons byte bytes inductionHypothesis =>
      have rest : toHex (byte :: bytes) =
          hexDigit (byte.toNat / 16) :: hexDigit (byte.toNat % 16) :: toHex bytes := rfl
      rw [rest, ofHex, inductionHypothesis, digits byte.toNat byte.toNat_lt, UInt8.ofNat_toNat]

theorem filter_toHex (bytes : Bytes) : (toHex bytes).filter (· ≠ '-') = toHex bytes := by
  have noHyphen : isHexDigit '-' = false := by decide
  apply List.filter_eq_self.mpr
  intro char member
  rw [decide_eq_true_eq]
  rintro rfl
  rw [isHexDigit_of_mem_toHex member] at noHyphen
  contradiction

theorem Uuid.filter_toText (id : Uuid) : (toText id).filter (· ≠ '-') = toHex id.val := by
  have hyphen : ∀ rest : Text, ('-' :: rest).filter (· ≠ '-') = rest.filter (· ≠ '-') :=
    fun rest => rfl
  have joined : ∀ left right, toHex left ++ toHex right = toHex (left ++ right) :=
    fun left right => List.flatMap_append.symm
  simp only [toText, List.filter_append, hyphen, filter_toHex, joined]
  rw [← toText_injective.split]

theorem Uuid.ofText_toText (id : Uuid) : ofText (toText id) = some id := by
  have bytes : ofHex ((toText id).filter (· ≠ '-')) = id.val := by
    rw [filter_toText, ofHex_toHex]
  have long : (ofHex ((toText id).filter (· ≠ '-'))).length = 16 := by
    rw [bytes, id.property]
  have same : (⟨_, long⟩ : Uuid) = id := Subtype.ext bytes
  rw [ofText, dif_pos long, same, if_pos rfl]

end ZkLlmGateway.Common
