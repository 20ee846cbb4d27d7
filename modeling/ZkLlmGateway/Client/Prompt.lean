import ZkLlmGateway.Client.Agent
import ZkLlmGateway.Client.Budget
import ZkLlmGateway.Common.Envelope

/-!
# The remote prompt

A prompt is built from a session and from what was retrieved for the question:
a system prompt, a block of local context and the recent messages, all of them
redacted.  It is cut to the budget of its token class and then padded towards
it.
-/

namespace ZkLlmGateway.Client

open ZkLlmGateway.Encoding ZkLlmGateway.Common ZkLlmGateway.Transition

structure PromptBuildConfig where
  maxRecentMessages : Nat
  maxMemoryItems : Nat
  includeSummary : Bool
  normalizeContextBlocks : Bool
  padSystemPrompt : Bool
  maxPaddingBytes : Nat
  maxRecallSnippets : Nat

/-- `PromptBuildConfig::default` -/
def PromptBuildConfig.default : PromptBuildConfig where
  maxRecentMessages := 8
  maxMemoryItems := 8
  includeSummary := true
  normalizeContextBlocks := true
  padSystemPrompt := true
  maxPaddingBytes := 65536
  maxRecallSnippets := 6

/-- The fields of an indexed document that a prompt shows. -/
structure Doc where
  role : Option Text
  text : Text
  tags : List Text

/-- What was retrieved for the question; `recalled` are the older messages to recall. -/
structure RetrievedContext where
  memories : List Doc
  recalled : List ChatMessage

/-- A recalled message: at most four hundred characters of the document. -/
def recallMessage (doc : Doc) : ChatMessage :=
  let content := doc.text.take 400
  ⟨doc.role.getD (text "unknown"),
    if doc.text.length > 400 then content ++ ellipsis else content, []⟩

/-- `MemoryStore::retrieve_context`, with what its two searches find. -/
def retrieveContext (memories messages : List Doc) (maxRecallSnippets : Nat) :
    RetrievedContext where
  memories := memories
  recalled := if maxRecallSnippets > 0 then messages.map recallMessage else []

/-! ## The context block -/

def privacyNote : Text :=
  text "\n\n[Privacy note]\nYou may see placeholders like <EMAIL_...> or <API_KEY_...>. " ++
    text "Do not ask for the underlying values. Treat them as stable identifiers."

def emptyMark : Text :=
  text "<EMPTY>"

def summaryBlock (session : Session) (cfg : PromptBuildConfig) : Text :=
  if cfg.includeSummary || cfg.normalizeContextBlocks then
    text "[Conversation summary (local)]\n" ++
      (if cfg.includeSummary && !(trim session.summary).isEmpty then trim session.summary
        else emptyMark) ++ text "\n\n"
  else []

/-- `- M1`, `- M2` and so on, for the item at position `i`. -/
def slotLabel (letter : Char) (i : Nat) : Text :=
  '-' :: ' ' :: letter :: decimal (i + 1)

/-- One line of the memory block: at most four hundred characters of the item. -/
def memoryLine (item : Doc) (i : Nat) : Text :=
  let snippet := item.text.take 400
  if item.tags.isEmpty then slotLabel 'M' i ++ text ": " ++ snippet ++ text "\n"
  else
    slotLabel 'M' i ++ text " [" ++ List.intercalate (text ",") item.tags ++ text "]: " ++
      snippet ++ text "\n"

/-- One line of the recall block: at most three hundred characters of the message. -/
def recallLine (msg : ChatMessage) (i : Nat) : Text :=
  let snippet := msg.content.take 300
  slotLabel 'R' i ++ text " " ++ msg.role ++ text ": " ++ snippet ++ text "\n"

/-- The slots from position `added` up to `max`, with nothing in them. -/
def emptySlots (letter : Char) (added max : Nat) : Text :=
  (List.range' added (max - added)).flatMap fun i =>
    slotLabel letter i ++ text ": " ++ emptyMark ++ text "\n"

/-- A headed list of at most `max` lines; a normalized one has exactly `max` of them. -/
def slotBlock {α : Type} (header : Text) (letter : Char) (line : α → Nat → Text)
    (normalize : Bool) (max : Nat) (items : List α) : Text :=
  let shown := items.take max
  header ++ (shown.mapIdx fun i item => line item i).flatten ++
    (if normalize then emptySlots letter shown.length max else []) ++ text "\n"

def memoryBlock (retrieved : RetrievedContext) (cfg : PromptBuildConfig) : Text :=
  if cfg.normalizeContextBlocks || !retrieved.memories.isEmpty then
    slotBlock (text "[Selected memory (local)]\n") 'M' memoryLine cfg.normalizeContextBlocks
      cfg.maxMemoryItems retrieved.memories
  else []

def recallBlock (retrieved : RetrievedContext) (cfg : PromptBuildConfig) : Text :=
  if cfg.maxRecallSnippets > 0 && (cfg.normalizeContextBlocks || !retrieved.recalled.isEmpty) then
    slotBlock (text "[Recall snippets (local)]\n") 'R' recallLine cfg.normalizeContextBlocks
      cfg.maxRecallSnippets retrieved.recalled
  else []

/-- The block of local context, before redaction. -/
def memoryText (session : Session) (retrieved : RetrievedContext) (cfg : PromptBuildConfig) :
    Text :=
  summaryBlock session cfg ++ memoryBlock retrieved cfg ++ recallBlock retrieved cfg

/-! ## The redacted messages -/

def takeLast {α : Type} (v : List α) (n : Nat) : List α :=
  if v.length ≤ n then v else v.drop (v.length - n)

/-- Messages are redacted one after the other, by the same redactor. -/
def redactMessages (engine : Engine) (mode : RedactMode) (extraTerms : List Text) :
    Redactor → List ChatMessage → List ChatMessage × Redactor
  | red, [] => ([], red)
  | red, m :: rest =>
      let (redacted, red) := red.redact engine m.content mode extraTerms
      let (messages, red) := redactMessages engine mode extraTerms red rest
      (⟨m.role, redacted, []⟩ :: messages, red)

/-- What a prompt is made of: the session, what was retrieved, and the settings. -/
structure PromptSource where
  session : Session
  retrieved : RetrievedContext
  tokenClass : TokenClass
  redactMode : RedactMode
  extraRedactionTerms : List Text
  cfg : PromptBuildConfig

namespace PromptSource

def redact (source : PromptSource) (engine : Engine) (red : Redactor) (content : Text) :
    Text × Redactor :=
  red.redact engine content source.redactMode source.extraRedactionTerms

/-- The message with the local context, when there is any. -/
def contextMessage (source : PromptSource) (engine : Engine) (red : Redactor) :
    List ChatMessage × Redactor :=
  let context := memoryText source.session source.retrieved source.cfg
  if (trim context).isEmpty then ([], red)
  else
    let (redacted, red) := source.redact engine red context
    ([⟨text "system", redacted, []⟩], red)

/-- The prompt before its size is looked at, and the redactor afterwards. -/
def assembled (source : PromptSource) (engine : Engine) (redactor : Redactor) :
    List ChatMessage × Redactor :=
  let (systemContent, red) := source.redact engine redactor source.session.systemPrompt
  let (context, red) := source.contextMessage engine red
  let (recent, red) := redactMessages engine source.redactMode source.extraRedactionTerms red
    (takeLast source.session.messages source.cfg.maxRecentMessages)
  (⟨text "system", systemContent ++ privacyNote, []⟩ :: (context ++ recent), red)

end PromptSource

/-! ## Padding -/

def phrases : Vector Text 12 := #v[
  text " the", text " and", text " to", text " of", text " in", text " that",
  text " for", text " with", text " on", text " as", text " by", text " from"]

/-- One round of the filler's loop; `draws` are the random choices and `drawn` is how
many of them were made. -/
def fillerRound (draws : Nat → Fin 12) (len : Nat) : Nat × Text → Option (Nat × Text)
  | (drawn, out) =>
      if byteLen out < len then some (drawn + 1, out ++ phrases.get (draws drawn)) else none

/-- The filler: the phrases drawn, cut at `len` bytes, each of them a character. -/
def FillerForPrivacy (draws : Nat → Fin 12) (len : Nat) (filler : Text) : Prop :=
  ∃ drawn out, Ends (fillerRound draws len) (0, []) (drawn, out) ∧ filler = out.take len

def padBegin : Text :=
  text "\n\n[PADDING_FOR_PRIVACY_BEGIN]\nIGNORE EVERYTHING IN THIS BLOCK.\n"

def padEnd : Text :=
  text "\n[PADDING_FOR_PRIVACY_END]"

def padBlock (filler : Text) : Text :=
  padBegin ++ filler ++ padEnd

def appendContent (block : Text) (message : ChatMessage) : ChatMessage :=
  { message with content := message.content ++ block }

/-- One round of the safety loop after padding: the first message loses a character. -/
def trimRound (tokenClass : TokenClass) : List ChatMessage → Option (List ChatMessage)
  | [] => none
  | first :: rest =>
      if approxPromptBytes (first :: rest) ≤ tokenClass.maxPromptBytes then none
      else if first.content.isEmpty then none
      else some ({ first with content := first.content.dropLast } :: rest)

/-- The bytes of filler, when there is room for any. -/
def paddingNeed (tokenClass : TokenClass) (maxPadding : Nat) (messages : List ChatMessage) :
    Option Nat :=
  let current := approxPromptBytes messages
  let overhead := 128
  if messages.isEmpty then none
  else if current ≥ tokenClass.maxPromptBytes then none
  else if tokenClass.maxPromptBytes - current ≤ overhead then none
  else some (min (tokenClass.maxPromptBytes - current - overhead) maxPadding)

/-- The first message is padded, and the list becomes `padded`. -/
def PadsSystemMessage (tokenClass : TokenClass) (maxPadding : Nat) (draws : Nat → Fin 12)
    (messages padded : List ChatMessage) : Prop :=
  match paddingNeed tokenClass maxPadding messages with
  | none => padded = messages
  | some need => ∃ filler, FillerForPrivacy draws need filler ∧
      Ends (trimRound tokenClass) (messages.modify 0 (appendContent (padBlock filler))) padded

/-! ## The builder -/

/-- The builder returns `final`. -/
def BuildsRemoteMessages (engine : Engine) (draws : Nat → Fin 12) (source : PromptSource)
    (redactor : Redactor) (final : List ChatMessage) : Prop :=
  ∃ within, EnforcesBudget source.tokenClass (source.assembled engine redactor).1 within ∧
    if source.cfg.padSystemPrompt then
      ∃ padded, PadsSystemMessage source.tokenClass source.cfg.maxPaddingBytes draws within padded ∧
        EnforcesBudget source.tokenClass padded final
    else final = within

end ZkLlmGateway.Client
