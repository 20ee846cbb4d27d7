import ZkLlmGateway.Client.Fitting
import ZkLlmGateway.Client.Prompt
import ZkLlmGateway.Gateway.Outcome

/-!
# Two measures of a prompt

The client counts the bytes of the roles and texts of a prompt; the gateway
counts the bytes of the serialized messages, with their punctuation and escapes.
A prompt that the client has fitted and padded passes the gateway's check
exactly when it leaves room for the difference.
-/

namespace ZkLlmGateway.Client

open ZkLlmGateway.Encoding ZkLlmGateway.Common ZkLlmGateway.Transition ZkLlmGateway.Interaction

/-! ## The serialized length -/

/-- The bytes by which escaping lengthens a message. -/
def messageEscapes (message : ChatMessage) : Nat :=
  Json.escapeCosts message.role + Json.escapeCosts message.content

def promptEscapes (messages : List ChatMessage) : Nat :=
  (messages.map messageEscapes).sum

/-- Messages without unknown fields. -/
def Bare (messages : List ChatMessage) : Prop :=
  ∀ message ∈ messages, message.extra = []

@[simp]
theorem promptEscapes_cons (message : ChatMessage) (messages : List ChatMessage) :
    promptEscapes (message :: messages) = messageEscapes message + promptEscapes messages := by
  simp [promptEscapes]

/-- The names of the two fields and the punctuation take twenty-four bytes. -/
theorem byteLen_render_toJson {message : ChatMessage} (bare : message.extra = []) :
    byteLen message.toJson.render = messageBytes message + messageEscapes message + 24 := by
  have role : byteLen (Json.renderString (text "role")) = 6 := by decide
  have content : byteLen (Json.renderString (text "content")) = 9 := by decide
  have punctuation : '\x7b'.utf8Size = 1 ∧ '\x7d'.utf8Size = 1 ∧ ':'.utf8Size = 1 ∧
      ','.utf8Size = 1 := by decide
  obtain ⟨opening, closing, colon, comma⟩ := punctuation
  simp only [ChatMessage.toJson, bare, Json.render, Json.renderFields, Json.renderMoreFields,
    Json.renderField, byteLen_cons, byteLen_append, byteLen_nil, Json.byteLen_renderString
    message.role, Json.byteLen_renderString message.content, role, content, opening, closing,
    colon, comma, messageBytes, messageEscapes]
  omega

theorem byteLen_renderMoreItems {messages : List ChatMessage} (bare : Bare messages) :
    byteLen (Json.renderMoreItems (messages.map ChatMessage.toJson)) =
      approxPromptBytes messages + promptEscapes messages + 25 * messages.length := by
  induction messages with
  | nil => rfl
  | cons message messages inductionHypothesis =>
      have comma : ','.utf8Size = 1 := by decide
      have first := byteLen_render_toJson (bare message List.mem_cons_self)
      have rest := inductionHypothesis fun other member =>
        bare other (List.mem_cons_of_mem _ member)
      rw [List.map_cons, Json.renderMoreItems, byteLen_cons, byteLen_append, first, rest, comma,
        approxPromptBytes_cons, promptEscapes_cons, List.length_cons]
      omega

/-- **The gateway's measure in terms of the client's**: the escapes, twenty-five bytes
for each message and one more. -/
theorem serializedBytes_eq {messages : List ChatMessage} (nonempty : messages ≠ [])
    (bare : Bare messages) : Gateway.approxPromptBytes messages =
      approxPromptBytes messages + promptEscapes messages + 25 * messages.length + 1 := by
  have brackets : '['.utf8Size = 1 ∧ ']'.utf8Size = 1 := by decide
  cases messages with
  | nil => contradiction
  | cons message messages =>
      have first := byteLen_render_toJson (bare message List.mem_cons_self)
      have rest := byteLen_renderMoreItems fun other member =>
        bare other (List.mem_cons_of_mem _ member)
      rw [Gateway.approxPromptBytes, List.map_cons, Json.render, Json.renderItems, byteLen_cons,
        byteLen_append, byteLen_append, first, rest, byteLen_cons, byteLen_nil, brackets.1,
        brackets.2, approxPromptBytes_cons, promptEscapes_cons, List.length_cons]
      omega

/-! ## Filler -/

section Filler

variable {draws : Nat → Fin 12} {len : Nat} {filler : Text}

theorem plain_phrases : ∀ i : Fin 12, Json.Plain (phrases.get i) := by
  decide

theorem FillerForPrivacy.plain (isFiller : FillerForPrivacy draws len filler) :
    filler.length = len ∧ Json.Plain filler := by
  obtain ⟨drawn, out, ends, rfl⟩ := isFiller
  have last := ends.invariant (fun state => Json.Plain state.2) (by simp [Json.Plain])
    fun state next plain round => by
      obtain ⟨drawn, out⟩ := state
      rw [fillerRound, Option.ite_none_right_eq_some, Option.some.injEq] at round
      rw [← round.2]
      intro char member
      rcases List.mem_append.mp member with before | phrase
      · exact plain char before
      · exact plain_phrases _ char phrase
  obtain ⟨plain, stopped⟩ := last
  rw [fillerRound, ite_eq_right_iff] at stopped
  have enough : len ≤ byteLen out := by
    by_contra short
    have impossible := stopped (Nat.lt_of_not_le short)
    contradiction
  rw [plain.byteLen_eq] at enough
  exact ⟨List.length_take_of_le enough, fun char member => plain char (List.mem_of_mem_take member)⟩

/-- Enough phrases are drawn at some time. -/
theorem exists_fillerForPrivacy (draws : Nat → Fin 12) (len : Nat) :
    ∃ filler, FillerForPrivacy draws len filler := by
  have longer : ∀ i : Fin 12, 0 < byteLen (phrases.get i) := by decide
  have smaller : ∀ state next : Nat × Text, True → fillerRound draws len state = some next →
      True ∧ len - byteLen next.2 < len - byteLen state.2 := by
    rintro ⟨drawn, out⟩ next _ round
    rw [fillerRound, Option.ite_none_right_eq_some, Option.some.injEq] at round
    obtain ⟨short, rfl⟩ := round
    have more := longer (draws drawn)
    simp only [byteLen_append] at short ⊢
    exact ⟨trivial, by omega⟩
  obtain ⟨⟨drawn, out⟩, ends⟩ := exists_ends (fun state : Nat × Text => len - byteLen state.2)
    trivial smaller
  exact ⟨out.take len, drawn, out, ends, rfl⟩

theorem byteLen_padBlock (plain : Json.Plain filler) :
    byteLen (padBlock filler) = filler.length + 89 := by
  have opening : byteLen padBegin = 63 := by decide +kernel
  have closing : byteLen padEnd = 26 := by decide +kernel
  rw [padBlock, byteLen_append, byteLen_append, plain.byteLen_eq, opening, closing]
  omega

theorem escapeCosts_padBlock (plain : Json.Plain filler) :
    Json.escapeCosts (padBlock filler) = 5 := by
  have opening : Json.escapeCosts padBegin = 4 := by decide +kernel
  have closing : Json.escapeCosts padEnd = 1 := by decide +kernel
  rw [padBlock, Json.escapeCosts_append, Json.escapeCosts_append, plain.escapeCosts_eq, opening,
    closing]

end Filler

/-! ## What the builder returns -/

/-- The bytes that padding adds to the serialized prompt: the filler, the lines around it
and the escapes of their ends. -/
def paddedBytes (tokenClass : TokenClass) (cfg : PromptBuildConfig)
    (messages : List ChatMessage) : Nat :=
  if cfg.padSystemPrompt then
    ((paddingNeed tokenClass cfg.maxPaddingBytes messages).map (· + 94)).getD 0
  else 0

/-- A fitted prompt leaves room for punctuation, escapes and padding. -/
def LeavesRoom (tokenClass : TokenClass) (cfg : PromptBuildConfig)
    (messages : List ChatMessage) : Prop :=
  approxPromptBytes messages + promptEscapes messages + 25 * messages.length + 1 +
    paddedBytes tokenClass cfg messages ≤ tokenClass.maxPromptBytes

instance (tokenClass : TokenClass) (cfg : PromptBuildConfig) (messages : List ChatMessage) :
    Decidable (LeavesRoom tokenClass cfg messages) :=
  inferInstanceAs (Decidable (_ ≤ _))

/-- What the gateway is sent: a system prompt first, and no unknown fields. -/
structure WellFormed (messages : List ChatMessage) : Prop where
  nonempty : messages ≠ []
  systemFirst : SystemFirst messages
  bare : Bare messages

section Builder

variable {tokenClass : TokenClass} {messages padded final : List ChatMessage}

theorem Bare.eraseIdx (bare : Bare messages) (n : Nat) : Bare (messages.eraseIdx n) :=
  fun message member => bare message (List.mem_of_mem_eraseIdx member)

theorem Bare.modify (bare : Bare messages) (change : ChatMessage → ChatMessage)
    (same : ∀ message, (change message).extra = message.extra) (i : Nat) :
    Bare (messages.modify i change) := by
  induction messages generalizing i with
  | nil => simpa using bare
  | cons first rest inductionHypothesis =>
      have later : Bare rest := fun message member => bare message (List.mem_cons_of_mem _ member)
      cases i with
      | zero =>
          rintro message (_ | ⟨_, member⟩)
          · rw [same]
            exact bare first List.mem_cons_self
          · exact later message member
      | succ i =>
          rintro message (_ | ⟨_, member⟩)
          · exact bare first List.mem_cons_self
          · exact inductionHypothesis later i message member

/-- The loop keeps the prompt well formed. -/
theorem WellFormed.enforcesBudget (wellFormed : WellFormed messages)
    (ends : EnforcesBudget tokenClass messages final) : WellFormed final := by
  refine (ends.invariant WellFormed wellFormed fun state next formed isRound => ?_).1
  have round := enforceRound_round tokenClass formed.systemFirst
  rw [isRound] at round
  cases round with
  | @drop n _ positive inside _ _ =>
      refine ⟨fun nothing => ?_, formed.systemFirst.eraseIdx positive, formed.bare.eraseIdx n⟩
      have length := List.length_eraseIdx_of_lt inside
      rw [nothing, List.length_nil] at length
      omega
  | @cut i _ _ _ =>
      refine ⟨fun nothing => formed.nonempty ?_,
        formed.systemFirst.modify isSystem_truncateContent i,
        formed.bare.modify (truncateContent _) (fun _ => rfl) i⟩
      rw [← List.length_eq_zero_iff, ← List.length_modify, nothing, List.length_nil]

theorem bare_redactMessages (engine : Engine) (mode : RedactMode) (extraTerms : List Text)
    (red : Redactor) (list : List ChatMessage) :
    Bare (redactMessages engine mode extraTerms red list).1 := by
  induction list generalizing red with
  | nil => exact fun _ member => absurd member (List.not_mem_nil)
  | cons m rest inductionHypothesis =>
      rintro message (_ | ⟨_, member⟩)
      · rfl
      · exact inductionHypothesis _ message member

theorem bare_contextMessage (source : PromptSource) (engine : Engine) (red : Redactor) :
    Bare (source.contextMessage engine red).1 := by
  intro message member
  simp only [PromptSource.contextMessage] at member
  split at member
  · contradiction
  · rw [List.mem_singleton.mp member]

theorem wellFormed_assembled (source : PromptSource) (engine : Engine) (redactor : Redactor) :
    WellFormed (source.assembled engine redactor).1 := by
  refine ⟨List.cons_ne_nil _ _, fun first isFirst => ?_, fun message member => ?_⟩
  · rw [PromptSource.assembled, List.head?_cons, Option.mem_some_iff] at isFirst
    rw [← isFirst]
    exact decide_eq_true rfl
  · rw [PromptSource.assembled, List.mem_cons, List.mem_append] at member
    rcases member with rfl | inContext | isRecent
    · rfl
    · exact bare_contextMessage _ _ _ message inContext
    · exact bare_redactMessages _ _ _ _ _ message isRecent

theorem enforcesBudget_of_le (within : approxPromptBytes messages ≤ tokenClass.maxPromptBytes) :
    EnforcesBudget tokenClass messages messages :=
  .of_stop (by rw [enforceRound, if_pos within])

theorem EnforcesBudget.eq_self (ends : EnforcesBudget tokenClass messages final)
    (within : approxPromptBytes messages ≤ tokenClass.maxPromptBytes) : final = messages :=
  ends.unique (enforcesBudget_of_le within)

/-- There is room for the filler and for the lines around it. -/
theorem of_paddingNeed {maxPadding need : Nat}
    (needs : paddingNeed tokenClass maxPadding messages = some need) :
    approxPromptBytes messages + need + 128 ≤ tokenClass.maxPromptBytes := by
  simp only [paddingNeed] at needs
  split at needs
  · contradiction
  split at needs
  · contradiction
  split at needs
  · contradiction
  · rw [Option.some.injEq] at needs
    omega

theorem isSystem_appendContent (block : Text) (message : ChatMessage) :
    isSystem (appendContent block message) = isSystem message :=
  rfl

/-- Padding the first message. -/
theorem appendContent_padBlock (first : ChatMessage) {filler : Text} (plain : Json.Plain filler) :
    messageBytes (appendContent (padBlock filler) first) =
        messageBytes first + filler.length + 89 ∧
      messageEscapes (appendContent (padBlock filler) first) = messageEscapes first + 5 := by
  simp only [messageBytes, messageEscapes, appendContent, byteLen_append,
    Json.escapeCosts_append, byteLen_padBlock plain, escapeCosts_padBlock plain]
  omega

/-- What padding leaves: nothing is trimmed again. -/
structure Padded (tokenClass : TokenClass) (need : Nat) (messages padded : List ChatMessage) :
    Prop where
  wellFormed : WellFormed padded
  bytes : approxPromptBytes padded = approxPromptBytes messages + need + 89
  escapes : promptEscapes padded = promptEscapes messages + 5
  length : padded.length = messages.length
  within : approxPromptBytes padded ≤ tokenClass.maxPromptBytes

theorem padded_modify {maxPadding need : Nat} {draws : Nat → Fin 12} {filler : Text}
    (wellFormed : WellFormed messages)
    (needs : paddingNeed tokenClass maxPadding messages = some need)
    (isFiller : FillerForPrivacy draws need filler) :
    Padded tokenClass need messages
      (messages.modify 0 (appendContent (padBlock filler))) := by
  obtain ⟨size, plain⟩ := isFiller.plain
  have room := of_paddingNeed needs
  cases messages with
  | nil => exact absurd rfl wellFormed.nonempty
  | cons first rest =>
      obtain ⟨bytes, escapes⟩ := appendContent_padBlock first plain
      have total : approxPromptBytes
          ((first :: rest).modify 0 (appendContent (padBlock filler))) =
            approxPromptBytes (first :: rest) + need + 89 := by
        rw [List.modify_zero_cons, approxPromptBytes_cons, approxPromptBytes_cons, bytes, size]
        omega
      have systemFirst := wellFormed.systemFirst.modify
        (isSystem_appendContent (padBlock filler)) 0
      have bare := wellFormed.bare.modify (appendContent (padBlock filler)) (fun _ => rfl) 0
      refine ⟨⟨List.cons_ne_nil _ _, systemFirst, bare⟩, total, ?_, rfl, ?_⟩
      · rw [List.modify_zero_cons, promptEscapes_cons, promptEscapes_cons, escapes]
        omega
      · omega

theorem trimRound_of_le (within : approxPromptBytes messages ≤ tokenClass.maxPromptBytes) :
    trimRound tokenClass messages = none := by
  cases messages with
  | nil => rfl
  | cons first rest => rw [trimRound, if_pos within]

/-- Padding a prompt within the budget leaves a prompt within the budget. -/
theorem exists_padsSystemMessage (maxPadding : Nat) (draws : Nat → Fin 12)
    (wellFormed : WellFormed messages)
    (within : approxPromptBytes messages ≤ tokenClass.maxPromptBytes) :
    ∃ padded, PadsSystemMessage tokenClass maxPadding draws messages padded ∧
      EnforcesBudget tokenClass padded padded := by
  cases needs : paddingNeed tokenClass maxPadding messages with
  | none => exact ⟨messages, by rw [PadsSystemMessage, needs], enforcesBudget_of_le within⟩
  | some need =>
      obtain ⟨filler, isFiller⟩ := exists_fillerForPrivacy draws need
      have block := padded_modify wellFormed needs isFiller
      refine ⟨_, ?_, enforcesBudget_of_le block.within⟩
      rw [PadsSystemMessage, needs]
      exact ⟨filler, isFiller, .of_stop (trimRound_of_le block.within)⟩

end Builder

section Agreement

variable {engine : Engine} {draws : Nat → Fin 12} {source : PromptSource} {redactor : Redactor}
  {final : List ChatMessage}

/-- The prompt that is left of a source by the budget of its class. -/
def PromptSource.fitted (source : PromptSource) (engine : Engine) (redactor : Redactor) :
    List ChatMessage :=
  Client.fitted source.tokenClass (source.assembled engine redactor).1

/-- A prompt within the budget is built. -/
theorem exists_buildsRemoteMessages (engine : Engine) (draws : Nat → Fin 12)
    (source : PromptSource) (redactor : Redactor)
    (within : approxPromptBytes (source.assembled engine redactor).1 ≤
      source.tokenClass.maxPromptBytes) :
    ∃ final, BuildsRemoteMessages engine draws source redactor final := by
  have ends := enforcesBudget_of_le within
  cases pads : source.cfg.padSystemPrompt with
  | false => exact ⟨_, _, ends, by rw [pads, if_neg Bool.false_ne_true]⟩
  | true =>
      obtain ⟨padded, isPadded, again⟩ := exists_padsSystemMessage source.cfg.maxPaddingBytes draws
        (wellFormed_assembled source engine redactor) within
      refine ⟨padded, _, ends, ?_⟩
      rw [if_pos pads]
      exact ⟨padded, isPadded, again⟩

/-- **What the gateway counts of a prompt** the builder returns. -/
theorem BuildsRemoteMessages.serializedBytes
    (built : BuildsRemoteMessages engine draws source redactor final) :
    Gateway.approxPromptBytes final =
      approxPromptBytes (source.fitted engine redactor) +
        promptEscapes (source.fitted engine redactor) +
        25 * (source.fitted engine redactor).length + 1 +
        paddedBytes source.tokenClass source.cfg (source.fitted engine redactor) := by
  obtain ⟨within, ends, rest⟩ := built
  have assembled := wellFormed_assembled source engine redactor
  have wellFormed := assembled.enforcesBudget ends
  have isFitted : within = source.fitted engine redactor := ends.eq_fitted assembled.systemFirst
  rw [← isFitted]
  split at rest
  next pads =>
    obtain ⟨padded, isPadded, again⟩ := rest
    rw [paddedBytes, if_pos pads]
    unfold PadsSystemMessage at isPadded
    split at isPadded
    next none =>
      subst isPadded
      rw [again.unique (.of_stop ends.stops), none, Option.map_none, Option.getD_none, Nat.add_zero,
        serializedBytes_eq wellFormed.nonempty wellFormed.bare]
    next need needs =>
      obtain ⟨filler, isFiller, trims⟩ := isPadded
      have block := padded_modify wellFormed needs isFiller
      have kept := trims.unique (.of_stop (trimRound_of_le block.within))
      subst kept
      rw [again.eq_self block.within, needs, Option.map_some, Option.getD_some,
        serializedBytes_eq block.wellFormed.nonempty block.wellFormed.bare, block.bytes,
        block.escapes, block.length]
      omega
  next plain =>
    rw [rest, paddedBytes, if_neg plain, Nat.add_zero,
      serializedBytes_eq wellFormed.nonempty wellFormed.bare]

/-- The gateway takes a prompt: it is within the gateway's own measure, and no request that
carries it in this class is answered with the error for its size. -/
def Accepted (tokenClass : TokenClass) (messages : List ChatMessage) : Prop :=
  Gateway.approxPromptBytes messages ≤ tokenClass.maxPromptBytes ∧
    ∀ (state : Gateway.AppState) (env : Envelope) (req : InferenceRequest),
      req.messages = messages → req.tokenClass = tokenClass →
        (Gateway.inferResult state env req).Returns
          (Gateway.OnError fun error => error.code ≠ Gateway.promptTooLarge)

/-- **Builder and gateway agree** on a prompt exactly when its fitted form leaves room for
the punctuation, the escapes and the padding. -/
theorem accepted_iff_leavesRoom (built : BuildsRemoteMessages engine draws source redactor final) :
    Accepted source.tokenClass final ↔
      LeavesRoom source.tokenClass source.cfg (source.fitted engine redactor) := by
  have count := built.serializedBytes
  rw [LeavesRoom, ← count]
  constructor
  · exact And.left
  · intro fits
    refine ⟨fits, fun state env req isFinal sameClass => ?_⟩
    refine Gateway.code_ne_promptTooLarge ?_ state env
    rwa [isFinal, sameClass]

/-- Padding that its limit does not hold back makes every prompt of two messages too long. -/
theorem not_leavesRoom_of_padded {tokenClass : TokenClass} {cfg : PromptBuildConfig}
    {messages : List ChatMessage} (pads : cfg.padSystemPrompt = true)
    (unlimited : tokenClass.maxPromptBytes ≤ cfg.maxPaddingBytes)
    (several : 2 ≤ messages.length)
    (roomy : approxPromptBytes messages + 128 < tokenClass.maxPromptBytes) :
    ¬LeavesRoom tokenClass cfg messages := by
  have nonempty : messages.isEmpty = false := by
    cases messages with
    | nil => exact absurd several (by decide)
    | cons first rest => rfl
  have needs : paddingNeed tokenClass cfg.maxPaddingBytes messages =
      some (tokenClass.maxPromptBytes - approxPromptBytes messages - 128) := by
    simp only [paddingNeed]
    rw [nonempty, if_neg Bool.false_ne_true, if_neg (by omega), if_neg (by omega),
      Nat.min_eq_left (by omega)]
  rw [LeavesRoom, paddedBytes, if_pos pads, needs, Option.map_some, Option.getD_some]
  omega

end Agreement

/-- A greeting, sent with the settings of `cfg`. -/
def greeting (cfg : PromptBuildConfig) : PromptSource where
  session := { Session.new (text "You are a helpful assistant.") 0 (Block.replicate 32 0) with
    messages := [⟨text "user", text "Hello", []⟩] }
  retrieved := ⟨[], []⟩
  tokenClass := .c256
  redactMode := .none
  extraRedactionTerms := []
  cfg := cfg

def freshRedactor : Redactor :=
  ⟨Block.replicate 32 0, [], .new []⟩

theorem accepted_greeting : ∃ final,
    BuildsRemoteMessages (.ofTable []) (fun _ => 0)
      (greeting { PromptBuildConfig.default with padSystemPrompt := false }) freshRedactor final ∧
      Accepted .c256 final := by
  obtain ⟨final, built⟩ := exists_buildsRemoteMessages (.ofTable []) (fun _ => 0)
    (greeting { PromptBuildConfig.default with padSystemPrompt := false }) freshRedactor
    (by decide +kernel)
  exact ⟨final, built, (accepted_iff_leavesRoom built).mpr (by decide +kernel)⟩

theorem not_accepted_paddedGreeting : ¬∀ (engine : Engine) (draws : Nat → Fin 12)
    (source : PromptSource) (redactor : Redactor) (final : List ChatMessage),
    BuildsRemoteMessages engine draws source redactor final →
      Gateway.approxPromptBytes final ≤ source.tokenClass.maxPromptBytes := by
  intro claim
  obtain ⟨final, built⟩ := exists_buildsRemoteMessages (.ofTable []) (fun _ => 0)
    (greeting .default) freshRedactor (by decide +kernel)
  have fits := claim _ _ _ _ final built
  rw [built.serializedBytes] at fits
  exact absurd fits (not_leavesRoom_of_padded rfl (by decide) (by decide +kernel)
    (by decide +kernel))

end ZkLlmGateway.Client
