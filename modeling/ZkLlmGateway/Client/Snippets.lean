import ZkLlmGateway.Client.Hiding
import ZkLlmGateway.Client.Prompt

/-!
# What the cut snippets reveal

The context block shows the beginning of every document that was retrieved, cut
after three or four hundred characters, and is redacted as a whole.  A secret is
a match in the full text of a document.  What the cut leaves of it is hidden
exactly where a match in the block takes it, each pattern being searched in what the
patterns before it left between the placeholders.
-/

namespace ZkLlmGateway.Client

open ZkLlmGateway.Encoding ZkLlmGateway.Common ZkLlmGateway.Matching

/-! ## Snippets in the block -/

/-- A memory line up to its snippet. -/
def memoryLabel (item : Doc) (i : Nat) : Text :=
  if item.tags.isEmpty then slotLabel 'M' i ++ text ": "
  else slotLabel 'M' i ++ text " [" ++ List.intercalate (text ",") item.tags ++ text "]: "

/-- A recall line up to its snippet. -/
def recallLabel (msg : ChatMessage) (i : Nat) : Text :=
  slotLabel 'R' i ++ text " " ++ msg.role ++ text ": "

theorem memoryLine_eq (item : Doc) (i : Nat) :
    memoryLine item i = memoryLabel item i ++ (item.text.take 400 ++ text "\n") := by
  unfold memoryLine memoryLabel
  split <;> simp only [List.append_assoc]

/-- Of a recalled message the second cut leaves the beginning of the document. -/
theorem take_recallMessage (doc : Doc) :
    (recallMessage doc).content.take 300 = doc.text.take 300 := by
  unfold recallMessage
  simp only
  split
  · rw [List.take_append_of_le_length (by rw [List.length_take]; omega), List.take_take]
    rfl
  · rw [List.take_take]
    rfl

theorem recallLine_eq (doc : Doc) (i : Nat) :
    recallLine (recallMessage doc) i =
      recallLabel (recallMessage doc) i ++ (doc.text.take 300 ++ text "\n") := by
  rw [recallLine, recallLabel, take_recallMessage]
  simp only [List.append_assoc]

/-- A block of lines up to the label of one of them. -/
def blockBefore {α : Type} (header : Text) (line label : α → Nat → Text) (shown : List α)
    (item : α) (i : Nat) : Text :=
  header ++ ((shown.take i).mapIdx fun i item => line item i).flatten ++ label item i

theorem slotBlock_eq {α : Type} (header : Text) (letter : Char) (normalize : Bool)
    {line label : α → Nat → Text} {max i : Nat} {items : List α} {item : α} {snippet : Text}
    (isShown : (items.take max)[i]? = some item)
    (isLine : line item i = label item i ++ (snippet ++ text "\n")) :
    ∃ after, slotBlock header letter line normalize max items =
      blockBefore header line label (items.take max) item i ++ (snippet ++ '\n' :: after) := by
  obtain ⟨inside, isItem⟩ := List.getElem?_eq_some_iff.mp isShown
  have split : items.take max =
      (items.take max).take i ++ item :: (items.take max).drop (i + 1) := by
    rw [← isItem, ← List.drop_eq_getElem_cons inside, List.take_append_drop]
  have lines : ((items.take max).mapIdx fun i item => line item i).flatten =
      (((items.take max).take i).mapIdx fun i item => line item i).flatten ++
        (line item i ++ (((items.take max).drop (i + 1)).mapIdx fun k item =>
          line item (k + (i + 1))).flatten) := by
    conv_lhs => rw [split]
    rw [List.mapIdx_append, List.mapIdx_cons, List.flatten_append, List.flatten_cons,
      List.length_take_of_le inside.le]
    simp only [Nat.zero_add, Nat.add_assoc, Nat.add_comm 1 i]
  have newline : text "\n" = ['\n'] := rfl
  refine ⟨(((items.take max).drop (i + 1)).mapIdx fun k item => line item (k + (i + 1))).flatten ++
    ((if normalize then emptySlots letter (items.take max).length max else []) ++ text "\n"), ?_⟩
  rw [slotBlock, lines, isLine, blockBefore]
  simp only [List.append_assoc, newline, List.cons_append, List.nil_append]

/-- What the searches of a question find: memory items and older messages. -/
structure Retrieval where
  memories : List Doc
  recalled : List Doc
  maxRecallSnippets : Nat

def Retrieval.context (retrieval : Retrieval) : RetrievedContext :=
  retrieveContext retrieval.memories retrieval.recalled retrieval.maxRecallSnippets

/-- `Shows … before full limit`: behind `before` the context block shows the beginning of a
document's full text, cut after `limit` characters. -/
inductive Shows (session : Session) (retrieval : Retrieval) (cfg : PromptBuildConfig) :
    Text → Text → Nat → Prop
  | memory {item : Doc} {i : Nat} :
      (retrieval.memories.take cfg.maxMemoryItems)[i]? = some item →
      Shows session retrieval cfg
        (summaryBlock session cfg ++
          blockBefore (text "[Selected memory (local)]\n") memoryLine memoryLabel
            (retrieval.memories.take cfg.maxMemoryItems) item i) item.text 400
  | recalled {doc : Doc} {i : Nat} : 0 < retrieval.maxRecallSnippets →
      (retrieval.recalled.take cfg.maxRecallSnippets)[i]? = some doc →
      Shows session retrieval cfg
        (summaryBlock session cfg ++ memoryBlock retrieval.context cfg ++
          blockBefore (text "[Recall snippets (local)]\n") recallLine recallLabel
            ((retrieval.recalled.map recallMessage).take cfg.maxRecallSnippets)
            (recallMessage doc) i) doc.text 300

section Shows

variable {session : Session} {retrieval : Retrieval} {cfg : PromptBuildConfig}
  {before full : Text} {limit : Nat}

theorem isEmpty_eq_false_of_getElem? {α : Type} {items : List α} {max i : Nat} {item : α}
    (isShown : (items.take max)[i]? = some item) : items.isEmpty = false := by
  cases items with
  | nil => simp at isShown
  | cons first rest => rfl

/-- The block shows what it is said to show. -/
theorem Shows.memoryText_eq (shows : Shows session retrieval cfg before full limit) :
    ∃ after, memoryText session retrieval.context cfg =
      before ++ (full.take limit ++ '\n' :: after) := by
  cases shows with
  | @memory item i isShown =>
      obtain ⟨after, equal⟩ := slotBlock_eq (text "[Selected memory (local)]\n") 'M'
        cfg.normalizeContextBlocks isShown (memoryLine_eq item i)
      have isEmpty := isEmpty_eq_false_of_getElem? isShown
      refine ⟨after ++ recallBlock retrieval.context cfg, ?_⟩
      rw [memoryText, memoryBlock, show retrieval.context.memories = retrieval.memories from rfl,
        isEmpty, Bool.not_false, Bool.or_true, if_pos rfl, equal]
      simp only [List.append_assoc, List.cons_append]
  | @recalled doc i searched isShown =>
      have isRecalled : retrieval.context.recalled = retrieval.recalled.map recallMessage :=
        if_pos searched
      have isShownMessage : ((retrieval.recalled.map recallMessage).take
          cfg.maxRecallSnippets)[i]? = some (recallMessage doc) := by
        rw [← List.map_take, List.getElem?_map, isShown, Option.map_some]
      obtain ⟨after, equal⟩ := slotBlock_eq (text "[Recall snippets (local)]\n") 'R'
        cfg.normalizeContextBlocks isShownMessage (recallLine_eq doc i)
      have isEmpty := isEmpty_eq_false_of_getElem? isShownMessage
      have positive : cfg.maxRecallSnippets > 0 := by
        rcases Nat.eq_zero_or_pos cfg.maxRecallSnippets with zero | positive
        · rw [zero, List.take_zero] at isShown
          contradiction
        · exact positive
      refine ⟨after, ?_⟩
      rw [memoryText, recallBlock, isRecalled, isEmpty, decide_eq_true positive, Bool.not_false,
        Bool.or_true, Bool.and_self, if_pos rfl, equal]
      simp only [List.append_assoc]

theorem Shows.lt_length (shows : Shows session retrieval cfg before full limit) {position : Nat}
    (inFull : position < full.length) (cut : position < limit) :
    before.length + position < (memoryText session retrieval.context cfg).length := by
  obtain ⟨after, equal⟩ := shows.memoryText_eq
  rw [equal, List.length_append, List.length_append, List.length_take]
  omega

end Shows

/-! ## What is revealed -/

namespace PromptSource

/-- The context block before redaction. -/
def contextText (source : PromptSource) : Text :=
  memoryText source.session source.retrieved source.cfg

/-- The terms that are searched in the block. -/
def contextTerms (source : PromptSource) (redactor : Redactor) : List Text :=
  redactor.state.customTerms ++ source.extraRedactionTerms

/-- The passes the block goes through. -/
def contextPasses (source : PromptSource) (engine : Engine) (redactor : Redactor) : List Pass :=
  passes engine source.redactMode (source.contextTerms redactor)

/-- The characters of the block, followed through its redaction. -/
def contextCells (source : PromptSource) (engine : Engine) (redactor : Redactor) :
    List (Cell Char (Option Nat)) :=
  hidden engine redactor.salt (source.contextPasses engine redactor) (numbered 0 source.contextText)

/-- The redactor when the block is reached: it has redacted the system prompt. -/
def contextRedactor (source : PromptSource) (engine : Engine) (redactor : Redactor) : Redactor :=
  (source.redact engine redactor source.session.systemPrompt).2

end PromptSource

/-- No match in the full text of a document leaves a character in the context message. -/
def HidesMatches (engine : Engine) (source : PromptSource) (redactor : Redactor)
    (retrieval : Retrieval) : Prop :=
  ∀ before full limit, Shows source.session retrieval source.cfg before full limit →
    ∀ pass ∈ source.contextPasses engine redactor, ∀ span ∈ pass.spans full, ∀ position,
      Within span position → position < limit →
        ¬Kept (source.contextCells engine redactor) (before.length + position)

/-- What the cuts leave of the matches in the full texts lies in matches of the block. -/
def CoversMatches (engine : Engine) (source : PromptSource) (redactor : Redactor)
    (retrieval : Retrieval) : Prop :=
  ∀ before full limit, Shows source.session retrieval source.cfg before full limit →
    ∀ pass ∈ source.contextPasses engine redactor, ∀ span ∈ pass.spans full, ∀ position,
      Within span position → position < limit →
        isBlank (blankAfter source.contextText (source.contextPasses engine redactor))
          (before.length + position) = true

/-- What the cuts leave of the matches in the full texts lies in matches of the built-in patterns
in the block, or is found by a term when it has its turn. -/
def FindsMatches (engine : Engine) (source : PromptSource) (redactor : Redactor)
    (retrieval : Retrieval) : Prop :=
  ∀ before full limit, Shows source.session retrieval source.cfg before full limit →
    ∀ pass ∈ source.contextPasses engine redactor, ∀ span ∈ pass.spans full, ∀ position,
      Within span position → position < limit →
        isBlank (blankAfter source.contextText (builtinPasses engine source.redactMode))
            (before.length + position) = true ∨
          FoundByTerm engine redactor.salt source.redactMode source.contextText
            (source.contextTerms redactor) (before.length + position)

section Revealing

variable {engine : Engine} {source : PromptSource} {redactor : Redactor} {retrieval : Retrieval}

/-- The context message is the block as it was followed. -/
theorem content_contextMessage (engine : Engine) (source : PromptSource) (redactor : Redactor) :
    ∀ message ∈ (source.contextMessage engine (source.contextRedactor engine redactor)).1,
      message.content = items (source.contextCells engine redactor) := by
  have terms : (source.contextRedactor engine redactor).state.customTerms =
      redactor.state.customTerms := by
    rw [PromptSource.contextRedactor, PromptSource.redact, Redactor.redact_eq,
      customTerms_foldl_run]
  have salt : (source.contextRedactor engine redactor).salt = redactor.salt := by
    rw [PromptSource.contextRedactor, PromptSource.redact, Redactor.redact_eq, salt_foldl_run]
  have redacted : (source.redact engine (source.contextRedactor engine redactor)
      source.contextText).1 = items (source.contextCells engine redactor) := by
    rw [PromptSource.redact, Redactor.redact_eq, (foldl_run _ _ _ _).1, terms, salt,
      PromptSource.contextCells, items_hidden, items_numbered, PromptSource.contextPasses,
      PromptSource.contextTerms]
  intro message member
  simp only [PromptSource.contextMessage] at member
  split at member
  · contradiction
  · rw [List.mem_singleton.mp member]
    exact redacted

/-- Nothing is revealed if every character that the cuts leave of a match is hidden. -/
theorem hidesMatches_congr (isRetrieved : source.retrieved = retrieval.context)
    (holds : Nat → Prop) (same : ∀ position < source.contextText.length,
      (¬Kept (source.contextCells engine redactor) position ↔ holds position)) :
    HidesMatches engine source redactor retrieval ↔
      ∀ before full limit, Shows source.session retrieval source.cfg before full limit →
        ∀ pass ∈ source.contextPasses engine redactor, ∀ span ∈ pass.spans full, ∀ position,
          Within span position → position < limit → holds (before.length + position) := by
  refine forall_congr' fun before => forall_congr' fun full => forall_congr' fun limit =>
    forall_congr' fun shows => forall_congr' fun pass => forall_congr' fun member =>
    forall_congr' fun span => forall_congr' fun inSpans => forall_congr' fun position =>
    forall_congr' fun within => forall_congr' fun cut => ?_
  have inside := shows.lt_length (lt_of_within inSpans within) cut
  rw [← isRetrieved] at inside
  exact same _ inside

/-- **The cut reveals nothing** of the context message exactly when what it leaves of every match is
matched again in the block: by a built-in pattern, or by a term when it has its turn.  Where no term
is found across the edge of a placeholder, that too is computed from the block alone. -/
theorem hidesMatches_iff_coversMatches (isRetrieved : source.retrieved = retrieval.context)
    (redacts : source.redactMode ≠ .none) :
    (∀ message ∈ (source.contextMessage engine (source.contextRedactor engine redactor)).1,
        message.content = items (source.contextCells engine redactor)) ∧
      (HidesMatches engine source redactor retrieval ↔
        FindsMatches engine source redactor retrieval) ∧
      (UnstraddledTerms engine redactor.salt source.redactMode source.contextText
          (source.contextTerms redactor) →
        (HidesMatches engine source redactor retrieval ↔
          CoversMatches engine source redactor retrieval)) := by
  refine ⟨content_contextMessage engine source redactor,
    hidesMatches_congr isRetrieved _ fun position inside =>
      not_kept_redactedCells_iff redacts inside, fun unstraddled =>
    hidesMatches_congr isRetrieved (fun position => isBlank (blankAfter source.contextText
      (source.contextPasses engine redactor)) position = true) fun position inside => ?_⟩
  have views := viewFrom_redactedCells redacts unstraddled
  rw [PromptSource.contextPasses, ← views, isBlank, beq_iff_eq,
    getElem?_viewFrom_eq_some_none inside]
  rfl

end Revealing

/-- A session with nothing in it, and only what was retrieved in its prompts. -/
def retrievalOnly (retrieval : Retrieval) (mode : RedactMode) (terms : List Text) :
    PromptSource where
  session := Session.new [] 0 (Block.replicate 32 0)
  retrieved := retrieval.context
  tokenClass := .c4096
  redactMode := mode
  extraRedactionTerms := terms
  cfg := { PromptBuildConfig.default with
    includeSummary := false
    normalizeContextBlocks := false }

/-- A name and an e-mail address, far in front of the cut. -/
def shortNote : Retrieval :=
  ⟨[⟨none, text "Bob a@b.co", []⟩], [], 0⟩

theorem hidesMatches_shortNote : HidesMatches (.ofTable [])
    (retrievalOnly shortNote .strict [text "x<y", text "Bob"]) (.new (Block.replicate 32 0))
    shortNote := by
  refine ((hidesMatches_iff_coversMatches rfl (by decide)).2.2 (by decide +kernel)).mpr ?_
  intro before full limit shows
  cases shows with
  | @memory item i isShown =>
      cases i with
      | zero =>
          obtain rfl : _ = item := Option.some.inj isShown
          decide +kernel
      | succ i => contradiction
  | recalled searched _ => exact absurd searched (by decide)

/-- An e-mail address whose name ends where the snippet is cut. -/
def cutAddress : Retrieval :=
  ⟨[], [⟨some (text "user"), List.replicate 295 '*' ++ text "alice@b.co", []⟩], 6⟩

theorem not_hidesMatches_cutAddress : ¬∀ (engine : Engine) (source : PromptSource)
    (redactor : Redactor) (retrieval : Retrieval), source.retrieved = retrieval.context →
    source.redactMode ≠ .none → HidesMatches engine source redactor retrieval := by
  intro claim
  have hides := claim (.ofTable []) (retrievalOnly cutAddress .basic [])
    (.new (Block.replicate 32 0)) cutAddress rfl (by decide)
  refine hides _ _ _ (.recalled (i := 0) (by decide) rfl)
    ⟨reEmail, .email, text "EMAIL"⟩ (List.mem_of_getElem? (i := 2) rfl) (295, 305)
    (by decide +kernel) 295 (by decide) (by decide) (by decide +kernel)

end ZkLlmGateway.Client
