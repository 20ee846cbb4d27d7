import ZkLlmGateway.Common.Types
import ZkLlmGateway.Transition.Loop

/-!
# The input budget

The client drops messages, oldest first, and then cuts the last user message,
until the prompt is within the budget of its token class.  The first message,
the system messages and the last user message are never dropped.
-/

namespace ZkLlmGateway.Client

open ZkLlmGateway.Encoding ZkLlmGateway.Common ZkLlmGateway.Transition

/-! ## Sizes and positions -/

def messageBytes (message : ChatMessage) : Nat :=
  byteLen message.role + byteLen message.content

def approxPromptBytes (messages : List ChatMessage) : Nat :=
  (messages.map messageBytes).sum

/-- `Iterator::rposition` -/
def rposition {α : Type} (holds : α → Bool) : List α → Option Nat
  | [] => none
  | item :: rest =>
      match rposition holds rest with
      | some i => some (i + 1)
      | none => if holds item then some 0 else none

def isUser (message : ChatMessage) : Bool :=
  message.role = text "user"

def isSystem (message : ChatMessage) : Bool :=
  message.role = text "system"

/-- Keep the last message when there is no user message. -/
def lastUserIdx (messages : List ChatMessage) : Nat :=
  (rposition isUser messages).getD (messages.length - 1)

/-- The message at position `i` may be dropped. -/
def droppable (lastUser i : Nat) (message : ChatMessage) : Bool :=
  i ≠ 0 && !isSystem message && i ≠ lastUser

/-- The first message that may be dropped, where the list begins at position `i`. -/
def dropIdx (lastUser : Nat) : Nat → List ChatMessage → Option Nat
  | _, [] => none
  | i, message :: rest =>
      if droppable lastUser i message then some i else dropIdx lastUser (i + 1) rest

/-! ## The loop -/

def ellipsis : Text :=
  text "…"

/-- Keep all but `cut` characters, and mark the end. -/
def truncateContent (cut : Nat) (message : ChatMessage) : ChatMessage :=
  { message with content := message.content.take (message.content.length - cut) ++ ellipsis }

/-- One round of the loop; `none` when it is left. -/
def enforceRound (tokenClass : TokenClass) (messages : List ChatMessage) :
    Option (List ChatMessage) :=
  if approxPromptBytes messages ≤ tokenClass.maxPromptBytes then none
  else
    let drop := if messages.length > 2 then dropIdx (lastUserIdx messages) 0 messages else none
    match drop with
    | some i => some (messages.eraseIdx i)
    | none =>
        match rposition isUser messages with
        | some i =>
            let excess := approxPromptBytes messages - tokenClass.maxPromptBytes
            some (messages.modify i (truncateContent (excess + 32)))
        | none => none

/-- The loop ends and leaves these messages. -/
def EnforcesBudget (tokenClass : TokenClass) (messages final : List ChatMessage) : Prop :=
  Ends (enforceRound tokenClass) messages final

/-- The first message is the system prompt. -/
def SystemFirst (messages : List ChatMessage) : Prop :=
  ∀ first ∈ messages.head?, isSystem first = true

instance (messages : List ChatMessage) : Decidable (SystemFirst messages) :=
  inferInstanceAs (Decidable (∀ first ∈ messages.head?, isSystem first = true))

/-! ## What is never dropped -/

/-- The messages that may not be dropped, where the list begins at position `i`. -/
def spared (lastUser : Nat) : Nat → List ChatMessage → List ChatMessage
  | _, [] => []
  | i, message :: rest =>
      if droppable lastUser i message then spared lastUser (i + 1) rest
      else message :: spared lastUser (i + 1) rest

/-- The first message, all system messages and the last user message. -/
def sparedMessages (messages : List ChatMessage) : List ChatMessage :=
  spared (lastUserIdx messages) 0 messages

def blankContent (message : ChatMessage) : ChatMessage :=
  { message with content := ellipsis }

/-- Nothing is left of the last user message. -/
def blankLastUser (messages : List ChatMessage) : List ChatMessage :=
  match rposition isUser messages with
  | some i => messages.modify i blankContent
  | none => messages

/-- What is never dropped fits, if need be without the text of the last user message. -/
def FitsSpared (tokenClass : TokenClass) (messages : List ChatMessage) : Prop :=
  approxPromptBytes (sparedMessages messages) ≤ tokenClass.maxPromptBytes ∨
    approxPromptBytes (blankLastUser (sparedMessages messages)) ≤ tokenClass.maxPromptBytes

instance (tokenClass : TokenClass) (messages : List ChatMessage) :
    Decidable (FitsSpared tokenClass messages) :=
  inferInstanceAs (Decidable (_ ∨ _))

section Sizes

variable {messages rest : List ChatMessage} {message : ChatMessage}

@[simp]
theorem approxPromptBytes_nil : approxPromptBytes [] = 0 :=
  rfl

@[simp]
theorem approxPromptBytes_cons :
    approxPromptBytes (message :: messages) =
      messageBytes message + approxPromptBytes messages := by
  simp [approxPromptBytes]

@[simp]
theorem approxPromptBytes_append :
    approxPromptBytes (messages ++ rest) = approxPromptBytes messages + approxPromptBytes rest := by
  simp [approxPromptBytes]

/-- Another message in one place. -/
theorem approxPromptBytes_modify {i : Nat} (shown : messages[i]? = some message)
    (change : ChatMessage → ChatMessage) :
    approxPromptBytes (messages.modify i change) + messageBytes message =
      approxPromptBytes messages + messageBytes (change message) := by
  induction messages generalizing i with
  | nil => exact absurd shown (by simp)
  | cons first messages inductionHypothesis =>
      cases i with
      | zero =>
          rw [List.getElem?_cons_zero, Option.some.injEq] at shown
          subst shown
          rw [List.modify_zero_cons, approxPromptBytes_cons, approxPromptBytes_cons]
          omega
      | succ i =>
          rw [List.getElem?_cons_succ] at shown
          rw [List.modify_succ_cons, approxPromptBytes_cons, approxPromptBytes_cons]
          have step := inductionHypothesis shown
          omega

end Sizes

section Rposition

variable {α : Type} {holds : α → Bool} {list : List α} {i j : Nat}

theorem rposition_eq_none_iff :
    rposition holds list = none ↔ ∀ item ∈ list, holds item = false := by
  induction list with
  | nil => simp [rposition]
  | cons item rest inductionHypothesis =>
      cases later : rposition holds rest with
      | none =>
          have absent := inductionHypothesis.mp later
          simp only [rposition, later, List.forall_mem_cons]
          cases first : holds item with
          | false => simpa using absent
          | true => simp
      | some i =>
          have present : ¬∀ item ∈ rest, holds item = false := fun absent => by
            rw [inductionHypothesis.mpr absent] at later
            contradiction
          simp only [rposition, later, List.forall_mem_cons, reduceCtorEq, false_iff, not_and]
          exact fun _ => present

theorem getElem?_of_rposition (found : rposition holds list = some i) :
    ∃ item, list[i]? = some item ∧ holds item = true := by
  induction list generalizing i with
  | nil => exact absurd found (by simp [rposition])
  | cons first rest inductionHypothesis =>
      cases later : rposition holds rest with
      | none =>
          simp only [rposition, later] at found
          cases holding : holds first with
          | false => exact absurd found (by simp [holding])
          | true =>
              rw [holding, if_pos rfl, Option.some.injEq] at found
              exact ⟨first, by rw [← found, List.getElem?_cons_zero], holding⟩
      | some k =>
          simp only [rposition, later, Option.some.injEq] at found
          obtain ⟨item, shown, holding⟩ := inductionHypothesis later
          exact ⟨item, by rw [← found, List.getElem?_cons_succ, shown], holding⟩

/-- Without another item, the last one that holds is where it was, or one place before. -/
theorem rposition_eraseIdx (found : rposition holds list = some i) (other : j ≠ i) :
    rposition holds (list.eraseIdx j) = some (if j < i then i - 1 else i) := by
  induction list generalizing i j with
  | nil => exact absurd found (by simp [rposition])
  | cons first rest inductionHypothesis =>
      cases later : rposition holds rest with
      | none =>
          simp only [rposition, later] at found
          cases holding : holds first with
          | false => exact absurd found (by simp [holding])
          | true =>
              rw [holding, if_pos rfl, Option.some.injEq] at found
              subst found
              cases j with
              | zero => exact absurd rfl other
              | succ j =>
                  have none : rposition holds (rest.eraseIdx j) = none :=
                    rposition_eq_none_iff.mpr fun item member =>
                      rposition_eq_none_iff.mp later item (List.mem_of_mem_eraseIdx member)
                  simp [List.eraseIdx_cons_succ, rposition, none, holding]
      | some k =>
          simp only [rposition, later, Option.some.injEq] at found
          subst found
          cases j with
          | zero => simpa using later
          | succ j =>
              have step := inductionHypothesis later fun equal => other (congrArg (· + 1) equal)
              rw [List.eraseIdx_cons_succ, rposition, step]
              simp only [Nat.add_lt_add_iff_right]
              split
              · simp only [Option.some.injEq]
                omega
              · rfl

theorem rposition_modify {change : α → α} (same : ∀ item, holds (change item) = holds item) :
    rposition holds (list.modify i change) = rposition holds list := by
  induction list generalizing i with
  | nil => simp
  | cons first rest inductionHypothesis =>
      cases i with
      | zero => simp only [List.modify_zero_cons, rposition, same]
      | succ i => simp only [List.modify_succ_cons, rposition, inductionHypothesis]

end Rposition

/-! ## Dropping -/

section Dropping

variable {messages : List ChatMessage} {lastUser i n : Nat}

theorem approxPromptBytes_spared_le (lastUser i : Nat) (messages : List ChatMessage) :
    approxPromptBytes (spared lastUser i messages) ≤ approxPromptBytes messages := by
  induction messages generalizing i with
  | nil => exact le_rfl
  | cons message rest inductionHypothesis =>
      have step := inductionHypothesis (i + 1)
      rw [spared]
      split
      · rw [approxPromptBytes_cons]
        omega
      · rw [approxPromptBytes_cons, approxPromptBytes_cons]
        omega

theorem length_spared_le (lastUser i : Nat) (messages : List ChatMessage) :
    (spared lastUser i messages).length ≤ messages.length := by
  induction messages generalizing i with
  | nil => exact le_rfl
  | cons message rest inductionHypothesis =>
      have step := inductionHypothesis (i + 1)
      rw [spared]
      split
      · exact step.trans (Nat.le_succ _)
      · exact Nat.succ_le_succ step

theorem length_sparedMessages_le (messages : List ChatMessage) :
    (sparedMessages messages).length ≤ messages.length :=
  length_spared_le _ _ _

/-- Only the position relative to the last user message counts. -/
theorem spared_shift {otherUser j : Nat} (positive : 0 < i) (alsoPositive : 0 < j)
    (same : ∀ n, i + n = lastUser ↔ j + n = otherUser) (messages : List ChatMessage) :
    spared lastUser i messages = spared otherUser j messages := by
  induction messages generalizing i j with
  | nil => rfl
  | cons message rest inductionHypothesis =>
      have here := same 0
      have rule : droppable lastUser i message = droppable otherUser j message := by
        simp only [droppable, Nat.ne_of_gt positive, Nat.ne_of_gt alsoPositive, ne_eq]
        simp only [Nat.add_zero] at here
        simp only [here]
      have later := inductionHypothesis (Nat.succ_pos i) (Nat.succ_pos j) fun n => by
        rw [Nat.succ_add_eq_add_succ, Nat.succ_add_eq_add_succ]
        exact same (n + 1)
      rw [spared, spared, rule, later]

theorem spared_eq_self_iff : spared lastUser i messages = messages ↔
    ∀ n message, messages[n]? = some message → droppable lastUser (i + n) message = false := by
  induction messages generalizing i with
  | nil => simp [spared]
  | cons first rest inductionHypothesis =>
      cases drops : droppable lastUser i first with
      | true =>
          have shorter := length_spared_le lastUser (i + 1) rest
          constructor
          · intro same
            rw [spared, if_pos drops] at same
            rw [same, List.length_cons] at shorter
            exact absurd shorter (Nat.not_succ_le_self _)
          · intro all
            have here := all 0 first rfl
            rw [Nat.add_zero, drops] at here
            contradiction
      | false =>
          rw [spared, drops, if_neg Bool.false_ne_true, List.cons.injEq, inductionHypothesis]
          constructor
          · rintro ⟨_, later⟩ n message shown
            cases n with
            | zero =>
                rw [List.getElem?_cons_zero, Option.some.injEq] at shown
                rw [← shown, Nat.add_zero, drops]
            | succ n =>
                rw [List.getElem?_cons_succ] at shown
                rw [← Nat.succ_add_eq_add_succ]
                exact later n message shown
          · intro all
            refine ⟨rfl, fun n message shown => ?_⟩
            rw [Nat.succ_add_eq_add_succ]
            exact all (n + 1) message shown

theorem dropIdx_eq_none_iff : dropIdx lastUser i messages = none ↔
    spared lastUser i messages = messages := by
  induction messages generalizing i with
  | nil => simp [dropIdx, spared]
  | cons first rest inductionHypothesis =>
      cases drops : droppable lastUser i first with
      | true =>
          have shorter := length_spared_le lastUser (i + 1) rest
          rw [dropIdx, spared, if_pos drops, if_pos drops]
          constructor
          · intro none
            contradiction
          · intro same
            rw [same, List.length_cons] at shorter
            exact absurd shorter (Nat.not_succ_le_self _)
      | false =>
          rw [dropIdx, spared, drops, if_neg Bool.false_ne_true, if_neg Bool.false_ne_true,
            inductionHypothesis]
          simp

/-- Dropping a message leaves the ones that are never dropped. -/
theorem of_dropIdx {j : Nat} (found : dropIdx lastUser i messages = some j) :
    ∃ n, j = i + n ∧ n < messages.length ∧ j ≠ 0 ∧ j ≠ lastUser ∧
      spared (if j < lastUser then lastUser - 1 else lastUser) i (messages.eraseIdx n) =
        spared lastUser i messages := by
  induction messages generalizing i with
  | nil => contradiction
  | cons first rest inductionHypothesis =>
      cases drops : droppable lastUser i first with
      | true =>
          rw [dropIdx, if_pos drops, Option.some.injEq] at found
          subst found
          simp only [droppable, Bool.and_eq_true, decide_eq_true_eq, ne_eq] at drops
          obtain ⟨⟨positive, _⟩, notLast⟩ := drops
          refine ⟨0, rfl, Nat.succ_pos _, positive, notLast, ?_⟩
          have drops : droppable lastUser i first = true := by
            simp [droppable, *]
          rw [List.eraseIdx_cons_zero, spared, if_pos drops]
          refine spared_shift (Nat.pos_of_ne_zero positive) (Nat.succ_pos i) (fun n => ?_) rest
          split <;> omega
      | false =>
          rw [dropIdx, drops, if_neg Bool.false_ne_true] at found
          obtain ⟨n, isLater, inside, positive, notLast, same⟩ := inductionHypothesis found
          have rule : droppable (if j < lastUser then lastUser - 1 else lastUser) i first =
              droppable lastUser i first := by
            have position : (i = if j < lastUser then lastUser - 1 else lastUser) ↔
                i = lastUser := by split <;> omega
            simp only [droppable, ne_eq, position]
          refine ⟨n + 1, by omega, Nat.succ_lt_succ inside, positive, notLast, ?_⟩
          rw [List.eraseIdx_cons_succ, spared, spared, rule, same]

theorem lastUserIdx_eraseIdx (inside : n < messages.length) (notLast : n ≠ lastUserIdx messages) :
    lastUserIdx (messages.eraseIdx n) =
      if n < lastUserIdx messages then lastUserIdx messages - 1 else lastUserIdx messages := by
  cases found : rposition isUser messages with
  | none =>
      have none : rposition isUser (messages.eraseIdx n) = none :=
        rposition_eq_none_iff.mpr fun message member =>
          rposition_eq_none_iff.mp found message (List.mem_of_mem_eraseIdx member)
      simp only [lastUserIdx, found, none, Option.getD_none, List.length_eraseIdx, inside, if_true]
        at notLast ⊢
      split <;> omega
  | some k =>
      simp only [lastUserIdx, found, Option.getD_some] at notLast ⊢
      rw [rposition_eraseIdx found notLast, Option.getD_some]

theorem sparedMessages_eraseIdx (found : dropIdx (lastUserIdx messages) 0 messages = some n) :
    0 < n ∧ n < messages.length ∧ n ≠ lastUserIdx messages ∧
      sparedMessages (messages.eraseIdx n) = sparedMessages messages := by
  obtain ⟨k, equal, inside, positive, notLast, same⟩ := of_dropIdx found
  rw [Nat.zero_add] at equal
  subst equal
  rw [sparedMessages, lastUserIdx_eraseIdx inside notLast, same, sparedMessages]
  exact ⟨Nat.pos_of_ne_zero positive, inside, notLast, rfl⟩

end Dropping

/-! ## One round -/

/-- What a round of the loop does. -/
inductive Round (tokenClass : TokenClass) (messages : List ChatMessage) :
    Option (List ChatMessage) → Prop
  | within : approxPromptBytes messages ≤ tokenClass.maxPromptBytes → Round tokenClass messages none
  | drop {n : Nat} : tokenClass.maxPromptBytes < approxPromptBytes messages → 0 < n →
      n < messages.length → n ≠ lastUserIdx messages →
      sparedMessages (messages.eraseIdx n) = sparedMessages messages →
      Round tokenClass messages (some (messages.eraseIdx n))
  | cut {i : Nat} : tokenClass.maxPromptBytes < approxPromptBytes messages →
      sparedMessages messages = messages → rposition isUser messages = some i →
      Round tokenClass messages (some (messages.modify i
        (truncateContent (approxPromptBytes messages - tokenClass.maxPromptBytes + 32))))
  | giveUp : tokenClass.maxPromptBytes < approxPromptBytes messages →
      sparedMessages messages = messages → rposition isUser messages = none →
      Round tokenClass messages none

section Rounds

variable {tokenClass : TokenClass} {messages : List ChatMessage}

/-- Nothing is dropped from two messages, the first of which is a system message. -/
theorem sparedMessages_of_length_le (systemFirst : SystemFirst messages)
    (short : messages.length ≤ 2) : sparedMessages messages = messages := by
  match messages with
  | [] => rfl
  | [first] => simp [sparedMessages, spared, droppable]
  | [first, second] =>
      have isSystemFirst := systemFirst first rfl
      have notUser : isUser first = false := by
        simp only [isSystem, decide_eq_true_eq] at isSystemFirst
        simp only [isUser, isSystemFirst]
        decide
      have last : lastUserIdx [first, second] = 1 := by
        cases user : isUser second with
        | true => simp [lastUserIdx, rposition, user]
        | false => simp [lastUserIdx, rposition, user, notUser]
      simp [sparedMessages, last, spared, droppable]
  | first :: second :: third :: rest => exact absurd short (by simp)

theorem enforceRound_round (tokenClass : TokenClass) (systemFirst : SystemFirst messages) :
    Round tokenClass messages (enforceRound tokenClass messages) := by
  unfold enforceRound
  by_cases within : approxPromptBytes messages ≤ tokenClass.maxPromptBytes
  · rw [if_pos within]
    exact .within within
  rw [if_neg within]
  rw [Nat.not_le] at within
  have stuck : (if messages.length > 2 then dropIdx (lastUserIdx messages) 0 messages
      else none) = none → sparedMessages messages = messages := by
    intro nothing
    by_cases short : messages.length > 2
    · rw [if_pos short, dropIdx_eq_none_iff] at nothing
      exact nothing
    · exact sparedMessages_of_length_le systemFirst (Nat.le_of_not_gt short)
  cases drops : (if messages.length > 2 then dropIdx (lastUserIdx messages) 0 messages
      else none) with
  | some n =>
      rw [Option.ite_none_right_eq_some] at drops
      obtain ⟨positive, inside, notLast, same⟩ := sparedMessages_eraseIdx drops.2
      exact .drop within positive inside notLast same
  | none =>
      cases user : rposition isUser messages with
      | some i => exact .cut within (stuck drops) user
      | none => exact .giveUp within (stuck drops) user

theorem SystemFirst.eraseIdx (systemFirst : SystemFirst messages) {n : Nat} (positive : 0 < n) :
    SystemFirst (messages.eraseIdx n) := by
  cases messages with
  | nil => exact systemFirst
  | cons first rest =>
      cases n with
      | zero => exact absurd positive (Nat.lt_irrefl 0)
      | succ n => exact systemFirst

end Rounds

/-! ## Cutting the last user message -/

section Cutting

variable {tokenClass : TokenClass} {messages : List ChatMessage} {i cut : Nat}
  {message : ChatMessage}

/-- Each character that is cut off is at least one byte. -/
theorem byteLen_take_add_le (cut : Nat) (content : Text) :
    byteLen (content.take (content.length - cut)) + min cut content.length ≤ byteLen content := by
  have split := congrArg byteLen (List.take_append_drop (content.length - cut) content)
  have rest := length_le_byteLen (content.drop (content.length - cut))
  rw [byteLen_append] at split
  rw [List.length_drop] at rest
  omega

theorem byteLen_ellipsis : byteLen ellipsis = 3 := by
  decide

theorem messageBytes_truncateContent : messageBytes (truncateContent cut message) =
    byteLen message.role +
      (byteLen (message.content.take (message.content.length - cut)) + 3) := by
  rw [messageBytes, truncateContent, byteLen_append, byteLen_ellipsis]

theorem isUser_truncateContent (message : ChatMessage) :
    isUser (truncateContent cut message) = isUser message :=
  rfl

theorem isSystem_truncateContent (message : ChatMessage) :
    isSystem (truncateContent cut message) = isSystem message :=
  rfl

theorem isSystem_blankContent (message : ChatMessage) :
    isSystem (blankContent message) = isSystem message :=
  rfl

theorem blankLastUser_eq (user : rposition isUser messages = some i) :
    blankLastUser messages = messages.modify i blankContent := by
  rw [blankLastUser, user]

/-- A short message is cut down to its mark. -/
theorem modify_truncateContent (user : rposition isUser messages = some i)
    (shown : messages[i]? = some message) (short : message.content.length ≤ cut) :
    messages.modify i (truncateContent cut) = blankLastUser messages := by
  rw [blankLastUser_eq user]
  apply List.ext_getElem?
  intro k
  rw [List.getElem?_modify, List.getElem?_modify]
  by_cases here : i = k
  · subst here
    simp [shown, truncateContent, blankContent, Nat.sub_eq_zero_of_le short]
  · simp only [here, if_false]

theorem rposition_blankLastUser (messages : List ChatMessage) :
    rposition isUser (blankLastUser messages) = rposition isUser messages := by
  have sameUser : ∀ message, isUser (blankContent message) = isUser message := fun _ => rfl
  cases user : rposition isUser messages with
  | none => simp only [blankLastUser, user]
  | some i => rw [blankLastUser_eq user, rposition_modify sameUser, user]

theorem blankLastUser_blankLastUser (messages : List ChatMessage) :
    blankLastUser (blankLastUser messages) = blankLastUser messages := by
  cases user : rposition isUser messages with
  | none => simp only [blankLastUser, user]
  | some i =>
      have again : rposition isUser (blankLastUser messages) = some i := by
        rw [rposition_blankLastUser, user]
      rw [blankLastUser_eq again, blankLastUser_eq user, List.modify_modify_eq]
      rfl

theorem sparedMessages_blankLastUser (spares : sparedMessages messages = messages) :
    sparedMessages (blankLastUser messages) = blankLastUser messages := by
  cases user : rposition isUser messages with
  | none => simpa only [blankLastUser, user] using spares
  | some i =>
      have last : lastUserIdx (blankLastUser messages) = lastUserIdx messages := by
        rw [lastUserIdx, rposition_blankLastUser, blankLastUser_eq user, List.length_modify,
          lastUserIdx]
      rw [sparedMessages, spared_eq_self_iff] at spares ⊢
      intro n message shown
      rw [blankLastUser_eq user, List.getElem?_modify, Option.map_eq_map,
        Option.map_eq_some_iff] at shown
      obtain ⟨before, shownBefore, equal⟩ := shown
      have sameRole : isSystem message = isSystem before := by
        rw [← equal]
        split <;> rfl
      have kept := spares n before shownBefore
      rwa [last, droppable, sameRole]

/-- A message that keeps some of its text is cut below the budget. -/
theorem approxPromptBytes_modify_le {max : Nat} (shown : messages[i]? = some message)
    (beyond : max < approxPromptBytes messages)
    (long : approxPromptBytes messages - max + 32 < message.content.length) :
    approxPromptBytes (messages.modify i
      (truncateContent (approxPromptBytes messages - max + 32))) ≤ max := by
  have change := approxPromptBytes_modify shown
    (truncateContent (approxPromptBytes messages - max + 32))
  have bytes := byteLen_take_add_le (approxPromptBytes messages - max + 32) message.content
  rw [messageBytes_truncateContent, messageBytes] at change
  omega

/-- The mark alone is not longer than what cutting leaves. -/
theorem approxPromptBytes_blankLastUser_le (user : rposition isUser messages = some i)
    (shown : messages[i]? = some message) (cut : Nat) :
    approxPromptBytes (blankLastUser messages) ≤
      approxPromptBytes (messages.modify i (truncateContent cut)) := by
  have cutting := approxPromptBytes_modify shown (truncateContent cut)
  have blanking := approxPromptBytes_modify shown blankContent
  have mark : messageBytes (blankContent message) = byteLen message.role + 3 := by
    rw [messageBytes, blankContent, byteLen_ellipsis]
  rw [messageBytes_truncateContent] at cutting
  rw [mark] at blanking
  rw [blankLastUser_eq user]
  omega

theorem SystemFirst.modify (systemFirst : SystemFirst messages)
    {change : ChatMessage → ChatMessage} (same : ∀ message, isSystem (change message) =
      isSystem message) (i : Nat) : SystemFirst (messages.modify i change) := by
  cases messages with
  | nil => simpa using systemFirst
  | cons head rest =>
      cases i with
      | zero =>
          intro first isFirst
          rw [List.modify_zero_cons, List.head?_cons, Option.mem_some_iff] at isFirst
          rw [← isFirst, same]
          exact systemFirst head rfl
      | succ i => exact systemFirst

theorem SystemFirst.blankLastUser (systemFirst : SystemFirst messages) :
    SystemFirst (blankLastUser messages) := by
  cases user : rposition isUser messages with
  | none => simpa only [Client.blankLastUser, user] using systemFirst
  | some i =>
      rw [blankLastUser_eq user]
      exact systemFirst.modify isSystem_blankContent i

/-- Once the mark alone is beyond the budget, every round puts the mark in its place. -/
theorem not_enforcesBudget_blankLastUser {final : List ChatMessage}
    (systemFirst : SystemFirst messages)
    (spares : sparedMessages messages = messages) (user : rposition isUser messages = some i)
    (beyond : tokenClass.maxPromptBytes < approxPromptBytes (blankLastUser messages)) :
    ¬EnforcesBudget tokenClass (blankLastUser messages) final := by
  apply not_ends_of_invariant (· = blankLastUser messages) rfl
  rintro state rfl
  refine ⟨blankLastUser messages, ?_, rfl⟩
  have again : sparedMessages (blankLastUser messages) = blankLastUser messages :=
    sparedMessages_blankLastUser spares
  have sameUser : rposition isUser (blankLastUser messages) = some i := by
    rw [rposition_blankLastUser, user]
  generalize isRound : enforceRound tokenClass (blankLastUser messages) = outcome
  have round := enforceRound_round tokenClass systemFirst.blankLastUser
  rw [isRound] at round
  cases round with
  | within fits => exact absurd fits (Nat.not_le_of_lt beyond)
  | @drop n _ _ inside _ same =>
      have shorter := length_sparedMessages_le ((blankLastUser messages).eraseIdx n)
      rw [same, again, List.length_eraseIdx_of_lt inside] at shorter
      omega
  | giveUp _ _ none =>
      rw [sameUser] at none
      contradiction
  | cut _ _ found =>
      obtain ⟨message, shown, _⟩ := getElem?_of_rposition user
      have blank : (blankLastUser messages)[i]? = some (blankContent message) := by
        simp [blankLastUser_eq user, shown]
      rw [sameUser, Option.some.injEq] at found
      subst found
      rw [modify_truncateContent sameUser blank, blankLastUser_blankLastUser]
      simp only [blankContent]
      exact Nat.le_add_left_of_le (by decide)

end Cutting

/-! ## The budget -/

theorem fitsSpared_of_le {tokenClass : TokenClass} {messages : List ChatMessage}
    (within : approxPromptBytes messages ≤ tokenClass.maxPromptBytes) :
    FitsSpared tokenClass messages :=
  .inl ((approxPromptBytes_spared_le _ _ _).trans within)

/-- **The loop ends within the budget** if and only if the messages that are never
dropped fit, if need be with nothing but the mark left of the last user message. -/
theorem enforcesBudget_iff_fitsSpared {tokenClass : TokenClass} {messages : List ChatMessage}
    (systemFirst : SystemFirst messages) :
    (∃ final, EnforcesBudget tokenClass messages final ∧
      approxPromptBytes final ≤ tokenClass.maxPromptBytes) ↔ FitsSpared tokenClass messages := by
  induction size : messages.length using Nat.strongRecOn generalizing messages with
  | ind size inductionHypothesis =>
      generalize isRound : enforceRound tokenClass messages = outcome
      have round := enforceRound_round tokenClass systemFirst
      rw [isRound] at round
      cases round with
      | within fits =>
          exact ⟨fun _ => fitsSpared_of_le fits, fun _ => ⟨messages, .of_stop isRound, fits⟩⟩
      | drop _ positive inside _ same =>
          have rest := inductionHypothesis _
            (by rw [← size, List.length_eraseIdx_of_lt inside]; omega)
            (systemFirst.eraseIdx positive) rfl
          rw [FitsSpared, same] at rest
          simp only [EnforcesBudget, ends_of_step isRound]
          exact rest
      | giveUp beyond spares none =>
          have blank : blankLastUser messages = messages := by simp only [blankLastUser, none]
          constructor
          · rintro ⟨final, ends, fits⟩
            rw [ends.unique (.of_stop isRound)] at fits
            exact absurd fits (Nat.not_le_of_lt beyond)
          · intro fits
            rw [FitsSpared, spares, blank, or_self] at fits
            exact absurd fits (Nat.not_le_of_lt beyond)
      | cut beyond spares user =>
          obtain ⟨message, shown, _⟩ := getElem?_of_rposition user
          have blanked := approxPromptBytes_blankLastUser_le user shown
            (approxPromptBytes messages - tokenClass.maxPromptBytes + 32)
          rw [FitsSpared, spares]
          by_cases short : message.content.length ≤
              approxPromptBytes messages - tokenClass.maxPromptBytes + 32
          · rw [modify_truncateContent user shown short] at isRound
            simp only [EnforcesBudget, ends_of_step isRound]
            constructor
            · rintro ⟨final, ends, fits⟩
              by_contra unfit
              rw [not_or, Nat.not_le, Nat.not_le] at unfit
              exact not_enforcesBudget_blankLastUser systemFirst spares user unfit.2 ends
            · rintro (fits | fits)
              · exact absurd fits (Nat.not_le_of_lt beyond)
              · exact ⟨_, .of_stop (by rw [enforceRound, if_pos fits]), fits⟩
          · have fits := approxPromptBytes_modify_le shown beyond (Nat.lt_of_not_le short)
            refine ⟨fun _ => .inr (blanked.trans fits), fun _ => ⟨_, ?_, fits⟩⟩
            exact (ends_of_step isRound).mpr (.of_stop (by rw [enforceRound, if_pos fits]))

/-- A system prompt and a question of three thousand letters. -/
def longQuestion : List ChatMessage := [
  ⟨text "system", text "Be brief.", []⟩,
  ⟨text "assistant", text "Yes?", []⟩,
  ⟨text "user", List.replicate 3000 'a', []⟩]

theorem enforcesBudget_longQuestion :
    ∃ final, EnforcesBudget .c256 longQuestion final ∧
      approxPromptBytes final ≤ TokenClass.c256.maxPromptBytes :=
  (enforcesBudget_iff_fitsSpared (by decide)).mpr (by decide +kernel)

/-- A system prompt of three thousand letters leaves no room for a question. -/
def longPrompt : List ChatMessage := [
  ⟨text "system", List.replicate 3000 'a', []⟩,
  ⟨text "user", text "Hello", []⟩]

theorem not_enforcesBudget_longPrompt : ¬∀ (tokenClass : TokenClass) (messages : List ChatMessage),
    SystemFirst messages → ∃ final, EnforcesBudget tokenClass messages final ∧
      approxPromptBytes final ≤ tokenClass.maxPromptBytes := by
  intro claim
  have systemFirst : SystemFirst longPrompt := by decide
  obtain ⟨final, ends, _⟩ := claim .c256 longPrompt systemFirst
  have user : rposition isUser longPrompt = some 1 := by decide
  have cut : enforceRound .c256 longPrompt = some (blankLastUser longPrompt) := by
    have short : 5 ≤ approxPromptBytes longPrompt - TokenClass.c256.maxPromptBytes + 32 := by
      decide +kernel
    rw [← modify_truncateContent user rfl short, enforceRound, if_neg (by decide +kernel), user]
    rfl
  rw [EnforcesBudget, ends_of_step cut] at ends
  exact not_enforcesBudget_blankLastUser systemFirst rfl user (by decide +kernel) ends

/-- With a user message to cut, the loop ends within the budget or not at all. -/
theorem EnforcesBudget.within_of_user {tokenClass : TokenClass} {messages final : List ChatMessage}
    {i : Nat} (ends : EnforcesBudget tokenClass messages final)
    (systemFirst : SystemFirst messages) (user : rposition isUser messages = some i) :
    approxPromptBytes final ≤ tokenClass.maxPromptBytes := by
  have last := ends.invariant
    (fun state => SystemFirst state ∧ ∃ i, rposition isUser state = some i)
    ⟨systemFirst, i, user⟩ fun state next => by
      rintro ⟨isFirst, k, found⟩ isRound
      have round := enforceRound_round tokenClass isFirst
      rw [isRound] at round
      cases round with
      | drop _ positive inside notLast _ =>
          rw [lastUserIdx, found, Option.getD_some] at notLast
          exact ⟨isFirst.eraseIdx positive, _, rposition_eraseIdx found notLast⟩
      | cut _ _ _ =>
          refine ⟨isFirst.modify isSystem_truncateContent _, k, ?_⟩
          rw [rposition_modify isUser_truncateContent, found]
  obtain ⟨⟨isFirst, k, found⟩, isRound⟩ := last
  have round := enforceRound_round tokenClass isFirst
  rw [isRound] at round
  cases round with
  | within fits => exact fits
  | giveUp _ _ none =>
      rw [found] at none
      contradiction

end ZkLlmGateway.Client
