import ZkLlmGateway.Client.Fitting
import ZkLlmGateway.Ranking.Oldest

/-!
# What survives the budget

The rounds of the budget are summed up by positions: the messages that may be
removed are those that are not system messages, but for the last user message.
The fewest of them that suffice are removed, oldest first; only when all of them
do not suffice the last user message loses its end.
-/

namespace ZkLlmGateway.Client

open ZkLlmGateway.Encoding ZkLlmGateway.Common ZkLlmGateway.Transition ZkLlmGateway.Ranking

/-- The positions of the messages that may be removed, oldest first. -/
def removable (messages : List ChatMessage) : List Nat :=
  positions (fun i message => !isSystem message && decide (rposition isUser messages ≠ some i))
    messages

/-- The prompt without the oldest `count` messages that may be removed. -/
def withoutOldest (count : Nat) (messages : List ChatMessage) : List ChatMessage :=
  without ((removable messages).take count) messages

/-- The last user message, and where it is. -/
structure LastUser (messages : List ChatMessage) (i : Nat) (message : ChatMessage) : Prop where
  position : rposition isUser messages = some i
  shown : messages[i]? = some message

/-- The last user message loses its end, and nothing else changes. -/
def CutsLastUser (message : ChatMessage) (i : Nat) (kept final : List ChatMessage) : Prop :=
  ∃ start, start <+: message.content ∧ start ≠ message.content ∧
    final = kept.set i { message with content := start ++ ellipsis }

/-- `final` is what is left when no more is removed than must be. -/
structure RemovesLeast (tokenClass : TokenClass) (messages final : List ChatMessage) : Prop where
  unchanged : approxPromptBytes messages ≤ tokenClass.maxPromptBytes → final = messages
  systems : final.filter isSystem = messages.filter isSystem
  survivors : ∃ count ≤ (removable messages).length,
    (∀ fewer < count,
      tokenClass.maxPromptBytes < approxPromptBytes (withoutOldest fewer messages)) ∧
    (withoutOldest count messages).Sublist messages ∧
    ∃ message before i, LastUser messages before message ∧
      LastUser (withoutOldest count messages) i message ∧
      (approxPromptBytes (withoutOldest count messages) ≤ tokenClass.maxPromptBytes ∧
          final = withoutOldest count messages ∨
        count = (removable messages).length ∧
          tokenClass.maxPromptBytes < approxPromptBytes (withoutOldest count messages) ∧
          CutsLastUser message i (withoutOldest count messages) final)

section Positions

variable {messages : List ChatMessage} {lastUser n i : Nat} {message : ChatMessage}

theorem positions_droppable_cons (lastUser i : Nat) (first : ChatMessage)
    (rest : List ChatMessage) :
    positions (fun n => droppable lastUser (i + n)) (first :: rest) =
      (if droppable lastUser i first then [0] else []) ++
        (positions (fun n => droppable lastUser (i + 1 + n)) rest).map (· + 1) := by
  have shift : (fun n => droppable lastUser (i + (n + 1))) =
      fun n => droppable lastUser (i + 1 + n) := by
    funext n
    rw [Nat.add_comm n 1, Nat.add_assoc]
  rw [positions_cons, shift, Nat.add_zero]

theorem dropIdx_eq_head? (lastUser i : Nat) (messages : List ChatMessage) :
    dropIdx lastUser i messages =
      (positions (fun n => droppable lastUser (i + n)) messages).head?.map (i + ·) := by
  induction messages generalizing i with
  | nil => rfl
  | cons first rest inductionHypothesis =>
      rw [dropIdx, positions_droppable_cons]
      cases droppable lastUser i first with
      | true => rfl
      | false =>
          have later : (i + ·) ∘ (· + 1) = (i + 1 + ·) := by
            funext n
            simp only [Function.comp_apply]
            omega
          rw [if_neg Bool.false_ne_true, if_neg Bool.false_ne_true, List.nil_append,
            List.head?_map, Option.map_map, later, inductionHypothesis]

theorem spared_eq_without (lastUser i : Nat) (messages : List ChatMessage) :
    spared lastUser i messages =
      without (positions (fun n => droppable lastUser (i + n)) messages) messages := by
  induction messages generalizing i with
  | nil => rfl
  | cons first rest inductionHypothesis =>
      rw [spared, positions_droppable_cons, inductionHypothesis]
      cases droppable lastUser i first with
      | true => rw [if_pos rfl, if_pos rfl, List.singleton_append, without_cons_zero]
      | false =>
          rw [if_neg Bool.false_ne_true, if_neg Bool.false_ne_true, List.nil_append,
            without_cons_succ]

/-- The messages that may be dropped, at their positions. -/
theorem positions_droppable (systemFirst : SystemFirst messages)
    (user : rposition isUser messages = some i) :
    positions (droppable (lastUserIdx messages)) messages = removable messages := by
  apply positions_congr
  intro n message shown
  have first : n = 0 → isSystem message = true := by
    rintro rfl
    apply systemFirst
    rw [List.head?_eq_getElem?, shown]
    rfl
  rw [lastUserIdx, user, Option.getD_some, droppable]
  by_cases front : n = 0
  · simp [first front]
  · simp [front, eq_comm]

theorem dropOldest_eq_dropFirst (count : Nat) (messages : List ChatMessage) :
    dropOldest count messages = dropFirst (droppable (lastUserIdx messages)) count messages := by
  induction count generalizing messages with
  | zero => rw [dropOldest, dropFirst_zero]
  | succ count inductionHypothesis =>
      have head := dropIdx_eq_head? (lastUserIdx messages) 0 messages
      simp only [Nat.zero_add, Option.map_id'] at head
      cases found : dropIdx (lastUserIdx messages) 0 messages with
      | none =>
          rw [found, eq_comm, List.head?_eq_none_iff] at head
          rw [dropOldest, found, dropFirst_of_positions_eq_nil head]
      | some n =>
          obtain ⟨positive, inside, notLast, _⟩ := sparedMessages_eraseIdx found
          rw [found] at head
          rw [dropOldest_succ found, inductionHypothesis, dropFirst_eraseIdx head.symm,
            lastUserIdx_eraseIdx inside notLast]
          -- The last user message moves to the front when a message before it goes.
          apply dropFirst_congr
          intro k message _
          have moved : k ≠ (if n < lastUserIdx messages then lastUserIdx messages - 1
              else lastUserIdx messages) ↔
                (if k < n then k else k + 1) ≠ lastUserIdx messages := by
            split <;> split <;> omega
          have front : k ≠ 0 ↔ (if k < n then k else k + 1) ≠ 0 := by
            split <;> omega
          have rule : droppable (if n < lastUserIdx messages then lastUserIdx messages - 1
              else lastUserIdx messages) k message =
                droppable (lastUserIdx messages) (if k < n then k else k + 1) message := by
            simp only [droppable, decide_eq_decide.mpr moved, decide_eq_decide.mpr front]
          rw [rule]
          split <;> rfl

end Positions

section Survivors

variable {tokenClass : TokenClass} {messages final : List ChatMessage} {i count : Nat}
  {message : ChatMessage}

theorem withoutOldest_of_le (all : (removable messages).length ≤ count) :
    withoutOldest count messages = without (removable messages) messages := by
  rw [withoutOldest, List.take_of_length_le all]

/-- Dropping as the loop does is leaving out the oldest positions. -/
theorem dropOldest_eq (systemFirst : SystemFirst messages)
    (user : rposition isUser messages = some i) (count : Nat) :
    dropOldest count messages = withoutOldest count messages := by
  rw [dropOldest_eq_dropFirst, dropFirst_eq_without, positions_droppable systemFirst user,
    withoutOldest]

theorem sparedMessages_eq (systemFirst : SystemFirst messages)
    (user : rposition isUser messages = some i) :
    sparedMessages messages = withoutOldest (removable messages).length messages := by
  have spares := spared_eq_without (lastUserIdx messages) 0 messages
  simp only [Nat.zero_add] at spares
  rw [withoutOldest_of_le le_rfl, sparedMessages, spares, positions_droppable systemFirst user]

theorem isSystem_eq_false_of_mem_removable (member : i ∈ removable messages) :
    ∃ message, messages[i]? = some message ∧ isSystem message = false := by
  obtain ⟨message, shown, drops⟩ := mem_positions_iff.mp member
  rw [Bool.and_eq_true, Bool.not_eq_true'] at drops
  exact ⟨message, shown, drops.1⟩

/-- System messages are kept, whatever is removed. -/
theorem filter_isSystem_withoutOldest (count : Nat) (messages : List ChatMessage) :
    (withoutOldest count messages).filter isSystem = messages.filter isSystem := by
  apply filter_without
  intro n message shown system member
  obtain ⟨other, alsoShown, notSystem⟩ :=
    isSystem_eq_false_of_mem_removable (List.mem_of_mem_take member)
  rw [shown, Option.some.injEq] at alsoShown
  rw [← alsoShown, system] at notSystem
  contradiction

/-- The last user message stays the last one. -/
theorem LastUser.dropOldest (lastUser : LastUser messages i message) (count : Nat) :
    ∃ j, LastUser (dropOldest count messages) j message := by
  induction count generalizing messages i with
  | zero => exact ⟨i, lastUser⟩
  | succ count inductionHypothesis =>
      cases found : dropIdx (lastUserIdx messages) 0 messages with
      | none =>
          rw [dropOldest_of_spares (dropIdx_eq_none_iff.mp found)]
          exact ⟨i, lastUser⟩
      | some n =>
          obtain ⟨_, _, notLast, _⟩ := sparedMessages_eraseIdx found
          rw [lastUserIdx, lastUser.position, Option.getD_some] at notLast
          rw [dropOldest_succ found]
          apply inductionHypothesis
          constructor
          · exact rposition_eraseIdx lastUser.position notLast
          · rw [List.getElem?_eraseIdx, ← lastUser.shown]
            split <;> split <;> first | rfl | (congr 1; omega)

theorem isSystem_of_isUser (user : isUser message = true) : isSystem message = false := by
  simp only [isUser, decide_eq_true_eq] at user
  simp only [isSystem, user]
  decide

theorem filter_isSystem_set {kept : List ChatMessage} {other : ChatMessage}
    (shown : kept[i]? = some message) (notSystem : isSystem message = false)
    (otherwise : isSystem other = false) :
    (kept.set i other).filter isSystem = kept.filter isSystem := by
  induction kept generalizing i with
  | nil => rfl
  | cons first rest inductionHypothesis =>
      cases i with
      | zero =>
          rw [List.getElem?_cons_zero, Option.some.injEq] at shown
          subst shown
          rw [List.set_cons_zero, List.filter_cons_of_neg (by simp [otherwise]),
            List.filter_cons_of_neg (by simp [notSystem])]
      | succ i =>
          rw [List.getElem?_cons_succ] at shown
          rw [List.set_cons_succ, List.filter_cons, List.filter_cons, inductionHypothesis shown]

/-- A cut of the last user message changes no system message. -/
theorem CutsLastUser.filter_isSystem {kept : List ChatMessage}
    (cuts : CutsLastUser message i kept final) (lastUser : LastUser kept i message) :
    final.filter isSystem = kept.filter isSystem := by
  obtain ⟨start, _, _, rfl⟩ := cuts
  obtain ⟨same, shown, user⟩ := getElem?_of_rposition lastUser.position
  rw [lastUser.shown, Option.some.injEq] at shown
  subst shown
  exact filter_isSystem_set lastUser.shown (isSystem_of_isUser user) (isSystem_of_isUser user)

theorem modify_eq_set_of_shown {kept : List ChatMessage} (shown : kept[i]? = some message)
    (change : ChatMessage → ChatMessage) : kept.modify i change = kept.set i (change message) := by
  apply List.ext_getElem?
  intro n
  rw [List.getElem?_modify, List.getElem?_set]
  by_cases here : i = n
  · subst here
    rw [shown, if_pos rfl, if_pos (List.getElem?_eq_some_iff.mp shown).1]
    simp
  · simp [here]

/-- What the loop leaves of a last user message that is cut is within the budget, so something of
its text is gone. -/
theorem cutsLastUser_cutLastUser {kept : List ChatMessage} (lastUser : LastUser kept i message)
    (beyond : tokenClass.maxPromptBytes < approxPromptBytes kept)
    (within : approxPromptBytes (cutLastUser tokenClass kept) ≤ tokenClass.maxPromptBytes) :
    CutsLastUser message i kept (cutLastUser tokenClass kept) := by
  rw [cutLastUser, lastUser.position] at within ⊢
  simp only at within ⊢
  have change := approxPromptBytes_modify lastUser.shown
    (truncateContent (approxPromptBytes kept - tokenClass.maxPromptBytes + 32))
  rw [messageBytes_truncateContent, messageBytes] at change
  refine ⟨message.content.take (message.content.length -
      (approxPromptBytes kept - tokenClass.maxPromptBytes + 32)), List.take_prefix _ _, ?_,
    modify_eq_set_of_shown lastUser.shown _⟩
  intro same
  rw [same] at change
  omega

theorem exists_lastUser (hasUser : ∃ message ∈ messages, isUser message = true) :
    ∃ i message, LastUser messages i message := by
  cases user : rposition isUser messages with
  | none =>
      obtain ⟨message, member, isUser⟩ := hasUser
      rw [rposition_eq_none_iff.mp user message member] at isUser
      contradiction
  | some i =>
      obtain ⟨message, shown, _⟩ := getElem?_of_rposition user
      exact ⟨i, message, user, shown⟩

theorem LastUser.withoutOldest (lastUser : LastUser messages i message)
    (systemFirst : SystemFirst messages) (count : Nat) :
    ∃ j, LastUser (withoutOldest count messages) j message := by
  rw [← dropOldest_eq systemFirst lastUser.position]
  exact lastUser.dropOldest count

/-- The loop leaves the prompt without the fewest messages that suffice, or it cuts the last user
message when no number of them does. -/
theorem EnforcesBudget.eq_withoutOldest (ends : EnforcesBudget tokenClass messages final)
    (systemFirst : SystemFirst messages) (user : rposition isUser messages = some i) :
    (∃ count ≤ (removable messages).length,
      approxPromptBytes (withoutOldest count messages) ≤ tokenClass.maxPromptBytes ∧
      (∀ fewer < count,
        tokenClass.maxPromptBytes < approxPromptBytes (withoutOldest fewer messages)) ∧
      final = withoutOldest count messages) ∨
    (∀ count, tokenClass.maxPromptBytes < approxPromptBytes (withoutOldest count messages)) ∧
      final = cutLastUser tokenClass
        (withoutOldest (removable messages).length messages) := by
  have few : (removable messages).length ≤ messages.length := length_positions_le _ _
  have isFitted := ends.eq_fitted systemFirst
  simp only [fitted, dropOldest_eq systemFirst user] at isFitted
  split at isFitted
  next count found =>
    obtain ⟨fits, _, least⟩ := List.find?_range_eq_some.mp found
    simp only [Bool.not_eq_true', decide_eq_false_iff_not, Nat.not_le] at least
    have fits := of_decide_eq_true fits
    refine .inl ⟨count, ?_, fits, least, isFitted⟩
    by_contra many
    have all := least _ (Nat.lt_of_not_le many)
    rw [withoutOldest_of_le le_rfl, ← withoutOldest_of_le (Nat.le_of_not_le many)] at all
    exact absurd fits (Nat.not_le_of_lt all)
  next none =>
    rw [List.find?_range_eq_none] at none
    simp only [Bool.not_eq_true', decide_eq_false_iff_not, Nat.not_le] at none
    rw [sparedMessages_eq systemFirst user] at isFitted
    refine .inr ⟨fun count => ?_, isFitted⟩
    rcases Nat.le_total count messages.length with fits | many
    · exact none count (Nat.lt_succ_of_le fits)
    · rw [withoutOldest_of_le (few.trans many), ← withoutOldest_of_le few]
      exact none _ (Nat.lt_succ_self _)

/-- **The budget removes no more than it must**, whenever its loop ends: the fewest messages that
suffice, oldest first, and the end of the last user message only when all others are gone. -/
theorem EnforcesBudget.removesLeast (ends : EnforcesBudget tokenClass messages final)
    (systemFirst : SystemFirst messages) (hasUser : ∃ message ∈ messages, isUser message = true) :
    RemovesLeast tokenClass messages final := by
  obtain ⟨before, message, lastUser⟩ := exists_lastUser hasUser
  have sublist : ∀ count, (withoutOldest count messages).Sublist messages :=
    fun count => without_sublist _ messages
  have unchanged : approxPromptBytes messages ≤ tokenClass.maxPromptBytes → final = messages :=
    fun within => (ends.eq_fitted systemFirst).trans (fitted_of_le within)
  rcases ends.eq_withoutOldest systemFirst lastUser.position with
    ⟨count, bound, fits, least, rfl⟩ | ⟨beyond, isCut⟩
  · obtain ⟨i, isLast⟩ := lastUser.withoutOldest systemFirst count
    refine ⟨unchanged, filter_isSystem_withoutOldest count messages, count, bound, least,
      sublist count, message, before, i, lastUser, isLast, .inl ⟨fits, rfl⟩⟩
  · obtain ⟨i, isLast⟩ := lastUser.withoutOldest systemFirst (removable messages).length
    have within := ends.within_of_user systemFirst lastUser.position
    rw [isCut] at within
    have cuts := cutsLastUser_cutLastUser isLast (beyond _) within
    rw [← isCut] at cuts
    refine ⟨unchanged, ?_, _, le_rfl, fun fewer _ => beyond fewer, sublist _, message, before, i,
      lastUser, isLast, .inr ⟨rfl, beyond _, cuts⟩⟩
    rw [cuts.filter_isSystem isLast, filter_isSystem_withoutOldest]

end Survivors

/-- A long question, an answer to it and a short question. -/
def longThread : List ChatMessage := [
  ⟨text "system", text "Be brief.", []⟩,
  ⟨text "user", List.replicate 3000 'a', []⟩,
  ⟨text "assistant", text "Yes?", []⟩,
  ⟨text "user", text "Hi", []⟩]

/-- The long question is removed, and nothing else. -/
theorem removesLeast_longThread : RemovesLeast .c256 longThread (longThread.eraseIdx 1) := by
  have systemFirst : SystemFirst longThread := by decide
  have beyond : TokenClass.c256.maxPromptBytes < approxPromptBytes longThread := by decide +kernel
  have found : dropIdx (lastUserIdx longThread) 0 longThread = some 1 := by decide
  have fits : approxPromptBytes (longThread.eraseIdx 1) ≤ TokenClass.c256.maxPromptBytes := by
    decide +kernel
  have step := enforceRound_of_dropIdx systemFirst beyond found
  have ends : EnforcesBudget .c256 longThread (longThread.eraseIdx 1) :=
    (ends_of_step step).mpr (.of_stop (by rw [enforceRound, if_pos fits]))
  have last : (⟨text "user", text "Hi", []⟩ : ChatMessage) ∈ longThread :=
    List.mem_of_getElem? (rfl : longThread[3]? = _)
  exact ends.removesLeast systemFirst ⟨_, last, by decide⟩

end ZkLlmGateway.Client
