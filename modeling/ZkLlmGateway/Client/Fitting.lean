import ZkLlmGateway.Client.Budget

/-!
# What the budget leaves

The loop of the budget is described without its rounds: the fewest messages that
make the prompt fit are dropped, oldest first, and when dropping all of them is
not enough, the last user message is cut once.
-/

namespace ZkLlmGateway.Client

open ZkLlmGateway.Encoding ZkLlmGateway.Common ZkLlmGateway.Transition

/-- The prompt without its `count` oldest messages among those that may be dropped. -/
def dropOldest : Nat → List ChatMessage → List ChatMessage
  | 0, messages => messages
  | count + 1, messages =>
      match dropIdx (lastUserIdx messages) 0 messages with
      | some i => dropOldest count (messages.eraseIdx i)
      | none => messages

/-- The last user message is cut by what is too much, with a safety margin. -/
def cutLastUser (tokenClass : TokenClass) (messages : List ChatMessage) : List ChatMessage :=
  match rposition isUser messages with
  | some i => messages.modify i
      (truncateContent (approxPromptBytes messages - tokenClass.maxPromptBytes + 32))
  | none => messages

/-- The prompt that fits the budget. -/
def fitted (tokenClass : TokenClass) (messages : List ChatMessage) : List ChatMessage :=
  let fits := fun count => approxPromptBytes (dropOldest count messages) ≤ tokenClass.maxPromptBytes
  match (List.range (messages.length + 1)).find? fits with
  | some count => dropOldest count messages
  | none => cutLastUser tokenClass (sparedMessages messages)

section Fitted

variable {tokenClass : TokenClass} {messages final : List ChatMessage} {n : Nat}

theorem dropOldest_succ (found : dropIdx (lastUserIdx messages) 0 messages = some n)
    (count : Nat) : dropOldest (count + 1) messages = dropOldest count (messages.eraseIdx n) := by
  rw [dropOldest, found]

theorem dropOldest_of_spares (spares : sparedMessages messages = messages) (count : Nat) :
    dropOldest count messages = messages := by
  cases count with
  | zero => rfl
  | succ count => rw [dropOldest, dropIdx_eq_none_iff.mpr spares]

theorem fitted_of_le (within : approxPromptBytes messages ≤ tokenClass.maxPromptBytes) :
    fitted tokenClass messages = messages := by
  have first : approxPromptBytes (dropOldest 0 messages) ≤ tokenClass.maxPromptBytes := within
  rw [fitted, List.range_succ_eq_map, List.find?_cons_of_pos (by simpa using first)]
  rfl

/-- A message that is dropped counts towards the messages to drop. -/
theorem fitted_of_dropIdx (beyond : tokenClass.maxPromptBytes < approxPromptBytes messages)
    (found : dropIdx (lastUserIdx messages) 0 messages = some n) :
    fitted tokenClass messages = fitted tokenClass (messages.eraseIdx n) := by
  obtain ⟨_, inside, _, same⟩ := sparedMessages_eraseIdx found
  have length : (messages.eraseIdx n).length + 1 = messages.length := by
    rw [List.length_eraseIdx_of_lt inside]
    omega
  have first : ¬approxPromptBytes (dropOldest 0 messages) ≤ tokenClass.maxPromptBytes :=
    Nat.not_le_of_lt beyond
  rw [fitted, List.range_succ_eq_map, List.find?_cons_of_neg (by simpa using first),
    List.find?_map, ← length, fitted, same]
  simp only [Function.comp_def, Nat.succ_eq_add_one, dropOldest_succ found]
  cases List.find? _ _ with
  | none => rfl
  | some count => exact dropOldest_succ found count

theorem fitted_of_spares (beyond : tokenClass.maxPromptBytes < approxPromptBytes messages)
    (spares : sparedMessages messages = messages) :
    fitted tokenClass messages = cutLastUser tokenClass messages := by
  have none : (List.range (messages.length + 1)).find?
      (fun count => approxPromptBytes (dropOldest count messages) ≤ tokenClass.maxPromptBytes) =
        none := by
    rw [List.find?_eq_none]
    intro count _
    rw [dropOldest_of_spares spares]
    simpa using beyond
  rw [fitted, none, spares]

/-- Whatever may be dropped from a prompt that is too long is dropped. -/
theorem enforceRound_of_dropIdx (systemFirst : SystemFirst messages)
    (beyond : tokenClass.maxPromptBytes < approxPromptBytes messages)
    (found : dropIdx (lastUserIdx messages) 0 messages = some n) :
    enforceRound tokenClass messages = some (messages.eraseIdx n) := by
  have long : messages.length > 2 := by
    by_contra short
    have spares := sparedMessages_of_length_le systemFirst (Nat.le_of_not_gt short)
    rw [dropIdx_eq_none_iff.mpr spares] at found
    contradiction
  rw [enforceRound, if_neg (Nat.not_le_of_lt beyond), if_pos long, found]

/-- When nothing is left to drop, the last user message is cut. -/
theorem enforceRound_of_spares (beyond : tokenClass.maxPromptBytes < approxPromptBytes messages)
    (spares : sparedMessages messages = messages) :
    enforceRound tokenClass messages = (rposition isUser messages).map fun i =>
      messages.modify i
        (truncateContent (approxPromptBytes messages - tokenClass.maxPromptBytes + 32)) := by
  rw [enforceRound, if_neg (Nat.not_le_of_lt beyond), dropIdx_eq_none_iff.mpr spares, ite_self]
  cases rposition isUser messages <;> rfl

/-- **The loop leaves the fitted prompt**, whenever it ends. -/
theorem EnforcesBudget.eq_fitted (ends : EnforcesBudget tokenClass messages final)
    (systemFirst : SystemFirst messages) : final = fitted tokenClass messages := by
  induction size : messages.length using Nat.strongRecOn generalizing messages with
  | ind size inductionHypothesis =>
      by_cases within : approxPromptBytes messages ≤ tokenClass.maxPromptBytes
      · rw [fitted_of_le within]
        exact ends.unique (.of_stop (by rw [enforceRound, if_pos within]))
      have beyond := Nat.lt_of_not_le within
      cases found : dropIdx (lastUserIdx messages) 0 messages with
      | some n =>
          obtain ⟨positive, inside, _⟩ := sparedMessages_eraseIdx found
          have step := enforceRound_of_dropIdx systemFirst beyond found
          rw [fitted_of_dropIdx beyond found]
          refine inductionHypothesis _ ?_ ((ends_of_step step).mp ends)
            (systemFirst.eraseIdx positive) rfl
          rw [← size, List.length_eraseIdx_of_lt inside]
          omega
      | none =>
          have spares := dropIdx_eq_none_iff.mp found
          have round := enforceRound_of_spares beyond spares
          rw [fitted_of_spares beyond spares, cutLastUser]
          cases user : rposition isUser messages with
          | none =>
              rw [user, Option.map_none] at round
              exact ends.unique (.of_stop round)
          | some i =>
              rw [user, Option.map_some] at round
              have rest := (ends_of_step round).mp ends
              obtain ⟨message, shown, _⟩ := getElem?_of_rposition user
              refine rest.unique (.of_stop ?_)
              rw [enforceRound, if_pos]
              by_contra unfit
              -- A message that is cut short enough fits; one that is not is only the mark.
              by_cases short : message.content.length ≤
                  approxPromptBytes messages - tokenClass.maxPromptBytes + 32
              · rw [modify_truncateContent user shown short] at rest unfit
                exact not_enforcesBudget_blankLastUser systemFirst spares user
                  (Nat.lt_of_not_le unfit) rest
              · exact unfit (approxPromptBytes_modify_le shown beyond (Nat.lt_of_not_le short))

end Fitted

end ZkLlmGateway.Client
