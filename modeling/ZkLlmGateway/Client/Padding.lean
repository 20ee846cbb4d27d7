import ZkLlmGateway.Client.Agreement

/-!
# What padding hides

Padding with a cap that does not hold it back brings every prompt to the same
size, up to the bytes that are reserved for the lines around the filler.  The
reserve is larger than these lines, so the loop that would trim the padding again
has nothing to do.
-/

namespace ZkLlmGateway.Client

open ZkLlmGateway.Encoding ZkLlmGateway.Common ZkLlmGateway.Transition

/-- A block at the end of the first message: none at all, or one with both of its lines. -/
def IsPadding (block : Text) : Prop :=
  block = [] ∨ ∃ filler, block = padBlock filler

/-- A prompt that does not show how long it was. -/
structure HidesLength (tokenClass : TokenClass) (messages padded : List ChatMessage) : Prop where
  first : ∃ block, IsPadding block ∧ padded = messages.modify 0 (appendContent block)
  within : approxPromptBytes padded ≤ tokenClass.maxPromptBytes
  close : tokenClass.maxPromptBytes ≤ approxPromptBytes padded + 128

section Padding

variable {tokenClass : TokenClass} {maxPadding need : Nat} {draws : Nat → Fin 12} {filler : Text}
  {messages padded other otherPadded : List ChatMessage}

theorem appendContent_nil : appendContent [] = id := by
  funext message
  rw [appendContent, List.append_nil, id_eq]

/-- A prompt that was changed ends its first message with the second line of a block. -/
theorem HidesLength.marked (hides : HidesLength tokenClass messages padded)
    (changed : padded ≠ messages) : ∀ first ∈ padded.head?, padEnd <:+ first.content := by
  obtain ⟨block, isPadding, rfl⟩ := hides.first
  rcases isPadding with rfl | ⟨filler, rfl⟩
  · rw [appendContent_nil, List.modify_id] at changed
    exact absurd rfl changed
  · intro first isFirst
    cases messages with
    | nil => contradiction
    | cons old rest =>
        rw [List.modify_zero_cons, List.head?_cons, Option.mem_some_iff] at isFirst
        rw [← isFirst, appendContent, padBlock, ← List.append_assoc]
        exact List.suffix_append _ padEnd

theorem approxPromptBytes_modify_padBlock (nonempty : messages ≠ [])
    (isFiller : FillerForPrivacy draws need filler) :
    approxPromptBytes (messages.modify 0 (appendContent (padBlock filler))) =
      approxPromptBytes messages + need + 89 := by
  obtain ⟨first, rest, rfl⟩ := List.exists_cons_of_ne_nil nonempty
  have bytes := (appendContent_padBlock first isFiller.plain.2).1
  rw [isFiller.plain.1] at bytes
  rw [List.modify_zero_cons, approxPromptBytes_cons, approxPromptBytes_cons, bytes]
  omega

/-- Without a cap the filler takes all the room but the reserve. -/
theorem paddingNeed_of_unlimited (unlimited : tokenClass.maxPromptBytes ≤ maxPadding)
    (nonempty : messages ≠ []) : paddingNeed tokenClass maxPadding messages =
      if approxPromptBytes messages + 128 < tokenClass.maxPromptBytes then
        some (tokenClass.maxPromptBytes - approxPromptBytes messages - 128)
      else none := by
  have isEmpty : messages.isEmpty = false := by simpa using nonempty
  simp only [paddingNeed]
  rw [isEmpty, if_neg Bool.false_ne_true]
  split
  next full => rw [if_neg (by omega)]
  next =>
    split
    next => rw [if_neg (by omega)]
    next => rw [if_pos (by omega), Nat.min_eq_left (by omega)]

/-- The block fits as it is, with thirty-nine bytes to spare. -/
theorem approxPromptBytes_of_paddingNeed (unlimited : tokenClass.maxPromptBytes ≤ maxPadding)
    (nonempty : messages ≠ []) (needs : paddingNeed tokenClass maxPadding messages = some need)
    (isFiller : FillerForPrivacy draws need filler) :
    approxPromptBytes (messages.modify 0 (appendContent (padBlock filler))) + 39 =
      tokenClass.maxPromptBytes := by
  rw [approxPromptBytes_modify_padBlock nonempty isFiller]
  rw [paddingNeed_of_unlimited unlimited nonempty, Option.ite_none_right_eq_some,
    Option.some.injEq] at needs
  omega

/-- The trimming loop is left before its first round. -/
theorem trimRound_padBlock (unlimited : tokenClass.maxPromptBytes ≤ maxPadding)
    (nonempty : messages ≠ []) (needs : paddingNeed tokenClass maxPadding messages = some need)
    (isFiller : FillerForPrivacy draws need filler) :
    trimRound tokenClass (messages.modify 0 (appendContent (padBlock filler))) = none := by
  apply trimRound_of_le
  have bytes := approxPromptBytes_of_paddingNeed unlimited nonempty needs isFiller
  omega

/-- Padding ends. -/
theorem exists_pads (unlimited : tokenClass.maxPromptBytes ≤ maxPadding) (draws : Nat → Fin 12)
    (nonempty : messages ≠ []) :
    ∃ padded, PadsSystemMessage tokenClass maxPadding draws messages padded := by
  cases needs : paddingNeed tokenClass maxPadding messages with
  | none => exact ⟨messages, by rw [PadsSystemMessage, needs]⟩
  | some need =>
      obtain ⟨filler, isFiller⟩ := exists_fillerForPrivacy draws need
      refine ⟨messages.modify 0 (appendContent (padBlock filler)), ?_⟩
      rw [PadsSystemMessage, needs]
      exact ⟨filler, isFiller, .of_stop (trimRound_padBlock unlimited nonempty needs isFiller)⟩

theorem PadsSystemMessage.hidesLength
    (pads : PadsSystemMessage tokenClass maxPadding draws messages padded)
    (unlimited : tokenClass.maxPromptBytes ≤ maxPadding) (nonempty : messages ≠ [])
    (within : approxPromptBytes messages ≤ tokenClass.maxPromptBytes) :
    HidesLength tokenClass messages padded := by
  unfold PadsSystemMessage at pads
  split at pads
  next none =>
    subst pads
    rw [paddingNeed_of_unlimited unlimited nonempty, ite_eq_right_iff] at none
    have full : ¬approxPromptBytes padded + 128 < tokenClass.maxPromptBytes :=
      fun roomy => absurd (none roomy) (Option.some_ne_none _)
    refine ⟨⟨[], .inl rfl, ?_⟩, within, Nat.le_of_not_lt full⟩
    rw [appendContent_nil, List.modify_id]
  next need needs =>
    obtain ⟨filler, isFiller, trims⟩ := pads
    have bytes := approxPromptBytes_of_paddingNeed unlimited nonempty needs isFiller
    have kept := trims.unique
      (.of_stop (trimRound_padBlock unlimited nonempty needs isFiller))
    subst kept
    refine ⟨⟨padBlock filler, .inr ⟨filler, rfl⟩, rfl⟩, ?_, ?_⟩
    · omega
    · omega

/-- Nothing tells two padded prompts of a class apart by more than the reserve. -/
theorem HidesLength.le_add (hides : HidesLength tokenClass messages padded)
    (otherHides : HidesLength tokenClass other otherPadded) :
    approxPromptBytes padded ≤ approxPromptBytes otherPadded + 128 :=
  hides.within.trans otherHides.close

/-- **Padding hides the length of a prompt**: it ends with the old prompt and one whole block at
the end of its first message, or none; the trimming loop has no round; the sizes of all prompts of
the class are within the reserve of each other; and the budget changes nothing afterwards. -/
theorem padding_hides_length (tokenClass : TokenClass) (maxPadding : Nat)
    (unlimited : tokenClass.maxPromptBytes ≤ maxPadding) (draws : Nat → Fin 12)
    (messages : List ChatMessage) (nonempty : messages ≠ [])
    (within : approxPromptBytes messages ≤ tokenClass.maxPromptBytes) :
    (∃ padded, PadsSystemMessage tokenClass maxPadding draws messages padded) ∧
      (∀ need filler, paddingNeed tokenClass maxPadding messages = some need →
        FillerForPrivacy draws need filler →
          trimRound tokenClass (messages.modify 0 (appendContent (padBlock filler))) = none) ∧
      ∀ padded, PadsSystemMessage tokenClass maxPadding draws messages padded →
        HidesLength tokenClass messages padded ∧
          (padded ≠ messages → ∀ first ∈ padded.head?, padEnd <:+ first.content) ∧
          (∀ final, EnforcesBudget tokenClass padded final ↔ final = padded) ∧
          ∀ (otherCap : Nat) (otherDraws : Nat → Fin 12) (other otherPadded : List ChatMessage),
            tokenClass.maxPromptBytes ≤ otherCap → other ≠ [] →
            approxPromptBytes other ≤ tokenClass.maxPromptBytes →
            PadsSystemMessage tokenClass otherCap otherDraws other otherPadded →
            approxPromptBytes padded ≤ approxPromptBytes otherPadded + 128 ∧
              approxPromptBytes otherPadded ≤ approxPromptBytes padded + 128 := by
  refine ⟨exists_pads unlimited draws nonempty,
    fun need filler needs isFiller => trimRound_padBlock unlimited nonempty needs isFiller, ?_⟩
  intro padded pads
  have hides := pads.hidesLength unlimited nonempty within
  refine ⟨hides, hides.marked, fun final => ⟨fun ends => ends.eq_self hides.within, ?_⟩, ?_⟩
  · rintro rfl
    exact enforcesBudget_of_le hides.within
  · intro otherCap otherDraws other otherPadded otherUnlimited otherNonempty otherWithin otherPads
    have otherHides := otherPads.hidesLength otherUnlimited otherNonempty otherWithin
    exact ⟨hides.le_add otherHides, otherHides.le_add hides⟩

end Padding

/-- A short question is padded to the size of its class. -/
theorem padding_hides_length_question :
    ∃ padded, PadsSystemMessage .c256 65536 (fun _ => 0)
      [⟨text "system", text "Be brief.", []⟩, ⟨text "user", text "Hello", []⟩] padded :=
  (padding_hides_length .c256 65536 (by decide) (fun _ => 0)
    [⟨text "system", text "Be brief.", []⟩, ⟨text "user", text "Hello", []⟩] (by decide)
    (by decide +kernel)).1

/-- **The builder hides the length of what it fitted**, when it pads without a cap. -/
theorem BuildsRemoteMessages.hidesLength {engine : Engine} {draws : Nat → Fin 12}
    {source : PromptSource} {redactor : Redactor} {final : List ChatMessage}
    (built : BuildsRemoteMessages engine draws source redactor final)
    (pads : source.cfg.padSystemPrompt = true)
    (unlimited : source.tokenClass.maxPromptBytes ≤ source.cfg.maxPaddingBytes)
    (within : approxPromptBytes (source.fitted engine redactor) ≤
      source.tokenClass.maxPromptBytes) :
    HidesLength source.tokenClass (source.fitted engine redactor) final := by
  obtain ⟨fitting, ends, rest⟩ := built
  have assembled := wellFormed_assembled source engine redactor
  have isFitted : fitting = source.fitted engine redactor := ends.eq_fitted assembled.systemFirst
  rw [if_pos pads] at rest
  obtain ⟨padded, isPadded, again⟩ := rest
  rw [← isFitted] at within ⊢
  have hides := isPadded.hidesLength unlimited (assembled.enforcesBudget ends).nonempty within
  rw [again.eq_self hides.within]
  exact hides

end ZkLlmGateway.Client
