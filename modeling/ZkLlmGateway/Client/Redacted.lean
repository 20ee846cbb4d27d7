import ZkLlmGateway.Client.Terms
import ZkLlmGateway.Matching.Stable

/-!
# What the passes find in a redacted text

A redacted text is searched once more.  Among the characters that are still shown
nothing is found, except a URL whose scheme stands in front of a placeholder; in
the placeholders nothing is found but nine digits in a row, which are taken for a
telephone number.
-/

namespace ZkLlmGateway.Client

open ZkLlmGateway.Encoding ZkLlmGateway.Matching

/-! ## Digits in a row -/

/-- Nine items of a class in a row. -/
def NineInARow {α : Type} (mem : α → Bool) (content : List α) : Prop :=
  ∃ tail ∈ content.tails, 9 ≤ (tail.takeWhile mem).length

instance {α : Type} (mem : α → Bool) (content : List α) : Decidable (NineInARow mem content) :=
  inferInstanceAs (Decidable (∃ tail ∈ content.tails, _))

theorem nineInARow_iff {α : Type} {mem : α → Bool} {content : List α} :
    NineInARow mem content ↔
      ∃ word, word <:+: content ∧ 9 ≤ word.length ∧ ∀ item ∈ word, mem item = true := by
  constructor
  · rintro ⟨tail, member, long⟩
    have isSuffix := (List.mem_tails tail content).mp member
    exact ⟨tail.takeWhile mem, (List.takeWhile_prefix mem).isInfix.trans isSuffix.isInfix, long,
      fun item inside => List.mem_takeWhile_imp inside⟩
  · rintro ⟨word, ⟨front, back, rfl⟩, long, all⟩
    refine ⟨word ++ back, ?_, ?_⟩
    · rw [List.mem_tails, List.append_assoc]
      exact List.suffix_append front _
    · rw [List.takeWhile_append_of_pos all, List.length_append]
      omega

/-- A digit that is not part of the text any more. -/
def isHiddenDigit (cell : Cell Char (Option Nat)) : Bool :=
  cell.mark.isNone && isAsciiDigit cell.item

/-! ## Characters of placeholders -/

theorem lt_of_isMaskChar {char : Char} (isMask : isMaskChar char = true) : char.toNat < 128 := by
  simp only [isMaskChar, Bool.or_eq_true, beq_iff_eq] at isMask
  rcases isMask with (rfl | rfl) | inner
  · decide
  · decide
  · have bounds := bounds_of_isInnerChar inner
    omega

section Finding

variable {engine : Engine} {salt : Block 32} {content input matched : Text}
  {pattern : List (Piece Char)} {cells : List (Cell Char (Option Nat))}

theorem mem_lengths_of_mem_hits (found : matched ∈ hits (find pattern) input) :
    matched.length ∈ lengths pattern matched := by
  obtain ⟨nonempty, front, back, rfl, length⟩ := of_mem_hits (find_le_length pattern) found
  have reached : matched.length ∈ lengths pattern (matched ++ back) := by
    rw [← length]
    unfold find at length ⊢
    cases tried : (lengths pattern (matched ++ back)).head? with
    | none =>
        rw [tried] at length
        exact absurd (List.eq_nil_of_length_eq_zero length.symm) nonempty
    | some first => exact List.mem_of_head? tried
  have alone := mem_lengths_take reached
  rwa [List.take_left] at alone

/-- A pattern that demands a character no placeholder has is not found in one. -/
theorem not_all_mask {foreign : Char} (member : once (· == foreign) ∈ pattern)
    (isForeign : isMaskChar foreign = false) (found : matched ∈ hits (find pattern) input) :
    ¬∀ char ∈ matched, isMaskChar char = true := by
  intro all
  obtain ⟨char, inside, isMember⟩ :=
    exists_taken_of_mem (mem_lengths_of_mem_hits found) member (le_refl 1)
  rw [List.take_length] at inside
  have isMask := all char inside
  rw [beq_iff_eq.mp isMember, isForeign] at isMask
  contradiction

/-- Only the pattern for telephone numbers is found in placeholders. -/
theorem foreign_of_builtin {pass : Pass} (member : pass ∈ builtinPasses engine .strict)
    (notPhone : pass.kind ≠ .phone) :
    ∃ foreign, once (· == foreign) ∈ pass.pattern ∧ isMaskChar foreign = false := by
  simp only [builtinPasses, basicPasses, List.cons_append, List.nil_append, List.mem_cons,
    List.not_mem_nil, or_false] at member
  rcases member with rfl | rfl | rfl | rfl | rfl | rfl
  · exact ⟨'-', List.mem_of_getElem? (i := 0) rfl, by decide⟩
  · exact ⟨'s', List.mem_of_getElem? (i := 0) rfl, by decide⟩
  · exact ⟨'@', List.mem_of_getElem? (i := 1) rfl, by decide⟩
  · exact absurd rfl notPhone
  · exact ⟨'x', List.mem_of_getElem? (i := 1) rfl, by decide⟩
  · exact ⟨'h', List.mem_of_getElem? (i := 0) rfl, by decide⟩

/-- A telephone number of placeholder characters is nine digits or more. -/
theorem digits_of_phone (found : matched ∈ hits (find (rePhone engine)) input)
    (all : ∀ char ∈ matched, isMaskChar char = true) :
    9 ≤ matched.length ∧ ∀ char ∈ matched, isAsciiDigit char = true := by
  have reached := mem_lengths_of_mem_hits found
  refine ⟨le_of_mem_lengths reached, fun char inside => ?_⟩
  have isMask := all char inside
  have digit := engine.isDigit_ascii char (lt_of_isMaskChar isMask)
  have taken : char ∈ matched.take matched.length := by rwa [List.take_length]
  obtain ⟨piece, member, isMember⟩ := exists_mem_of_mem_take reached taken
  simp only [rePhone, List.mem_cons, List.not_mem_nil, or_false] at member
  rcases member with rfl | rfl | rfl | rfl
  · rw [beq_iff_eq.mp isMember] at isMask
    contradiction
  · rwa [← digit]
  · have visible := isVisible_of_isMaskChar char isMask
    rw [isVisible, Bool.not_eq_true'] at visible
    have isMember : (engine.isDigit char || isWhitespace char || (text "-()").contains char) =
      true :=
      isMember
    rw [visible, Bool.or_false, Bool.or_eq_true, List.contains_iff_mem] at isMember
    rcases isMember with isDigit | sign
    · rwa [← digit]
    · have foreign : (text "-()").all (!isMaskChar ·) = true := by decide
      have isForeign := List.all_eq_true.mp foreign char sign
      rw [isMask] at isForeign
      contradiction
  · rwa [← digit]

/-- Nine digits are taken for a telephone number. -/
theorem find_rePhone_ne_zero {word : Text} (long : 9 ≤ word.length)
    (digits : ∀ char ∈ word, isAsciiDigit char = true) (more : Text) :
    find (rePhone engine) (word ++ more) ≠ 0 := by
  have isDigit : ∀ char ∈ word, engine.isDigit char = true := by
    intro char inside
    have isDigit := digits char inside
    rw [engine.isDigit_ascii, isDigit]
    simp only [isAsciiDigit, Bool.and_eq_true, decide_eq_true_eq, Char.le_def,
      UInt32.le_iff_toNat_le] at isDigit
    exact Nat.lt_of_le_of_lt isDigit.2 (by decide)
  have demands : 0 < ((rePhone engine).map Piece.least).sum := Nat.zero_lt_succ 8
  refine find_ne_zero_append demands more ((find_ne_zero_iff demands).mpr ?_)
  have counted : ∀ (piece : Piece Char) (skip count : Nat), piece.least ≤ count →
      skip + count ≤ word.length → (∀ most ∈ piece.most, count ≤ most) →
      (∀ char, engine.isDigit char = true → piece.mem char = true) →
      count ∈ piece.counts (word.drop skip) := by
    intro piece skip count least fits most wide
    refine Piece.mem_counts.mpr ⟨least, Piece.le_reach (by rw [List.length_drop]; omega)
      (fun char inside => wide char (isDigit char ?_)) most⟩
    exact List.mem_of_mem_drop (List.mem_of_mem_take inside)
  apply List.ne_nil_of_mem (a := 0 + (1 + (7 + (1 + 0))))
  refine mem_lengths_cons.mpr ⟨0, _, ?_, mem_lengths_cons.mpr ⟨1, _, ?_, mem_lengths_cons.mpr
    ⟨7, _, ?_, mem_lengths_cons.mpr ⟨1, 0, ?_, List.mem_singleton_self 0, rfl⟩, rfl⟩, rfl⟩, rfl⟩
  · exact Piece.mem_counts.mpr ⟨le_rfl, Nat.zero_le _⟩
  · exact counted _ 0 1 le_rfl (by omega) (fun most isMost => (Option.some.inj isMost).le)
      fun char inside => inside
  · rw [List.drop_drop]
    exact counted _ 1 7 le_rfl (by omega) (fun most isMost => absurd isMost (by simp [atLeast]))
      fun char inside => by simp [atLeast, inside]
  · rw [List.drop_drop, List.drop_drop]
    exact counted _ 8 1 le_rfl (by omega) (fun most isMost => (Option.some.inj isMost).le)
      fun char inside => inside

/-- **No built-in pattern is found in a placeholder**, unless it has nine digits in a row. -/
theorem hits_placeholder_iff {tag : Text} (tagged : tag ∈ tags) (original : Text) :
    (∀ pass ∈ builtinPasses engine .strict,
        hits (find pass.pattern) (placeholderFor engine salt tag original) = []) ↔
      ¬NineInARow isAsciiDigit (placeholderFor engine salt tag original) := by
  have isMask : Mask '<' '>' isMaskChar (placeholderFor engine salt tag original) :=
    narrowMask_placeholderFor tagged original
  constructor
  · intro nothing nine
    obtain ⟨word, ⟨front, back, split⟩, long, digits⟩ := nineInARow_iff.mp nine
    have none := nothing ⟨rePhone engine, .phone, text "PHONE"⟩ (List.mem_of_getElem? (i := 3) rfl)
    have nonempty : word ++ back ≠ [] := by
      intro isNil
      rw [(List.append_eq_nil_iff.mp isNil).1] at long
      contradiction
    refine find_rePhone_ne_zero long digits back (find_eq_zero_of_hits_eq_nil none nonempty ?_)
    rw [← split, List.append_assoc]
    exact List.suffix_append front _
  · intro notNine pass member
    refine List.eq_nil_iff_forall_not_mem.mpr fun matched found => ?_
    obtain ⟨_, front, back, split, _⟩ := of_mem_hits (find_le_length _) found
    have all : ∀ char ∈ matched, isMaskChar char = true := by
      intro char inside
      apply isMask.plain char
      rw [split]
      exact List.mem_append_right _ (List.mem_append_left _ inside)
    by_cases isPhone : pass.kind = .phone
    · have same : pass.pattern = rePhone engine := by
        simp only [builtinPasses, basicPasses, List.cons_append, List.nil_append, List.mem_cons,
          List.not_mem_nil, or_false] at member
        rcases member with rfl | rfl | rfl | rfl | rfl | rfl <;>
          first | rfl | exact absurd isPhone (by decide)
      rw [same] at found
      obtain ⟨long, digits⟩ := digits_of_phone found all
      refine notNine (nineInARow_iff.mpr ⟨matched, ⟨front, back, ?_⟩, long, digits⟩)
      rw [split, List.append_assoc]
    · obtain ⟨foreign, inPattern, isForeign⟩ := foreign_of_builtin member isPhone
      exact not_all_mask inPattern isForeign found all

end Finding

/-! ## Passes over a redacted text -/

section Again

variable {engine : Engine} {salt : Block 32} {mode : RedactMode} {content : Text}
  {terms : List Text} {cells : List (Cell Char (Option Nat))} {list : List Pass} {pass : Pass}
  {position : Nat}

theorem Kept.of_hidden (kept : Kept (hidden engine salt list cells) position) :
    Kept cells position := by
  induction list generalizing cells with
  | nil => exact kept
  | cons pass list inductionHypothesis => exact (inductionHypothesis kept).of_conceal

theorem Clear.hidden {other : Text → Nat} (clear : Clear other cells)
    (tagged : ∀ pass ∈ list, pass.tag ∈ tags) : Clear other (hidden engine salt list cells) := by
  induction list generalizing cells with
  | nil => exact clear
  | cons pass list inductionHypothesis =>
      exact inductionHypothesis
        (clear.conceal (narrowMask_placeholderFor (tagged pass List.mem_cons_self)))
        fun later member => tagged later (List.mem_cons_of_mem _ member)

/-- The pattern of a pass is not found among shown characters any more. -/
theorem clear_hidden (tagged : ∀ pass ∈ list, pass.tag ∈ tags)
    (demands : ∀ pass ∈ list, 0 < (pass.pattern.map Piece.least).sum) :
    ∀ pass ∈ list, Clear (find pass.pattern) (hidden engine salt list cells) := by
  induction list generalizing cells with
  | nil => exact fun pass member => absurd member List.not_mem_nil
  | cons first list inductionHypothesis =>
      have taggedLater : ∀ pass ∈ list, pass.tag ∈ tags := fun pass member =>
        tagged pass (List.mem_cons_of_mem _ member)
      intro pass member
      rcases List.mem_cons.mp member with rfl | later
      · have empty : find pass.pattern [] = 0 := Nat.le_zero.mp (find_le_length _ [])
        have clear : Clear (find pass.pattern) (pass.hide engine salt cells) :=
          clear_conceal empty
            (fun input more => find_ne_zero_append (demands pass List.mem_cons_self) more)
            (narrowMask_placeholderFor (tagged pass List.mem_cons_self))
        have later : Clear (find pass.pattern)
            (hidden engine salt list (pass.hide engine salt cells)) :=
          Clear.hidden clear taggedLater
        exact later
      · exact inductionHypothesis taggedLater
          (fun other inside => demands other (List.mem_cons_of_mem _ inside)) pass later

theorem demands_of_mem_passes (member : pass ∈ passes engine mode terms) :
    0 < (pass.pattern.map Piece.least).sum := by
  have builtin : ∀ pass ∈ builtinPasses engine .strict, 0 < (pass.pattern.map Piece.least).sum := by
    intro pass inside
    simp only [builtinPasses, basicPasses, List.cons_append, List.nil_append, List.mem_cons,
      List.not_mem_nil, or_false] at inside
    rcases inside with rfl | rfl | rfl | rfl | rfl | rfl
    · decide
    · decide
    · decide
    · exact Nat.zero_lt_succ 8
    · decide
    · decide
  have custom : ∀ pass ∈ termPasses terms, 0 < (pass.pattern.map Piece.least).sum := by
    intro pass inside
    obtain ⟨term, isVisible, rfl⟩ := mem_termPasses.mp inside
    cases term with
    | nil => exact absurd (List.mem_filter.mp isVisible).2 (by decide)
    | cons char term =>
        rw [termPass, literally, List.map_cons, List.map_cons, List.sum_cons]
        exact Nat.add_pos_left Nat.one_pos _
  cases mode with
  | none => contradiction
  | basic =>
      rcases List.mem_append.mp member with basic | term
      · exact builtin pass (List.mem_append_left _ basic)
      · exact custom pass term
  | strict =>
      rcases List.mem_append.mp member with strict | term
      · exact builtin pass strict
      · exact custom pass term

theorem clear_redactedCells (member : pass ∈ passes engine mode terms) :
    Clear (find pass.pattern) (redactedCells engine salt mode content terms) :=
  clear_hidden (fun _ => tag_mem_tags) (fun _ => demands_of_mem_passes) pass member

/-- The characters of a hidden match are those of placeholders. -/
theorem mask_of_hidden (masked : Masked '<' '>' isMaskChar content 0 cells)
    {find : Text → Nat} (bounded : ∀ input, find input ≤ input.length)
    {matched : List (Cell Char (Option Nat))} (isHit : matched ∈ hits (onItems find) cells)
    (isHidden : ∀ cell ∈ matched, cell.mark = none) :
    ∀ char ∈ items matched, isMaskChar char = true := by
  intro char inside
  obtain ⟨cell, member, rfl⟩ := List.mem_map.mp inside
  obtain ⟨_, front, back, rfl, _⟩ := of_mem_hits_onItems bounded isHit
  exact (masked.of_mem (List.mem_append_right _ (List.mem_append_left _ member))).1
    (isHidden cell member)

theorem items_mem_hits {find : Text → Nat} {matched : List (Cell Char (Option Nat))}
    (isHit : matched ∈ hits (onItems find) cells) : items matched ∈ hits find (items cells) :=
  map_items_hits cells ▸ List.mem_map_of_mem isHit

/-- A pass whose matches do not join text with placeholders finds nothing in a redacted text but
characters of placeholders. -/
theorem hidden_of_unmixed (member : pass ∈ passes engine mode terms)
    (unmixed : Unmixed (find pass.pattern) (redactedCells engine salt mode content terms))
    {matched : List (Cell Char (Option Nat))}
    (isHit : matched ∈ hits (onItems (find pass.pattern))
      (redactedCells engine salt mode content terms)) :
    (∀ cell ∈ matched, cell.mark = none) ∧ ∀ char ∈ items matched, isMaskChar char = true := by
  have isHidden :=
    (clear_redactedCells member).hidden_of_mem_hits (matcher_find pass.pattern) unmixed isHit
  exact ⟨isHidden, mask_of_hidden (masked_redactedCells engine salt mode content terms)
    (find_le_length _) isHit isHidden⟩

/-! ## Private keys -/

def pemBegin : List (Piece Char) :=
  literally (text "-----BEGIN ") ++ [atLeast 0 fun char => isUpper char || char == ' '] ++
    literally (text "PRIVATE KEY-----")

def pemEnd : List (Piece Char) :=
  literally (text "-----END ") ++ [atLeast 0 fun char => isUpper char || char == ' '] ++
    literally (text "PRIVATE KEY-----")

/-- A private key is a line that begins it, anything, and a line that ends it. -/
theorem mem_lengths_rePrivateKeyBlock {input : Text} {length : Nat} :
    length ∈ lengths rePrivateKeyBlock input ↔
      ∃ first between last, first ∈ lengths pemBegin input ∧
        between ≤ (input.drop first).length ∧
        last ∈ lengths pemEnd (input.drop (first + between)) ∧ length = first +
        (between + last) := by
  have split : rePrivateKeyBlock = pemBegin ++ (lazily fun _ => true) :: pemEnd := by
    simp only [rePrivateKeyBlock, pemBegin, pemEnd, List.append_assoc, List.cons_append,
      List.nil_append]
  have anything : ∀ (rest : Text) (count : Nat),
      count ∈ (lazily fun _ => true).counts rest ↔ count ≤ rest.length := by
    intro rest count
    have whole : (lazily fun _ => true).reach rest = rest.length := by
      have all : rest.takeWhile (fun _ => true) = rest := List.takeWhile_eq_self_iff.mpr (by simp)
      simp [Piece.reach, lazily, all]
    rw [Piece.mem_counts, whole]
    simp [lazily]
  rw [split, mem_lengths_parts]
  constructor
  · rintro ⟨first, second, inBegin, later, rfl⟩
    obtain ⟨between, last, counted, inEnd, rfl⟩ := mem_lengths_cons.mp later
    rw [List.drop_drop] at inEnd
    exact ⟨first, between, last, inBegin, (anything _ _).mp counted, inEnd, rfl⟩
  · rintro ⟨first, between, last, inBegin, fits, inEnd, rfl⟩
    refine ⟨first, between + last, inBegin, mem_lengths_cons.mpr
      ⟨between, last, (anything _ _).mpr fits, ?_, rfl⟩, rfl⟩
    rwa [List.drop_drop]

/-- A word without brackets and with a foreign character is shown, and stands in the source. -/
theorem Masked.exists_shown {front word back : List (Cell Char (Option Nat))}
    (masked : Masked '<' '>' isMaskChar content 0 (front ++ (word ++ back)))
    (freeLeft : '<' ∉ items word) (freeRight : '>' ∉ items word) {foreign : Char}
    (inside : foreign ∈ items word) (isForeign : isMaskChar foreign = false) :
    ∃ start, items word <+: content.drop start ∧
      (∀ other, Kept word other ↔ start ≤ other ∧ other < start + word.length) ∧
      ∀ other, Kept front other → other < start := by
  have same := masked.same_of_free freeLeft freeRight
  obtain ⟨cell, member, rfl⟩ := List.mem_map.mp inside
  have isShown : cell.mark.isSome = true := by
    by_contra isHidden
    rw [Option.not_isSome_iff_eq_none] at isHidden
    have isMask := (masked.of_mem
      (List.mem_append_right _ (List.mem_append_left _ member))).1 isHidden
    rw [isForeign] at isMask
    contradiction
  refine masked.exists_start (List.ne_nil_of_mem member) fun other inWord => ?_
  rw [same other inWord cell member, isShown]

/-- A line that is found in a text with placeholders is shown, and found in the source as well. -/
theorem Masked.exists_line {front rest : List (Cell Char (Option Nat))} {line : List (Piece Char)}
    {length : Nat} (masked : Masked '<' '>' isMaskChar content 0 (front ++ rest))
    (avoids : Avoids line '<' ∧ Avoids line '>') (dashed : once (· == '-') ∈ line)
    (reached : length ∈ lengths line (items rest)) :
    ∃ start, length ∈ lengths line (content.drop start) ∧ start ≤ content.length ∧ 0 < length ∧
      (∀ other, Kept (rest.take length) other ↔ start ≤ other ∧ other < start + length) ∧
      ∀ other, Kept front other → other < start := by
  have dash : '-' ∈ items (rest.take length) := by
    obtain ⟨char, inside, isDash⟩ := exists_taken_of_mem reached dashed (le_refl 1)
    rw [items_take, ← beq_iff_eq.mp isDash]
    exact inside
  have exactly : (rest.take length).length = length := by
    have enough := length_le_of_mem_lengths reached
    rw [length_items] at enough
    exact List.length_take_of_le enough
  have positive : 0 < length := by
    rw [← exactly, List.length_pos_iff]
    intro isNil
    rw [isNil] at dash
    contradiction
  rw [← List.take_append_drop length rest] at masked
  obtain ⟨start, spelled, keptLine, before⟩ := Masked.exists_shown masked
    (by rw [items_take]; exact not_mem_take_of_avoids avoids.1 reached)
    (by rw [items_take]; exact not_mem_take_of_avoids avoids.2 reached) dash (by decide)
  rw [exactly] at keptLine
  refine ⟨start, ?_, ?_, positive, keptLine, before⟩
  · have taken := mem_lengths_take reached
    rw [← items_take] at taken
    exact mem_lengths_of_prefix spelled taken
  · by_contra beyond
    rw [List.drop_eq_nil_of_le (by omega)] at spelled
    rw [List.prefix_nil.mp spelled] at dash
    contradiction

theorem avoids_pemBegin : Avoids pemBegin '<' ∧ Avoids pemBegin '>' := by
  constructor
  all_goals
    unfold Avoids
    decide

theorem avoids_pemEnd : Avoids pemEnd '<' ∧ Avoids pemEnd '>' := by
  constructor
  all_goals
    unfold Avoids
    decide

/-- A private key that is found in a text with placeholders is found in the source as well: both
its lines are shown, and stand there in this order. -/
theorem Masked.exists_privateKey {front rest : List (Cell Char (Option Nat))}
    (masked : Masked '<' '>' isMaskChar content 0 (front ++ rest)) {total : Nat}
    (reached : total ∈ lengths rePrivateKeyBlock (items rest)) :
    ∃ start, Kept (front ++ rest) start ∧
      lengths rePrivateKeyBlock (content.drop start) ≠ [] := by
  obtain ⟨first, between, last, inBegin, fits, inEnd, rfl⟩ :=
    mem_lengths_rePrivateKeyBlock.mp reached
  obtain ⟨start, foundBegin, _, positive, keptBegin, _⟩ := Masked.exists_line masked avoids_pemBegin
    (List.mem_of_getElem? (i := 0) rfl) inBegin
  have maskedEnd := masked
  rw [← List.take_append_drop (first + between) rest, ← List.append_assoc] at maskedEnd
  rw [← items_drop] at inEnd
  obtain ⟨stop, foundEnd, inside, _, _, before⟩ := Masked.exists_line maskedEnd avoids_pemEnd
    (List.mem_of_getElem? (i := 0) rfl) inEnd
  have ordered : start + first ≤ stop := by
    have keptLast := (keptBegin (start + first - 1)).mpr ⟨by omega, by omega⟩
    have taken : Kept (front ++ rest.take (first + between)) (start + first - 1) := by
      rw [List.take_add, kept_append, kept_append]
      exact .inr (.inl keptLast)
    have isBefore := before _ taken
    omega
  have meets : start + (first + (stop - (start + first))) = stop := by omega
  refine ⟨start, ?_, List.ne_nil_of_mem (mem_lengths_rePrivateKeyBlock.mpr
    ⟨first, stop - (start + first), last, foundBegin, ?_, ?_, rfl⟩)⟩
  · rw [← List.take_append_drop first rest, kept_append, kept_append]
    exact .inr (.inl ((keptBegin start).mpr ⟨le_rfl, by omega⟩))
  · rw [List.drop_drop, List.length_drop]
    omega
  · rw [List.drop_drop, meets]
    exact foundEnd

/-- Where the source is still shown no private key begins. -/
theorem find_privateKey_of_kept (redacts : mode ≠ .none) {position : Nat}
    (kept : Kept (redactedCells engine salt mode content terms) position) :
    find rePrivateKeyBlock (content.drop position) = 0 := by
  obtain ⟨rest, isCons⟩ : ∃ rest, passes engine mode terms =
      ⟨rePrivateKeyBlock, .privateKey, text "PRIVATE_KEY"⟩ :: rest := by
    cases mode with
    | none => exact absurd rfl redacts
    | basic => exact ⟨_, rfl⟩
    | strict => exact ⟨_, rfl⟩
  rw [redactedCells, isCons] at kept
  have keptRest : Kept (hidden engine salt rest (Pass.hide engine salt
      ⟨rePrivateKeyBlock, .privateKey, text "PRIVATE_KEY"⟩ (numbered 0 content))) position := kept
  have keptAfter := Kept.of_hidden keptRest
  obtain ⟨inside, shown⟩ := ((tracks_privateKeys engine salt content).kept position).mp keptAfter
  have outside : ∀ span ∈ spans (find rePrivateKeyBlock) 0 content, ¬Within span position := by
    simpa [Pass.gone, Pass.spans] using shown
  exact find_eq_zero_of_outside (find_le_length _) (Nat.zero_le position)
    (by rwa [Nat.zero_add]) outside

/-- **No private key is found in a redacted text.** -/
theorem hits_privateKeys (redacts : mode ≠ .none) :
    hits (find rePrivateKeyBlock) (items (redactedCells engine salt mode content terms)) = [] := by
  have masked := masked_redactedCells engine salt mode content terms
  have demands : 0 < (rePrivateKeyBlock.map Piece.least).sum := by decide
  rw [← map_items_hits, List.map_eq_nil_iff]
  refine List.eq_nil_iff_forall_not_mem.mpr fun matched isHit => ?_
  obtain ⟨nonempty, front, back, whole, length⟩ := of_mem_hits_onItems (find_le_length _) isHit
  have found : find rePrivateKeyBlock (items (matched ++ back)) ≠ 0 := by
    rw [length]
    exact List.length_pos_iff.mpr nonempty |>.ne'
  obtain ⟨total, reached⟩ :=
    List.exists_mem_of_ne_nil _ ((find_ne_zero_iff demands).mp found)
  rw [whole] at masked
  obtain ⟨start, kept, stands⟩ := Masked.exists_privateKey masked reached
  rw [← whole] at kept
  exact absurd (find_privateKey_of_kept redacts kept)
    ((find_ne_zero_iff demands).mpr stands)

/-! ## URLs -/

/-- A scheme is shown right in front of something that is hidden. -/
def SchemeBeforeMask (content : Text) (cells : List (Cell Char (Option Nat))) : Prop :=
  ∃ start, ∃ scheme ∈ urlSchemes, scheme <+: content.drop start ∧
    (∀ i < scheme.length, Kept cells (start + i)) ∧ start + scheme.length < content.length ∧
    ¬Kept cells (start + scheme.length)

/-- Neighbours that are shown are a word of the text. -/
theorem exists_word_of_kept (masked : Masked '<' '>' isMaskChar content 0 cells) {start count : Nat}
    (kept : ∀ i < count, Kept cells (start + i)) (fits : start + count ≤ content.length) :
    ∃ word, word <:+: cells ∧ (∀ cell ∈ word, cell.mark.isSome = true) ∧
      items word = (content.drop start).take count := by
  rcases Nat.eq_zero_or_pos count with rfl | positive
  · exact ⟨[], List.nil_infix, by simp, by simp⟩
  · obtain ⟨front, back, rfl, rest, _, before⟩ := masked.split_at (kept 0 positive)
    rw [Nat.add_zero] at rest before
    obtain ⟨shown, behind, rfl, _, agrees, _, absent⟩ := rest.exists_front
    have long : count ≤ shown.length := by
      by_contra short
      have keptEnd := kept shown.length (not_le.mp short)
      refine absent ((kept_append.mp
        ((kept_append.mp keptEnd).resolve_left fun inFront => ?_)).resolve_left fun inShown => ?_)
      · have isBefore := before _ inFront
        omega
      · have bounds := kept_numbered_iff.mp inShown
        omega
    refine ⟨numbered start (shown.take count), ?_, fun cell => isSome_of_mem_numbered, ?_⟩
    · have split : numbered start shown =
          numbered start (shown.take count) ++
            numbered (start + (shown.take count).length) (shown.drop count) := by
        rw [← numbered_append, List.take_append_drop]
      rw [split, List.append_assoc]
      exact List.infix_append' _ _ _
    · rw [items_numbered, agrees, List.take_append_of_le_length long]

/-- No visible character is shown behind a scheme that is shown. -/
theorem not_visible_of_clear (masked : Masked '<' '>' isMaskChar content 0 cells)
    (clear : Clear (find reUrl) cells) {scheme : Text} (member : scheme ∈ urlSchemes) {start : Nat}
    (spelled : scheme <+: content.drop start)
    (kept : ∀ i < scheme.length + 1, Kept cells (start + i)) {char : Char}
    (next : content[start + scheme.length]? = some char) : isVisible char = false := by
  obtain ⟨bound, _⟩ := List.getElem?_eq_some_iff.mp next
  obtain ⟨word, isInfix, allShown, isWord⟩ := exists_word_of_kept masked kept (by omega)
  by_contra visible
  rw [Bool.not_eq_false] at visible
  refine find_reUrl_ne_zero_iff_schemes.mpr ⟨scheme, member, char, [], ?_, visible⟩
    (clear word isInfix allShown)
  rw [isWord, List.take_add_one, ← List.prefix_iff_eq_take.mp spelled, List.getElem?_drop, next]
  rfl

/-- A URL is found in a redacted text where a scheme stands in front of a placeholder. -/
theorem hits_reUrl_iff (masked : Masked '<' '>' isMaskChar content 0 cells)
    (clear : Clear (find reUrl) cells) :
    hits (find reUrl) (items cells) = [] ↔ ¬SchemeBeforeMask content cells := by
  have tracks := tracks_view masked
  constructor
  · rintro nothing ⟨start, scheme, member, spelled, shown, inside, gone⟩
    have stands : Stands isVisible content scheme start (Kept cells) :=
      ⟨spelled, fun position after before => by
        have kept := shown (position - start) (by omega)
        rwa [Nat.add_sub_cancel' after] at kept, inside, fun item kept => absurd kept gone⟩
    obtain ⟨front, cell, tail, rfl, _, found⟩ :=
      (begins_reUrl_iff tracks).mpr ⟨scheme, member, (schemeStands_iff tracks).mpr stands⟩
    refine found (find_eq_zero_of_hits_eq_nil nothing (by simp) ?_)
    rw [items_append]
    exact List.suffix_append _ _
  · intro notBefore
    rw [← map_items_hits, List.map_eq_nil_iff]
    refine List.eq_nil_iff_forall_not_mem.mpr fun matched isHit => notBefore ?_
    obtain ⟨nonempty, front, back, whole, length⟩ := of_mem_hits_onItems (find_le_length _) isHit
    obtain ⟨cell, rest, rfl⟩ := List.exists_cons_of_ne_nil nonempty
    have found : find reUrl (items (cell :: (rest ++ back))) ≠ 0 := by
      rw [← List.cons_append, length]
      exact Nat.succ_ne_zero _
    have inside : cell ∈ cells := by
      rw [whole]
      simp
    cases marked : cell.mark with
    | none => exact absurd (find_reUrl_clear _ _ ((masked.of_mem inside).1 marked)) found
    | some start =>
        obtain ⟨scheme, member, stands⟩ := (begins_reUrl_iff tracks).mp
          ⟨front, cell, rest ++ back, whole, marked, found⟩
        obtain ⟨spelled, shown, bound, followed⟩ := (schemeStands_iff tracks).mp stands
        refine ⟨start, scheme, member, spelled, fun i small =>
          shown (start + i) (Nat.le_add_right _ _) (by omega), bound, fun kept => ?_⟩
        -- With a visible character behind it the scheme would have been found before.
        have next := List.getElem?_eq_getElem bound
        have isVisible := followed _ kept next
        have keptWord : ∀ i < scheme.length + 1, Kept cells (start + i) := by
          intro i small
          rcases Nat.lt_succ_iff_lt_or_eq.mp small with before | rfl
          · exact shown (start + i) (Nat.le_add_right _ _) (by omega)
          · exact kept
        rw [not_visible_of_clear masked clear member spelled keptWord next] at isVisible
        contradiction

end Again

end ZkLlmGateway.Client
