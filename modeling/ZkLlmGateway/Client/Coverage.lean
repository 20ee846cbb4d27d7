import ZkLlmGateway.Client.Mapping
import ZkLlmGateway.Matching.Runs

/-!
# What redaction hides

The characters of a text are followed through the passes: a character is either
still there, with its position, or hidden behind a placeholder.  Every pass but
the one for URLs finds exactly the matches of the text that are still whole; a
URL is found by its scheme.
-/

namespace ZkLlmGateway.Client

open ZkLlmGateway.Encoding ZkLlmGateway.Matching

/-! ## The patterns -/

def isVisible (char : Char) : Bool :=
  !isWhitespace char

theorem bounds_of_isInnerChar {char : Char} (inner : isInnerChar char = true) :
    48 ≤ char.toNat ∧ char.toNat ≤ 122 := by
  simp only [isInnerChar, isTagChar, isUpper, isHexDigit, Bool.or_eq_true, Bool.and_eq_true,
    decide_eq_true_eq, beq_iff_eq, Char.le_def, UInt32.le_iff_toNat_le, text,
    List.contains_eq_mem] at inner
  rcases inner with (upper | rfl) | digit
  · exact ⟨Nat.le_trans (by decide) upper.1, Nat.le_trans upper.2 (by decide)⟩
  · decide
  · have all : ("0123456789abcdef".toList).all
        (fun char => decide (48 ≤ char.toNat ∧ char.toNat ≤ 122)) = true := by decide
    exact of_decide_eq_true (List.all_eq_true.mp all char digit)

theorem isVisible_of_isInnerChar {char : Char} (inner : isInnerChar char = true) :
    isVisible char = true := by
  have bounds := bounds_of_isInnerChar inner
  rw [isVisible, isWhitespace_eq_false_of_bounds (by omega) (by omega), Bool.not_false]

/-- A placeholder is a mask for characters that are not white space. -/
theorem mask_placeholderFor {engine : Engine} {salt : Block 32} {tag : Text}
    (member : tag ∈ tags) (original : Text) :
    Mask '<' '>' isVisible (placeholderFor engine salt tag original) := by
  have isPlaceholder : IsPlaceholder engine salt (placeholderFor engine salt tag original) :=
    isPlaceholder_placeholderFor member original
  obtain ⟨inner, equal, all⟩ := isPlaceholder.exists_inner
  rw [equal]
  refine ⟨rfl, by rw [← List.cons_append, List.getLast?_concat], fun char inside => ?_⟩
  rcases List.mem_cons.mp inside with rfl | later
  · decide
  · rcases List.mem_append.mp later with inInner | last
    · exact isVisible_of_isInnerChar (all char inInner)
    · rw [List.mem_singleton.mp last]
      decide

/-- The patterns that reach across no angle bracket. -/
def Bracketless (pass : Pass) : Prop :=
  Avoids pass.pattern '<' ∧ Avoids pass.pattern '>'

theorem bracketless_identifiers (engine : Engine) :
    ∀ pass ∈ (basicPasses engine).tail, Bracketless pass := by
  have digit : engine.isDigit '<' = false ∧ engine.isDigit '>' = false := by
    rw [engine.isDigit_ascii _ (by decide), engine.isDigit_ascii _ (by decide)]
    decide
  intro pass member
  simp only [basicPasses, List.tail_cons, List.mem_cons, List.not_mem_nil, or_false] at member
  rcases member with rfl | rfl | rfl | rfl
  · exact ⟨by unfold Avoids; decide, by unfold Avoids; decide⟩
  · exact ⟨by unfold Avoids; decide, by unfold Avoids; decide⟩
  · constructor
    · simp only [Avoids, rePhone, List.forall_mem_cons, optional, once, atLeast, digit.1]
      decide
    · simp only [Avoids, rePhone, List.forall_mem_cons, optional, once, atLeast, digit.2]
      decide
  · exact ⟨by unfold Avoids; decide, by unfold Avoids; decide⟩

/-! ## URLs -/

theorem visible_literally {content : Text} (all : content.all isVisible = true)
    {piece : Piece Char} (member : piece ∈ literally content) {item : Char}
    (inside : piece.mem item = true) : isVisible item = true := by
  obtain ⟨char, isChar, rfl⟩ := List.mem_map.mp member
  rw [beq_iff_eq.mp inside]
  exact List.all_eq_true.mp all char isChar

theorem runs_reUrl : Runs isVisible (find reUrl) := by
  refine runs_find 1 fun piece member item inside => ?_
  rcases List.mem_append.mp member with first | last
  · rcases List.mem_append.mp first with http | secure
    · exact visible_literally (by decide) http inside
    · rw [List.mem_singleton.mp secure] at inside
      rw [beq_iff_eq.mp inside]
      decide
  · exact visible_literally (by decide) last inside

/-- The beginning of a URL. -/
def urlScheme (content : Text) : Text :=
  if text "https://" <+: content then text "https://" else text "http://"

theorem lengths_visible_ne_nil_iff {content : Text} :
    lengths [atLeast 1 isVisible] content ≠ [] ↔
      ∃ next rest, content = next :: rest ∧ isVisible next = true := by
  constructor
  · intro reached
    obtain ⟨length, member⟩ := List.exists_mem_of_ne_nil _ reached
    obtain ⟨count, _, counted, _, _⟩ := mem_lengths_cons.mp member
    have bounds := Piece.mem_counts.mp counted
    have positive : 1 ≤ (content.takeWhile isVisible).length := bounds.1.trans bounds.2
    cases content with
    | nil => exact absurd positive (by simp)
    | cons next rest =>
        refine ⟨next, rest, rfl, ?_⟩
        by_contra hidden
        rw [List.takeWhile_cons, if_neg hidden, List.length_nil] at positive
        exact absurd positive (by decide)
  · rintro ⟨next, rest, rfl, visible⟩
    refine List.ne_nil_of_mem (mem_lengths_cons.mpr ⟨1, 0, Piece.mem_counts.mpr ⟨le_rfl, ?_⟩,
      List.mem_singleton_self 0, rfl⟩)
    simp [Piece.reach, atLeast, visible]

theorem lengths_authority_ne_nil_iff {content : Text} :
    lengths (literally (text "://") ++ [atLeast 1 isVisible]) content ≠ [] ↔
      ∃ next rest, content = text "://" ++ next :: rest ∧ isVisible next = true := by
  rw [lengths_literally_append]
  constructor
  · intro reached
    split at reached
    next isPrefix =>
      obtain ⟨after, rfl⟩ := isPrefix
      rw [List.drop_left, ne_eq, List.map_eq_nil_iff] at reached
      obtain ⟨next, rest, rfl, visible⟩ := lengths_visible_ne_nil_iff.mp reached
      exact ⟨next, rest, rfl, visible⟩
    next => exact absurd rfl reached
  · rintro ⟨next, rest, rfl, visible⟩
    rw [if_pos (List.prefix_append _ _), List.drop_left, ne_eq, List.map_eq_nil_iff]
    exact lengths_visible_ne_nil_iff.mpr ⟨next, rest, rfl, visible⟩

theorem reach_optional_le (mem : Char → Bool) (content : Text) :
    (optional mem).reach content ≤ 1 :=
  min_le_right _ _

theorem reach_optional_cons {mem : Char → Bool} {char : Char} (inside : mem char = true)
    (content : Text) : (optional mem).reach (char :: content) = 1 := by
  simp [Piece.reach, optional, inside]

theorem find_reUrl_http_ne_zero_iff {after : Text} :
    find reUrl (text "http" ++ after) ≠ 0 ↔
      (∃ next rest, after = text "://" ++ next :: rest ∧ isVisible next = true) ∨
        ∃ next rest, after = text "s://" ++ next :: rest ∧ isVisible next = true := by
  have demands : 0 < (reUrl.map Piece.least).sum := by decide
  have split : lengths reUrl (text "http" ++ after) =
      (lengths (optional (· == 's') :: (literally (text "://") ++ [atLeast 1 isVisible]))
        after).map (4 + ·) := by
    have whole := lengths_literally_append (text "http")
      ([optional (· == 's')] ++ (literally (text "://") ++ [atLeast 1 isVisible]))
      (text "http" ++ after)
    rw [if_pos (List.prefix_append _ _), List.drop_left, ← List.append_assoc,
      ← List.append_assoc] at whole
    exact whole
  rw [find_ne_zero_iff demands, split, ne_eq, List.map_eq_nil_iff]
  constructor
  · intro reached
    obtain ⟨length, member⟩ := List.exists_mem_of_ne_nil _ reached
    obtain ⟨count, remaining, counted, later, _⟩ := mem_lengths_cons.mp member
    have behind := lengths_authority_ne_nil_iff.mp (List.ne_nil_of_mem later)
    have reached := (Piece.mem_counts.mp counted).2
    rcases Nat.le_one_iff_eq_zero_or_eq_one.mp (reached.trans (reach_optional_le _ _)) with
      rfl | rfl
    · exact .inl behind
    · obtain ⟨next, rest, isTail, visible⟩ := behind
      cases after with
      | nil =>
          have short := reached.trans ((optional (· == 's')).reach_le [])
          exact absurd short (by simp)
      | cons first after =>
          have isS : first = 's' := beq_iff_eq.mp (Piece.mem_of_lt_reach
            (List.take_subset_take_left (first :: after) reached List.mem_cons_self))
          rw [List.drop_succ_cons, List.drop_zero] at isTail
          refine .inr ⟨next, rest, ?_, visible⟩
          rw [isS, isTail]
          rfl
  · rintro (plainScheme | ⟨next, rest, rfl, visible⟩)
    · obtain ⟨length, member⟩ :=
        List.exists_mem_of_ne_nil _ (lengths_authority_ne_nil_iff.mpr plainScheme)
      exact List.ne_nil_of_mem (mem_lengths_cons.mpr
        ⟨0, length, Piece.mem_counts.mpr ⟨le_rfl, Nat.zero_le _⟩, member, rfl⟩)
    · obtain ⟨length, member⟩ := List.exists_mem_of_ne_nil _
        (lengths_authority_ne_nil_iff.mpr ⟨next, rest, rfl, visible⟩)
      have isCons : text "s://" ++ next :: rest = 's' :: (text "://" ++ next :: rest) := rfl
      rw [isCons]
      exact List.ne_nil_of_mem (mem_lengths_cons.mpr ⟨1, length, Piece.mem_counts.mpr
        ⟨Nat.zero_le _, (reach_optional_cons (by decide) _).ge⟩, member, rfl⟩)

theorem http_not_https (rest : Text) : ¬text "https://" <+: text "http://" ++ rest := by
  rintro ⟨back, equal⟩
  have fifth : some 's' = some ':' := congrArg (fun list : Text => list[4]?) equal
  exact absurd fifth (by decide)

/-- The scheme is read off the beginning. -/
theorem urlScheme_append (content rest : Text) :
    urlScheme (urlScheme content ++ rest) = urlScheme content := by
  unfold urlScheme
  split
  · rw [if_pos (List.prefix_append _ _)]
  · rw [if_neg (http_not_https rest)]

theorem length_urlScheme_pos (content : Text) : 0 < (urlScheme content).length := by
  unfold urlScheme
  split <;> decide

/-- A URL is found where its scheme stands in front of a visible character. -/
theorem find_reUrl_ne_zero_iff {content : Text} :
    find reUrl content ≠ 0 ↔
      ∃ next rest, content = urlScheme content ++ next :: rest ∧ isVisible next = true := by
  constructor
  · intro found
    have isPrefix : text "http" <+: content := by
      by_contra other
      refine absurd found (not_not.mpr ?_)
      have none := lengths_literally_append (text "http")
        ([optional (· == 's')] ++ (literally (text "://") ++ [atLeast 1 isVisible])) content
      rw [if_neg other, ← List.append_assoc, ← List.append_assoc] at none
      have whole : lengths reUrl content = [] := none
      rw [find, whole]
      rfl
    obtain ⟨after, rfl⟩ := isPrefix
    rcases find_reUrl_http_ne_zero_iff.mp found with
      ⟨next, rest, rfl, visible⟩ | ⟨next, rest, rfl, visible⟩
    · refine ⟨next, rest, ?_, visible⟩
      have plainScheme : urlScheme (text "http" ++ (text "://" ++ next :: rest)) = text "http://" :=
        if_neg (http_not_https (next :: rest))
      rw [plainScheme]
      rfl
    · refine ⟨next, rest, ?_, visible⟩
      rw [urlScheme, if_pos ⟨next :: rest, rfl⟩]
      rfl
  · rintro ⟨next, rest, equal, visible⟩
    rw [equal]
    unfold urlScheme
    split
    · change find reUrl (text "http" ++ (text "s://" ++ next :: rest)) ≠ 0
      exact find_reUrl_http_ne_zero_iff.mpr (.inr ⟨next, rest, rfl, visible⟩)
    · change find reUrl (text "http" ++ (text "://" ++ next :: rest)) ≠ 0
      exact find_reUrl_http_ne_zero_iff.mpr (.inl ⟨next, rest, rfl, visible⟩)

/-! ## Following the characters -/

/-- A pass over a text whose characters know their positions. -/
def Pass.hide (engine : Engine) (salt : Block 32) (pass : Pass)
    (cells : List (Cell Char (Option Nat))) : List (Cell Char (Option Nat)) :=
  conceal (find pass.pattern) (placeholderFor engine salt pass.tag) cells

/-- The characters after some passes. -/
def hidden (engine : Engine) (salt : Block 32) (list : List Pass)
    (cells : List (Cell Char (Option Nat))) : List (Cell Char (Option Nat)) :=
  list.foldl (fun out pass => pass.hide engine salt out) cells

/-- Where a pattern matches a text. -/
def Pass.spans (pass : Pass) (content : Text) : List (Nat × Nat) :=
  Matching.spans (find pass.pattern) 0 content

/-- A position lies in a match of one of the passes. -/
def Taken (list : List Pass) (content : Text) (position : Nat) : Prop :=
  ∃ pass ∈ list, ∃ span ∈ pass.spans content, Within span position

/-- The part of a match by which it is found: a URL by its scheme, all others as
a whole. -/
def Pass.core (pass : Pass) (content : Text) (span : Nat × Nat) : Nat × Nat :=
  if pass.kind = .url then (span.1, span.1 + (urlScheme (content.drop span.1)).length) else span

/-- The matches of earlier passes take all of a match, or leave what it is found by. -/
def Pass.Spared (pass : Pass) (earlier : List Pass) (content : Text) (span : Nat × Nat) : Prop :=
  (∀ position, Within span position → Taken earlier content position) ∨
    ∀ position, Within (pass.core content span) position → ¬Taken earlier content position

/-- No match of an earlier pass takes a part of a match of a later one. -/
def NoBite (content : Text) : List Pass → List Pass → Prop
  | _, [] => True
  | earlier, pass :: later =>
      (∀ span ∈ pass.spans content, pass.Spared earlier content span) ∧
        NoBite content (earlier ++ [pass]) later

instance (list : List Pass) (content : Text) (position : Nat) :
    Decidable (Taken list content position) :=
  inferInstanceAs (Decidable (∃ pass ∈ list, ∃ span ∈ pass.spans content, Within span position))

instance (span : Nat × Nat) (holds : Nat → Prop) [DecidablePred holds] :
    Decidable (∀ position, Within span position → holds position) :=
  decidable_of_iff (∀ position < span.2, span.1 ≤ position → holds position)
    ⟨fun all position within => all position within.2 within.1,
      fun all position before after => all position ⟨after, before⟩⟩

instance (pass : Pass) (earlier : List Pass) (content : Text) (span : Nat × Nat) :
    Decidable (pass.Spared earlier content span) :=
  inferInstanceAs (Decidable (_ ∨ _))

instance decidableNoBite (content : Text) : ∀ earlier list : List Pass,
    Decidable (NoBite content earlier list)
  | _, [] => .isTrue trivial
  | earlier, pass :: later =>
      have := decidableNoBite content (earlier ++ [pass]) later
      inferInstanceAs (Decidable (_ ∧ _))

section Following

variable {engine : Engine} {salt : Block 32} {content : Text} {earlier list : List Pass}
  {pass : Pass} {cells : List (Cell Char (Option Nat))}

/-- Without positions, following the characters is redacting. -/
theorem items_hidden (list : List Pass) (cells : List (Cell Char (Option Nat))) :
    items (hidden engine salt list cells) = textOf engine salt list (items cells) := by
  induction list generalizing cells with
  | nil => rfl
  | cons pass list inductionHypothesis =>
      rw [hidden, List.foldl_cons, ← hidden, inductionHypothesis, textOf, textOf, List.foldl_cons,
        Pass.hide, items_rewriteCells, Pass.text]

theorem hidden_append (front back : List Pass) :
    hidden engine salt (front ++ back) cells =
      hidden engine salt back (hidden engine salt front cells) :=
  List.foldl_append

theorem hidden_singleton : hidden engine salt [pass] cells = pass.hide engine salt cells :=
  rfl

theorem taken_append {later : List Pass} {position : Nat} :
    Taken (earlier ++ later) content position ↔
      Taken earlier content position ∨ Taken later content position := by
  simp only [Taken, List.mem_append, or_and_right, exists_or]

/-- Exactly what earlier passes matched is hidden. -/
structure Follows (earlier : List Pass) (content : Text)
    (cells : List (Cell Char (Option Nat))) : Prop where
  masked : Masked '<' '>' isVisible content 0 cells
  kept : ∀ position, Kept cells position ↔
    position < content.length ∧ ¬Taken earlier content position

theorem follows_numbered (content : Text) : Follows [] content (numbered 0 content) := by
  refine ⟨masked_numbered [] content rfl rfl, fun position => ?_⟩
  rw [kept_numbered_iff]
  simp [Taken]

theorem lt_of_within {span : Nat × Nat} {position : Nat} (member : span ∈ pass.spans content)
    (within : Within span position) : position < content.length := by
  have bounds := (of_mem_spans (find_le_length pass.pattern) member).2.2.1
  have before := within.2
  omega

/-- A pass for which spans are whole hides exactly its matches. -/
theorem Follows.hide (follows : Follows earlier content cells) (tagged : pass.tag ∈ tags)
    (notUrl : pass.kind ≠ .url) (unmixed : Unmixed (find pass.pattern) cells)
    (spared : ∀ span ∈ pass.spans content, pass.Spared earlier content span) :
    Follows (earlier ++ [pass]) content (pass.hide engine salt cells) := by
  have whole : Whole (pass.spans content) 0 cells := by
    intro span member
    rcases spared span member with gone | free
    · exact .inr fun position within kept =>
        ((follows.kept position).mp kept).2 (gone position within)
    · rw [Pass.core, if_neg notUrl] at free
      exact .inl ⟨Nat.zero_le _, fun position within =>
        (follows.kept position).mpr ⟨lt_of_within member within, free position within⟩⟩
  have hides : Hides '<' '>' isVisible content (find pass.pattern)
      (placeholderFor engine salt pass.tag) 0 cells :=
    follows.masked.hides (matcher_find pass.pattern) unmixed whole (mask_placeholderFor tagged)
  refine ⟨hides.masked, fun position => ?_⟩
  rw [Pass.hide, hides.kept, follows.kept, taken_append, not_or, and_assoc]
  simp [Taken, Pass.spans]

/-- Passes that reach across no angle bracket hide exactly their matches. -/
theorem Follows.hidden (follows : Follows earlier content cells)
    (fit : ∀ pass ∈ list, pass.tag ∈ tags ∧ pass.kind ≠ .url ∧ Bracketless pass)
    (noBite : NoBite content earlier list) :
    Follows (earlier ++ list) content (hidden engine salt list cells) := by
  induction list generalizing earlier cells with
  | nil =>
      rw [List.append_nil]
      exact follows
  | cons pass list inductionHypothesis =>
      obtain ⟨tagged, notUrl, bracketless⟩ := fit pass List.mem_cons_self
      have step : Follows (earlier ++ [pass]) content (pass.hide engine salt cells) :=
        follows.hide tagged notUrl
        (follows.masked.unmixed bracketless.1 bracketless.2) noBite.1
      have rest := inductionHypothesis step
        (fun other member => fit other (List.mem_cons_of_mem _ member)) noBite.2
      rw [List.append_assoc, List.singleton_append] at rest
      exact rest

/-- **The passes of the basic mode** hide exactly what they match. -/
theorem follows_basic (noBite : NoBite content [] (basicPasses engine)) :
    Follows (basicPasses engine) content
      (Client.hidden engine salt (basicPasses engine) (numbered 0 content)) := by
  have fit : ∀ pass ∈ basicPasses engine, pass.tag ∈ tags ∧ pass.kind ≠ .url := by
    simp [basicPasses, tags]
  obtain ⟨first, rest, isCons⟩ : ∃ first rest, basicPasses engine = first :: rest := ⟨_, _, rfl⟩
  have bracketless := bracketless_identifiers engine
  rw [isCons] at fit bracketless noBite ⊢
  obtain ⟨tagged, notUrl⟩ := fit first List.mem_cons_self
  have start : Follows [first] content (first.hide engine salt (numbered 0 content)) :=
    (follows_numbered content).hide tagged notUrl
      (unmixed_numbered (find_le_length _) 0 content) noBite.1
  have all : Follows ([first] ++ rest) content
      (Client.hidden engine salt rest (first.hide engine salt (numbered 0 content))) :=
    start.hidden (fun pass member => ⟨(fit pass (List.mem_cons_of_mem _ member)).1,
      (fit pass (List.mem_cons_of_mem _ member)).2, bracketless pass member⟩) noBite.2
  exact all

/-- A URL whose scheme is still there is hidden as a whole. -/
theorem Follows.url (follows : Follows earlier content cells)
    (spared : ∀ span ∈ urlPass.spans content, urlPass.Spared earlier content span)
    {span : Nat × Nat} (member : span ∈ urlPass.spans content) {position : Nat}
    (within : Within span position) : ¬Kept (urlPass.hide engine salt cells) position := by
  obtain ⟨_, nonempty, ends, length⟩ := of_mem_spans (find_le_length urlPass.pattern) member
  rcases spared span member with gone | free
  · rintro ⟨cell, inside, mark⟩
    rcases of_mem_conceal inside with before | none
    · exact ((follows.kept position).mp ⟨cell, before, mark⟩).2 (gone position within)
    · rw [none] at mark
      contradiction
  · have found : find reUrl (content.drop span.1) = span.2 - span.1 := length
    have isFound : find reUrl (content.drop span.1) ≠ 0 := by omega
    obtain ⟨next, rest, split, visible⟩ := find_reUrl_ne_zero_iff.mp isFound
    have positive := length_urlScheme_pos (content.drop span.1)
    have again := urlScheme_append (content.drop span.1)
    have isUrl : urlPass.kind = .url := rfl
    rw [Pass.core, if_pos isUrl] at free
    generalize urlScheme (content.drop span.1) = scheme at *
    have lengths := congrArg List.length split
    rw [List.length_drop, List.length_append, List.length_cons] at lengths
    have core : ∀ position, span.1 ≤ position → position < span.1 + scheme.length →
        Kept cells position := fun position after before =>
      (follows.kept position).mpr ⟨by omega, free position ⟨after, before⟩⟩
    refine follows.masked.hidden_run runs_reUrl (core span.1 le_rfl (by omega))
      (fun back masked keeps => ?_) (fun position item after before shows => ?_) within.1 within.2
    · -- The scheme still stands in front of a visible character or of a placeholder.
      obtain ⟨other, tail, spelled, isVisible⟩ := masked.exists_next
        (fun position after before => keeps position after (core position after before))
        (by omega) (fun item shows => by
          rw [← List.getElem?_drop, split, List.getElem?_append_right le_rfl, Nat.sub_self] at shows
          exact Option.some.inj shows ▸ visible)
      rw [split, List.take_left] at spelled
      rw [find_reUrl_ne_zero_iff, spelled, again]
      exact ⟨other, tail, rfl, isVisible⟩
    · -- The characters of a URL are visible.
      have run := runs_reUrl _ isFound
      have isPrefix := List.prefix_iff_eq_take.mp
        (List.takeWhile_prefix isVisible (l := content.drop span.1))
      rw [← run, found] at isPrefix
      have inside : item ∈ (content.drop span.1).takeWhile isVisible := by
        have shifted : span.1 + (position - span.1) = position := by omega
        rw [isPrefix]
        refine List.mem_of_getElem? (i := position - span.1) ?_
        rw [List.getElem?_take, if_pos (by omega), List.getElem?_drop, shifted, shows]
      exact List.mem_takeWhile_imp inside

end Following

/-! ## Coverage -/

theorem noBite_append {content : Text} {earlier front back : List Pass} :
    NoBite content earlier (front ++ back) ↔
      NoBite content earlier front ∧ NoBite content (earlier ++ front) back := by
  induction front generalizing earlier with
  | nil => simp [NoBite]
  | cons pass front inductionHypothesis =>
      rw [List.cons_append, NoBite, NoBite, inductionHypothesis, List.append_assoc,
        List.singleton_append, and_assoc]

theorem passes_nil (engine : Engine) (mode : RedactMode) :
    passes engine mode [] = builtinPasses engine mode := by
  cases mode <;> simp [passes, builtinPasses, termPasses]

/-- **Redaction covers every match**, unless a match of an earlier pass takes a
part of it. -/
theorem redact_covers {engine : Engine} {red : Redactor} (noTerms : red.state.customTerms = [])
    {mode : RedactMode} {content : Text} (noBite : NoBite content [] (builtinPasses engine mode)) :
    items (hidden engine red.salt (builtinPasses engine mode) (numbered 0 content)) =
        (red.redact engine content mode []).1 ∧
      ∀ position, Taken (builtinPasses engine mode) content position →
        ¬Kept (hidden engine red.salt (builtinPasses engine mode) (numbered 0 content))
          position := by
  constructor
  · have leaves := (foldl_run engine (passes engine mode (red.state.customTerms ++ [])) content
      red).1
    rw [← Redactor.redact_eq] at leaves
    rw [leaves, items_hidden, items_numbered, noTerms, List.append_nil, passes_nil]
  · intro position taken kept
    cases mode with
    | none =>
        obtain ⟨pass, member, _⟩ := taken
        contradiction
    | basic =>
        have follows : Follows (basicPasses engine) content
            (hidden engine red.salt (basicPasses engine) (numbered 0 content)) :=
          follows_basic noBite
        exact ((follows.kept position).mp kept).2 taken
    | strict =>
        rw [builtinPasses, noBite_append, List.nil_append] at noBite
        have follows : Follows (basicPasses engine) content
            (hidden engine red.salt (basicPasses engine) (numbered 0 content)) :=
          follows_basic noBite.1
        rw [builtinPasses, hidden_append, hidden_singleton] at kept
        rw [builtinPasses, taken_append] at taken
        rcases taken with before | ⟨pass, member, span, inSpans, within⟩
        · obtain ⟨cell, inside, mark⟩ := kept
          rcases of_mem_conceal inside with earlier | none
          · exact ((follows.kept position).mp ⟨cell, earlier, mark⟩).2 before
          · rw [none] at mark
            exact Option.some_ne_none position mark.symm
        · rw [List.mem_singleton] at member
          subst member
          exact follows.url noBite.2.1 inSpans within kept

/-- SHA-256 where a number in an address needs it, under a salt of zeros. -/
def phoneEngine : Engine := .ofTable [
  (List.replicate 32 0 ++ utf8 (text "PHONE123456789"),
    ⟨[0x00, 0xa9, 0x8b, 0x10, 0x6c, 0x6f, 0x1d, 0xd5,
      0x8f, 0x34, 0x33, 0x6b, 0xba, 0x12, 0xa4, 0x86,
      0x46, 0x80, 0xfb, 0xef, 0x3a, 0x00, 0x23, 0x58,
      0x6d, 0x9a, 0x02, 0x68, 0x13, 0x99, 0xa1, 0xc6], rfl⟩)]

/-- An e-mail address next to a URL. -/
theorem redact_covers_strict :
    items (hidden phoneEngine (Block.replicate 32 0) (builtinPasses phoneEngine .strict)
        (numbered 0 (text "a@b.co https://x"))) =
        ((Redactor.new (Block.replicate 32 0)).redact phoneEngine (text "a@b.co https://x")
          .strict []).1 ∧
      ∀ position, Taken (builtinPasses phoneEngine .strict) (text "a@b.co https://x") position →
        ¬Kept (hidden phoneEngine (Block.replicate 32 0) (builtinPasses phoneEngine .strict)
          (numbered 0 (text "a@b.co https://x"))) position :=
  have noTerms : (Redactor.new (Block.replicate 32 0)).state.customTerms = [] := rfl
  redact_covers noTerms (by decide +kernel)

/-- Nine digits of an address are taken for a telephone number. -/
theorem redact_covers_address : ¬∀ (engine : Engine) (red : Redactor) (mode : RedactMode)
    (content : Text), red.state.customTerms = [] →
    ∀ position, Taken (builtinPasses engine mode) content position →
      ¬Kept (hidden engine red.salt (builtinPasses engine mode) (numbered 0 content))
        position := by
  intro claim
  have covered := claim phoneEngine (.new (Block.replicate 32 0)) .basic
    (text "0x123456789" ++ List.replicate 31 'a') rfl 11 (by decide +kernel)
  exact covered (by unfold Kept; decide +kernel)

end ZkLlmGateway.Client
