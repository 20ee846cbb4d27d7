import ZkLlmGateway.Client.Coverage
import ZkLlmGateway.Matching.Blanks

/-!
# What every pass hides

What the built-in passes hide of a text is computed from the text alone: a pattern
hides its matches in what is still shown between the placeholders, and a URL is hidden
up to the next white space that is still there.  The same goes for custom terms, as
long as none is found across the edge of a placeholder.
-/

namespace ZkLlmGateway.Client

open ZkLlmGateway.Encoding ZkLlmGateway.Matching

/-! ## Computing what is hidden -/

def urlSchemes : List Text :=
  [text "http://", text "https://"]

/-- A scheme stands at `start`, nothing of it is gone, and something other than white space
or a placeholder comes next. -/
def schemeStands (gone : Nat → Bool) (content : Text) (start : Nat) (scheme : Text) : Bool :=
  scheme.isPrefixOf (content.drop start) &&
    (List.range scheme.length).all (fun i => !gone (start + i)) &&
    (content[start + scheme.length]?).any fun next =>
      gone (start + scheme.length) || isVisible next

/-- A URL that begins at some position reaches this one. -/
def urlReaches (gone : Nat → Bool) (content : Text) (position : Nat) : Bool :=
  (List.range (position + 1)).any fun start =>
    urlSchemes.any (schemeStands gone content start) &&
      (List.range (position + 1)).all fun other =>
        other < start || gone other || (content[other]?).all isVisible

/-- What is gone after a pass. -/
def Pass.gone (pass : Pass) (content : Text) (gone : Nat → Bool) (position : Nat) : Bool :=
  gone position ||
    if pass.kind = .url then urlReaches gone content position
    else (pass.spans content).any fun span => Within span position

/-- Nothing of a match is gone, or all of it. -/
def Intact (gone : Nat → Bool) (span : Nat × Nat) : Prop :=
  (∀ position, Within span position → gone position = false) ∨
    ∀ position, Within span position → gone position = true

instance (gone : Nat → Bool) (span : Nat × Nat) : Decidable (Intact gone span) :=
  inferInstanceAs (Decidable (_ ∨ _))

/-- A character that was hidden. -/
def isBlank (view : List (Option Char)) (position : Nat) : Bool :=
  view[position]? == some none

/-- What a pass leaves of a text in which hidden characters are blanks. -/
def Pass.blank (pass : Pass) (content : Text) (view : List (Option Char)) : List (Option Char) :=
  if pass.kind = .url then
    view.mapIdx fun i shown => if urlReaches (isBlank view) content i then none else shown
  else blanked (find pass.pattern) view

/-- The text with blanks for what some passes hide. -/
def blankAfter (content : Text) (list : List Pass) : List (Option Char) :=
  list.foldl (fun view pass => pass.blank content view) (content.map some)

/-! ## Placeholders -/

def isMaskChar (char : Char) : Bool :=
  char == '<' || char == '>' || isInnerChar char

theorem isVisible_of_isMaskChar (char : Char) (isMask : isMaskChar char = true) :
    isVisible char = true := by
  simp only [isMaskChar, Bool.or_eq_true, beq_iff_eq] at isMask
  rcases isMask with (rfl | rfl) | inner
  · decide
  · decide
  · exact isVisible_of_isInnerChar inner

theorem narrowMask_placeholderFor {engine : Engine} {salt : Block 32} {tag : Text}
    (member : tag ∈ tags) (original : Text) :
    Mask '<' '>' isMaskChar (placeholderFor engine salt tag original) := by
  have isPlaceholder : IsPlaceholder engine salt (placeholderFor engine salt tag original) :=
    isPlaceholder_placeholderFor member original
  obtain ⟨inner, equal, all⟩ := isPlaceholder.exists_inner
  rw [equal]
  refine ⟨rfl, by rw [← List.cons_append, List.getLast?_concat], fun char inside => ?_⟩
  rcases List.mem_cons.mp inside with rfl | later
  · decide
  · rcases List.mem_append.mp later with inInner | last
    · rw [isMaskChar, all char inInner, Bool.or_true]
    · rw [List.mem_singleton.mp last]
      decide

theorem foreign_urlSchemes : ∀ scheme ∈ urlSchemes, ∀ char ∈ scheme, isMaskChar char = false := by
  have all : (urlSchemes.flatten).all (!isMaskChar ·) = true := by decide
  intro scheme member char inside
  have isForeign := List.all_eq_true.mp all char (List.mem_flatten.mpr ⟨scheme, member, inside⟩)
  rwa [Bool.not_eq_true'] at isForeign

theorem find_reUrl_ne_zero_iff_schemes {content : Text} :
    find reUrl content ≠ 0 ↔ ∃ scheme ∈ urlSchemes, ∃ next rest,
      content = scheme ++ next :: rest ∧ isVisible next = true := by
  rw [find_reUrl_ne_zero_iff]
  constructor
  · rintro ⟨next, rest, equal, visible⟩
    refine ⟨urlScheme content, ?_, next, rest, equal, visible⟩
    unfold urlScheme
    split
    · exact List.mem_of_getElem? (i := 1) rfl
    · exact List.mem_of_getElem? (i := 0) rfl
  · rintro ⟨scheme, member, next, rest, rfl, visible⟩
    refine ⟨next, rest, ?_, visible⟩
    rw [List.append_cancel_right_eq]
    rcases List.mem_cons.mp member with rfl | later
    · exact (if_neg (http_not_https _)).symm
    · rw [List.mem_singleton.mp later]
      exact (if_pos (List.prefix_append _ _)).symm

/-- No URL begins with a character of a placeholder. -/
theorem find_reUrl_clear (char : Char) (tail : Text) (isMask : isMaskChar char = true) :
    find reUrl (char :: tail) = 0 := by
  by_contra found
  obtain ⟨scheme, member, next, rest, equal, _⟩ := find_reUrl_ne_zero_iff_schemes.mp found
  have nonempty : ∀ scheme ∈ urlSchemes, scheme ≠ [] := by decide
  obtain ⟨first, body, rfl⟩ := List.exists_cons_of_ne_nil (nonempty scheme member)
  have isForeign := foreign_urlSchemes _ member first List.mem_cons_self
  rw [(List.cons.inj equal).1, isForeign] at isMask
  contradiction

/-! ## Following the passes -/

/-- The cells show exactly what is not gone. -/
structure Tracks (gone : Nat → Bool) (content : Text)
    (cells : List (Cell Char (Option Nat))) : Prop where
  masked : Masked '<' '>' isMaskChar content 0 cells
  kept : ∀ position, Kept cells position ↔ position < content.length ∧ gone position = false

section Tracking

variable {engine : Engine} {salt : Block 32} {content scheme : Text} {gone : Nat → Bool}
  {pass : Pass} {list : List Pass} {cells : List (Cell Char (Option Nat))} {start position : Nat}

theorem tracks_numbered (content : Text) :
    Tracks (fun _ => false) content (numbered 0 content) := by
  refine ⟨masked_numbered [] content rfl rfl, fun position => ?_⟩
  rw [kept_numbered_iff]
  simp

/-- A pattern whose matches are intact hides its matches. -/
theorem Tracks.hide (tracks : Tracks gone content cells) (tagged : pass.tag ∈ tags)
    (notUrl : pass.kind ≠ .url) (unmixed : Unmixed (find pass.pattern) cells)
    (intact : ∀ span ∈ pass.spans content, Intact gone span) :
    Tracks (pass.gone content gone) content (pass.hide engine salt cells) := by
  have whole : Whole (pass.spans content) 0 cells := by
    intro span member
    rcases intact span member with free | taken
    · exact .inl ⟨Nat.zero_le _, fun position within =>
        (tracks.kept position).mpr ⟨lt_of_within member within, free position within⟩⟩
    · refine .inr fun position within kept => ?_
      have shown := ((tracks.kept position).mp kept).2
      rw [taken position within] at shown
      contradiction
  have hides : Hides '<' '>' isMaskChar content (find pass.pattern)
      (placeholderFor engine salt pass.tag) 0 cells :=
    tracks.masked.hides (matcher_find pass.pattern) unmixed whole (narrowMask_placeholderFor tagged)
  refine ⟨hides.masked, fun position => ?_⟩
  rw [Pass.hide, hides.kept, tracks.kept, and_assoc, Pass.gone, if_neg notUrl]
  simp [Pass.spans]

theorem schemeStands_iff (tracks : Tracks gone content cells) :
    schemeStands gone content start scheme = true ↔
      Stands isVisible content scheme start (Kept cells) := by
  have shownIff : ∀ position, position < content.length →
      (Kept cells position ↔ gone position = false) := fun position inside => by
    rw [tracks.kept, and_iff_right inside]
  simp only [schemeStands, Bool.and_eq_true, List.isPrefixOf_iff_prefix, List.all_eq_true,
    List.mem_range, Bool.not_eq_true', Option.any_eq_true, Bool.or_eq_true]
  constructor
  · rintro ⟨⟨spelled, shown⟩, next, isNext, follows⟩
    obtain ⟨inside, _⟩ := List.getElem?_eq_some_iff.mp isNext
    refine ⟨spelled, fun position after before => ?_, inside, fun item kept isItem => ?_⟩
    · have isShown := shown (position - start) (by omega)
      rw [Nat.add_sub_cancel' after] at isShown
      exact (shownIff position (by omega)).mpr isShown
    · rw [isItem, Option.some.injEq] at isNext
      rw [(shownIff _ inside).mp kept] at follows
      rw [isNext]
      exact follows.resolve_left Bool.false_ne_true
  · rintro ⟨spelled, shown, inside, followed⟩
    refine ⟨⟨spelled, fun i small => ?_⟩, _, List.getElem?_eq_getElem inside, ?_⟩
    · exact (shownIff _ (by omega)).mp (shown (start + i) (by omega) (by omega))
    · cases isGone : gone (start + scheme.length) with
      | true => exact .inl rfl
      | false =>
          exact .inr (followed _ ((shownIff _ inside).mpr isGone) (List.getElem?_eq_getElem inside))

/-- A URL begins where a scheme stands. -/
theorem begins_reUrl_iff (tracks : Tracks gone content cells) :
    Begins (find reUrl) cells start ↔
      ∃ scheme ∈ urlSchemes, schemeStands gone content start scheme = true := by
  have nonempty : ∀ scheme ∈ urlSchemes, scheme ≠ [] := by decide
  -- The text behind the first shown character decides.
  have behind : ∀ front tail, cells = front ++ tail → Masked '<' '>' isMaskChar content start tail →
      (∀ position, Kept front position → position < start) →
      (find reUrl (items tail) ≠ 0 ↔
        ∃ scheme ∈ urlSchemes, schemeStands gone content start scheme = true) := by
    rintro front tail rfl masked before
    have same : ∀ position, start ≤ position →
        (Kept (front ++ tail) position ↔ Kept tail position) := fun position after => by
      rw [kept_append, or_iff_right]
      intro inFront
      exact absurd (before position inFront) (not_lt.mpr after)
    rw [find_reUrl_ne_zero_iff_schemes]
    refine exists_congr fun scheme => and_congr_right fun member => ?_
    rw [masked.word_iff isVisible_of_isMaskChar (foreign_urlSchemes scheme member),
      schemeStands_iff tracks]
    exact stands_congr fun position after => (same position after).symm
  constructor
  · rintro ⟨front, cell, tail, whole, marked, found⟩
    have masked := tracks.masked
    rw [whole] at masked
    have isMarked : cell.mark ≠ none := by
      rw [marked]
      exact Option.some_ne_none start
    have shown : ∀ first ∈ (cell :: tail).head?, first.mark ≠ none := fun first isFirst =>
      Option.some.inj isFirst ▸ isMarked
    obtain ⟨next, _, rest, before⟩ := masked.part shown
    have isStart := rest.mark_eq isMarked
    rw [marked, Option.some.injEq] at isStart
    subst isStart
    exact (behind front (cell :: tail) whole rest before).mp found
  · rintro ⟨scheme, member, stands⟩
    have isStanding := (schemeStands_iff tracks).mp stands
    have positive := List.length_pos_iff.mpr (nonempty scheme member)
    obtain ⟨front, back, whole, masked, kept, before⟩ :=
      tracks.masked.split_at (isStanding.shown start le_rfl (by omega))
    have found := (behind front back whole masked before).mpr ⟨scheme, member, stands⟩
    cases back with
    | nil => exact absurd kept not_kept_nil
    | cons cell tail =>
        exact ⟨front, cell, tail, whole, masked.mark_of_kept kept, found⟩

/-- What a URL pass sweeps over is what a URL reaches. -/
theorem swept_reUrl_iff (tracks : Tracks gone content cells) :
    Swept isVisible (find reUrl) content cells position ↔
      urlReaches gone content position = true := by
  simp only [Swept, begins_reUrl_iff tracks, urlReaches, List.any_eq_true, List.mem_range,
    Bool.and_eq_true, List.all_eq_true, Bool.or_eq_true, decide_eq_true_eq, Nat.lt_succ_iff]
  refine exists_congr fun start => and_congr_right fun _ => and_congr_right fun _ => ?_
  constructor
  · intro run other stop
    rcases Nat.lt_or_ge other start with early | after
    · exact .inl (.inl early)
    · cases isGone : gone other with
      | true => exact .inl (.inr rfl)
      | false =>
          refine .inr ((Option.all_eq_true _ _).mpr fun item shows => ?_)
          obtain ⟨inside, _⟩ := List.getElem?_eq_some_iff.mp shows
          exact run other item after stop ((tracks.kept other).mpr ⟨inside, isGone⟩) shows
  · intro run other item after stop kept shows
    rcases run other stop with (early | isGone) | visible
    · omega
    · rw [((tracks.kept other).mp kept).2] at isGone
      contradiction
    · exact (Option.all_eq_true _ _).mp visible item shows

/-- The pass for URLs hides what they reach. -/
theorem Tracks.sweep (tracks : Tracks gone content cells) :
    Tracks (urlPass.gone content gone) content (urlPass.hide engine salt cells) := by
  have sweeps : Sweeps '<' '>' isMaskChar isVisible content (find reUrl)
      (placeholderFor engine salt urlPass.tag) 0 cells :=
    tracks.masked.sweeps isVisible_of_isMaskChar runs_reUrl find_reUrl_clear
      (narrowMask_placeholderFor (by decide))
  have isUrl : urlPass.kind = .url := rfl
  refine ⟨sweeps.masked, fun position => ?_⟩
  rw [Pass.hide, show urlPass.pattern = reUrl from rfl, sweeps.kept, tracks.kept,
    swept_reUrl_iff tracks, Pass.gone, if_pos isUrl, Bool.or_eq_false_iff, and_assoc,
    Bool.not_eq_true]

/-! ## Computing with blanks -/

theorem masked_hide (tagged : pass.tag ∈ tags)
    (masked : Masked '<' '>' isMaskChar content 0 cells) :
    Masked '<' '>' isMaskChar content 0 (pass.hide engine salt cells) :=
  masked.conceal _ (narrowMask_placeholderFor tagged)

theorem masked_hidden (tagged : ∀ pass ∈ list, pass.tag ∈ tags)
    (masked : Masked '<' '>' isMaskChar content 0 cells) :
    Masked '<' '>' isMaskChar content 0 (hidden engine salt list cells) := by
  induction list generalizing cells with
  | nil => exact masked
  | cons pass list inductionHypothesis =>
      exact inductionHypothesis (fun other member => tagged other (List.mem_cons_of_mem _ member))
        (masked_hide (tagged pass List.mem_cons_self) masked)

theorem lt_length_of_kept (masked : Masked '<' '>' isMaskChar content 0 cells)
    (kept : Kept cells position) : position < content.length := by
  obtain ⟨cell, member, marked⟩ := kept
  exact (List.getElem?_eq_some_iff.mp ((masked.of_mem member).2 position marked)).1

/-- The blanks of the view are what is gone. -/
theorem tracks_view (masked : Masked '<' '>' isMaskChar content 0 cells) :
    Tracks (isBlank (viewFrom cells 0 content)) content cells := by
  refine ⟨masked, fun position => ?_⟩
  have shownIff : ∀ inside : position < content.length,
      isBlank (viewFrom cells 0 content) position = false ↔ Kept cells position := by
    intro inside
    rw [isBlank, beq_eq_false_iff_ne, ne_eq, getElem?_viewFrom_eq_some_none inside, not_not]
  constructor
  · intro kept
    have inside := lt_length_of_kept masked kept
    exact ⟨inside, (shownIff inside).mpr kept⟩
  · rintro ⟨inside, shown⟩
    exact (shownIff inside).mp shown

/-- When a pass has its turn, none of its matches joins text with a placeholder; URLs may. -/
def Unstraddled (engine : Engine) (salt : Block 32) :
    List Pass → List (Cell Char (Option Nat)) → Prop
  | [], _ => True
  | pass :: later, cells => (pass.kind ≠ .url → Unmixed (find pass.pattern) cells) ∧
      Unstraddled engine salt later (pass.hide engine salt cells)

instance decidableUnstraddled (engine : Engine) (salt : Block 32) :
    ∀ (list : List Pass) (cells : List (Cell Char (Option Nat))),
      Decidable (Unstraddled engine salt list cells)
  | [], _ => .isTrue trivial
  | pass :: later, cells =>
      have := decidableUnstraddled engine salt later (pass.hide engine salt cells)
      inferInstanceAs (Decidable (_ ∧ _))

theorem unstraddled_append {front back : List Pass} :
    Unstraddled engine salt (front ++ back) cells ↔
      Unstraddled engine salt front cells ∧
        Unstraddled engine salt back (hidden engine salt front cells) := by
  induction front generalizing cells with
  | nil => exact (iff_of_eq (true_and _)).symm
  | cons pass front inductionHypothesis =>
      rw [List.cons_append, Unstraddled, Unstraddled, inductionHypothesis, and_assoc]
      rfl

/-- Of the passes with a tag, only one is for URLs. -/
structure Listed (pass : Pass) : Prop where
  tagged : pass.tag ∈ tags
  url : pass.kind = .url → pass = urlPass

/-- **A pass leaves blanks** for what it hides. -/
theorem Listed.viewFrom_hide (listed : Listed pass)
    (masked : Masked '<' '>' isMaskChar content 0 cells)
    (unmixed : pass.kind ≠ .url → Unmixed (find pass.pattern) cells) :
    viewFrom (pass.hide engine salt cells) 0 content =
      pass.blank content (viewFrom cells 0 content) := by
  unfold Pass.blank
  split
  next isUrl =>
    obtain rfl := listed.url isUrl
    have swept : Tracks (urlPass.gone content (isBlank (viewFrom cells 0 content))) content
        (urlPass.hide engine salt cells) := (tracks_view masked).sweep
    have before := (tracks_view masked).kept
    apply List.ext_getElem?
    intro i
    rw [List.getElem?_mapIdx, getElem?_viewFrom, getElem?_viewFrom, Nat.zero_add]
    cases isChar : content[i]? with
    | none => rfl
    | some char =>
        have inside := (List.getElem?_eq_some_iff.mp isChar).1
        have keptIff := swept.kept i
        rw [Pass.gone, if_pos isUrl, Bool.or_eq_false_iff, ← and_assoc, ← before i] at keptIff
        simp only [Option.map_some, Option.some.injEq, keptIff]
        by_cases reached : urlReaches (isBlank (viewFrom cells 0 content)) content i = true
        · simp [reached]
        · simp [reached]
  next notUrl =>
    have masks : ∀ original,
        Mask '<' '>' isMaskChar (placeholderFor engine salt pass.tag original) :=
      narrowMask_placeholderFor listed.tagged
    have hides := masked.viewFrom_conceal (matcher_find pass.pattern) (unmixed notUrl) masks
    rwa [List.drop_zero] at hides

/-- **What passes hide is computed from the text alone**, unless a match joins text with a
placeholder. -/
theorem viewFrom_hidden (listed : ∀ pass ∈ list, Listed pass)
    (masked : Masked '<' '>' isMaskChar content 0 cells)
    (unstraddled : Unstraddled engine salt list cells) :
    viewFrom (hidden engine salt list cells) 0 content =
      list.foldl (fun view pass => pass.blank content view) (viewFrom cells 0 content) := by
  induction list generalizing cells with
  | nil => rfl
  | cons pass list inductionHypothesis =>
      have isListed := listed pass List.mem_cons_self
      rw [List.foldl_cons, ← isListed.viewFrom_hide masked unstraddled.1]
      exact inductionHypothesis (fun other member => listed other (List.mem_cons_of_mem _ member))
        (masked_hide isListed.tagged masked) unstraddled.2

end Tracking

/-! ## The passes of a redaction -/

/-- The terms that have a pass. -/
def visibleTerms (terms : List Text) : List Text :=
  terms.filter fun term => !(trim term).isEmpty

/-- Brackets stand in a term as they stand in a placeholder: an opening one at its beginning
and a closing one at its end, or not at all. -/
def FencedTerms (terms : List Text) : Prop :=
  ∀ term ∈ terms, '<' ∉ term.tail ∧ '>' ∉ term.dropLast

section Definitions

variable (engine : Engine) (salt : Block 32) (mode : RedactMode) (content : Text)
  (terms : List Text)

/-- The characters when the custom terms have their turn. -/
def builtinCells : List (Cell Char (Option Nat)) :=
  hidden engine salt (builtinPasses engine mode) (numbered 0 content)

/-- The characters of a redacted text. -/
def redactedCells : List (Cell Char (Option Nat)) :=
  hidden engine salt (passes engine mode terms) (numbered 0 content)

/-- No term is found across the edge of a placeholder when it has its turn. -/
def UnstraddledTerms : Prop :=
  Unstraddled engine salt (termPasses terms) (builtinCells engine salt mode content)

instance : Decidable (UnstraddledTerms engine salt mode content terms) :=
  inferInstanceAs (Decidable (Unstraddled _ _ _ _))

/-- A term is found, when it has its turn, in a match that holds this position. -/
def FoundByTerm (position : Nat) : Prop :=
  ∃ earlier term later, terms = earlier ++ term :: later ∧ term ∈ visibleTerms terms ∧
    ∃ matched ∈ hits (onItems (find (literally term)))
      (redactedCells engine salt mode content earlier), Kept matched position

end Definitions

section Redaction

variable {engine : Engine} {salt : Block 32} {mode : RedactMode} {content : Text}
  {terms : List Text} {pass : Pass} {cells : List (Cell Char (Option Nat))} {position : Nat}

theorem mem_termPasses :
    pass ∈ termPasses terms ↔ ∃ term ∈ visibleTerms terms, termPass term = pass :=
  List.mem_map

theorem termPasses_append (front back : List Text) :
    termPasses (front ++ back) = termPasses front ++ termPasses back := by
  simp [termPasses]

theorem termPasses_cons_of_blank {term : Text} (isBlank : (trim term).isEmpty = true)
    (terms : List Text) : termPasses (term :: terms) = termPasses terms := by
  simp [termPasses, isBlank]

theorem termPasses_cons_of_visible {term : Text} (isVisible : (trim term).isEmpty = false)
    (terms : List Text) : termPasses (term :: terms) = termPass term :: termPasses terms := by
  simp [termPasses, isVisible]

theorem passes_eq (redacts : mode ≠ .none) (engine : Engine) (terms : List Text) :
    passes engine mode terms = builtinPasses engine mode ++ termPasses terms := by
  cases mode with
  | none => exact absurd rfl redacts
  | basic => rfl
  | strict => rfl

theorem redactedCells_eq (redacts : mode ≠ .none) :
    redactedCells engine salt mode content terms =
      hidden engine salt (termPasses terms) (builtinCells engine salt mode content) := by
  rw [redactedCells, passes_eq redacts, hidden_append, builtinCells]

/-- The characters are those of the redacted text. -/
theorem items_redactedCells (red : Redactor) (extraTerms : List Text) :
    items (redactedCells engine red.salt mode content (red.state.customTerms ++ extraTerms)) =
      (red.redact engine content mode extraTerms).1 := by
  rw [redactedCells, items_hidden, items_numbered, Redactor.redact_eq, (foldl_run _ _ _ _).1]

theorem listed_of_mem_passes (member : pass ∈ passes engine mode terms) : Listed pass := by
  refine ⟨tag_mem_tags member, fun isUrl => ?_⟩
  have basic : ∀ pass ∈ basicPasses engine, pass.kind ≠ .url := by simp [basicPasses]
  have custom : ∀ pass ∈ termPasses terms, pass.kind ≠ .url := by
    intro pass inside
    obtain ⟨term, _, rfl⟩ := mem_termPasses.mp inside
    change RedactionKind.custom ≠ .url
    decide
  cases mode with
  | none => contradiction
  | basic =>
      rcases List.mem_append.mp member with builtin | term
      · exact absurd isUrl (basic pass builtin)
      · exact absurd isUrl (custom pass term)
  | strict =>
      rcases List.mem_append.mp member with builtin | term
      · rcases List.mem_append.mp builtin with first | last
        · exact absurd isUrl (basic pass first)
        · exact List.mem_singleton.mp last
      · exact absurd isUrl (custom pass term)

theorem listed_of_mem_builtinPasses (member : pass ∈ builtinPasses engine mode) : Listed pass := by
  rw [← passes_nil] at member
  exact listed_of_mem_passes member

theorem listed_of_mem_termPasses (member : pass ∈ termPasses terms) : Listed pass := by
  have isPass : pass ∈ passes (.ofTable []) .basic terms := List.mem_append_right _ member
  exact listed_of_mem_passes isPass

theorem masked_builtinCells (engine : Engine) (salt : Block 32) (mode : RedactMode)
    (content : Text) :
    Masked '<' '>' isMaskChar content 0 (builtinCells engine salt mode content) :=
  masked_hidden (fun _ member => (listed_of_mem_builtinPasses member).tagged)
    (masked_numbered [] content rfl rfl)

theorem masked_redactedCells (engine : Engine) (salt : Block 32) (mode : RedactMode)
    (content : Text) (terms : List Text) :
    Masked '<' '>' isMaskChar content 0 (redactedCells engine salt mode content terms) :=
  masked_hidden (fun _ => tag_mem_tags) (masked_numbered [] content rfl rfl)

/-! ### Built-in patterns -/

theorem unmixed_identifier (masked : Masked '<' '>' isMaskChar content 0 cells)
    (member : pass ∈ (basicPasses engine).tail) : Unmixed (find pass.pattern) cells := by
  obtain ⟨avoidsLeft, avoidsRight⟩ := bracketless_identifiers engine pass member
  exact masked.unmixed avoidsLeft avoidsRight

theorem unstraddled_identifiers {list : List Pass}
    (masked : Masked '<' '>' isMaskChar content 0 cells)
    (identifiers : ∀ pass ∈ list, pass ∈ (basicPasses engine).tail) :
    Unstraddled engine salt list cells := by
  induction list generalizing cells with
  | nil => trivial
  | cons pass list inductionHypothesis =>
      have isIdentifier := identifiers pass List.mem_cons_self
      have isBasic : pass ∈ builtinPasses engine .basic := List.mem_of_mem_tail isIdentifier
      have tagged := (listed_of_mem_builtinPasses isBasic).tagged
      exact ⟨fun _ => unmixed_identifier masked isIdentifier,
        inductionHypothesis (masked_hide tagged masked) fun other member =>
          identifiers other (List.mem_cons_of_mem _ member)⟩

/-- The first pass hides what it matches. -/
theorem tracks_privateKeys (engine : Engine) (salt : Block 32) (content : Text) :
    Tracks (Pass.gone ⟨rePrivateKeyBlock, .privateKey, text "PRIVATE_KEY"⟩ content fun _ => false)
      content (Pass.hide engine salt ⟨rePrivateKeyBlock, .privateKey, text "PRIVATE_KEY"⟩
        (numbered 0 content)) := by
  have notUrl : RedactionKind.privateKey ≠ .url := by decide
  have tagged : text "PRIVATE_KEY" ∈ tags := List.mem_of_getElem? (i := 0) rfl
  exact (tracks_numbered content).hide tagged notUrl
    (unmixed_numbered (find_le_length _) 0 content) fun _ _ => .inl fun _ _ => rfl

/-- No built-in pattern joins text with a placeholder. -/
theorem unstraddled_builtin (engine : Engine) (salt : Block 32) (mode : RedactMode)
    (content : Text) :
    Unstraddled engine salt (builtinPasses engine mode) (numbered 0 content) := by
  have basic : Unstraddled engine salt (basicPasses engine) (numbered 0 content) :=
    ⟨fun _ => unmixed_numbered (find_le_length _) 0 content,
      unstraddled_identifiers (tracks_privateKeys engine salt content).masked fun _ => id⟩
  cases mode with
  | none => trivial
  | basic => exact basic
  | strict => exact unstraddled_append.mpr ⟨basic, fun notUrl => absurd rfl notUrl, trivial⟩

/-- **What the built-in patterns hide** is computed from the text alone. -/
theorem viewFrom_builtinCells (engine : Engine) (salt : Block 32) (mode : RedactMode)
    (content : Text) :
    viewFrom (builtinCells engine salt mode content) 0 content =
      blankAfter content (builtinPasses engine mode) := by
  have start : Masked '<' '>' isMaskChar content 0 (numbered 0 content) :=
    masked_numbered [] content rfl rfl
  rw [builtinCells, viewFrom_hidden (fun _ => listed_of_mem_builtinPasses) start
    (unstraddled_builtin engine salt mode content), viewFrom_numbered, blankAfter]

/-! ### Custom terms -/

/-- What a literal finds in cells is the literal. -/
theorem items_of_mem_hits {term : Text} {matched : List (Cell Char (Option Nat))}
    (found : matched ∈ hits (onItems (find (literally term))) cells) : items matched = term := by
  obtain ⟨nonempty, front, back, _, length⟩ := of_mem_hits_onItems (find_le_length _) found
  rw [items_append, find_literally] at length
  split at length
  next isPrefix =>
    refine ((List.prefix_of_prefix_length_le (List.prefix_append _ _) isPrefix ?_).eq_of_length ?_)
    · rw [length_items, length]
    · rw [length_items, length]
  next => exact absurd (List.eq_nil_of_length_eq_zero length.symm) nonempty

/-- A term without brackets inside joins nothing. -/
theorem unmixed_term (masked : Masked '<' '>' isMaskChar content 0 cells) {term : Text}
    (fenced : '<' ∉ term.tail ∧ '>' ∉ term.dropLast) : Unmixed (find (literally term)) cells := by
  intro matched found
  have isTerm := items_of_mem_hits found
  obtain ⟨_, front, back, rfl, _⟩ := of_mem_hits_onItems (find_le_length _) found
  exact masked.same_of_edges (isTerm ▸ fenced.1) (isTerm ▸ fenced.2)

theorem FencedTerms.unstraddled (fenced : FencedTerms terms)
    (masked : Masked '<' '>' isMaskChar content 0 cells) :
    Unstraddled engine salt (termPasses terms) cells := by
  induction terms generalizing cells with
  | nil => trivial
  | cons term terms inductionHypothesis =>
      have later : FencedTerms terms := fun other member =>
        fenced other (List.mem_cons_of_mem _ member)
      cases isBlank : (trim term).isEmpty with
      | true =>
          rw [termPasses_cons_of_blank isBlank]
          exact inductionHypothesis later masked
      | false =>
          have tagged : (termPass term).tag ∈ tags := List.mem_of_getElem? (i := 6) rfl
          rw [termPasses_cons_of_visible isBlank]
          exact ⟨fun _ => unmixed_term masked (fenced term List.mem_cons_self),
            inductionHypothesis later (masked_hide tagged masked)⟩

theorem FencedTerms.perm {order : List Text} (fenced : FencedTerms terms)
    (same : order.Perm terms) : FencedTerms order :=
  fun term member => fenced term (same.mem_iff.mp member)

/-- Brackets are needed inside a term for it to be found across the edge of a placeholder. -/
theorem FencedTerms.unstraddledTerms (fenced : FencedTerms terms) :
    UnstraddledTerms engine salt mode content terms :=
  fenced.unstraddled (masked_builtinCells engine salt mode content)

/-- **What redaction hides**, in every mode that redacts. -/
theorem viewFrom_redactedCells (redacts : mode ≠ .none)
    (unstraddled : UnstraddledTerms engine salt mode content terms) :
    viewFrom (redactedCells engine salt mode content terms) 0 content =
      blankAfter content (passes engine mode terms) := by
  rw [redactedCells_eq redacts, viewFrom_hidden (fun _ => listed_of_mem_termPasses)
    (masked_builtinCells engine salt mode content) unstraddled, viewFrom_builtinCells,
    passes_eq redacts, blankAfter, blankAfter, List.foldl_append]

/-- What the terms hide is found by one of them. -/
theorem not_kept_hidden_terms_iff (masked : Masked '<' '>' isMaskChar content 0 cells) :
    ¬Kept (hidden engine salt (termPasses terms) cells) position ↔
      ¬Kept cells position ∨ ∃ earlier term later, terms = earlier ++ term :: later ∧
        term ∈ visibleTerms terms ∧ ∃ matched ∈ hits (onItems (find (literally term)))
          (hidden engine salt (termPasses earlier) cells), Kept matched position := by
  induction terms generalizing cells with
  | nil => simp [hidden, termPasses]
  | cons first terms inductionHypothesis =>
      cases isBlank : (trim first).isEmpty with
      | true =>
          have same : visibleTerms (first :: terms) = visibleTerms terms := by
            simp [visibleTerms, isBlank]
          rw [termPasses_cons_of_blank isBlank, inductionHypothesis masked, same]
          refine or_congr_right ⟨?_, ?_⟩
          · rintro ⟨earlier, term, later, rfl, isVisible, found⟩
            refine ⟨first :: earlier, term, later, rfl, isVisible, ?_⟩
            rwa [termPasses_cons_of_blank isBlank]
          · rintro ⟨earlier, term, later, whole, isVisible, found⟩
            cases earlier with
            | nil =>
                obtain ⟨rfl, rfl⟩ := List.cons.inj whole
                have notBlank := (List.mem_filter.mp isVisible).2
                rw [isBlank] at notBlank
                contradiction
            | cons other earlier =>
                obtain ⟨rfl, rfl⟩ := List.cons.inj whole
                rw [termPasses_cons_of_blank isBlank] at found
                exact ⟨earlier, term, later, rfl, isVisible, found⟩
      | false =>
          have tagged : (termPass first).tag ∈ tags := List.mem_of_getElem? (i := 6) rfl
          have same : visibleTerms (first :: terms) = first :: visibleTerms terms := by
            simp [visibleTerms, isBlank]
          have hides : ¬Kept ((termPass first).hide engine salt cells) position ↔
              ¬Kept cells position ∨ ∃ matched ∈ hits (onItems (find (literally first))) cells,
                Kept matched position := by
            constructor
            · intro gone
              by_cases kept : Kept cells position
              · obtain ⟨cell, member, marked⟩ := kept
                rcases mem_conceal_or_hit (find (literally first))
                  (placeholderFor engine salt (termPass first).tag) member with stays | taken
                · exact absurd ⟨cell, stays, marked⟩ gone
                · obtain ⟨matched, isHit, inside⟩ := taken
                  exact .inr ⟨matched, isHit, cell, inside, marked⟩
              · exact .inl kept
            · rintro (gone | ⟨matched, isHit, taken⟩)
              · exact fun kept => gone kept.of_conceal
              · exact not_kept_of_hit _ masked.nodup_marks isHit taken
          rw [termPasses_cons_of_visible isBlank]
          change ¬Kept (hidden engine salt (termPasses terms)
            ((termPass first).hide engine salt cells)) position ↔ _
          rw [inductionHypothesis (masked_hide tagged masked), hides, same, or_assoc]
          refine or_congr_right ⟨?_, ?_⟩
          · rintro (found | ⟨earlier, term, later, rfl, isVisible, found⟩)
            · exact ⟨[], first, terms, rfl, List.mem_cons_self, found⟩
            · refine ⟨first :: earlier, term, later, rfl, List.mem_cons_of_mem _ isVisible, ?_⟩
              rwa [termPasses_cons_of_visible isBlank]
          · rintro ⟨earlier, term, later, whole, isVisible, found⟩
            cases earlier with
            | nil =>
                obtain ⟨rfl, rfl⟩ := List.cons.inj whole
                exact .inl found
            | cons other earlier =>
                obtain ⟨rfl, rfl⟩ := List.cons.inj whole
                rw [termPasses_cons_of_visible isBlank] at found
                refine .inr ⟨earlier, term, later, rfl, ?_, found⟩
                have inTerms : term ∈ earlier ++ term :: later := by simp
                rcases List.mem_cons.mp isVisible with rfl | inside
                · exact List.mem_filter.mpr ⟨inTerms, by rw [isBlank, Bool.not_false]⟩
                · exact inside

/-- **What redaction hides**, terms that are found across the edge of a placeholder included. -/
theorem not_kept_redactedCells_iff (redacts : mode ≠ .none) (inside : position < content.length) :
    ¬Kept (redactedCells engine salt mode content terms) position ↔
      isBlank (blankAfter content (builtinPasses engine mode)) position = true ∨
        FoundByTerm engine salt mode content terms position := by
  have builtin : ¬Kept (builtinCells engine salt mode content) position ↔
      isBlank (blankAfter content (builtinPasses engine mode)) position = true := by
    rw [← viewFrom_builtinCells engine salt, isBlank, beq_iff_eq,
      getElem?_viewFrom_eq_some_none inside]
  rw [redactedCells_eq redacts, not_kept_hidden_terms_iff
    (masked_builtinCells engine salt mode content), builtin]
  simp only [FoundByTerm, redactedCells_eq redacts]

end Redaction

end ZkLlmGateway.Client
