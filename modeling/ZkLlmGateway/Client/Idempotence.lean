import ZkLlmGateway.Client.Redacted

/-!
# Redacting twice

A text that was redacted is redacted again whenever the rolling summary is sent.
The second redaction finds nothing exactly when no placeholder has nine digits in a
row, no scheme of a URL stands in front of a placeholder and no custom term stands in
the text: what else a pass could find would be gone already.
-/

namespace ZkLlmGateway.Client

open ZkLlmGateway.Encoding ZkLlmGateway.Matching

def phonePass (engine : Engine) : Pass :=
  ⟨rePhone engine, .phone, text "PHONE"⟩

def ethPass : Pass :=
  ⟨reEthAddress, .ethAddress, text "ETH_ADDR"⟩

/-- A second redaction changes nothing and records nothing. -/
def Idempotent (engine : Engine) (red : Redactor) (content : Text) (mode : RedactMode)
    (extraTerms : List Text) : Prop :=
  let once := red.redact engine content mode extraTerms
  let twice := once.2.redact engine once.1 mode extraTerms
  twice.1 = once.1 ∧ twice.2.state.entries = once.2.state.entries

/-- No term occurs in a placeholder of this salt. -/
def ForeignTerms (engine : Engine) (salt : Block 32) (terms : List Text) : Prop :=
  ∀ term ∈ visibleTerms terms, ∀ tag ∈ tags, ∀ original,
    ¬term <:+: placeholderFor engine salt tag original

/-- No term has more than one opening bracket. -/
def FewBrackets (terms : List Text) : Prop :=
  ∀ term ∈ terms, term.count '<' ≤ 1

/-- Placeholders have no nine digits in a row, no scheme stands in front of one, and no term
stands in the redacted text. -/
structure Settled (mode : RedactMode) (content : Text) (terms : List Text)
    (cells : List (Cell Char (Option Nat))) : Prop where
  digits : ¬NineInARow isHiddenDigit cells
  schemes : mode = .strict → ¬SchemeBeforeMask content cells
  terms : mode ≠ .none → ∀ term ∈ visibleTerms terms, ¬term <:+: items cells

section Twice

variable {engine : Engine} {salt : Block 32} {mode : RedactMode} {content input : Text}
  {terms : List Text} {cells word : List (Cell Char (Option Nat))} {list : List Pass} {pass : Pass}

/-! ## Where hidden words come from -/

theorem not_mem_tail_of_items {item : Char} (outside : item ∉ (items word).tail)
    (mark : Option Nat) : (⟨item, mark⟩ : Cell Char (Option Nat)) ∉ word.tail := by
  intro inside
  apply outside
  rw [items, ← List.map_tail]
  exact List.mem_map_of_mem (f := Cell.item) inside

theorem not_mem_dropLast_of_items {item : Char} (outside : item ∉ (items word).dropLast)
    (mark : Option Nat) : (⟨item, mark⟩ : Cell Char (Option Nat)) ∉ word.dropLast := by
  intro inside
  apply outside
  rw [items, ← List.map_dropLast]
  exact List.mem_map_of_mem (f := Cell.item) inside

/-- A word with brackets at its ends at most was there, or lies in a placeholder that was put in. -/
theorem infix_of_infix_hidden (tagged : ∀ pass ∈ list, pass.tag ∈ tags)
    (freeLeft : '<' ∉ (items word).tail) (freeRight : '>' ∉ (items word).dropLast)
    (isInfix : word <:+: hidden engine salt list cells) :
    word <:+: cells ∨ ∃ use ∈ usesOf engine salt list (items cells),
      IsPlaceholder engine salt use.1 ∧ items word <:+: use.1 := by
  induction list generalizing cells with
  | nil => exact .inl isInfix
  | cons pass list inductionHypothesis =>
      have isTag := tagged pass List.mem_cons_self
      rw [usesOf]
      rcases inductionHypothesis (fun other member => tagged other (List.mem_cons_of_mem _ member))
        isInfix with before | ⟨use, later, isPlaceholder, inside⟩
      · have isMask : ∀ matched,
            Mask '<' '>' isMaskChar (placeholderFor engine salt pass.tag matched) :=
          narrowMask_placeholderFor isTag
        have apart : Apart (placeholderFor engine salt pass.tag) word := by
          constructor
          · intro matched
            obtain ⟨body, isCons⟩ := (isMask matched).exists_cons
            exact ⟨_, _, by rw [isCons, stamp_cons], not_mem_tail_of_items freeLeft none⟩
          · intro matched
            obtain ⟨body, isConcat⟩ := (isMask matched).exists_concat
            refine ⟨stamp none body, ⟨'>', none⟩, ?_, not_mem_dropLast_of_items freeRight none⟩
            rw [isConcat, stamp_append]
            rfl
        rcases infix_of_infix_conceal apart before with earlier | ⟨matched, isHit, put⟩
        · exact .inl earlier
        · refine .inr ⟨(placeholderFor engine salt pass.tag (items matched), items matched),
            List.mem_append_left _ (List.mem_map_of_mem (items_mem_hits isHit)),
            isPlaceholder_placeholderFor isTag _, ?_⟩
          have spelled := put.map Cell.item
          rw [← items, ← items, items_stamp] at spelled
          exact spelled
      · have same : items (pass.hide engine salt cells) = pass.text engine salt (items cells) := by
          rw [Pass.hide, items_rewriteCells, Pass.text]
        change use ∈ usesOf engine salt list (items (pass.hide engine salt cells)) at later
        rw [same] at later
        exact .inr ⟨use, List.mem_append_right _ later, isPlaceholder, inside⟩

/-- A hidden word of a redacted text lies in one of its placeholders. -/
theorem infix_placeholder (freeLeft : '<' ∉ (items word).tail)
    (freeRight : '>' ∉ (items word).dropLast) (nonempty : word ≠ [])
    (isHidden : ∀ cell ∈ word, cell.mark = none)
    (isInfix : word <:+: redactedCells engine salt mode content terms) :
    ∃ use ∈ usesOf engine salt (passes engine mode terms) content,
      IsPlaceholder engine salt use.1 ∧ items word <:+: use.1 := by
  rcases infix_of_infix_hidden (fun _ => tag_mem_tags) freeLeft freeRight isInfix with
    shown | ⟨use, member, isPlaceholder, inside⟩
  · obtain ⟨cell, member⟩ := List.exists_mem_of_ne_nil _ nonempty
    have isShown := isSome_of_mem_numbered (shown.subset member)
    rw [isHidden cell member] at isShown
    contradiction
  · rw [items_numbered] at member
    exact ⟨use, member, isPlaceholder, inside⟩

/-! ## What the second redaction finds -/

/-- Keys, addresses and the like are not found any more. -/
theorem hits_identifier (redacts : mode ≠ .none) (member : pass ∈ (basicPasses engine).tail)
    (notPhone : pass.kind ≠ .phone) :
    hits (find pass.pattern) (items (redactedCells engine salt mode content terms)) = [] := by
  have inBuiltin : pass ∈ builtinPasses engine .strict :=
    List.mem_append_left _ (List.mem_of_mem_tail member)
  have inPasses : pass ∈ passes engine mode terms := by
    have inBasic := List.mem_of_mem_tail member
    cases mode with
    | none => exact absurd rfl redacts
    | basic => exact List.mem_append_left _ inBasic
    | strict => exact List.mem_append_left _ inBuiltin
  have unmixed := unmixed_identifier (masked_redactedCells engine salt mode content terms) member
  obtain ⟨foreign, inPattern, isForeign⟩ := foreign_of_builtin inBuiltin notPhone
  rw [← map_items_hits, List.map_eq_nil_iff]
  refine List.eq_nil_iff_forall_not_mem.mpr fun matched isHit => ?_
  have isMask := (hidden_of_unmixed inPasses unmixed isHit).2
  exact not_all_mask inPattern isForeign (items_mem_hits isHit) isMask

/-- A telephone number is found where a placeholder has nine digits in a row. -/
theorem hits_phone_iff (redacts : mode ≠ .none) :
    hits (find (rePhone engine)) (items (redactedCells engine salt mode content terms)) = [] ↔
      ¬NineInARow isHiddenDigit (redactedCells engine salt mode content terms) := by
  have inTail : (⟨rePhone engine, .phone, text "PHONE"⟩ : Pass) ∈ (basicPasses engine).tail :=
    List.mem_of_getElem? (i := 2) rfl
  have inBasic : (⟨rePhone engine, .phone, text "PHONE"⟩ : Pass) ∈ basicPasses engine :=
    List.mem_of_getElem? (i := 3) rfl
  have inPasses : (⟨rePhone engine, .phone, text "PHONE"⟩ : Pass) ∈ passes engine mode terms := by
    cases mode with
    | none => exact absurd rfl redacts
    | basic => exact List.mem_append_left _ inBasic
    | strict => exact List.mem_append_left _ (List.mem_append_left _ inBasic)
  have unmixed := unmixed_identifier (masked_redactedCells engine salt mode content terms) inTail
  constructor
  · intro nothing nine
    obtain ⟨word, ⟨front, back, split⟩, long, digits⟩ := nineInARow_iff.mp nine
    have longItems : 9 ≤ (items word).length := by rwa [length_items]
    have digitItems : ∀ char ∈ items word, isAsciiDigit char = true := by
      intro char inside
      obtain ⟨cell, member, rfl⟩ := List.mem_map.mp inside
      exact (Bool.and_eq_true_iff.mp (digits cell member)).2
    refine find_rePhone_ne_zero longItems digitItems (items back)
      (find_eq_zero_of_hits_eq_nil nothing ?_ ?_)
    · intro isNil
      rw [(List.append_eq_nil_iff.mp isNil).1] at longItems
      contradiction
    · rw [← split, List.append_assoc, items_append, items_append]
      exact List.suffix_append _ _
  · intro notNine
    rw [← map_items_hits, List.map_eq_nil_iff]
    refine List.eq_nil_iff_forall_not_mem.mpr fun matched isHit => notNine ?_
    obtain ⟨isHidden, isMask⟩ := hidden_of_unmixed inPasses unmixed isHit
    obtain ⟨long, digits⟩ := digits_of_phone (items_mem_hits isHit) isMask
    obtain ⟨_, front, back, whole, _⟩ := of_mem_hits_onItems (find_le_length _) isHit
    rw [length_items] at long
    refine nineInARow_iff.mpr ⟨matched, ⟨front, back, ?_⟩, long, fun cell member => ?_⟩
    · rw [whole, List.append_assoc]
    · rw [isHiddenDigit, isHidden cell member,
        digits cell.item (List.mem_map_of_mem (f := Cell.item) member)]
      rfl

theorem ne_nil_of_mem_visibleTerms {term : Text} (isVisible : term ∈ visibleTerms terms) :
    term ≠ [] := by
  rintro rfl
  exact absurd (List.mem_filter.mp isVisible).2 (by decide)

/-- Terms without brackets inside that occur in no placeholder are not found any more. -/
theorem not_infix_of_foreign (fenced : FencedTerms terms) (redacts : mode ≠ .none)
    (foreign : ForeignTerms engine salt terms) {term : Text}
    (isVisible : term ∈ visibleTerms terms) :
    ¬term <:+: items (redactedCells engine salt mode content terms) := by
  have inPasses : termPass term ∈ passes engine mode terms := by
    rw [passes_eq redacts]
    exact List.mem_append_right _ (mem_termPasses.mpr ⟨term, isVisible, rfl⟩)
  have edges := fenced term (List.mem_filter.mp isVisible).1
  rw [← hits_literally_eq_nil_iff (ne_nil_of_mem_visibleTerms isVisible), ← map_items_hits,
    List.map_eq_nil_iff]
  refine List.eq_nil_iff_forall_not_mem.mpr fun matched isHit => ?_
  have isHidden := (hidden_of_unmixed inPasses
    (unmixed_term (masked_redactedCells engine salt mode content terms) edges) isHit).1
  have isTerm := items_of_mem_hits isHit
  obtain ⟨nonempty, front, back, whole, _⟩ := of_mem_hits_onItems (find_le_length _) isHit
  have isInfix : matched <:+: redactedCells engine salt mode content terms := by
    rw [whole]
    exact List.infix_append' front matched back
  obtain ⟨use, _, ⟨tag, isTag, original, isPlaceholder⟩, inside⟩ :=
    infix_placeholder (isTerm ▸ edges.1) (isTerm ▸ edges.2) nonempty isHidden isInfix
  rw [isTerm, isPlaceholder] at inside
  exact foreign term isVisible tag isTag original inside

/-- **What the second redaction finds**: nine digits in a row, a scheme in front of a placeholder,
or a term. -/
theorem hits_eq_nil_iff (redacts : mode ≠ .none) :
    (∀ pass ∈ passes engine mode terms,
        hits (find pass.pattern) (items (redactedCells engine salt mode content terms)) = []) ↔
      Settled mode content terms (redactedCells engine salt mode content terms) := by
  have masked := masked_redactedCells engine salt mode content terms
  have split := passes_eq redacts engine terms
  have inBasic : ∀ pass ∈ basicPasses engine, pass ∈ passes engine mode terms := by
    intro pass member
    rw [split]
    refine List.mem_append_left _ ?_
    cases mode with
    | none => exact absurd rfl redacts
    | basic => exact member
    | strict => exact List.mem_append_left _ member
  have inTerms : ∀ term ∈ visibleTerms terms, termPass term ∈ passes engine mode terms := by
    intro term isVisible
    rw [split]
    exact List.mem_append_right _ (mem_termPasses.mpr ⟨term, isVisible, rfl⟩)
  have isUrl : mode = .strict → urlPass ∈ passes engine mode terms := by
    rintro rfl
    exact List.mem_append_left _ (List.mem_append_right _ (List.mem_singleton_self urlPass))
  constructor
  · intro nothing
    refine ⟨(hits_phone_iff redacts).mp (nothing (phonePass engine)
      (inBasic _ (List.mem_of_getElem? (i := 3) rfl))), fun isStrict => ?_, fun _ term isVisible =>
        (hits_literally_eq_nil_iff (ne_nil_of_mem_visibleTerms isVisible)).mp
          (nothing _ (inTerms term isVisible))⟩
    exact (hits_reUrl_iff masked (clear_redactedCells (isUrl isStrict))).mp
      (nothing urlPass (isUrl isStrict))
  · intro settled
    have basic : ∀ pass ∈ basicPasses engine,
        hits (find pass.pattern) (items (redactedCells engine salt mode content terms)) = [] := by
      intro pass member
      by_cases isPhone : pass.kind = .phone
      · have same : pass.pattern = rePhone engine := by
          simp only [basicPasses, List.mem_cons, List.not_mem_nil, or_false] at member
          rcases member with rfl | rfl | rfl | rfl | rfl <;>
            first | rfl | exact absurd isPhone (by decide)
        rw [same]
        exact (hits_phone_iff redacts).mpr settled.digits
      · rcases List.mem_cons.mp member with rfl | later
        · exact hits_privateKeys redacts
        · exact hits_identifier redacts later isPhone
    intro pass member
    rw [split] at member
    rcases List.mem_append.mp member with builtin | custom
    · cases mode with
      | none => exact absurd rfl redacts
      | basic => exact basic pass builtin
      | strict =>
          rcases List.mem_append.mp builtin with first | url
          · exact basic pass first
          · rw [List.mem_singleton.mp url]
            exact (hits_reUrl_iff masked (clear_redactedCells (isUrl rfl))).mpr
              (settled.schemes rfl)
    · obtain ⟨term, isVisible, rfl⟩ := mem_termPasses.mp custom
      exact (hits_literally_eq_nil_iff (ne_nil_of_mem_visibleTerms isVisible)).mpr
        (settled.terms redacts term isVisible)

/-! ## What a match changes -/

theorem count_placeholder (engine : Engine) (salt : Block 32) {tag : Text} (tagged : tag ∈ tags)
    (original : Text) :
    (placeholderFor engine salt tag original).count '/' = 0 ∧
      (placeholderFor engine salt tag original).count '<' = 1 := by
  have isPlaceholder : IsPlaceholder engine salt (placeholderFor engine salt tag original) :=
    isPlaceholder_placeholderFor tagged original
  obtain ⟨inner, equal, all⟩ := isPlaceholder.exists_inner
  have outside : ∀ char, isInnerChar char = false → inner.count char = 0 := by
    intro char isOuter
    refine List.count_eq_zero.mpr fun inside => ?_
    have isInner := all char inside
    rw [isOuter] at isInner
    contradiction
  rw [equal]
  constructor
  · rw [List.count_cons, List.count_append, outside '/' (by decide)]
    decide
  · rw [List.count_cons, List.count_append, outside '<' (by decide)]
    decide

/-- No pass puts a slash in. -/
theorem slash_text (engine : Engine) (salt : Block 32) (tagged : pass.tag ∈ tags) (input : Text) :
    (pass.text engine salt input).count '/' +
      ((hits (find pass.pattern) input).map (List.count '/')).sum = input.count '/' :=
  count_rewrite (fun matched => (count_placeholder engine salt tagged matched).1) input

theorem slash_textOf_le (engine : Engine) (salt : Block 32)
    (tagged : ∀ pass ∈ list, pass.tag ∈ tags) (input : Text) :
    (textOf engine salt list input).count '/' ≤ input.count '/' := by
  induction list generalizing input with
  | nil => exact le_rfl
  | cons pass list inductionHypothesis =>
      have first := slash_text engine salt (tagged pass List.mem_cons_self) input
      have rest := inductionHypothesis
        (fun other member => tagged other (List.mem_cons_of_mem _ member))
        (pass.text engine salt input)
      rw [textOf, List.foldl_cons, ← textOf]
      omega

/-- A URL that is replaced takes its slashes away. -/
theorem slash_url_lt (engine : Engine) (salt : Block 32) (found : hits (find reUrl) input ≠ []) :
    (urlPass.text engine salt input).count '/' < input.count '/' := by
  have tagged : urlPass.tag ∈ tags := by decide
  have counted : (urlPass.text engine salt input).count '/' +
      ((hits (find reUrl) input).map (List.count '/')).sum = input.count '/' :=
    slash_text engine salt tagged input
  have positive : 0 < ((hits (find reUrl) input).map (List.count '/')).sum := by
    refine sum_count_pos found fun matched isHit => ?_
    have member : once (· == '/') ∈ reUrl := List.mem_of_getElem? (i := 6) rfl
    obtain ⟨char, inside, isSlash⟩ :=
      exists_taken_of_mem (mem_lengths_of_mem_hits isHit) member (le_refl 1)
    rwa [List.take_length, beq_iff_eq.mp isSlash] at inside
  omega

/-- A pass puts one opening bracket in for every match. -/
theorem bracket_text (engine : Engine) (salt : Block 32) (tagged : pass.tag ∈ tags) (input : Text) :
    (pass.text engine salt input).count '<' +
      ((hits (find pass.pattern) input).map (List.count '<')).sum =
        input.count '<' + (hits (find pass.pattern) input).length := by
  have one : ∀ matched, (placeholderFor engine salt pass.tag matched).count '<' = 1 :=
    fun matched => (count_placeholder engine salt tagged matched).2
  have counted : (pass.text engine salt input).count '<' + _ = _ := count_rewrite one input
  rwa [Nat.mul_one] at counted

/-- Matches with one opening bracket at most do not make the brackets fewer. -/
theorem bracket_textOf_le (engine : Engine) (salt : Block 32)
    (tagged : ∀ pass ∈ list, pass.tag ∈ tags)
    (few : ∀ pass ∈ list, ∀ input, ∀ matched ∈ hits (find pass.pattern) input,
      matched.count '<' ≤ 1) (input : Text) :
    input.count '<' ≤ (textOf engine salt list input).count '<' := by
  induction list generalizing input with
  | nil => exact le_rfl
  | cons pass list inductionHypothesis =>
      have first := bracket_text engine salt (tagged pass List.mem_cons_self) input
      have atMost := sum_count_le (few pass List.mem_cons_self input)
      rw [Nat.mul_one] at atMost
      have rest := inductionHypothesis
        (fun other member => tagged other (List.mem_cons_of_mem _ member))
        (fun other member => few other (List.mem_cons_of_mem _ member))
        (pass.text engine salt input)
      rw [textOf, List.foldl_cons, ← textOf]
      omega

/-- A match of a pattern without brackets has none. -/
theorem count_of_avoids {pattern : List (Piece Char)} (avoids : Avoids pattern '<') {matched : Text}
    (found : matched ∈ hits (find pattern) input) : matched.count '<' = 0 := by
  have outside := not_mem_take_of_avoids avoids (mem_lengths_of_mem_hits found)
  rw [List.take_length] at outside
  exact List.count_eq_zero.mpr outside

/-- A telephone number that is replaced adds a bracket. -/
theorem bracket_phone_lt (found : hits (find (rePhone engine)) input ≠ []) :
    input.count '<' <
      (Pass.text engine salt ⟨rePhone engine, .phone, text "PHONE"⟩ input).count '<' := by
  have avoids : Avoids (rePhone engine) '<' :=
    (bracketless_identifiers engine _ (List.mem_of_getElem? (i := 2) rfl)).1
  have tagged : text "PHONE" ∈ tags := List.mem_of_getElem? (i := 3) rfl
  have counted : (Pass.text engine salt ⟨rePhone engine, .phone, text "PHONE"⟩ input).count '<' +
      ((hits (find (rePhone engine)) input).map (List.count '<')).sum =
        input.count '<' + (hits (find (rePhone engine)) input).length :=
    bracket_text engine salt tagged input
  have none : ((hits (find (rePhone engine)) input).map (List.count '<')).sum ≤
      (hits (find (rePhone engine)) input).length * 0 :=
    sum_count_le fun matched isHit => (count_of_avoids avoids isHit).le
  have positive := List.length_pos_iff.mpr found
  omega

/-! ## When nothing is found -/

theorem textOf_of_nothing
    (nothing : ∀ pass ∈ list, hits (find pass.pattern) input = []) :
    textOf engine salt list input = input := by
  induction list with
  | nil => rfl
  | cons pass list inductionHypothesis =>
      have same : pass.text engine salt input = input :=
        rewrite_of_hits_eq_nil (nothing pass List.mem_cons_self)
      rw [textOf, List.foldl_cons, same]
      exact inductionHypothesis fun other member => nothing other (List.mem_cons_of_mem _ member)

theorem foldl_run_of_nothing (red : Redactor)
    (nothing : ∀ pass ∈ list, hits (find pass.pattern) input = []) :
    list.foldl (Pass.run engine) (input, red) = (input, red) := by
  induction list with
  | nil => rfl
  | cons pass list inductionHypothesis =>
      have first := nothing pass List.mem_cons_self
      have same : pass.run engine (input, red) = (input, red) := by
        rw [Pass.run_eq, Pass.text, rewrite_of_hits_eq_nil first, Pass.uses, first]
        rfl
      rw [List.foldl_cons, same]
      exact inductionHypothesis fun other member => nothing other (List.mem_cons_of_mem _ member)

theorem textOf_append (front back : List Pass) :
    textOf engine salt (front ++ back) input =
      textOf engine salt back (textOf engine salt front input) :=
  List.foldl_append

/-- A text that the later passes leave the same has nothing for them: a URL would take slashes
away, and a telephone number would add a bracket. -/
theorem nothing_of_same {urls : List Pass} (onlyUrls : urls = [] ∨ urls = [urlPass])
    (few : FewBrackets terms)
    (same : textOf engine salt (phonePass engine :: ethPass :: (urls ++ termPasses terms)) input =
      input) :
    hits (find (rePhone engine)) input = [] ∧
      (hits (find reEthAddress) input = [] → urls = [urlPass] → hits (find reUrl) input = []) := by
  have ethTag : ethPass.tag ∈ tags := List.mem_of_getElem? (i := 4) rfl
  have phoneTag : (phonePass engine).tag ∈ tags := List.mem_of_getElem? (i := 3) rfl
  have termTags : ∀ pass ∈ termPasses terms, pass.tag ∈ tags := by
    intro pass member
    exact (listed_of_mem_termPasses member).tagged
  have fewInMatches : ∀ pass ∈ termPasses terms, ∀ input,
    ∀ matched ∈ hits (find pass.pattern) input,
      matched.count '<' ≤ 1 := by
    intro pass member input matched found
    obtain ⟨term, isVisible, rfl⟩ := mem_termPasses.mp member
    rw [mem_hits_literally found]
    exact few term (List.mem_filter.mp isVisible).1
  -- What the passes leave when the URLs have their turn.
  obtain ⟨later, isLater⟩ : ∃ later,
      later = ethPass.text engine salt ((phonePass engine).text engine salt input) := ⟨_, rfl⟩
  have sameLater :
      textOf engine salt (termPasses terms) (textOf engine salt urls later) = input := by
    rw [← textOf_append, isLater]
    exact same
  have slashPhone := slash_text engine salt phoneTag input
  have slashEth := slash_text engine salt ethTag ((phonePass engine).text engine salt input)
  rw [← isLater] at slashEth
  have slashTerms := slash_textOf_le engine salt termTags
    (textOf engine salt urls later)
  rw [sameLater] at slashTerms
  have noUrl : urls = [urlPass] → hits (find reUrl) later = [] := by
    rintro rfl
    by_contra found
    have fewer := slash_url_lt engine salt found
    have single : textOf engine salt [urlPass] later = urlPass.text engine salt later := rfl
    rw [single] at slashTerms
    omega
  have unchanged : textOf engine salt urls later = later := by
    rcases onlyUrls with rfl | rfl
    · rfl
    · refine textOf_of_nothing fun pass member => ?_
      rw [List.mem_singleton.mp member]
      exact noUrl rfl
  have noPhone : hits (find (rePhone engine)) input = [] := by
    by_contra found
    have more : input.count '<' < ((phonePass engine).text engine salt input).count '<' :=
      bracket_phone_lt found
    have ethMore : ((phonePass engine).text engine salt input).count '<' ≤ later.count '<' := by
      have avoids : Avoids reEthAddress '<' :=
        (bracketless_identifiers engine _ (List.mem_of_getElem? (i := 3) rfl)).1
      have still := bracket_text engine salt ethTag ((phonePass engine).text engine salt input)
      have none : ((hits (find ethPass.pattern) ((phonePass engine).text engine salt input)).map
          (List.count '<')).sum ≤ _ * 0 :=
        sum_count_le fun matched found => (count_of_avoids avoids found).le
      rw [← isLater] at still
      omega
    have termsMore := bracket_textOf_le engine salt termTags fewInMatches later
    rw [← unchanged, sameLater] at termsMore
    rw [unchanged] at termsMore
    omega
  refine ⟨noPhone, fun noEth isUrl => ?_⟩
  have first : (phonePass engine).text engine salt input = input :=
    rewrite_of_hits_eq_nil noPhone
  have second : later = input := by
    rw [isLater, first]
    exact rewrite_of_hits_eq_nil noEth
  rw [← second]
  exact noUrl isUrl

/-- A redacted text that stays the same has no nine digits in a row in its placeholders, and no
scheme in front of them. -/
theorem conditions_of_same (few : FewBrackets terms) (redacts : mode ≠ .none)
    (same : textOf engine salt (passes engine mode terms)
      (items (redactedCells engine salt mode content terms)) =
        items (redactedCells engine salt mode content terms)) :
    ¬NineInARow isHiddenDigit (redactedCells engine salt mode content terms) ∧
      (mode = .strict →
        ¬SchemeBeforeMask content (redactedCells engine salt mode content terms)) := by
  have masked := masked_redactedCells engine salt mode content terms
  have noEth :
      hits (find reEthAddress) (items (redactedCells engine salt mode content terms)) = [] :=
    hits_identifier redacts (List.mem_of_getElem? (i := 3) rfl) nofun
  -- Nothing is found by the passes before the one for telephone numbers.
  have front : textOf engine salt ((basicPasses engine).take 3)
      (items (redactedCells engine salt mode content terms)) =
        items (redactedCells engine salt mode content terms) := by
    refine textOf_of_nothing fun pass member => ?_
    rcases List.mem_cons.mp member with rfl | identifier
    · exact hits_privateKeys redacts
    · apply hits_identifier redacts (List.mem_of_mem_take identifier)
      rcases List.mem_cons.mp identifier with rfl | last
      · nofun
      · rw [List.mem_singleton.mp last]
        nofun
  cases mode with
  | none => exact absurd rfl redacts
  | basic =>
      have split : passes engine .basic terms = (basicPasses engine).take 3 ++
          (phonePass engine :: ethPass :: ([] ++ termPasses terms)) := rfl
      rw [split, textOf_append, front] at same
      exact ⟨(hits_phone_iff redacts).mp (nothing_of_same (.inl rfl) few same).1, nofun⟩
  | strict =>
      have split : passes engine .strict terms = (basicPasses engine).take 3 ++
          (phonePass engine :: ethPass :: ([urlPass] ++ termPasses terms)) := rfl
      have isUrl : urlPass ∈ passes engine .strict terms :=
        List.mem_append_left _ (List.mem_append_right _ (List.mem_singleton_self urlPass))
      rw [split, textOf_append, front] at same
      obtain ⟨noPhone, noUrl⟩ := nothing_of_same (.inr rfl) few same
      exact ⟨(hits_phone_iff redacts).mp noPhone, fun _ =>
        (hits_reUrl_iff masked (clear_redactedCells isUrl)).mp (noUrl noEth rfl)⟩

/-! ## Conditions on what goes in -/

/-- Placeholders without nine digits in a row leave none in the redacted text. -/
theorem not_nineInARow_of_uses
    (calm : ∀ use ∈ usesOf engine salt (passes engine mode terms) content,
      ¬NineInARow isAsciiDigit use.1) :
    ¬NineInARow isHiddenDigit (redactedCells engine salt mode content terms) := by
  intro nine
  obtain ⟨word, isInfix, long, digits⟩ := nineInARow_iff.mp nine
  have isDigit : ∀ char ∈ items word, isAsciiDigit char = true := by
    intro char inside
    obtain ⟨cell, member, rfl⟩ := List.mem_map.mp inside
    exact (Bool.and_eq_true_iff.mp (digits cell member)).2
  have isHidden : ∀ cell ∈ word, cell.mark = none := fun cell member =>
    Option.isNone_iff_eq_none.mp (Bool.and_eq_true_iff.mp (digits cell member)).1
  have free : ∀ char, isAsciiDigit char = false → char ∉ items word := by
    intro char notDigit inside
    rw [isDigit char inside] at notDigit
    contradiction
  have nonempty : word ≠ [] := by
    rintro rfl
    contradiction
  obtain ⟨use, member, _, inside⟩ := infix_placeholder
    (fun inTail => free '<' (by decide) (List.mem_of_mem_tail inTail))
    (fun inInit => free '>' (by decide) (List.dropLast_subset _ inInit)) nonempty isHidden isInfix
  refine calm use member (nineInARow_iff.mpr ⟨items word, inside, ?_, isDigit⟩)
  rwa [length_items]

/-- A character that the terms hide lies in an occurrence of a term, none of which is shown. -/
theorem exists_term_of_hidden (masked : Masked '<' '>' isMaskChar content 0 cells)
    (unstraddled : Unstraddled engine salt (termPasses terms) cells) {position : Nat}
    (kept : Kept cells position)
    (gone : ¬Kept (hidden engine salt (termPasses terms) cells) position) :
    ∃ term ∈ visibleTerms terms, ∃ start, term <+: content.drop start ∧ start ≤ position ∧
      position < start + term.length ∧
      ∀ other, start ≤ other → other < start + term.length →
        ¬Kept (hidden engine salt (termPasses terms) cells) other := by
  have isTerm : ∀ pass ∈ termPasses terms, ∃ term ∈ visibleTerms terms, termPass term = pass :=
    fun pass => mem_termPasses.mp
  generalize termPasses terms = list at *
  induction list generalizing cells with
  | nil => exact absurd kept gone
  | cons pass list inductionHypothesis =>
      obtain ⟨term, isVisible, rfl⟩ := isTerm pass List.mem_cons_self
      by_cases stays : Kept ((termPass term).hide engine salt cells) position
      · exact inductionHypothesis (masked_hide (tag_termPass term) masked) stays unstraddled.2 gone
          fun other member => isTerm other (List.mem_cons_of_mem _ member)
      · obtain ⟨matched, isHit, start, spelled, begins, ends, none⟩ :=
          masked.exists_word_of_hidden (find_le_length _)
            (unstraddled.1 (kind_termPass_ne_url term)) kept stays
        have isWord : items matched = term := items_of_mem_hits isHit
        rw [← length_items, isWord] at ends none
        rw [isWord] at spelled
        refine ⟨term, isVisible, start, spelled, begins, ends, fun other first last keptLater => ?_⟩
        have keptRest : Kept (hidden engine salt list ((termPass term).hide engine salt cells))
          other := keptLater
        exact none other first last (Kept.of_hidden keptRest)

/-- A URL reaches a position that is not gone only if something visible is there. -/
theorem visible_of_urlReaches {gone : Nat → Bool} {position : Nat} {char : Char}
    (reached : urlReaches gone content position = true) (shows : content[position]? = some char) :
    gone position = true ∨ isVisible char = true := by
  simp only [urlReaches, List.any_eq_true, List.mem_range, Bool.and_eq_true, List.all_eq_true,
    Bool.or_eq_true, decide_eq_true_eq] at reached
  obtain ⟨start, before, _, all⟩ := reached
  rcases all position (Nat.lt_succ_self position) with (early | isGone) | visible
  · omega
  · exact .inl isGone
  · rw [shows] at visible
    exact .inr visible

/-- A URL reaches its beginning. -/
theorem urlReaches_of_schemeStands {gone : Nat → Bool} {scheme : Text}
    (member : scheme ∈ urlSchemes) {start : Nat}
    (stands : schemeStands gone content start scheme = true) :
    urlReaches gone content start = true := by
  have visible : ∀ scheme ∈ urlSchemes, (scheme[0]?).all isVisible = true ∧ 0 < scheme.length := by
    decide
  obtain ⟨visibleFirst, positive⟩ := visible scheme member
  have spelled : scheme <+: content.drop start := by
    simp only [schemeStands, Bool.and_eq_true, List.isPrefixOf_iff_prefix] at stands
    exact stands.1.1
  have first : content[start]? = scheme[0]? := by
    obtain ⟨rest, split⟩ := spelled
    rw [← Nat.add_zero start, ← List.getElem?_drop, ← split, List.getElem?_append_left positive]
  simp only [urlReaches, List.any_eq_true, List.mem_range, Bool.and_eq_true, List.all_eq_true,
    Bool.or_eq_true, decide_eq_true_eq]
  refine ⟨start, Nat.lt_succ_self start, ⟨scheme, member, stands⟩, fun other bound => ?_⟩
  rcases Nat.lt_succ_iff_lt_or_eq.mp bound with early | rfl
  · exact .inl (.inl early)
  · rw [first]
    exact .inr visibleFirst

section Schemes

variable {scheme : Text} {start : Nat}

/-- The pass for URLs does not stop right behind a scheme. -/
theorem kept_builtin_after_scheme (member : scheme ∈ urlSchemes)
    (spelled : scheme <+: content.drop start)
    (shown : ∀ i < scheme.length, Kept (builtinCells engine salt .strict content) (start + i))
    (inside : start + scheme.length < content.length) :
    Kept (builtinCells engine salt .strict content) (start + scheme.length) := by
  have nonempty : ∀ scheme ∈ urlSchemes, 0 < scheme.length := by decide
  have next := List.getElem?_eq_getElem inside
  have tracks := tracks_builtinCells engine salt .basic content
  have swept : Tracks (urlPass.gone content (goneBefore engine .basic content)) content
      (urlPass.hide engine salt (builtinCells engine salt .basic content)) := tracks.sweep
  have isStrict : builtinCells engine salt .strict content =
      urlPass.hide engine salt (builtinCells engine salt .basic content) := by
    rw [builtinCells, builtinPasses, hidden_append, hidden_singleton]
    rfl
  by_contra kept
  rw [isStrict] at shown kept
  have free : ∀ i < scheme.length, goneBefore engine .basic content (start + i) = false := by
    intro i small
    exact ((tracks.kept _).mp (shown i small).of_conceal).2
  have isUrl : urlPass.kind = .url := rfl
  have stands :
      schemeStands (goneBefore engine .basic content) content start scheme = true := by
    simp only [schemeStands, Bool.and_eq_true, List.isPrefixOf_iff_prefix, List.all_eq_true,
      List.mem_range, Bool.not_eq_true', next, Option.any_some, Bool.or_eq_true]
    refine ⟨⟨spelled, free⟩, ?_⟩
    rw [swept.kept, and_iff_right inside, Bool.not_eq_false, Pass.gone, if_pos isUrl,
      Bool.or_eq_true] at kept
    exact kept.elim .inl fun reached => visible_of_urlReaches reached next
  have reaches : urlReaches (goneBefore engine .basic content) content start = true :=
    urlReaches_of_schemeStands member stands
  have keptStart := (swept.kept start).mp (shown 0 (nonempty scheme member))
  rw [Pass.gone, if_pos isUrl, reaches, Bool.or_true] at keptStart
  exact absurd keptStart.2 (by decide)

/-- What is shown right behind a scheme is white space. -/
theorem not_visible_after_scheme (member : scheme ∈ urlSchemes)
    (spelled : scheme <+: content.drop start)
    (shown : ∀ i < scheme.length, Kept (builtinCells engine salt .strict content) (start + i))
    (inside : start + scheme.length < content.length) :
    isVisible content[start + scheme.length] = false := by
  have masked := masked_builtinCells engine salt .strict content
  have clear : Clear (find reUrl) (builtinCells engine salt .strict content) := by
    have isUrl : urlPass ∈ passes engine .strict [] :=
      List.mem_append_left _ (List.mem_append_right _ (List.mem_singleton_self urlPass))
    have clear : Clear (find reUrl) (redactedCells engine salt .strict content []) :=
      clear_redactedCells isUrl
    rwa [redactedCells, passes_nil] at clear
  have shownWord : ∀ i < scheme.length + 1, Kept (builtinCells engine salt .strict content)
      (start + i) := by
    intro i small
    rcases Nat.lt_succ_iff_lt_or_eq.mp small with earlier | rfl
    · exact shown i earlier
    · exact kept_builtin_after_scheme member spelled shown inside
  exact not_visible_of_clear masked clear member spelled shownWord (List.getElem?_eq_getElem inside)

/-- Terms that begin with something visible leave no scheme in front of a placeholder. -/
theorem not_schemeBeforeMask_of_terms
    (unstraddled : UnstraddledTerms engine salt .strict content terms)
    (begins : ∀ term ∈ visibleTerms terms, ∀ char ∈ term.head?, isVisible char = true) :
    ¬SchemeBeforeMask content (redactedCells engine salt .strict content terms) := by
  rintro ⟨start, scheme, member, spelled, shown, inside, gone⟩
  have nonempty : ∀ scheme ∈ urlSchemes, 0 < scheme.length := by decide
  have positive := nonempty scheme member
  have isHidden : redactedCells engine salt .strict content terms =
      hidden engine salt (termPasses terms) (builtinCells engine salt .strict content) :=
    redactedCells_eq (by decide)
  rw [isHidden] at shown gone
  have shownBuiltin : ∀ i < scheme.length, Kept (builtinCells engine salt .strict content)
      (start + i) := fun i small => Kept.of_hidden (shown i small)
  have kept := kept_builtin_after_scheme member spelled shownBuiltin inside
  have hidesNext := not_visible_after_scheme member spelled shownBuiltin inside
  -- A term hides it, and begins there, with a character that continues the URL.
  obtain ⟨term, isTerm, place, spelledTerm, before, beyond, noneKept⟩ :=
    exists_term_of_hidden (masked_builtinCells engine salt .strict content) unstraddled kept gone
  have isPlace : place = start + scheme.length := by
    by_contra other
    have keptLast := shown (scheme.length - 1) (by omega)
    exact noneKept (start + (scheme.length - 1)) (by omega) (by omega) keptLast
  subst isPlace
  cases term with
  | nil => exact absurd beyond (Nat.lt_irrefl _)
  | cons char term =>
      have isChar : content[start + scheme.length]? = some char := by
        rw [← List.head?_drop]
        obtain ⟨rest, isCons⟩ := spelledTerm
        rw [← isCons]
        rfl
      rw [List.getElem?_eq_getElem inside] at isChar
      rw [Option.some.inj isChar, begins _ isTerm char rfl] at hidesNext
      exact absurd hidesNext (by decide)

end Schemes

/-! ## The second call -/

/-- The second call runs the same passes over what the first one left. -/
theorem redact_twice (red : Redactor) (extraTerms : List Text)
    (isTerms : terms = red.state.customTerms ++ extraTerms) :
    (red.redact engine content mode extraTerms).2.redact engine
        (red.redact engine content mode extraTerms).1 mode extraTerms =
      (passes engine mode terms).foldl (Pass.run engine)
        (red.redact engine content mode extraTerms) := by
  have sameTerms : (red.redact engine content mode extraTerms).2.state.customTerms =
      red.state.customTerms := by
    rw [Redactor.redact_eq, customTerms_foldl_run]
  rw [Redactor.redact_eq engine (red.redact engine content mode extraTerms).2, sameTerms, isTerms]

theorem idempotent_of_nothing (red : Redactor) (extraTerms : List Text)
    (nothing : ∀ pass ∈ passes engine mode (red.state.customTerms ++ extraTerms),
      hits (find pass.pattern) (red.redact engine content mode extraTerms).1 = []) :
    Idempotent engine red content mode extraTerms := by
  have same : (red.redact engine content mode extraTerms).2.redact engine
        (red.redact engine content mode extraTerms).1 mode extraTerms =
      (passes engine mode (red.state.customTerms ++ extraTerms)).foldl (Pass.run engine)
        (red.redact engine content mode extraTerms) := redact_twice red extraTerms rfl
  rw [foldl_run_of_nothing _ nothing] at same
  simp only [Idempotent, same, and_self]

theorem settled_numbered (content : Text) (terms : List Text) :
    Settled .none content terms (numbered 0 content) := by
  refine ⟨fun nine => ?_, fun isStrict => by contradiction, fun redacts => absurd rfl redacts⟩
  obtain ⟨word, isInfix, long, digits⟩ := nineInARow_iff.mp nine
  obtain ⟨cell, member⟩ := List.exists_mem_of_ne_nil word (by rintro rfl; contradiction)
  have isShown : cell.mark.isSome = true := isSome_of_mem_numbered (isInfix.subset member)
  have isHidden := (Bool.and_eq_true_iff.mp (digits cell member)).1
  rw [Option.isNone_iff_eq_none] at isHidden
  rw [isHidden] at isShown
  contradiction

theorem FencedTerms.fewBrackets (fenced : FencedTerms terms) : FewBrackets terms := by
  intro term member
  cases term with
  | nil => exact Nat.zero_le 1
  | cons char term =>
      have outside : term.count '<' = 0 := List.count_eq_zero.mpr (fenced _ member).1
      rw [List.count_cons, outside]
      split <;> decide

/-- The second call leaves the text only if the conditions hold. -/
theorem conditions_of_idempotent {red : Redactor} {extraTerms : List Text}
    (few : FewBrackets (red.state.customTerms ++ extraTerms))
    (idempotent : Idempotent engine red content mode extraTerms) :
    let cells := redactedCells engine red.salt mode content (red.state.customTerms ++ extraTerms)
    ¬NineInARow isHiddenDigit cells ∧ (mode = .strict → ¬SchemeBeforeMask content cells) := by
  intro cells
  by_cases redacts : mode = .none
  · subst redacts
    have settled := settled_numbered content (red.state.customTerms ++ extraTerms)
    exact ⟨settled.digits, settled.schemes⟩
  · apply conditions_of_same few redacts
    have same := idempotent.1
    rw [items_redactedCells]
    rw [redact_twice red extraTerms rfl] at same
    have leaves := (foldl_run engine (passes engine mode (red.state.customTerms ++ extraTerms))
      (red.redact engine content mode extraTerms).1
      (red.redact engine content mode extraTerms).2).1
    have sameSalt : (red.redact engine content mode extraTerms).2.salt = red.salt := by
      rw [Redactor.redact_eq, salt_foldl_run]
    rw [sameSalt] at leaves
    exact leaves.symm.trans same

/-- **A second redaction finds nothing**, and then changes nothing, exactly when no placeholder has
nine digits in a row, when URLs are redacted no scheme stands in front of one, and no term stands in
the text.  The first two are needed for it to change nothing, and suffice for terms that occur in no
placeholder and have no brackets inside. -/
theorem redact_idempotent_iff (engine : Engine) (red : Redactor) (mode : RedactMode)
    (content : Text) (extraTerms : List Text) :
    let terms := red.state.customTerms ++ extraTerms
    let cells := redactedCells engine red.salt mode content terms
    items cells = (red.redact engine content mode extraTerms).1 ∧
      ((∀ pass ∈ passes engine mode terms, hits (find pass.pattern) (items cells) = []) ↔
        Settled mode content terms cells) ∧
      (Settled mode content terms cells → Idempotent engine red content mode extraTerms) ∧
      (FewBrackets terms → Idempotent engine red content mode extraTerms →
        ¬NineInARow isHiddenDigit cells ∧ (mode = .strict → ¬SchemeBeforeMask content cells)) ∧
      (FencedTerms terms → ForeignTerms engine red.salt terms →
        (Idempotent engine red content mode extraTerms ↔
          ¬NineInARow isHiddenDigit cells ∧ (mode = .strict → ¬SchemeBeforeMask content cells)) ∧
        ((∀ use ∈ usesOf engine red.salt (passes engine mode terms) content,
            ¬NineInARow isAsciiDigit use.1) →
          (mode = .strict → ∀ term ∈ visibleTerms terms, ∀ char ∈ term.head?,
            isVisible char = true) →
          Idempotent engine red content mode extraTerms)) ∧
      ∀ tag ∈ tags, ∀ original,
        (∀ pass ∈ builtinPasses engine .strict,
          hits (find pass.pattern) (placeholderFor engine red.salt tag original) = []) ↔
          ¬NineInARow isAsciiDigit (placeholderFor engine red.salt tag original) := by
  intro terms cells
  have isOnce : items cells = (red.redact engine content mode extraTerms).1 :=
    items_redactedCells red extraTerms
  have finds : (∀ pass ∈ passes engine mode terms, hits (find pass.pattern) (items cells) = []) ↔
      Settled mode content terms cells := by
    by_cases redacts : mode = .none
    · subst redacts
      exact iff_of_true (fun pass member => absurd member List.not_mem_nil)
        (settled_numbered content terms)
    · exact hits_eq_nil_iff redacts
  have sufficient : Settled mode content terms cells →
      Idempotent engine red content mode extraTerms := by
    intro settled
    apply idempotent_of_nothing red extraTerms
    rw [← isOnce]
    exact finds.mpr settled
  refine ⟨isOnce, finds, sufficient, conditions_of_idempotent, fun fenced foreign => ?_,
    fun tag isTag original => hits_placeholder_iff isTag original⟩
  have settles : ¬NineInARow isHiddenDigit cells →
      (mode = .strict → ¬SchemeBeforeMask content cells) →
      Idempotent engine red content mode extraTerms := fun calm apart =>
    sufficient ⟨calm, apart, fun redacts term isVisible =>
      not_infix_of_foreign fenced redacts foreign isVisible⟩
  refine ⟨⟨conditions_of_idempotent fenced.fewBrackets, fun conditions =>
    settles conditions.1 conditions.2⟩, fun calm begins =>
      settles (not_nineInARow_of_uses calm) fun isStrict => ?_⟩
  subst isStrict
  exact not_schemeBeforeMask_of_terms fenced.unstraddledTerms (begins rfl)

end Twice

/-- SHA-256 where three terms, and the digits of a placeholder, need it, under a salt of zeros. -/
def nameEngine : Engine := .ofTable [
  (List.replicate 32 0 ++ utf8 (text "CUSTOMx<y"),
    ⟨[0x02, 0x4e, 0x65, 0x16, 0xf5, 0xf0, 0x25, 0xdc,
      0x8c, 0x65, 0x7f, 0xf4, 0x76, 0xa8, 0x2e, 0x74,
      0x78, 0x45, 0xad, 0x14, 0x3d, 0x84, 0x5b, 0x63,
      0xe0, 0x8a, 0xb6, 0xb2, 0x12, 0x31, 0x10, 0x80], rfl⟩),
  (List.replicate 32 0 ++ utf8 (text "CUSTOMBob"),
    ⟨[0x6d, 0xd6, 0x5f, 0xa8, 0xbd, 0x61, 0x7f, 0x7f,
      0x96, 0x6b, 0xd6, 0x17, 0xb8, 0x9b, 0x56, 0x17,
      0x78, 0x2f, 0xdd, 0x13, 0x4c, 0x22, 0xbf, 0x5e,
      0x8c, 0x46, 0xb4, 0xe9, 0x3d, 0x00, 0xca, 0x30], rfl⟩),
  (List.replicate 32 0 ++ utf8 (text "CUSTOMParis"),
    ⟨[0xf0, 0x33, 0x25, 0x95, 0x42, 0xf9, 0xc5, 0xb5,
      0xb5, 0xab, 0xe0, 0x37, 0xf8, 0xa3, 0x6b, 0x17,
      0x80, 0xfb, 0x49, 0x8c, 0xa5, 0xf3, 0x16, 0xf2,
      0x18, 0x6c, 0x7f, 0x88, 0x44, 0x8c, 0x79, 0xb1], rfl⟩),
  (List.replicate 32 0 ++ utf8 (text "PHONE033259542"),
    ⟨[0x35, 0x6b, 0xd1, 0x2f, 0xf0, 0x36, 0xd4, 0xc4,
      0x4a, 0xc7, 0xe4, 0x07, 0x5b, 0x0a, 0x96, 0x0c,
      0x4e, 0xc2, 0x21, 0x92, 0x29, 0x73, 0xfb, 0xc2,
      0x9c, 0x27, 0x6e, 0xed, 0x93, 0x6c, 0x2d, 0xbf], rfl⟩)]

/-- A character that no placeholder has keeps a term out of them. -/
theorem foreignTerms_singleton {engine : Engine} {salt : Block 32} {term : Text} {foreign : Char}
    (inside : foreign ∈ term) (isForeign : isMaskChar foreign = false) :
    ForeignTerms engine salt [term] := by
  intro other member tag isTag original isInfix
  rw [List.mem_singleton.mp (List.mem_filter.mp member).1] at isInfix
  have isMask : Mask '<' '>' isMaskChar (placeholderFor engine salt tag original) :=
    narrowMask_placeholderFor isTag original
  have plain := isMask.plain foreign (isInfix.subset inside)
  rw [isForeign] at plain
  contradiction

/-- A name, and a term with a bracket inside. -/
theorem redact_idempotent_name :
    Idempotent nameEngine ((Redactor.new (Block.replicate 32 0)).addCustomTerm (text "Bob"))
        (text "Bob met Ann") .basic [] ∧
      Idempotent nameEngine ((Redactor.new (Block.replicate 32 0)).addCustomTerm (text "Bob"))
        (text "Bob wrote x<y") .basic [text "x<y"] := by
  constructor
  · refine ((redact_idempotent_iff nameEngine _ .basic (text "Bob met Ann") []).2.2.2.2.1 ?_
      (foreignTerms_singleton (List.mem_of_getElem? (i := 1) rfl) (by decide))).1.mpr
      ⟨by decide +kernel, nofun⟩
    unfold FencedTerms
    decide
  · exact (redact_idempotent_iff nameEngine _ .basic (text "Bob wrote x<y") [text "x<y"]).2.2.1
      ⟨by decide +kernel, nofun, fun _ => by decide +kernel⟩

/-- Nine digits of a placeholder are taken for a telephone number. -/
theorem redact_twice_digits : ¬∀ (engine : Engine) (red : Redactor) (mode : RedactMode)
    (content : Text) (extraTerms : List Text),
    ForeignTerms engine red.salt (red.state.customTerms ++ extraTerms) →
    Idempotent engine red content mode extraTerms := by
  intro claim
  have same := claim nameEngine (.new (Block.replicate 32 0)) .basic (text "Paris") [text "Paris"]
    (foreignTerms_singleton (List.mem_of_getElem? (i := 2) rfl) (by decide))
  exact absurd same.1 (by decide +kernel)

end ZkLlmGateway.Client
