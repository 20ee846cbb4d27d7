import ZkLlmGateway.Client.Redaction
import Mathlib.Data.List.Dedup

/-!
# Tokens

The local index splits lower-cased texts at everything that is not alphanumeric and
leaves out short words and stopwords.  A document has one more token for each of its
tags, which is composed of `tag:` and the tag.
-/

namespace ZkLlmGateway.Client

open ZkLlmGateway.Encoding

/-! ## Lower case -/

/-- The character tables of the standard library, with what is relied on: what they say of
ASCII, that lower case is final, and that alphanumeric characters are not white space. -/
structure Unicode where
  lower : Char → Text
  isCased : Char → Bool
  isCaseIgnorable : Char → Bool
  isAlphanumeric : Char → Bool
  lower_ascii : ∀ char, char.toNat < 128 → lower char = [char.toLower]
  lower_sigma : lower 'σ' = ['σ'] ∧ lower 'ς' = ['ς']
  lower_lower : ∀ char, char ≠ 'Σ' → ∀ small ∈ lower char, small ≠ 'Σ' ∧ lower small = [small]
  isAlphanumeric_ascii : ∀ char, char.toNat < 128 →
    isAlphanumeric char = (isLetter char || isAsciiDigit char)
  not_isWhitespace : ∀ char, isAlphanumeric char = true → isWhitespace char = false

namespace Unicode

variable (unicode : Unicode)

def caseIgnorableThenCased (content : Text) : Bool :=
  (content.dropWhile unicode.isCaseIgnorable).head?.any unicode.isCased

/-- The lower case of a text behind `before`, which is given backwards. -/
def toLowercaseFrom : Text → Text → Text
  | _, [] => []
  | before, char :: rest =>
      let small :=
        if char = 'Σ' then
          let isWordFinal := unicode.caseIgnorableThenCased before &&
            !unicode.caseIgnorableThenCased rest
          [if isWordFinal then 'ς' else 'σ']
        else unicode.lower char
      small ++ toLowercaseFrom (char :: before) rest

/-- `str::to_lowercase` -/
def toLowercase (content : Text) : Text :=
  unicode.toLowercaseFrom [] content

/-! ## Tokenizers -/

def stopwords : List Text := [
  text "the", text "and", text "for", text "with", text "this", text "that", text "from",
  text "have", text "you", text "your", text "are", text "was", text "were", text "will",
  text "would", text "should", text "could", text "what", text "when", text "where", text "why",
  text "how", text "into", text "about", text "them", text "they", text "then", text "than",
  text "also", text "just", text "like", text "want", text "need", text "been", text "being",
  text "can", text "not", text "but", text "our", text "out", text "use", text "using",
  text "used"]

def isStopword (w : Text) : Bool :=
  stopwords.contains w

/-- A word that is long enough and no stopword is a token. -/
def tokenOf (w : Text) : Option Text :=
  let w := trim w
  if byteLen w < 3 then none
  else if isStopword w then none
  else some w

def tokenize (s : Text) : List Text :=
  ((unicode.toLowercase s).splitOnP fun c => !unicode.isAlphanumeric c).filterMap tokenOf

def tagToken (tag : Text) : Option Text :=
  let tag := unicode.toLowercase (trim tag)
  if tag.isEmpty then none else some (text "tag:" ++ tag)

def tokenizeForIndex (content : Text) (tags : List Text) : List Text :=
  unicode.tokenize content ++ tags.filterMap unicode.tagToken

/-- The tokens of a query, each where it comes first. -/
def tokenizeQuery (q : Text) : List Text :=
  (unicode.tokenize q).foldl (fun out t => if t ∈ out then out else out ++ [t]) []

/-! ## What is in lower case -/

variable {unicode} {char : Char} {content w : Text}

/-- A character that lower-casing leaves alone. -/
def IsSmall (unicode : Unicode) (char : Char) : Prop :=
  char ≠ 'Σ' ∧ unicode.lower char = [char]

theorem isSmall_of_mem_toLowercaseFrom {before : Text}
    (member : char ∈ unicode.toLowercaseFrom before content) : unicode.IsSmall char := by
  induction content generalizing before with
  | nil => contradiction
  | cons first content inductionHypothesis =>
      rw [toLowercaseFrom, List.mem_append] at member
      rcases member with here | later
      · split at here
        next =>
          rw [List.mem_singleton] at here
          subst here
          split
          · exact ⟨by decide, unicode.lower_sigma.2⟩
          · exact ⟨by decide, unicode.lower_sigma.1⟩
        next notSigma => exact unicode.lower_lower first notSigma char here
      · exact inductionHypothesis later

theorem isSmall_of_mem_toLowercase (member : char ∈ unicode.toLowercase content) :
    unicode.IsSmall char :=
  isSmall_of_mem_toLowercaseFrom member

theorem toLowercase_of_isSmall (small : ∀ char ∈ content, unicode.IsSmall char) :
    unicode.toLowercase content = content := by
  have from' : ∀ before, unicode.toLowercaseFrom before content = content := by
    induction content with
    | nil => exact fun before => rfl
    | cons first content inductionHypothesis =>
        intro before
        obtain ⟨notSigma, same⟩ := small first List.mem_cons_self
        rw [toLowercaseFrom, if_neg notSigma, same,
          inductionHypothesis fun other member => small other (List.mem_cons_of_mem _ member)]
        rfl
  exact from' []

theorem isSmall_tag : ∀ char ∈ text "tag:", unicode.IsSmall char := by
  have ascii : (text "tag:").all
      (fun char => decide (char ≠ 'Σ' ∧ char.toNat < 128 ∧ char.toLower = char)) = true := by
    decide
  intro char member
  obtain ⟨notSigma, bound, same⟩ := of_decide_eq_true (List.all_eq_true.mp ascii char member)
  exact ⟨notSigma, by rw [unicode.lower_ascii char bound, same]⟩

/-! ## What is a token -/

theorem trim_of_isAlphanumeric (all : ∀ char ∈ w, unicode.isAlphanumeric char = true) :
    trim w = w := by
  have notWhite : ∀ char ∈ w, isWhitespace char = false := fun char member =>
    unicode.not_isWhitespace char (all char member)
  have first : w.dropWhile isWhitespace = w := by
    cases w with
    | nil => rfl
    | cons char w => exact List.dropWhile_cons_of_neg (by simp [notWhite char List.mem_cons_self])
  rw [trim, first, List.rdropWhile_eq_self_iff]
  intro nonempty isWhite
  rw [notWhite _ (List.getLast_mem nonempty)] at isWhite
  contradiction

/-- The parts between separators have none. -/
theorem not_of_mem_splitOnP {separates : Char → Bool} {part : Text}
    (member : part ∈ content.splitOnP separates) (inside : char ∈ part) :
    separates char = false := by
  induction content generalizing part with
  | nil =>
      rw [List.splitOnP_nil, List.mem_singleton] at member
      rw [member] at inside
      contradiction
  | cons first content inductionHypothesis =>
      rw [List.splitOnP_cons_eq_if_modifyHead] at member
      split at member
      next =>
        rcases List.mem_cons.mp member with rfl | later
        · contradiction
        · exact inductionHypothesis later inside
      next notSeparates =>
        cases split : content.splitOnP separates with
        | nil => exact absurd split (List.splitOnP_ne_nil separates content)
        | cons head parts =>
            rw [split, List.modifyHead_cons] at member
            rw [split] at inductionHypothesis
            rcases List.mem_cons.mp member with rfl | later
            · rcases List.mem_cons.mp inside with rfl | inHead
              · simpa using notSeparates
              · exact inductionHypothesis List.mem_cons_self inHead
            · exact inductionHypothesis (List.mem_cons_of_mem _ later) inside

/-- A token of a text consists of alphanumeric characters. -/
theorem isAlphanumeric_of_mem_tokenize (member : w ∈ unicode.tokenize content)
    (inside : char ∈ w) : unicode.isAlphanumeric char = true := by
  obtain ⟨part, isPart, isToken⟩ := List.mem_filterMap.mp member
  have all : ∀ char ∈ part, unicode.isAlphanumeric char = true := fun char inPart => by
    have notSeparates := not_of_mem_splitOnP isPart inPart
    simpa using notSeparates
  simp only [tokenOf, trim_of_isAlphanumeric all] at isToken
  split at isToken
  · contradiction
  · split at isToken
    · contradiction
    · exact all char (Option.some.inj isToken ▸ inside)

/-- Deduplication keeps what there is. -/
theorem mem_tokenizeQuery : w ∈ unicode.tokenizeQuery content ↔ w ∈ unicode.tokenize content := by
  have kept : ∀ (tokens out : List Text),
      w ∈ tokens.foldl (fun out t => if t ∈ out then out else out ++ [t]) out ↔
        w ∈ out ∨ w ∈ tokens := by
    intro tokens
    induction tokens with
    | nil => simp
    | cons token tokens inductionHypothesis =>
        intro out
        rw [List.foldl_cons, inductionHypothesis]
        split
        next known =>
          rw [List.mem_cons]
          refine ⟨fun member => member.imp_right .inr, fun member => ?_⟩
          rcases member with inOut | rfl | later
          · exact .inl inOut
          · exact .inl known
          · exact .inr later
        next => rw [List.mem_append, List.mem_singleton, List.mem_cons, or_assoc]
  rw [tokenizeQuery, kept]
  simp

/-- A word as the index tags documents with: in lower case, alphanumeric, and a token. -/
structure IsTagWord (unicode : Unicode) (tag w : Text) : Prop where
  isTag : w = unicode.toLowercase (trim tag)
  isWord : ∀ char ∈ w, unicode.isAlphanumeric char = true
  long : 3 ≤ byteLen w
  notStopword : isStopword w = false

section TagWords

variable {tag : Text}

theorem IsTagWord.isSmall (isTagWord : unicode.IsTagWord tag w) :
    ∀ char ∈ w, unicode.IsSmall char := by
  intro char member
  rw [isTagWord.isTag] at member
  exact isSmall_of_mem_toLowercase member

theorem IsTagWord.tokenOf_eq (isTagWord : unicode.IsTagWord tag w) : tokenOf w = some w := by
  simp only [tokenOf, trim_of_isAlphanumeric isTagWord.isWord]
  rw [if_neg (not_lt.mpr isTagWord.long), isTagWord.notStopword]
  rfl

theorem IsTagWord.not_separates (isTagWord : unicode.IsTagWord tag w) :
    ∀ char ∈ w, (!unicode.isAlphanumeric char) = false := by
  intro char member
  rw [isTagWord.isWord char member]
  rfl

/-- The bare word is searched for as it is. -/
theorem IsTagWord.tokenize_eq (isTagWord : unicode.IsTagWord tag w) : unicode.tokenize w = [w] := by
  rw [tokenize, toLowercase_of_isSmall isTagWord.isSmall,
    List.splitOnP_eq_singleton isTagWord.not_separates]
  simp only [List.filterMap_cons, isTagWord.tokenOf_eq, List.filterMap_nil]

/-- Written as a tag it is two words. -/
theorem IsTagWord.tokenize_tag (isTagWord : unicode.IsTagWord tag w) :
    unicode.tokenize (text "tag:" ++ w) = [text "tag", w] := by
  have small : ∀ char ∈ text "tag:" ++ w, unicode.IsSmall char := by
    intro char member
    exact (List.mem_append.mp member).elim (isSmall_tag char) (isTagWord.isSmall char)
  have alphanumeric : ∀ char ∈ text "tag", (!unicode.isAlphanumeric char) = false := by
    have ascii : (text "tag").all (fun char =>
        decide (char.toNat < 128 ∧ (isLetter char || isAsciiDigit char) = true)) = true := by
      decide
    intro char member
    obtain ⟨bound, isWord⟩ := of_decide_eq_true (List.all_eq_true.mp ascii char member)
    rw [unicode.isAlphanumeric_ascii char bound, isWord]
    rfl
  have colon : (!unicode.isAlphanumeric ':') = true := by
    rw [unicode.isAlphanumeric_ascii ':' (by decide)]
    decide
  have split : text "tag:" ++ w = text "tag" ++ ':' :: w := rfl
  have isToken : tokenOf (text "tag") = some (text "tag") := by decide +kernel
  rw [tokenize, toLowercase_of_isSmall small, split,
    List.splitOnP_append_cons_of_forall_mem alphanumeric ':' colon,
    List.splitOnP_eq_singleton isTagWord.not_separates]
  simp only [List.filterMap_cons, isToken, isTagWord.tokenOf_eq, List.filterMap_nil]

/-- The token of a tag is no token of a query. -/
theorem tagToken_not_mem_tokenize (isToken : unicode.tagToken tag = some w) :
    w ∉ unicode.tokenize content := by
  intro member
  simp only [tagToken] at isToken
  split at isToken
  · contradiction
  · have inside : ':' ∈ w := by
      rw [← Option.some.inj isToken]
      exact List.mem_append_left _ (List.mem_of_getElem? (i := 3) rfl)
    have isWord := isAlphanumeric_of_mem_tokenize member inside
    rw [unicode.isAlphanumeric_ascii ':' (by decide)] at isWord
    exact absurd isWord (by decide)

end TagWords

end Unicode

/-! ## ASCII -/

theorem toNat_toLower (char : Char) : char.toLower.toNat =
    if 65 ≤ char.toNat ∧ char.toNat ≤ 90 then char.toNat + 32 else char.toNat := by
  have bounds : (65 ≤ char.toNat ∧ char.toNat ≤ 90) ↔ char.val ≥ 'A'.val ∧ char.val ≤ 'Z'.val := by
    simp only [UInt32.le_iff_toNat_le, ge_iff_le]
    exact Iff.rfl
  delta Char.toLower
  split
  next inside =>
    rw [if_pos (bounds.mpr inside)]
    have small := (bounds.mpr inside).2
    change (char.val + ('a'.val - 'A'.val)).toNat = char.val.toNat + 32
    change char.val.toNat ≤ 90 at small
    rw [UInt32.toNat_add]
    exact Nat.mod_eq_of_lt (show char.val.toNat + 32 < 2 ^ 32 by omega)
  next outside => rw [if_neg fun inside => outside (bounds.mp inside)]

theorem toLower_toLower (char : Char) : char.toLower.toLower = char.toLower := by
  have lowered := toNat_toLower char
  apply Char.toNat_inj.mp
  rw [toNat_toLower char.toLower, if_neg]
  split at lowered <;> omega

theorem toLower_ne_sigma {char : Char} (notSigma : char ≠ 'Σ') : char.toLower ≠ 'Σ' := by
  intro isSigma
  have lowered := toNat_toLower char
  have code : 'Σ'.toNat = 931 := rfl
  refine notSigma (Char.toNat_inj.mp ?_)
  rw [isSigma] at lowered
  split at lowered <;> omega

theorem isWhitespace_eq_false {char : Char} (isWord : (isLetter char || isAsciiDigit char) = true) :
    isWhitespace char = false := by
  simp only [isLetter, isAsciiDigit, isUpper, Bool.or_eq_true, Bool.and_eq_true, decide_eq_true_eq,
    Char.le_def, UInt32.le_iff_toNat_le] at isWord
  have bounds : 48 ≤ char.toNat ∧ char.toNat ≤ 122 := by
    rcases isWord with (upper | lower) | digit
    · exact ⟨Nat.le_trans (by decide) upper.1, Nat.le_trans upper.2 (by decide)⟩
    · exact ⟨Nat.le_trans (by decide) lower.1, lower.2⟩
    · exact ⟨digit.1, Nat.le_trans digit.2 (by decide)⟩
  exact isWhitespace_eq_false_of_bounds (by omega) (by omega)

/-- The tables as far as ASCII. -/
def asciiTables : Unicode where
  lower := fun char => [char.toLower]
  isCased := isLetter
  isCaseIgnorable := fun char => (text "'.:^").contains char
  isAlphanumeric := fun char => isLetter char || isAsciiDigit char
  lower_ascii := fun _ _ => rfl
  lower_sigma := ⟨by decide, by decide⟩
  lower_lower := by
    intro char notSigma small member
    rw [List.mem_singleton.mp member]
    exact ⟨toLower_ne_sigma notSigma, congrArg (fun small => [small]) (toLower_toLower char)⟩
  isAlphanumeric_ascii := fun _ _ => rfl
  not_isWhitespace := fun _ => isWhitespace_eq_false

end ZkLlmGateway.Client
