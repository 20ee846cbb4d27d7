import ZkLlmGateway.Encoding.Base64
import ZkLlmGateway.Matching.Scan
import Mathlib.Data.List.DropRight
import Mathlib.Data.List.Infix

/-!
# Redaction

Sensitive parts of a text are replaced by placeholders before it is sent, and
the placeholders in an answer are replaced by what they stand for.  The passes
run in a fixed order, each on what the passes before it left.
-/

namespace ZkLlmGateway.Client

open ZkLlmGateway.Encoding ZkLlmGateway.Matching

/-! ## Characters -/

/-- Unicode `White_Space`. -/
def isWhitespace (char : Char) : Bool :=
  let code := char.toNat
  (9 ≤ code && code ≤ 13) || code == 0x20 || code == 0x85 || code == 0xA0 || code == 0x1680 ||
    (0x2000 ≤ code && code ≤ 0x200A) || code == 0x2028 || code == 0x2029 || code == 0x202F ||
    code == 0x205F || code == 0x3000

/-- The characters between the blank and the next white space. -/
theorem isWhitespace_eq_false_of_bounds {char : Char} (above : 32 < char.toNat)
    (below : char.toNat < 133) : isWhitespace char = false := by
  simp only [isWhitespace, Bool.or_eq_false_iff, Bool.and_eq_false_iff, decide_eq_false_iff_not,
    beq_eq_false_iff_ne]
  omega

/-- `str::trim` -/
def trim (content : Text) : Text :=
  (content.dropWhile isWhitespace).rdropWhile isWhitespace

def isUpper (char : Char) : Bool :=
  'A' ≤ char && char ≤ 'Z'

def isLetter (char : Char) : Bool :=
  isUpper char || ('a' ≤ char && char ≤ 'z')

def isAsciiDigit (char : Char) : Bool :=
  '0' ≤ char && char ≤ '9'

def isAlphanumeric (char : Char) : Bool :=
  isLetter char || isAsciiDigit char

def isHex (char : Char) : Bool :=
  isAsciiDigit char || ('a' ≤ char && char ≤ 'f') || ('A' ≤ char && char ≤ 'F')

/-- SHA-256 and the decimal digits of Unicode. -/
structure Engine where
  sha256 : Bytes → Block 32
  isDigit : Char → Bool
  isDigit_ascii : ∀ char, char.toNat < 128 → isDigit char = isAsciiDigit char

/-- An engine whose digests are given by a table. -/
def Engine.ofTable (digests : List (Bytes × Block 32)) : Engine where
  sha256 := fun bytes => (digests.lookup bytes).getD (Block.replicate 32 0)
  isDigit := isAsciiDigit
  isDigit_ascii := fun _ _ => rfl

/-! ## Patterns -/

/-- A text, character by character. -/
def literally (content : Text) : List (Piece Char) :=
  content.map fun char => ⟨(· == char), 1, some 1, true⟩

/-- One character of a class. -/
def once (mem : Char → Bool) : Piece Char :=
  ⟨mem, 1, some 1, true⟩

def optional (mem : Char → Bool) : Piece Char :=
  ⟨mem, 0, some 1, true⟩

def exactly (count : Nat) (mem : Char → Bool) : Piece Char :=
  ⟨mem, count, some count, true⟩

def atLeast (count : Nat) (mem : Char → Bool) : Piece Char :=
  ⟨mem, count, none, true⟩

/-- As few characters as the rest allows. -/
def lazily (mem : Char → Bool) : Piece Char :=
  ⟨mem, 0, none, false⟩

def rePrivateKeyBlock : List (Piece Char) :=
  literally (text "-----BEGIN ") ++ [atLeast 0 fun char => isUpper char || char == ' '] ++
    literally (text "PRIVATE KEY-----") ++ [lazily fun _ => true] ++
    literally (text "-----END ") ++ [atLeast 0 fun char => isUpper char || char == ' '] ++
    literally (text "PRIVATE KEY-----")

def reOpenaiKey : List (Piece Char) :=
  literally (text "sk-") ++ [atLeast 16 isAlphanumeric]

def reEmail : List (Piece Char) :=
  [atLeast 1 fun char => isAlphanumeric char || (text "._%+-").contains char,
    once (· == '@'),
    atLeast 1 fun char => isAlphanumeric char || (text ".-").contains char,
    once (· == '.'),
    atLeast 2 isLetter]

def rePhone (engine : Engine) : List (Piece Char) :=
  [optional (· == '+'),
    once engine.isDigit,
    atLeast 7 fun char => engine.isDigit char || isWhitespace char || (text "-()").contains char,
    once engine.isDigit]

def reEthAddress : List (Piece Char) :=
  literally (text "0x") ++ [exactly 40 isHex]

def reUrl : List (Piece Char) :=
  literally (text "http") ++ [optional (· == 's')] ++ literally (text "://") ++
    [atLeast 1 fun char => !isWhitespace char]

/-! ## The redactor -/

inductive RedactMode
  | none
  | basic
  | strict
  deriving DecidableEq

inductive RedactionKind
  | privateKey
  | apiKey
  | email
  | phone
  | ethAddress
  | url
  | custom
  deriving DecidableEq

structure RedactionEntry where
  placeholder : Text
  original : Text
  kind : RedactionKind

structure RedactionState where
  saltB64 : Text
  entries : List RedactionEntry
  customTerms : List Text

def RedactionState.new (saltB64 : Text) : RedactionState where
  saltB64 := saltB64
  entries := []
  customTerms := []

/-- `rev` is a map from placeholders to originals, in no particular order. -/
structure Redactor where
  salt : Block 32
  rev : List (Text × Text)
  state : RedactionState

/-- `HashMap::insert` -/
def revInsert (rev : List (Text × Text)) (placeholder original : Text) : List (Text × Text) :=
  (placeholder, original) :: rev.filter (·.1 ≠ placeholder)

def decodeB64x32 (content : Text) : Option (Block 32) :=
  (Base64.decode content).bind (Block.ofBytes? 32)

def Redactor.fromState (state : RedactionState) : Option Redactor :=
  (decodeB64x32 state.saltB64).map fun salt =>
    { salt := salt
      rev := state.entries.foldl
        (fun rev entry => revInsert rev entry.placeholder entry.original) []
      state := state }

def Redactor.addCustomTerm (red : Redactor) (term : Text) : Redactor :=
  if (trim term).isEmpty then red
  else if term ∈ red.state.customTerms then red
  else { red with state := { red.state with customTerms := red.state.customTerms ++ [term] } }

/-- `<TAG_digest>`, with eight bytes of the digest. -/
def placeholderFor (engine : Engine) (salt : Block 32) (tag original : Text) : Text :=
  let digest := engine.sha256 (salt.val ++ utf8 tag ++ utf8 original)
  '<' :: (tag ++ '_' :: (toHex (digest.val.take 8) ++ ['>']))

def Redactor.upsertMapping (red : Redactor) (placeholder original : Text)
    (kind : RedactionKind) : Redactor :=
  if placeholder ∈ red.rev.map Prod.fst then red
  else { red with
    rev := revInsert red.rev placeholder original
    state := { red.state with
      entries := red.state.entries ++ [⟨placeholder, original, kind⟩] } }

/-- `Regex::replace_all`, with a closure that records every match. -/
def replaceSegments (engine : Engine) (kind : RedactionKind) (tag : Text) :
    Redactor → List (Segment Char) → Text × Redactor
  | red, [] => ([], red)
  | red, .keep char :: rest =>
      let (out, after) := replaceSegments engine kind tag red rest
      (char :: out, after)
  | red, .hit matched :: rest =>
      let placeholder := placeholderFor engine red.salt tag matched
      let (out, after) := replaceSegments engine kind tag
        (red.upsertMapping placeholder matched kind) rest
      (placeholder ++ out, after)

def redactRegex (engine : Engine) (red : Redactor) (input : Text) (re : List (Piece Char))
    (kind : RedactionKind) (tag : Text) : Text × Redactor :=
  replaceSegments engine kind tag red (segments (find re) input)

/-- `str::replace`, for a pattern that is not empty. -/
def replace (input pattern replacement : Text) : Text :=
  rewrite (find (literally pattern)) (fun _ => replacement) input

def redactLiteral (engine : Engine) (red : Redactor) (input literal : Text)
    (kind : RedactionKind) (tag : Text) : Text × Redactor :=
  if ¬literal <:+: input then (input, red)
  else
    let placeholder := placeholderFor engine red.salt tag literal
    (replace input literal placeholder, red.upsertMapping placeholder literal kind)

/-- The pass of one custom term; blank terms are skipped. -/
def redactTerm (engine : Engine) : Text × Redactor → Text → Text × Redactor
  | (out, red), term =>
      if (trim term).isEmpty then (out, red)
      else redactLiteral engine red out term .custom (text "CUSTOM")

def Redactor.redact (engine : Engine) (red : Redactor) (content : Text) (mode : RedactMode)
    (extraTerms : List Text) : Text × Redactor :=
  if mode = .none then (content, red)
  else
    let (out, red) := redactRegex engine red content rePrivateKeyBlock .privateKey
      (text "PRIVATE_KEY")
    let (out, red) := redactRegex engine red out reOpenaiKey .apiKey (text "API_KEY")
    let (out, red) := redactRegex engine red out reEmail .email (text "EMAIL")
    let (out, red) := redactRegex engine red out (rePhone engine) .phone (text "PHONE")
    let (out, red) := redactRegex engine red out reEthAddress .ethAddress (text "ETH_ADDR")
    let (out, red) :=
      if mode = .strict then redactRegex engine red out reUrl .url (text "URL") else (out, red)
    (red.state.customTerms ++ extraTerms).foldl (redactTerm engine) (out, red)

/-- Longer placeholders are replaced first; `order` is the order in which the
map yields its keys. -/
def Redactor.rehydrate (red : Redactor) (order : List Text) (content : Text) : Text :=
  if red.rev.isEmpty then content
  else
    let keys := order.mergeSort fun left right => byteLen right ≤ byteLen left
    keys.foldl (fun out placeholder =>
      match red.rev.lookup placeholder with
      | some original => replace out placeholder original
      | none => out) content

/-! ## Literal patterns -/

theorem lengths_literally_append (literal : Text) (rest : List (Piece Char)) (input : Text) :
    lengths (literally literal ++ rest) input =
      if literal <+: input then
        (lengths rest (input.drop literal.length)).map (literal.length + ·)
      else [] := by
  induction literal generalizing input with
  | nil => simp [literally]
  | cons char literal inductionHypothesis =>
      cases input with
      | nil => simp [literally, lengths, Piece.counts, Piece.reach]
      | cons first input =>
          have step : lengths (literally (char :: literal) ++ rest) (first :: input) =
              if first = char then
                (lengths (literally literal ++ rest) input).map (1 + ·)
              else [] := by
            by_cases same : first = char
            · simp [literally, lengths, Piece.counts, Piece.reach, same, List.range_succ]
            · simp [literally, lengths, Piece.counts, Piece.reach, same]
          rw [step, inductionHypothesis]
          by_cases same : first = char
          · subst same
            by_cases front : literal <+: input
            · simp [front, Nat.add_comm]
            · simp [front]
          · have differ : ¬char = first := fun equal => same equal.symm
            simp [same, differ]

theorem lengths_literally (literal input : Text) :
    lengths (literally literal) input = if literal <+: input then [literal.length] else [] := by
  have split := lengths_literally_append literal [] input
  rwa [List.append_nil] at split

theorem find_literally (literal input : Text) :
    find (literally literal) input = if literal <+: input then literal.length else 0 := by
  rw [find, lengths_literally]
  split <;> rfl

theorem mem_hits_literally {literal input matched : Text}
    (found : matched ∈ hits (find (literally literal)) input) : matched = literal := by
  obtain ⟨nonempty, front, back, _, length⟩ := of_mem_hits (find_le_length _) found
  rw [find_literally] at length
  split at length
  next isPrefix =>
    exact (List.prefix_of_prefix_length_le (List.prefix_append _ _) isPrefix
      length.ge).eq_of_length length.symm
  next => exact absurd (List.eq_nil_of_length_eq_zero length.symm) nonempty

theorem hits_literally_eq_nil_iff {literal input : Text} (nonempty : literal ≠ []) :
    hits (find (literally literal)) input = [] ↔ ¬literal <:+: input := by
  constructor
  · rintro nothing ⟨front, back, rfl⟩
    have zero := find_eq_zero_of_hits_eq_nil nothing (List.append_ne_nil_of_left_ne_nil nonempty _)
      (List.append_assoc front literal back ▸ List.suffix_append front _)
    rw [find_literally, if_pos (List.prefix_append _ _)] at zero
    exact nonempty (List.eq_nil_of_length_eq_zero zero)
  · intro absent
    refine List.eq_nil_iff_forall_not_mem.mpr fun matched found => absent ?_
    obtain ⟨_, front, back, rfl, _⟩ := of_mem_hits (find_le_length _) found
    rw [mem_hits_literally found]
    exact ⟨front, back, List.append_assoc _ _ _⟩

end ZkLlmGateway.Client
