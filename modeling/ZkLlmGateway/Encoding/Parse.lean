import ZkLlmGateway.Encoding.Canonical

/-!
# Reading JSON

A reader for the grammar of JSON, with white space, escapes, surrogate pairs and
a limit for the depth of arrays and objects.  What a number is read as is a
parameter.  What is written of a value, compact or pretty, is read back if its
numbers are and if it is not too deep, and no deeper value is read.
-/

namespace ZkLlmGateway.Encoding.Json

/-! ## White space and numbers -/

def isSpace (char : Char) : Bool :=
  (text " \n\r\t").contains char

def skipSpace (content : Text) : Text :=
  content.dropWhile isSpace

/-- A sign that may be left out. -/
def unsigned (signs content : Text) : Text :=
  match content with
  | sign :: rest => if signs.contains sign then rest else content
  | [] => []

def isDigits (digits : Text) : Bool :=
  !digits.isEmpty && digits.all Char.isDigit

def isExponent : Text → Bool
  | [] => true
  | mark :: rest => (text "eE").contains mark && isDigits (unsigned (text "+-") rest)

def isFraction : Text → Bool
  | '.' :: rest => isDigits (rest.takeWhile Char.isDigit) && isExponent
      (rest.dropWhile Char.isDigit)
  | rest => isExponent rest

/-- A whole part without superfluous zeros, a fraction and an exponent. -/
def isNumber (token : Text) : Bool :=
  let magnitude := unsigned (text "-") token
  let whole := magnitude.takeWhile Char.isDigit
  isDigits whole && (whole.head? != some '0' || whole.length = 1) &&
    isFraction (magnitude.dropWhile Char.isDigit)

/-! ## Strings -/

/-- Four hexadecimal digits. -/
def readUnit : Text → Option (Nat × Text)
  | a :: b :: c :: d :: rest =>
      if [a, b, c, d].all fun digit => isHexDigit digit.toLower then
        some ([a, b, c, d].foldl (fun value digit => 16 * value + hexValue digit.toLower) 0, rest)
      else none
  | _ => none

/-- The character after `\u`; one above `U+FFFF` has two units. -/
def readUnicode (content : Text) : Option (Char × Text) := do
  let (unit, rest) ← readUnit content
  if 0xD800 ≤ unit ∧ unit < 0xDC00 then
    match rest with
    | '\\' :: 'u' :: rest =>
        let (low, rest) ← readUnit rest
        if 0xDC00 ≤ low ∧ low < 0xE000 then
          some (.ofNat (0x10000 + (unit - 0xD800) * 0x400 + (low - 0xDC00)), rest)
        else none
    | _ => none
  else if 0xDC00 ≤ unit ∧ unit < 0xE000 then none
  else some (.ofNat unit, rest)

/-- The character after a backslash. -/
def readEscape : Text → Option (Char × Text)
  | 'u' :: rest => readUnicode rest
  | char :: rest =>
      if (text "\"\\/bfnrt").contains char then some (shortForm char, rest) else none
  | [] => none

def readOne : Text → Option (Char × Text)
  | '\\' :: rest => readEscape rest
  | char :: rest => if char.toNat < 32 then none else some (char, rest)
  | [] => none

/-- The content of a string, from behind its opening mark. -/
def readContent : Nat → Text → Option (Text × Text)
  | 0, _ => none
  | _ + 1, '"' :: rest => some ([], rest)
  | fuel + 1, content => do
      let (char, rest) ← readOne content
      let (others, rest) ← readContent fuel rest
      return (char :: others, rest)

def readString (content : Text) : Option (Text × Text) :=
  readContent content.length content

/-! ## Values -/

/-- The items of a list that is not empty. -/
def readMore {α : Type} (item : Text → Option (α × Text)) (close : Char) :
    Nat → Text → Option (List α × Text)
  | 0, _ => none
  | fuel + 1, content => do
      let (first, rest) ← item content
      match skipSpace rest with
      | [] => none
      | char :: rest =>
          if char = close then some ([first], rest)
          else if char = ',' then
            let (others, rest) ← readMore item close fuel rest
            return (first :: others, rest)
          else none

/-- Items between commas, from behind the opening bracket. -/
def readList {α : Type} (item : Text → Option (α × Text)) (close : Char) (content : Text) :
    Option (List α × Text) :=
  match skipSpace content with
  | [] => none
  | char :: rest =>
      if char = close then some ([], rest) else readMore item close content.length content

def readEntry (value : Text → Option (Json × Text)) (content : Text) :
    Option ((Text × Json) × Text) :=
  match skipSpace content with
  | '"' :: rest => do
      let (key, rest) ← readString rest
      match skipSpace rest with
      | ':' :: rest =>
          let (content, rest) ← value rest
          return ((key, content), rest)
      | _ => none
  | _ => none

section Values

variable (readNumber : Text → Option Text)

def readToken (content : Text) : Option (Json × Text) :=
  let token := content.takeWhile isNumberChar
  if isNumber token then
    (readNumber token).map fun value => (.number value, content.dropWhile isNumberChar)
  else none

/-- A value that is no array and no object. -/
def readScalar : Text → Option (Json × Text)
  | '"' :: rest => (readString rest).map fun (content, rest) => (.string content, rest)
  | 'n' :: 'u' :: 'l' :: 'l' :: rest => some (.null, rest)
  | 't' :: 'r' :: 'u' :: 'e' :: rest => some (.bool true, rest)
  | 'f' :: 'a' :: 'l' :: 's' :: 'e' :: rest => some (.bool false, rest)
  | content => readToken readNumber content

/-- A value whose arrays and objects are `depth` deep at most. -/
def readValue : Nat → Text → Option (Json × Text)
  | 0, content => readScalar readNumber (skipSpace content)
  | depth + 1, content =>
      match skipSpace content with
      | '[' :: rest =>
          (readList (readValue depth) ']' rest).map fun (items, rest) => (.array items, rest)
      | '{' :: rest =>
          (readList (readEntry (readValue depth)) '}' rest).map fun (fields, rest) =>
            (.object fields, rest)
      | content => readScalar readNumber content

/-- A whole text. -/
def parseText (depth : Nat) (content : Text) : Option Json := do
  let (value, rest) ← readValue readNumber depth content
  if (skipSpace rest).isEmpty then some value else none

/-- Bytes that are a text. -/
def parse (depth : Nat) (bytes : Bytes) : Option Json :=
  (ofUtf8? bytes).bind (parseText readNumber depth)

end Values

/-! ## Numbers and depth -/

mutual

/-- Every number is a number and is read as itself. -/
def Numbers (readNumber : Text → Option Text) : Json → Prop
  | number token => isNumber token = true ∧ readNumber token = some token
  | array items => NumbersItems readNumber items
  | object fields => NumbersFields readNumber fields
  | _ => True

def NumbersItems (readNumber : Text → Option Text) : List Json → Prop
  | [] => True
  | item :: rest => Numbers readNumber item ∧ NumbersItems readNumber rest

def NumbersFields (readNumber : Text → Option Text) : List (Text × Json) → Prop
  | [] => True
  | (_, value) :: rest => Numbers readNumber value ∧ NumbersFields readNumber rest

end

mutual

/-- How deep arrays and objects are nested. -/
def depth : Json → Nat
  | array items => depthItems items + 1
  | object fields => depthFields fields + 1
  | _ => 0

def depthItems : List Json → Nat
  | [] => 0
  | item :: rest => max (depth item) (depthItems rest)

def depthFields : List (Text × Json) → Nat
  | [] => 0
  | (_, value) :: rest => max (depth value) (depthFields rest)

end

section Measures

variable {readNumber : Text → Option Text} {limit : Nat}

@[simp]
theorem numbersItems_iff {items : List Json} :
    NumbersItems readNumber items ↔ ∀ item ∈ items, Numbers readNumber item := by
  induction items with
  | nil => simp [NumbersItems]
  | cons item rest inductionHypothesis => simp [NumbersItems, inductionHypothesis]

@[simp]
theorem numbersFields_iff {fields : List (Text × Json)} :
    NumbersFields readNumber fields ↔ ∀ field ∈ fields, Numbers readNumber field.2 := by
  induction fields with
  | nil => simp [NumbersFields]
  | cons field rest inductionHypothesis => simp [NumbersFields, inductionHypothesis]

@[simp]
theorem depthItems_le_iff {items : List Json} :
    depthItems items ≤ limit ↔ ∀ item ∈ items, item.depth ≤ limit := by
  induction items with
  | nil => simp [depthItems]
  | cons item rest inductionHypothesis => simp [depthItems, inductionHypothesis]

@[simp]
theorem depthFields_le_iff {fields : List (Text × Json)} :
    depthFields fields ≤ limit ↔ ∀ field ∈ fields, field.2.depth ≤ limit := by
  induction fields with
  | nil => simp [depthFields]
  | cons field rest inductionHypothesis => simp [depthFields, inductionHypothesis]

theorem depth_array_le_iff {items : List Json} :
    (array items).depth ≤ limit + 1 ↔ ∀ item ∈ items, item.depth ≤ limit := by
  rw [depth, Nat.add_le_add_iff_right, depthItems_le_iff]

theorem depth_object_le_iff {fields : List (Text × Json)} :
    (object fields).depth ≤ limit + 1 ↔ ∀ field ∈ fields, field.2.depth ≤ limit := by
  rw [depth, Nat.add_le_add_iff_right, depthFields_le_iff]

end Measures

/-! ## Reading what was written -/

theorem readUnit_control : ∀ n < 32,
    ['0', '0', hexDigit (n / 16), hexDigit (n % 16)].all (fun digit => isHexDigit digit.toLower) =
      true ∧
    ['0', '0', hexDigit (n / 16), hexDigit (n % 16)].foldl
      (fun value digit => 16 * value + hexValue digit.toLower) 0 = n := by
  decide

theorem readUnicode_control {n : Nat} (control : n < 32) (rest : Text) :
    readUnicode ('0' :: '0' :: hexDigit (n / 16) :: hexDigit (n % 16) :: rest) =
      some (.ofNat n, rest) := by
  obtain ⟨digits, value⟩ := readUnit_control n control
  have low : ¬(0xD800 ≤ n ∧ n < 0xDC00) ∧ ¬(0xDC00 ≤ n ∧ n < 0xE000) := by omega
  simp only [readUnicode, readUnit, digits, value, if_true, Option.bind_eq_bind, Option.bind_some,
    if_neg low.1, if_neg low.2]

theorem readOne_escapeChar (char : Char) (rest : Text) :
    readOne (escapeChar char ++ rest) = some (char, rest) := by
  have back : ∀ n, char.toNat = n → char = Char.ofNat n := fun n equal => by
    rw [← equal, Char.ofNat_toNat]
  unfold escapeChar
  split_ifs with quote backslash backspace tab newline formFeed carriage control
  · rw [quote]
    rfl
  · rw [backslash]
    rfl
  · rw [back _ backspace]
    rfl
  · rw [back _ tab]
    rfl
  · rw [back _ newline]
    rfl
  · rw [back _ formFeed]
    rfl
  · rw [back _ carriage]
    rfl
  · have read := readUnicode_control control rest
    rw [Char.ofNat_toNat] at read
    exact read
  · rw [List.singleton_append]
    unfold readOne
    split
    next equal => exact absurd (List.cons.inj equal).1 backslash
    next equal =>
      obtain ⟨rfl, rfl⟩ := List.cons.inj equal
      rw [if_neg control]
    next equal => contradiction

theorem readContent_escape {content : Text} {fuel : Nat} (enough : content.length < fuel)
    (rest : Text) :
    readContent fuel (content.flatMap escapeChar ++ '"' :: rest) = some (content, rest) := by
  induction content generalizing fuel with
  | nil =>
      cases fuel with
      | zero => contradiction
      | succ fuel => rfl
  | cons char content inductionHypothesis =>
      cases fuel with
      | zero => contradiction
      | succ fuel =>
          rw [List.flatMap_cons, List.append_assoc]
          have one := readOne_escapeChar char (content.flatMap escapeChar ++ '"' :: rest)
          obtain ⟨first, after, isCons, notQuote⟩ := head?_escapeChar char
            (content.flatMap escapeChar ++ '"' :: rest)
          rw [isCons] at one ⊢
          rw [readContent.eq_3]
          · simp only [one, Option.bind_eq_bind, Option.bind_some,
              inductionHypothesis (Nat.lt_of_succ_lt_succ enough), Option.pure_def]
          · rintro _ equal
            exact notQuote (List.cons.inj equal).1

theorem length_le_flatMap_escape (content : Text) :
    content.length ≤ (content.flatMap escapeChar).length := by
  have positive : ∀ char, 1 ≤ (escapeChar char).length := by
    intro char
    obtain ⟨first, after, isCons, _⟩ := head?_escapeChar char []
    rw [List.append_nil] at isCons
    rw [isCons, List.length_cons]
    exact Nat.le_add_left 1 _
  induction content with
  | nil => exact Nat.le_refl 0
  | cons char content inductionHypothesis =>
      have first := positive char
      rw [List.flatMap_cons, List.length_append, List.length_cons]
      omega

theorem readString_escape (content rest : Text) :
    readString (content.flatMap escapeChar ++ '"' :: rest) = some (content, rest) := by
  apply readContent_escape
  have short := length_le_flatMap_escape content
  rw [List.length_append, List.length_cons]
  omega

/-! ### Numbers -/

theorem isNumberChar_of_isDigit {char : Char} (digit : char.isDigit = true) :
    isNumberChar char = true := by
  have all : ∀ n < 58, 48 ≤ n → isNumberChar (.ofNat n) = true := by decide
  rw [Char.isDigit, Bool.and_eq_true, decide_eq_true_eq, decide_eq_true_eq] at digit
  have range : 48 ≤ char.toNat ∧ char.toNat ≤ 57 :=
    ⟨UInt32.le_iff_toNat_le.mp digit.1, UInt32.le_iff_toNat_le.mp digit.2⟩
  have isChar := all char.toNat (Nat.lt_succ_of_le range.2) range.1
  rwa [Char.ofNat_toNat] at isChar

/-- Characters that numbers are made of. -/
def NumberChars (content : Text) : Prop :=
  ∀ char ∈ content, isNumberChar char = true

theorem numberChars_of_isDigits {digits : Text} (isDigits : isDigits digits = true) :
    NumberChars digits := by
  rw [Json.isDigits, Bool.and_eq_true, List.all_eq_true] at isDigits
  exact fun char member => isNumberChar_of_isDigit (isDigits.2 char member)

theorem numberChars_of_unsigned {signs content : Text} (isSign : NumberChars signs)
    (chars : NumberChars (unsigned signs content)) : NumberChars content := by
  unfold unsigned at chars
  split at chars
  next sign rest =>
    split at chars
    next contained =>
      exact List.forall_mem_cons.mpr ⟨isSign sign (List.elem_iff.mp contained), chars⟩
    next => exact chars
  next => exact chars

theorem numberChars_of_isExponent {content : Text} (isExponent : isExponent content = true) :
    NumberChars content := by
  have marks : NumberChars (text "eE") := List.all_eq_true.mp (by decide)
  have signs : NumberChars (text "+-") := List.all_eq_true.mp (by decide)
  cases content with
  | nil => exact fun _ member => absurd member List.not_mem_nil
  | cons mark rest =>
      rw [Json.isExponent, Bool.and_eq_true] at isExponent
      exact List.forall_mem_cons.mpr ⟨marks mark (List.elem_iff.mp isExponent.1),
        numberChars_of_unsigned signs (numberChars_of_isDigits isExponent.2)⟩

theorem numberChars_of_split {holds : Char → Bool} {content : Text}
    (front : NumberChars (content.takeWhile holds)) (back : NumberChars (content.dropWhile holds)) :
    NumberChars content := by
  intro char member
  rw [← List.takeWhile_append_dropWhile (p := holds) (l := content)] at member
  exact (List.mem_append.mp member).elim (front char) (back char)

theorem numberChars_of_isFraction {content : Text} (isFraction : isFraction content = true) :
    NumberChars content := by
  unfold Json.isFraction at isFraction
  split at isFraction
  next rest =>
    rw [Bool.and_eq_true] at isFraction
    exact List.forall_mem_cons.mpr ⟨by decide, numberChars_of_split
      (numberChars_of_isDigits isFraction.1) (numberChars_of_isExponent isFraction.2)⟩
  next => exact numberChars_of_isExponent isFraction

/-- A number is a number token. -/
theorem isNumber_token {token : Text} (number : isNumber token = true) : IsNumber token := by
  have signs : NumberChars (text "-") := List.all_eq_true.mp (by decide)
  simp only [isNumber, Bool.and_eq_true] at number
  obtain ⟨⟨whole, _⟩, fraction⟩ := number
  refine ⟨?_, numberChars_of_unsigned signs (numberChars_of_split (numberChars_of_isDigits whole)
    (numberChars_of_isFraction fraction))⟩
  rintro rfl
  contradiction

section Numbers

variable {readNumber : Text → Option Text} {token rest : Text}

theorem readToken_number (number : isNumber token = true) (back : readNumber token = some token)
    (closed : Closed rest) : readToken readNumber (token ++ rest) = some (.number token, rest) := by
  have all := (isNumber_token number).2
  have stops : rest.takeWhile isNumberChar = [] ∧ rest.dropWhile isNumberChar = rest := by
    cases rest with
    | nil => exact ⟨rfl, rfl⟩
    | cons first rest =>
        have isClosed := closed first rfl
        simp [isClosed]
  rw [readToken, List.takeWhile_append_of_pos all, List.dropWhile_append_of_pos all, stops.1,
    stops.2, List.append_nil, if_pos number, back]
  rfl

theorem readScalar_number (number : isNumber token = true) (back : readNumber token = some token)
    (closed : Closed rest) :
    readScalar readNumber (token ++ rest) = some (.number token, rest) := by
  have read := readToken_number number back closed
  obtain ⟨nonempty, all⟩ := isNumber_token number
  cases token with
  | nil => exact absurd rfl nonempty
  | cons first token =>
      have isChar := all first List.mem_cons_self
      rw [List.cons_append] at read ⊢
      unfold readScalar
      split
      next equal => exact absurd ((List.cons.inj equal).1 ▸ isChar) (by decide)
      next equal => exact absurd ((List.cons.inj equal).1 ▸ isChar) (by decide)
      next equal => exact absurd ((List.cons.inj equal).1 ▸ isChar) (by decide)
      next equal => exact absurd ((List.cons.inj equal).1 ▸ isChar) (by decide)
      next => exact read

end Numbers

/-! ### Lists -/

section Lists

variable {α : Type} {item : Text → Option (α × Text)} {write : α → Text} {close : Char}

theorem skipSpace_cons {char : Char} (visible : isSpace char = false) (rest : Text) :
    skipSpace (char :: rest) = char :: rest := by
  rw [skipSpace, List.dropWhile_cons, visible, if_neg Bool.false_ne_true]

/-- What ends a list: no space, no comma, and no part of a number. -/
structure Closes (close : Char) : Prop where
  visible : isSpace close = false
  noComma : close ≠ ','
  noNumber : isNumberChar close = false
/-- White space, or nothing. -/
def Blank (gap : Text) : Prop :=
  ∀ char ∈ gap, isSpace char = true

theorem blank_nil : Blank [] := fun _ member => absurd member List.not_mem_nil

theorem skipSpace_blank {gap : Text} (blank : Blank gap) (rest : Text) :
    skipSpace (gap ++ rest) = skipSpace rest :=
  List.dropWhile_append_of_pos blank

theorem closed_blank {gap : Text} (blank : Blank gap) (closes : Closes close) (rest : Text) :
    Closed (gap ++ close :: rest) := by
  have noNumber : ∀ space ∈ text " \n\r\t", isNumberChar space = false :=
    fun space member => by
      have all : (text " \n\r\t").all (fun space => !isNumberChar space) = true := by decide
      simpa using List.all_eq_true.mp all space member
  cases gap with
  | nil => exact closed_cons closes.noNumber rest
  | cons space gap =>
      exact closed_cons (noNumber space (List.elem_iff.mp (blank space List.mem_cons_self))) _

/-- Items are written after one another, with white space before the end. -/
theorem readMore_commas (closes : Closes close) {gap : Text} (blank : Blank gap) {first : α}
    {items : List α} {fuel : Nat} (enough : items.length < fuel)
    (reads : ∀ value ∈ first :: items, ∀ rest, Closed rest →
      item (write value ++ rest) = some (value, rest)) (rest : Text) :
    readMore item close fuel (commas write (first :: items) ++ (gap ++ close :: rest)) =
      some (first :: items, rest) := by
  induction items generalizing first fuel with
  | nil =>
      cases fuel with
      | zero => contradiction
      | succ fuel =>
          have one := reads first List.mem_cons_self (gap ++ close :: rest)
            (closed_blank blank closes rest)
          simp only [commas, List.flatMap_nil, List.append_nil, readMore, one, Option.bind_eq_bind,
            Option.bind_some, skipSpace_blank blank, skipSpace_cons closes.visible, if_true]
  | cons second items inductionHypothesis =>
      cases fuel with
      | zero => contradiction
      | succ fuel =>
          have comma : isSpace ',' = false := by decide
          have more := inductionHypothesis (Nat.lt_of_succ_lt_succ enough)
            fun value member => reads value (List.mem_cons_of_mem _ member)
          have one := reads first List.mem_cons_self
            (',' :: (commas write (second :: items) ++ (gap ++ close :: rest)))
            (closed_cons (by decide) _)
          have split : commas write (first :: second :: items) ++ (gap ++ close :: rest) =
              write first ++ ',' :: (commas write (second :: items) ++ (gap ++ close :: rest)) := by
            simp [commas]
          simp only [split, readMore, one, Option.bind_eq_bind, Option.bind_some,
            skipSpace_cons comma, if_neg closes.noComma.symm, if_true, more, Option.pure_def]

theorem length_le_commas (write : α → Text) (first : α) (items : List α) :
    items.length ≤ (commas write (first :: items)).length := by
  have more : items.length ≤ (items.flatMap fun item => ',' :: write item).length := by
    induction items with
    | nil => exact Nat.le_refl 0
    | cons item items inductionHypothesis =>
        rw [List.flatMap_cons, List.length_append, List.length_cons, List.length_cons]
        omega
  rw [commas, List.length_append]
  omega

/-- A text whose first visible character does not end a list. -/
def Opens (close : Char) (content : Text) : Prop :=
  ∃ char rest, skipSpace content = char :: rest ∧ char ≠ close

/-- Items are read as they are written. -/
theorem readList_commas (closes : Closes close) {gap : Text} (blank : Blank gap) {items : List α}
    (opens : ∀ value ∈ items, ∀ rest, Opens close (write value ++ rest))
    (reads : ∀ value ∈ items, ∀ rest, Closed rest →
      item (write value ++ rest) = some (value, rest)) (rest : Text) :
    readList item close (commas write items ++ (gap ++ close :: rest)) = some (items, rest) := by
  cases items with
  | nil =>
      rw [commas, List.nil_append, readList, skipSpace_blank blank, skipSpace_cons closes.visible]
      exact if_pos rfl
  | cons first items =>
      have short := length_le_commas write first items
      have enough : items.length <
          (commas write (first :: items) ++ (gap ++ close :: rest)).length := by
        rw [List.length_append, List.length_append, List.length_cons]
        omega
      have more := readMore_commas closes blank enough reads rest
      rcases opens first List.mem_cons_self
        (items.flatMap (fun item => ',' :: write item) ++ (gap ++ close :: rest)) with
        ⟨char, after, isFirst, isOpen⟩
      have split : commas write (first :: items) ++ (gap ++ close :: rest) = write first ++
          (items.flatMap (fun item => ',' :: write item) ++ (gap ++ close :: rest)) := by
        rw [commas, List.append_assoc]
      rw [split] at more ⊢
      rw [readList, isFirst]
      exact (if_neg isOpen).trans more

end Lists

/-! ### Scalars -/

section Scalars

variable {readNumber : Text → Option Text}

theorem readScalar_string (content rest : Text) :
    readScalar readNumber (renderString content ++ rest) = some (.string content, rest) := by
  have shaped : renderString content ++ rest =
      '"' :: (content.flatMap escapeChar ++ '"' :: rest) := by
    simp [renderString]
  rw [shaped, readScalar, readString_escape]
  rfl

theorem visible_of_shapeOf {char : Char} {shape : Shape} (shaped : shapeOf char = some shape) :
    isSpace char = false ∧ char ≠ ']' ∧ char ≠ '}' := by
  have all : (text " \n\r\t" ++ [']', '}']).all fun char => shapeOf char = none := by decide
  have not : char ∉ text " \n\r\t" ++ [']', '}'] := by
    intro member
    have none := of_decide_eq_true (List.all_eq_true.mp all char member)
    rw [shaped] at none
    contradiction
  refine ⟨?_, ?_, ?_⟩
  · rw [isSpace, ← Bool.not_eq_true]
    intro space
    exact not (List.mem_append_left _ (List.elem_iff.mp space))
  · rintro rfl
    exact not (by decide)
  · rintro rfl
    exact not (by decide)

theorem tokens_of_numbers {value : Json} (numbers : Numbers readNumber value) : Tokens value := by
  induction value using induction with
  | number token => exact isNumber_token numbers.1
  | array items inductionHypothesis =>
      rw [Numbers, numbersItems_iff] at numbers
      rw [Tokens, tokensItems_iff]
      exact fun item member => inductionHypothesis item member (numbers item member)
  | object fields inductionHypothesis =>
      rw [Numbers, numbersFields_iff] at numbers
      rw [Tokens, tokensFields_iff]
      exact fun field member => inductionHypothesis field member (numbers field member)
  | _ => trivial

/-- The first character of a value is seen. -/
theorem skipSpace_shaped {content : Text} {char : Char} {shape : Shape} {written : Text}
    (isWritten : content = char :: written) (shaped : shapeOf char = some shape) (rest : Text) :
    skipSpace (content ++ rest) = char :: (written ++ rest) := by
  rw [isWritten, List.cons_append, skipSpace_cons (visible_of_shapeOf shaped).1]

theorem opens_shaped {gap content : Text} (blank : Blank gap) {char : Char} {shape : Shape}
    {written : Text} (isWritten : content = char :: written) (shaped : shapeOf char = some shape)
    (rest : Text) : Opens ']' (gap ++ content ++ rest) := by
  refine ⟨char, written ++ rest, ?_, (visible_of_shapeOf shaped).2.1⟩
  rw [List.append_assoc, skipSpace_blank blank, skipSpace_shaped isWritten shaped]

theorem readScalar_render {value : Json} (numbers : Numbers readNumber value)
    (noArray : ∀ items, value ≠ .array items) (noObject : ∀ fields, value ≠ .object fields)
    {rest : Text} (closed : Closed rest) :
    readScalar readNumber (render value ++ rest) = some (value, rest) := by
  cases value with
  | null => rfl
  | bool value => cases value <;> rfl
  | number token => exact readScalar_number numbers.1 numbers.2 closed
  | string content => exact readScalar_string content rest
  | array items => exact absurd rfl (noArray items)
  | object fields => exact absurd rfl (noObject fields)

/-- At every depth, a value that does not begin with a bracket is a scalar. -/
theorem readValue_eq_readScalar {depth : Nat} {content : Text} {char : Char} {rest : Text}
    (isCons : skipSpace content = char :: rest) (noArray : char ≠ '[') (noObject : char ≠ '{') :
    readValue readNumber depth content = readScalar readNumber (char :: rest) := by
  cases depth with
  | zero => rw [readValue, isCons]
  | succ depth =>
      rw [readValue, isCons]
      split
      next equal => exact absurd (List.cons.inj equal).1 noArray
      next equal => exact absurd (List.cons.inj equal).1 noObject
      next => rfl

theorem readValue_scalar {depth : Nat} {value : Json} (numbers : Numbers readNumber value)
    (noArray : ∀ items, value ≠ .array items) (noObject : ∀ fields, value ≠ .object fields)
    {gap rest : Text} (blank : Blank gap) (closed : Closed rest) :
    readValue readNumber depth (gap ++ (render value ++ rest)) = some (value, rest) := by
  rcases head_render (tokens_of_numbers numbers) with ⟨char, written, isRendered, shaped⟩
  have read := readScalar_render numbers noArray noObject closed
  have same : skipSpace (gap ++ (render value ++ rest)) = char :: (written ++ rest) := by
    rw [skipSpace_blank blank, skipSpace_shaped isRendered shaped]
  rw [readValue_eq_readScalar same ?_ ?_]
  · rwa [isRendered, List.cons_append] at read
  · rintro rfl
    have isArray : some Shape.array = some value.shape := shaped
    cases value with
    | array items => exact noArray items rfl
    | _ => cases isArray
  · rintro rfl
    have isObject : some Shape.object = some value.shape := shaped
    cases value with
    | object fields => exact noObject fields rfl
    | _ => cases isObject

end Scalars

/-! ### Arrays and objects -/

section Brackets

variable {readNumber : Text → Option Text} {depth : Nat} {before gap : Text}

theorem closes_brackets : Closes ']' ∧ Closes '}' :=
  ⟨⟨by decide, by decide, by decide⟩, ⟨by decide, by decide, by decide⟩⟩

theorem readValue_array {write : Json → Text} {items : List Json} (blankBefore : Blank before)
    (blank : Blank gap) (opens : ∀ item ∈ items, ∀ rest, Opens ']' (write item ++ rest))
    (reads : ∀ item ∈ items, ∀ rest, Closed rest →
      readValue readNumber depth (write item ++ rest) = some (item, rest)) (rest : Text) :
    readValue readNumber (depth + 1)
        (before ++ '[' :: (commas write items ++ (gap ++ ']' :: rest))) =
      some (.array items, rest) := by
  have bracket : isSpace '[' = false := by decide
  have list := readList_commas closes_brackets.1 blank opens reads rest
  simp only [readValue, skipSpace_blank blankBefore, skipSpace_cons bracket, list, Option.map_some]

/-- An entry is its key, a colon and its value, with white space before each. -/
theorem readEntry_written {read : Text → Option (Json × Text)} {key written : Text} {value : Json}
    {rest : Text} (blank : Blank gap) (reads : read (written ++ rest) = some (value, rest)) :
    readEntry read (gap ++ (renderString key ++ ':' :: (written ++ rest))) =
      some ((key, value), rest) := by
  have mark : isSpace '"' = false := by decide
  have colon : isSpace ':' = false := by decide
  have shaped : renderString key ++ ':' :: (written ++ rest) =
      '"' :: (key.flatMap escapeChar ++ '"' :: ':' :: (written ++ rest)) := by
    simp [renderString]
  simp only [shaped, readEntry, skipSpace_blank blank, skipSpace_cons mark, readString_escape,
    skipSpace_cons colon, reads, Option.bind_eq_bind, Option.bind_some, Option.pure_def]

theorem readValue_object {write : Text × Json → Text} {fields : List (Text × Json)}
    (blankBefore : Blank before) (blank : Blank gap)
    (opens : ∀ field ∈ fields, ∀ rest, Opens '}' (write field ++ rest))
    (reads : ∀ field ∈ fields, ∀ rest, Closed rest →
      readEntry (readValue readNumber depth) (write field ++ rest) = some (field, rest))
    (rest : Text) :
    readValue readNumber (depth + 1)
        (before ++ '{' :: (commas write fields ++ (gap ++ '}' :: rest))) =
      some (.object fields, rest) := by
  have bracket : isSpace '{' = false := by decide
  have list := readList_commas closes_brackets.2 blank opens reads rest
  simp only [readValue, skipSpace_blank blankBefore, skipSpace_cons bracket, list, Option.map_some]

theorem opens_field (blank : Blank gap) (key after : Text) :
    Opens '}' (gap ++ (renderString key ++ after)) := by
  have mark : isSpace '"' = false ∧ '"' ≠ '}' := by decide
  refine ⟨'"', key.flatMap escapeChar ++ ['"'] ++ after, ?_, mark.2⟩
  rw [skipSpace_blank blank, renderString, List.cons_append, skipSpace_cons mark.1]

end Brackets

/-! ### Values -/

section Written

variable {readNumber : Text → Option Text} {limit : Nat} {value : Json} {gap rest : Text}

theorem opens_render (blank : Blank gap) (numbers : Numbers readNumber value) (rest : Text) :
    Opens ']' (gap ++ render value ++ rest) := by
  rcases head_render (tokens_of_numbers numbers) with ⟨char, written, isRendered, shaped⟩
  exact opens_shaped blank isRendered shaped rest

theorem depth_le_zero (shallow : value.depth ≤ 0) :
    (∀ items, value ≠ .array items) ∧ ∀ fields, value ≠ .object fields := by
  constructor
  · rintro items rfl
    contradiction
  · rintro fields rfl
    contradiction

/-- **A value is read as it is written.** -/
theorem readValue_render (numbers : Numbers readNumber value) (within : value.depth ≤ limit)
    (blank : Blank gap) (closed : Closed rest) :
    readValue readNumber limit (gap ++ (render value ++ rest)) = some (value, rest) := by
  induction limit generalizing value gap rest with
  | zero =>
      have scalar := depth_le_zero within
      exact readValue_scalar numbers scalar.1 scalar.2 blank closed
  | succ limit inductionHypothesis =>
      cases value with
      | array items =>
          rw [Numbers, numbersItems_iff] at numbers
          rw [depth_array_le_iff] at within
          have opens : ∀ item ∈ items, ∀ rest, Opens ']' (render item ++ rest) :=
            fun item member => opens_render blank_nil (numbers item member)
          have reads : ∀ item ∈ items, ∀ rest, Closed rest →
              readValue readNumber limit (render item ++ rest) = some (item, rest) :=
            fun item member rest closed => inductionHypothesis (numbers item member)
              (within item member) blank_nil closed
          have list := readValue_array blank blank_nil opens reads rest
          rwa [render, renderItems_eq, List.cons_append, List.append_assoc]
      | object fields =>
          rw [Numbers, numbersFields_iff] at numbers
          rw [depth_object_le_iff] at within
          have shaped : ∀ field : Text × Json, ∀ rest, renderField field ++ rest =
              [] ++ (renderString field.1 ++ ':' :: (render field.2 ++ rest)) := by
            simp [renderField]
          have opens : ∀ field ∈ fields, ∀ rest, Opens '}' (renderField field ++ rest) := by
            intro field _ rest
            rw [shaped]
            exact opens_field blank_nil field.1 _
          have reads : ∀ field ∈ fields, ∀ rest, Closed rest →
              readEntry (readValue readNumber limit) (renderField field ++ rest) =
                some (field, rest) := by
            intro field member rest closed
            have read := inductionHypothesis (numbers field member) (within field member) blank_nil
              closed
            rw [shaped]
            exact readEntry_written blank_nil read
          have list := readValue_object blank blank_nil opens reads rest
          rwa [render, renderFields_eq, List.cons_append, List.append_assoc]
      | _ => exact readValue_scalar numbers (by simp) (by simp) blank closed

theorem blank_newLine (level : Nat) : Blank (newLine level) := by
  have newLine : isSpace '\n' = true ∧ isSpace ' ' = true := by decide
  intro char member
  rcases List.mem_cons.mp member with rfl | space
  · exact newLine.1
  · rw [(List.mem_replicate.mp space).2]
    exact newLine.2

theorem prettyItems_eq (level : Nat) (items : List Json) : prettyItems level items =
    items.flatMap fun item => ',' :: (newLine level ++ renderPretty level item) := by
  induction items with
  | nil => rfl
  | cons item rest inductionHypothesis =>
      rw [prettyItems, inductionHypothesis, List.flatMap_cons, List.cons_append]

theorem prettyFields_eq (level : Nat) (fields : List (Text × Json)) : prettyFields level fields =
    fields.flatMap fun field => ',' :: (newLine level ++ prettyField level field) := by
  induction fields with
  | nil => rfl
  | cons field rest inductionHypothesis =>
      rw [prettyFields, inductionHypothesis, List.flatMap_cons, List.cons_append]

/-- Both serializations begin with the same character. -/
theorem head_renderPretty (level : Nat) (numbers : Numbers readNumber value) :
    ∃ first written, renderPretty level value = first :: written ∧
      shapeOf first = some value.shape := by
  cases value with
  | array items => cases items <;> exact ⟨_, _, rfl, rfl⟩
  | object fields => cases fields <;> exact ⟨_, _, rfl, rfl⟩
  | _ => exact head_render (tokens_of_numbers numbers)

theorem opens_renderPretty (level : Nat) (blank : Blank gap) (numbers : Numbers readNumber value)
    (rest : Text) : Opens ']' (gap ++ renderPretty level value ++ rest) := by
  rcases head_renderPretty level numbers with ⟨char, written, isRendered, shaped⟩
  exact opens_shaped blank isRendered shaped rest

/-- **A value is read as it is written over several lines.** -/
theorem readValue_renderPretty (level : Nat) (numbers : Numbers readNumber value)
    (within : value.depth ≤ limit) (blank : Blank gap) (closed : Closed rest) :
    readValue readNumber limit (gap ++ (renderPretty level value ++ rest)) =
      some (value, rest) := by
  have space : Blank [' '] := List.forall_mem_singleton.mpr (by decide)
  induction limit generalizing value level gap rest with
  | zero =>
      have scalar := depth_le_zero within
      cases value with
      | array items => exact absurd rfl (scalar.1 items)
      | object fields => exact absurd rfl (scalar.2 fields)
      | _ => exact readValue_scalar numbers (by simp) (by simp) blank closed
  | succ limit inductionHypothesis =>
      cases value with
      | array items =>
          rw [Numbers, numbersItems_iff] at numbers
          rw [depth_array_le_iff] at within
          have opens : ∀ item ∈ items, ∀ rest,
              Opens ']' (newLine (level + 1) ++ renderPretty (level + 1) item ++ rest) :=
            fun item member => opens_renderPretty _ (blank_newLine _) (numbers item member)
          have reads : ∀ item ∈ items, ∀ rest, Closed rest → readValue readNumber limit
              (newLine (level + 1) ++ renderPretty (level + 1) item ++ rest) =
                some (item, rest) := by
            intro item member rest closed
            rw [List.append_assoc]
            exact inductionHypothesis (level + 1) (numbers item member) (within item member)
              (blank_newLine _) closed
          cases items with
          | nil => exact readValue_array blank blank_nil opens reads rest
          | cons first items =>
              have list := readValue_array blank (blank_newLine level) opens reads rest
              rw [renderPretty, prettyItems_eq]
              simpa only [commas, List.cons_append, List.append_assoc, List.nil_append] using list
      | object fields =>
          rw [Numbers, numbersFields_iff] at numbers
          rw [depth_object_le_iff] at within
          have shaped : ∀ field : Text × Json, ∀ rest,
              newLine (level + 1) ++ prettyField (level + 1) field ++ rest =
                newLine (level + 1) ++ (renderString field.1 ++
                  ':' :: ([' '] ++ renderPretty (level + 1) field.2 ++ rest)) := by
            simp [prettyField]
          have opens : ∀ field ∈ fields, ∀ rest,
              Opens '}' (newLine (level + 1) ++ prettyField (level + 1) field ++ rest) := by
            intro field _ rest
            rw [shaped]
            exact opens_field (blank_newLine _) field.1 _
          have reads : ∀ field ∈ fields, ∀ rest, Closed rest →
              readEntry (readValue readNumber limit)
                (newLine (level + 1) ++ prettyField (level + 1) field ++ rest) =
                  some (field, rest) := by
            intro field member rest closed
            have read := inductionHypothesis (level + 1) (numbers field member)
              (within field member) space closed
            rw [← List.append_assoc] at read
            rw [shaped]
            exact readEntry_written (blank_newLine _) read
          cases fields with
          | nil => exact readValue_object blank blank_nil opens reads rest
          | cons first fields =>
              have list := readValue_object blank (blank_newLine level) opens reads rest
              rw [renderPretty, prettyFields_eq]
              simpa only [commas, List.cons_append, List.append_assoc, List.nil_append] using list
      | _ => exact readValue_scalar numbers (by simp) (by simp) blank closed

theorem parse_of_readValue {content : Text}
    (read : readValue readNumber limit content = some (value, [])) :
    parse readNumber limit (utf8 content) = some value := by
  rw [parse, ofUtf8?_utf8, Option.bind_some, parseText]
  simp only [read, Option.bind_eq_bind, Option.bind_some]
  rfl

theorem closed_nil : Closed [] := fun _ isFirst => absurd isFirst (by simp)

/-- **Bytes are read as the value they were written from.** -/
theorem parse_render (numbers : Numbers readNumber value) (within : value.depth ≤ limit) :
    parse readNumber limit (utf8 value.render) = some value := by
  have read := readValue_render numbers within blank_nil closed_nil
  rw [List.nil_append, List.append_nil] at read
  exact parse_of_readValue read

theorem parse_renderPretty (numbers : Numbers readNumber value) (within : value.depth ≤ limit)
    (level : Nat) : parse readNumber limit (utf8 (value.renderPretty level)) = some value := by
  have read := readValue_renderPretty level numbers within blank_nil closed_nil
  rw [List.nil_append, List.append_nil] at read
  exact parse_of_readValue read

end Written

/-! ## Nothing else is read -/

section Sound

variable {α : Type} {item : Text → Option (α × Text)} {close : Char} {holds : α → Prop}

theorem forall_of_readMore (sound : ∀ content value rest, item content = some (value, rest) →
      holds value) {fuel : Nat} {content rest : Text} {items : List α}
    (read : readMore item close fuel content = some (items, rest)) :
    ∀ value ∈ items, holds value := by
  induction fuel generalizing content items rest with
  | zero => contradiction
  | succ fuel inductionHypothesis =>
      simp only [readMore, Option.bind_eq_bind, Option.bind_eq_some_iff, Prod.exists] at read
      obtain ⟨first, after, isFirst, read⟩ := read
      have one := sound _ _ _ isFirst
      split at read
      next => contradiction
      next char later _ =>
        split at read
        next =>
          cases read
          exact List.forall_mem_singleton.mpr one
        next =>
          split at read
          next =>
            simp only [Option.bind_eq_some_iff, Prod.exists, Option.pure_def, Option.some.injEq,
              Prod.mk.injEq] at read
            obtain ⟨others, last, isMore, rfl, _⟩ := read
            exact List.forall_mem_cons.mpr ⟨one, inductionHypothesis isMore⟩
          next => contradiction

theorem forall_of_readList (sound : ∀ content value rest, item content = some (value, rest) →
      holds value) {content rest : Text} {items : List α}
    (read : readList item close content = some (items, rest)) : ∀ value ∈ items, holds value := by
  unfold readList at read
  split at read
  next => contradiction
  next =>
    split at read
    next =>
      cases read
      exact fun value member => absurd member List.not_mem_nil
    next => exact forall_of_readMore sound read

theorem of_readEntry {read : Text → Option (Json × Text)} {kept : Json → Prop}
    (sound : ∀ content value rest, read content = some (value, rest) → kept value)
    {content rest : Text} {field : Text × Json}
    (isRead : readEntry read content = some (field, rest)) : kept field.2 := by
  unfold readEntry at isRead
  split at isRead
  next =>
    simp only [Option.bind_eq_bind, Option.bind_eq_some_iff, Prod.exists] at isRead
    obtain ⟨key, after, _, isRead⟩ := isRead
    split at isRead
    next =>
      simp only [Option.bind_eq_some_iff, Prod.exists, Option.pure_def, Option.some.injEq,
        Prod.mk.injEq] at isRead
      obtain ⟨value, last, isValue, rfl, _⟩ := isRead
      exact sound _ _ _ isValue
    next => contradiction
  next => contradiction
/-- What holds of the scalars and is inherited by arrays and objects. -/
structure Inherited (readNumber : Text → Option Text) (kept : Nat → Json → Prop) : Prop where
  scalar : ∀ depth content value rest, readScalar readNumber content = some (value, rest) →
    kept depth value
  array : ∀ depth items, (∀ item ∈ items, kept depth item) → kept (depth + 1) (.array items)
  object : ∀ depth fields, (∀ field ∈ fields, kept depth field.2) →
    kept (depth + 1) (.object fields)

variable {readNumber : Text → Option Text}

theorem Inherited.readValue {kept : Nat → Json → Prop} (inherited : Inherited readNumber kept)
    {depth : Nat} {content rest : Text} {value : Json}
    (read : Json.readValue readNumber depth content = some (value, rest)) : kept depth value := by
  induction depth generalizing content value rest with
  | zero => exact inherited.scalar 0 _ _ _ read
  | succ depth inductionHypothesis =>
      unfold Json.readValue at read
      split at read
      next =>
        rcases Option.map_eq_some_iff.mp read with ⟨⟨items, after⟩, isList, equal⟩
        cases equal
        exact inherited.array depth items
          (forall_of_readList (fun _ _ _ isItem => inductionHypothesis isItem) isList)
      next =>
        rcases Option.map_eq_some_iff.mp read with ⟨⟨fields, after⟩, isList, equal⟩
        cases equal
        have entries : ∀ field ∈ fields, kept depth field.2 :=
          forall_of_readList (fun _ _ _ isField => of_readEntry
            (fun _ _ _ isValue => inductionHypothesis isValue) isField) isList
        exact inherited.object depth fields entries
      next => exact inherited.scalar (depth + 1) _ _ _ read

theorem Inherited.parse {kept : Nat → Json → Prop} (inherited : Inherited readNumber kept)
    {depth : Nat} {bytes : Bytes} {value : Json}
    (read : Json.parse readNumber depth bytes = some value) : kept depth value := by
  rcases Option.bind_eq_some_iff.mp read with ⟨content, _, parsed⟩
  simp only [parseText, Option.bind_eq_bind, Option.bind_eq_some_iff, Prod.exists] at parsed
  rcases parsed with ⟨first, rest, isValue, whole⟩
  rcases Option.ite_none_right_eq_some.mp whole with ⟨_, equal⟩
  cases equal
  exact inherited.readValue isValue

theorem readScalar_cases {content rest : Text} {value : Json}
    (read : readScalar readNumber content = some (value, rest)) :
    value = .null ∨ (∃ truth, value = .bool truth) ∨ (∃ shown, value = .string shown) ∨
      ∃ token result, isNumber token = true ∧ readNumber token = some result ∧
        value = .number result := by
  unfold readScalar at read
  split at read
  next =>
    rcases Option.map_eq_some_iff.mp read with ⟨⟨content, after⟩, _, equal⟩
    cases equal
    exact .inr (.inr (.inl ⟨content, rfl⟩))
  next =>
    cases read
    exact .inl rfl
  next =>
    cases read
    exact .inr (.inl ⟨true, rfl⟩)
  next =>
    cases read
    exact .inr (.inl ⟨false, rfl⟩)
  next =>
    rcases Option.ite_none_right_eq_some.mp read with ⟨number, read⟩
    rcases Option.map_eq_some_iff.mp read with ⟨result, isResult, equal⟩
    cases equal
    exact .inr (.inr (.inr ⟨_, result, number, isResult, rfl⟩))

theorem inherited_depth : Inherited readNumber fun limit value => value.depth ≤ limit where
  scalar limit content value rest read := by
    rcases readScalar_cases read with rfl | ⟨_, rfl⟩ | ⟨_, rfl⟩ | ⟨_, _, _, _, rfl⟩ <;>
      exact Nat.zero_le limit
  array _ _ each := depth_array_le_iff.mpr each
  object _ _ each := depth_object_le_iff.mpr each

/-- What is read of a number is a number that is read as itself. -/
def Settled (readNumber : Text → Option Text) : Prop :=
  ∀ token result, isNumber token = true → readNumber token = some result →
    isNumber result = true ∧ readNumber result = some result

theorem inherited_numbers (settled : Settled readNumber) :
    Inherited readNumber fun _ value => Numbers readNumber value where
  scalar limit content value rest read := by
    rcases readScalar_cases read with rfl | ⟨_, rfl⟩ | ⟨_, rfl⟩
      | ⟨token, result, number, isRead, rfl⟩
    · trivial
    · trivial
    · trivial
    · exact settled token result number isRead
  array _ _ each := numbersItems_iff.mpr each
  object _ _ each := numbersFields_iff.mpr each

/-- **What is read is not too deep.** -/
theorem depth_of_parse {limit : Nat} {bytes : Bytes} {value : Json}
    (read : parse readNumber limit bytes = some value) : value.depth ≤ limit :=
  inherited_depth.parse read

theorem numbers_of_parse (settled : Settled readNumber) {limit : Nat} {bytes : Bytes} {value : Json}
    (read : parse readNumber limit bytes = some value) : Numbers readNumber value :=
  (inherited_numbers settled).parse read

end Sound

/-! ## The limit -/

section Limit

/-- What one reader reads, the other reads as well. -/
def Extends {α : Type} (reader other : Text → Option (α × Text)) : Prop :=
  ∀ content result, reader content = some result → other content = some result

variable {α : Type} {reader other : Text → Option (α × Text)} {close : Char}

theorem Extends.readMore (extended : Extends reader other) (fuel : Nat) :
    Extends (readMore reader close fuel) (readMore other close fuel) := by
  induction fuel with
  | zero => nofun
  | succ fuel inductionHypothesis =>
      intro content result read
      simp only [Json.readMore, Option.bind_eq_bind, Option.bind_eq_some_iff] at read ⊢
      obtain ⟨first, isFirst, read⟩ := read
      refine ⟨first, extended _ _ isFirst, ?_⟩
      split at read
      next => contradiction
      next char rest _ =>
        split
        next isClose =>
          rw [if_pos isClose] at read
          exact read
        next isOpen =>
          rw [if_neg isOpen] at read
          split at read
          next isComma =>
            obtain ⟨others, isMore, read⟩ := Option.bind_eq_some_iff.mp read
            rw [if_pos isComma]
            exact Option.bind_eq_some_iff.mpr ⟨others, inductionHypothesis _ _ isMore, read⟩
          next => contradiction

theorem Extends.readList (extended : Extends reader other) :
    Extends (readList reader close) (readList other close) := by
  intro content result read
  unfold Json.readList at read ⊢
  split at read
  next => contradiction
  next =>
    split at read
    next isClose =>
      rw [if_pos isClose]
      exact read
    next isOpen =>
      rw [if_neg isOpen]
      exact extended.readMore _ _ _ read

theorem Extends.readEntry {reader other : Text → Option (Json × Text)}
    (extended : Extends reader other) : Extends (readEntry reader) (readEntry other) := by
  intro content result read
  unfold Json.readEntry at read ⊢
  split at read
  next =>
    simp only [Option.bind_eq_bind, Option.bind_eq_some_iff] at read ⊢
    obtain ⟨key, isKey, read⟩ := read
    refine ⟨key, isKey, ?_⟩
    split at read
    next =>
      obtain ⟨value, isValue, read⟩ := Option.bind_eq_some_iff.mp read
      exact Option.bind_eq_some_iff.mpr ⟨value, extended _ _ isValue, read⟩
    next => contradiction
  next => contradiction

theorem Extends.map {β : Type} {first second : Text → Option (α × Text)}
    (extended : Extends first second) (change : α × Text → β × Text) :
    Extends (fun content => (first content).map change)
      (fun content => (second content).map change) := by
  intro content result read
  obtain ⟨value, isValue, isResult⟩ := Option.map_eq_some_iff.mp read
  exact Option.map_eq_some_iff.mpr ⟨value, extended _ _ isValue, isResult⟩
variable {readNumber : Text → Option Text}

theorem readValue_succ (depth : Nat) :
    Extends (readValue readNumber depth) (readValue readNumber (depth + 1)) := by
  induction depth with
  | zero =>
      intro content result read
      have noArray : ∀ rest, readScalar readNumber ('[' :: rest) = none := fun rest => rfl
      have noObject : ∀ rest, readScalar readNumber ('{' :: rest) = none := fun rest => rfl
      rw [readValue] at read
      rw [readValue]
      split
      next isArray =>
        rw [isArray, noArray] at read
        contradiction
      next isObject =>
        rw [isObject, noObject] at read
        contradiction
      next => exact read
  | succ depth inductionHypothesis =>
      intro content result read
      rw [readValue] at read ⊢
      split at read
      next => exact (inductionHypothesis.readList.map _) _ _ read
      next => exact (inductionHypothesis.readEntry.readList.map _) _ _ read
      next => exact read

theorem readValue_mono {depth limit : Nat} (within : depth ≤ limit) :
    Extends (readValue readNumber depth) (readValue readNumber limit) := by
  induction within with
  | refl => exact fun _ _ read => read
  | step _ inductionHypothesis =>
      exact fun content result read => readValue_succ _ _ _ (inductionHypothesis _ _ read)

theorem parse_mono {depth limit : Nat} (within : depth ≤ limit) {bytes : Bytes} {value : Json}
    (read : parse readNumber depth bytes = some value) :
    parse readNumber limit bytes = some value := by
  simp only [parse, parseText, Option.bind_eq_bind, Option.bind_eq_some_iff] at read ⊢
  obtain ⟨content, isContent, result, isValue, whole⟩ := read
  exact ⟨content, isContent, result, readValue_mono within _ _ isValue, whole⟩

/-- **What is too deep is not read.** -/
theorem parse_eq_none_of_deep {depth limit : Nat} {bytes : Bytes} {value : Json}
    (read : parse readNumber depth bytes = some value) (deep : ¬value.depth ≤ limit) :
    parse readNumber limit bytes = none := by
  rw [Option.eq_none_iff_forall_ne_some]
  intro result isRead
  have whole := parse_mono (Nat.le_max_left depth limit) read
  rw [parse_mono (Nat.le_max_right depth limit) isRead, Option.some.injEq] at whole
  subst whole
  exact deep (depth_of_parse isRead)

variable {value : Json}

theorem parse_render_eq (numbers : Numbers readNumber value) (limit : Nat) :
    parse readNumber limit (utf8 value.render) =
      if value.depth ≤ limit then some value else none := by
  split
  next within => exact parse_render numbers within
  next deep => exact parse_eq_none_of_deep (parse_render numbers (Nat.le_refl _)) deep

theorem parse_renderPretty_eq (numbers : Numbers readNumber value) (limit level : Nat) :
    parse readNumber limit (utf8 (value.renderPretty level)) =
      if value.depth ≤ limit then some value else none := by
  split
  next within => exact parse_renderPretty numbers within level
  next deep => exact parse_eq_none_of_deep (parse_renderPretty numbers (Nat.le_refl _) level) deep

/-- Every bracket is written. -/
theorem depth_le_length_render (value : Json) : value.depth ≤ value.render.length := by
  have member : ∀ {α : Type} (write : α → Text) (items : List α), ∀ item ∈ items,
      (write item).length ≤ (commas write items).length := by
    intro α write items item inside
    cases items with
    | nil => exact absurd inside List.not_mem_nil
    | cons first items =>
        rw [commas, List.length_append]
        rcases List.mem_cons.mp inside with rfl | later
        · exact Nat.le_add_right _ _
        · have isLater := List.mem_map_of_mem (f := fun item => ',' :: write item) later
          have sub := (List.sublist_flatten_of_mem isLater).length_le
          rw [← List.flatMap_def, List.length_cons] at sub
          omega
  induction value using induction with
  | array items inductionHypothesis =>
      have each : depthItems items ≤ (renderItems items).length := by
        rw [depthItems_le_iff, renderItems_eq]
        exact fun item inside =>
          Nat.le_trans (inductionHypothesis item inside) (member render items item inside)
      rw [depth, render, List.length_cons, List.length_append]
      omega
  | object fields inductionHypothesis =>
      have each : depthFields fields ≤ (renderFields fields).length := by
        rw [depthFields_le_iff, renderFields_eq]
        intro field inside
        have short : (render field.2).length ≤ (renderField field).length := by
          rw [renderField, List.length_append, List.length_cons]
          omega
        exact Nat.le_trans (inductionHypothesis field inside)
          (Nat.le_trans short (member renderField fields field inside))
      rw [depth, render, List.length_cons, List.length_append]
      omega
  | _ => exact Nat.zero_le _

end Limit

end ZkLlmGateway.Encoding.Json
