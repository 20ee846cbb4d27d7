import ZkLlmGateway.Encoding.Text

/-!
# JSON values and their serializations

Numbers are opaque tokens and an object is the list of its entries in the order
in which they are written.  The compact serialization has no white space; in strings it
escapes the quotation mark, the backslash and the control characters below
`U+0020`, with the short form where JSON has one, and writes every other
character as it is.
-/

namespace ZkLlmGateway.Encoding

/-- A JSON value. -/
inductive Json where
  | null
  | bool (value : Bool)
  | number (token : Text)
  | string (content : Text)
  | array (items : List Json)
  | object (fields : List (Text × Json))

namespace Json

/-- How one character of a string is written. -/
def escapeChar (char : Char) : Text :=
  if char = '"' then ['\\', '"']
  else if char = '\\' then ['\\', '\\']
  else if char.toNat = 8 then ['\\', 'b']
  else if char.toNat = 9 then ['\\', 't']
  else if char.toNat = 10 then ['\\', 'n']
  else if char.toNat = 12 then ['\\', 'f']
  else if char.toNat = 13 then ['\\', 'r']
  else if char.toNat < 32 then
    ['\\', 'u', '0', '0', hexDigit (char.toNat / 16), hexDigit (char.toNat % 16)]
  else [char]

/-- A string with its quotation marks. -/
def renderString (content : Text) : Text :=
  '"' :: (content.flatMap escapeChar ++ ['"'])

mutual

/-- The compact serialization. -/
def render : Json → Text
  | null => text "null"
  | bool true => text "true"
  | bool false => text "false"
  | number token => token
  | string content => renderString content
  | array items => '[' :: (renderItems items ++ [']'])
  | object fields => '{' :: (renderFields fields ++ ['}'])

/-- Comma-separated array items. -/
def renderItems : List Json → Text
  | [] => []
  | item :: rest => render item ++ renderMoreItems rest

/-- The items after the first, each with its comma. -/
def renderMoreItems : List Json → Text
  | [] => []
  | item :: rest => ',' :: (render item ++ renderMoreItems rest)

/-- Comma-separated object entries. -/
def renderFields : List (Text × Json) → Text
  | [] => []
  | field :: rest => renderField field ++ renderMoreFields rest

/-- The entries after the first, each with its comma. -/
def renderMoreFields : List (Text × Json) → Text
  | [] => []
  | field :: rest => ',' :: (renderField field ++ renderMoreFields rest)

/-- One entry. -/
def renderField : Text × Json → Text
  | (key, value) => renderString key ++ ':' :: render value

end

/-! ## Pretty serialization -/

/-- A new line, two spaces in for every level. -/
def newLine (depth : Nat) : Text :=
  '\n' :: List.replicate (2 * depth) ' '

mutual

/-- The serialization with a line for every item and entry. -/
def renderPretty (depth : Nat) : Json → Text
  | array [] => ['[', ']']
  | array (item :: rest) =>
      '[' :: (newLine (depth + 1) ++ renderPretty (depth + 1) item ++
        prettyItems (depth + 1) rest ++ newLine depth ++ [']'])
  | object [] => ['{', '}']
  | object (field :: rest) =>
      '{' :: (newLine (depth + 1) ++ prettyField (depth + 1) field ++
        prettyFields (depth + 1) rest ++ newLine depth ++ ['}'])
  | null => render null
  | bool value => render (bool value)
  | number token => render (number token)
  | string content => render (string content)

/-- The items after the first. -/
def prettyItems (depth : Nat) : List Json → Text
  | [] => []
  | item :: rest => ',' :: (newLine depth ++ renderPretty depth item ++ prettyItems depth rest)

/-- The entries after the first. -/
def prettyFields (depth : Nat) : List (Text × Json) → Text
  | [] => []
  | field :: rest => ',' :: (newLine depth ++ prettyField depth field ++ prettyFields depth rest)

def prettyField (depth : Nat) : Text × Json → Text
  | (key, value) => renderString key ++ ':' :: ' ' :: renderPretty depth value

end

/-! ## Sorted objects -/

/-- Insert into a map sorted by key; an entry with an equal key is replaced. -/
def insertField (field : Text × Json) : List (Text × Json) → List (Text × Json)
  | [] => [field]
  | other :: rest =>
      if field.1 < other.1 then field :: other :: rest
      else if field.1 = other.1 then field :: rest
      else other :: insertField field rest

/-- The sorted map of a sequence of insertions. -/
def sortFields (fields : List (Text × Json)) : List (Text × Json) :=
  fields.foldl (fun sorted field => insertField field sorted) []

mutual

/-- Sort the entries of every object, at every depth. -/
def canonicalize : Json → Json
  | array items => array (canonicalizeItems items)
  | object fields => object (sortFields (canonicalizeFields fields))
  | null => null
  | bool value => bool value
  | number token => number token
  | string content => string content

def canonicalizeItems : List Json → List Json
  | [] => []
  | item :: rest => canonicalize item :: canonicalizeItems rest

def canonicalizeFields : List (Text × Json) → List (Text × Json)
  | [] => []
  | field :: rest => canonicalizeField field :: canonicalizeFields rest

def canonicalizeField : Text × Json → Text × Json
  | (key, value) => (key, canonicalize value)

end

/-! ## Serialized lengths -/

/-- The bytes by which escaping lengthens a character. -/
def escapeCost (char : Char) : Nat :=
  if char = '"' ∨ char = '\\' then 1
  else if char.toNat = 8 ∨ char.toNat = 9 ∨ char.toNat = 10 ∨ char.toNat = 12 ∨
      char.toNat = 13 then 1
  else if char.toNat < 32 then 5
  else 0

/-- The bytes by which escaping lengthens a text. -/
def escapeCosts (content : Text) : Nat :=
  (content.map escapeCost).sum

@[simp]
theorem escapeCosts_nil : escapeCosts [] = 0 :=
  rfl

@[simp]
theorem escapeCosts_cons (char : Char) (content : Text) :
    escapeCosts (char :: content) = escapeCost char + escapeCosts content := by
  simp [escapeCosts]

@[simp]
theorem escapeCosts_append (left right : Text) :
    escapeCosts (left ++ right) = escapeCosts left + escapeCosts right := by
  simp [escapeCosts]

theorem utf8Size_of_toNat_lt {char : Char} (ascii : char.toNat < 128) : char.utf8Size = 1 := by
  unfold Char.utf8Size
  have small : char.val.toNat ≤ 127 := Nat.le_of_lt_succ ascii
  rw [if_pos (UInt32.le_iff_toNat_le.mpr small)]

theorem utf8Size_hexDigit (value : Nat) : (hexDigit value).utf8Size = 1 := by
  have member : hexDigit value ∈ text "0123456789abcdef" := by
    simpa [isHexDigit] using isHexDigit_hexDigit value
  have all : (text "0123456789abcdef").all (·.utf8Size = 1) = true := by decide
  simpa using List.all_eq_true.mp all _ member

theorem byteLen_escapeChar (char : Char) :
    byteLen (escapeChar char) = char.utf8Size + escapeCost char := by
  have ascii : char.toNat < 32 → char.utf8Size = 1 := fun small =>
    utf8Size_of_toNat_lt (Nat.lt_trans small (by decide))
  unfold escapeChar escapeCost
  by_cases quote : char = '"'
  · subst quote
    decide
  by_cases backslash : char = '\\'
  · subst backslash
    decide
  simp only [quote, backslash, or_self, if_false]
  split_ifs <;> first | omega | (simp [utf8Size_hexDigit]; try rw [ascii (by omega)]; try rfl)

/-- Two quotation marks, the characters and their escapes. -/
theorem byteLen_renderString (content : Text) :
    byteLen (renderString content) = byteLen content + escapeCosts content + 2 := by
  have escaped : byteLen (content.flatMap escapeChar) = byteLen content + escapeCosts content := by
    induction content with
    | nil => rfl
    | cons char content ih =>
        rw [List.flatMap_cons, byteLen_append, ih, byteLen_escapeChar, byteLen_cons,
          escapeCosts_cons]
        omega
  have quote : ('"' : Char).utf8Size = 1 := by decide
  rw [renderString, byteLen_cons, byteLen_append, escaped, byteLen_cons, byteLen_nil, quote]
  omega

/-- Texts of one-byte characters that need no escape. -/
def Plain (content : Text) : Prop :=
  ∀ char ∈ content, char.utf8Size = 1 ∧ escapeCost char = 0

instance (content : Text) : Decidable (Plain content) :=
  List.decidableBAll _ content

theorem Plain.escapeCosts_eq {content : Text} (plain : Plain content) :
    escapeCosts content = 0 := by
  induction content with
  | nil => rfl
  | cons char content ih =>
      rw [escapeCosts_cons, (plain char List.mem_cons_self).2,
        ih fun other member => plain other (List.mem_cons_of_mem _ member)]

theorem Plain.byteLen_eq {content : Text} (plain : Plain content) :
    byteLen content = content.length :=
  byteLen_eq_length fun char member => (plain char member).1

theorem Plain.byteLen_renderString {content : Text} (plain : Plain content) :
    byteLen (renderString content) = content.length + 2 := by
  rw [Json.byteLen_renderString, plain.byteLen_eq, plain.escapeCosts_eq]

theorem plain_toHex (bytes : Bytes) : Plain (toHex bytes) := by
  intro char member
  have digit : char ∈ text "0123456789abcdef" := by
    simpa [isHexDigit] using isHexDigit_of_mem_toHex member
  have all : (text "0123456789abcdef").all
      (fun char => char.utf8Size = 1 ∧ escapeCost char = 0) = true := by decide
  simpa using List.all_eq_true.mp all char digit

end Json

end ZkLlmGateway.Encoding
