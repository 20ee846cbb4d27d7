import ZkLlmGateway.Encoding.Bytes
import Mathlib.Data.List.TakeDrop

/-!
# Texts, their bytes, and hexadecimal digits

A text is its list of Unicode scalar values, which is what iterating over the
characters of a string yields.  Its byte length and its bytes are those of the
UTF-8 encoding.
-/

namespace ZkLlmGateway.Encoding

/-- Strings, as their characters. -/
abbrev Text := List Char

instance : LawfulBEq Text :=
  inferInstance

/-- The characters of a string literal. -/
abbrev text (literal : String) : Text := literal.toList

/-- The UTF-8 bytes of a text. -/
def utf8 (content : Text) : Bytes :=
  content.flatMap String.utf8EncodeChar

/-- Length in UTF-8 bytes. -/
def byteLen (content : Text) : Nat :=
  (content.map Char.utf8Size).sum

@[simp]
theorem byteLen_nil : byteLen [] = 0 :=
  rfl

@[simp]
theorem byteLen_cons (char : Char) (content : Text) :
    byteLen (char :: content) = char.utf8Size + byteLen content := by
  simp [byteLen]

@[simp]
theorem byteLen_append (left right : Text) :
    byteLen (left ++ right) = byteLen left + byteLen right := by
  simp [byteLen]

@[simp]
theorem utf8_nil : utf8 [] = [] :=
  rfl

@[simp]
theorem utf8_cons (char : Char) (content : Text) :
    utf8 (char :: content) = String.utf8EncodeChar char ++ utf8 content :=
  rfl

@[simp]
theorem utf8_append (left right : Text) : utf8 (left ++ right) = utf8 left ++ utf8 right := by
  simp [utf8]

@[simp]
theorem length_utf8 (content : Text) : (utf8 content).length = byteLen content := by
  induction content with
  | nil => rfl
  | cons char content ih => simp [ih]

/-- No text is shorter in bytes than in characters. -/
theorem length_le_byteLen (content : Text) : content.length ≤ byteLen content := by
  induction content with
  | nil => simp
  | cons char content ih =>
      have positive := char.utf8Size_pos
      simp only [List.length_cons, byteLen_cons]
      omega

/-- A text of one-byte characters has as many bytes as characters. -/
theorem byteLen_eq_length {content : Text} (ascii : ∀ char ∈ content, char.utf8Size = 1) :
    byteLen content = content.length := by
  induction content with
  | nil => rfl
  | cons char content ih =>
      rw [byteLen_cons, ascii char List.mem_cons_self,
        ih fun other member => ascii other (List.mem_cons_of_mem _ member), List.length_cons]
      omega

/-- The text with these bytes, if they are valid UTF-8. -/
def ofUtf8? (bytes : Bytes) : Option Text :=
  bytes.toByteArray.utf8Decode?.map Array.toList

theorem toByteArray_utf8 (content : Text) : (utf8 content).toByteArray = content.utf8Encode :=
  rfl

@[simp]
theorem ofUtf8?_utf8 (content : Text) : ofUtf8? (utf8 content) = some content := by
  rw [ofUtf8?, toByteArray_utf8, List.utf8Decode?_utf8Encode]
  rfl

/-- Distinct texts have distinct bytes. -/
theorem utf8_injective : Function.Injective utf8 := by
  intro left right equal
  have decoded := congrArg ofUtf8? equal
  rw [ofUtf8?_utf8, ofUtf8?_utf8] at decoded
  exact Option.some.inj decoded

theorem ofUtf8?_eq_some_iff {bytes : Bytes} {content : Text} :
    ofUtf8? bytes = some content ↔ bytes = utf8 content := by
  constructor
  · intro decodes
    obtain ⟨chars, decoded, rfl⟩ := Option.map_eq_some_iff.mp decodes
    have isSome : bytes.toByteArray.utf8Decode?.isSome := by
      rw [decoded]
      rfl
    have encoded := ByteArray.utf8Encode_get_utf8Decode? (h := isSome)
    simp only [decoded, Option.get_some] at encoded
    have same : (utf8 chars.toList).toByteArray = bytes.toByteArray := encoded
    have lists := congrArg (fun array : ByteArray => array.data.toList) same
    simpa using lists.symm
  · rintro rfl
    exact ofUtf8?_utf8 content

/-- The bytes are those of a text. -/
def IsText (bytes : Bytes) : Prop :=
  ∃ content, bytes = utf8 content

/-! ## Lower-case hexadecimal -/

/-- One lower-case hexadecimal digit. -/
def hexDigit (value : Nat) : Char :=
  (text "0123456789abcdef").getD value '0'

/-- Two lower-case digits for every byte, high half first. -/
def toHex (bytes : Bytes) : Text :=
  bytes.flatMap fun byte => [hexDigit (byte.toNat / 16), hexDigit (byte.toNat % 16)]

theorem hexDigit_injective : ∀ m < 16, ∀ n < 16, hexDigit m = hexDigit n → m = n := by
  decide

/-- The characters a lower-case hexadecimal rendering is made of. -/
def isHexDigit (char : Char) : Bool :=
  (text "0123456789abcdef").contains char

theorem isHexDigit_hexDigit (value : Nat) : isHexDigit (hexDigit value) = true := by
  by_cases small : value < 16
  · have all : ∀ n < 16, isHexDigit (hexDigit n) = true := by decide
    exact all value small
  · have outside : hexDigit value = '0' := by
      have absent : (text "0123456789abcdef")[value]? = none :=
        List.getElem?_eq_none (Nat.le_of_not_lt small)
      rw [hexDigit, List.getD_eq_getElem?_getD, absent]
      rfl
    rw [outside]
    decide

@[simp]
theorem length_toHex (bytes : Bytes) : (toHex bytes).length = 2 * bytes.length := by
  induction bytes with
  | nil => rfl
  | cons byte bytes ih =>
      simp only [toHex, List.flatMap_cons, List.length_append, List.length_cons,
        List.length_nil] at ih ⊢
      omega

theorem isHexDigit_of_mem_toHex {bytes : Bytes} {char : Char} (member : char ∈ toHex bytes) :
    isHexDigit char = true := by
  obtain ⟨byte, _, digit⟩ := List.mem_flatMap.mp member
  simp only [List.mem_cons, List.not_mem_nil, or_false] at digit
  rcases digit with rfl | rfl <;> exact isHexDigit_hexDigit _

theorem toHex_injective : Function.Injective toHex := by
  intro left
  induction left with
  | nil =>
      intro right equal
      have lengths := congrArg List.length equal
      rw [length_toHex, length_toHex] at lengths
      exact (List.eq_nil_of_length_eq_zero (by simpa using lengths.symm)).symm
  | cons byte left ih =>
      intro right equal
      cases right with
      | nil =>
          have lengths := congrArg List.length equal
          simp at lengths
      | cons other right =>
          simp only [toHex, List.flatMap_cons, List.cons_append, List.nil_append,
            List.cons.injEq] at equal
          obtain ⟨high, low, rest⟩ := equal
          have byteBound := byte.toNat_lt
          have otherBound := other.toNat_lt
          have highEq := hexDigit_injective _ (by omega) _ (by omega) high
          have lowEq := hexDigit_injective _ (by omega) _ (by omega) low
          have byteEq : byte = other := UInt8.toNat_inj.mp (by omega)
          rw [byteEq, ih rest]

end ZkLlmGateway.Encoding
