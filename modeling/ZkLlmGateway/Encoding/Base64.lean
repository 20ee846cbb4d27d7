import ZkLlmGateway.Encoding.Text

/-!
# Canonical padded base64

The standard alphabet with mandatory canonical padding.  The decoder rejects a
missing or superfluous pad and any non-zero bit the padding stands for, so it
accepts exactly the texts the encoder writes: equal bytes have equal texts and
equal texts have equal bytes.
-/

namespace ZkLlmGateway.Encoding.Base64

/-- The sixty-four digits, by value. -/
def alphabet : Text :=
  text "ABCDEFGHIJKLMNOPQRSTUVWXYZabcdefghijklmnopqrstuvwxyz0123456789+/"

/-- The digit of a six-bit value. -/
def digit (value : Nat) : Char :=
  alphabet.getD value 'A'

/-- The six-bit value of a digit. -/
def value (char : Char) : Option Nat :=
  alphabet.findIdx? (· == char)

theorem value_digit : ∀ n < 64, value (digit n) = some n := by
  decide +kernel

theorem digit_ne_pad : ∀ n < 64, digit n ≠ '=' := by
  decide +kernel

theorem digit_of_value {char : Char} {n : Nat} (read : value char = some n) :
    n < 64 ∧ digit n = char := by
  obtain ⟨inside, found, _⟩ := List.findIdx?_eq_some_iff_getElem.mp read
  refine ⟨inside, ?_⟩
  rw [digit, List.getD_eq_getElem?_getD, List.getElem?_eq_getElem inside]
  simpa using found

/-- Encode three bytes at a time, padding the last group. -/
def encode : Bytes → Text
  | [] => []
  | [a] => [digit (a.toNat / 4), digit (a.toNat % 4 * 16), '=', '=']
  | [a, b] =>
      [digit (a.toNat / 4), digit (a.toNat % 4 * 16 + b.toNat / 16),
        digit (b.toNat % 16 * 4), '=']
  | a :: b :: c :: rest =>
      digit (a.toNat / 4) :: digit (a.toNat % 4 * 16 + b.toNat / 16) ::
        digit (b.toNat % 16 * 4 + c.toNat / 64) :: digit (c.toNat % 64) :: encode rest

/-- The one or two bytes of a padded last group. -/
def decodePadded (w x y : Char) : Option Bytes := do
  let p ← value w
  let q ← value x
  if y = '=' then
    if q % 16 = 0 then some [UInt8.ofNat (p * 4 + q / 16)] else none
  else do
    let r ← value y
    if r % 4 = 0 then
      some [UInt8.ofNat (p * 4 + q / 16), UInt8.ofNat (q % 16 * 16 + r / 4)]
    else none

/-- Decode four digits at a time; only the last group may be padded. -/
def decode : Text → Option Bytes
  | [] => some []
  | w :: x :: y :: z :: rest =>
      if z = '=' ∧ rest = [] then decodePadded w x y
      else do
        let p ← value w
        let q ← value x
        let r ← value y
        let s ← value z
        let tail ← decode rest
        some (UInt8.ofNat (p * 4 + q / 16) :: UInt8.ofNat (q % 16 * 16 + r / 4) ::
          UInt8.ofNat (r % 4 * 64 + s) :: tail)
  | _ => none

private theorem byte_ofNat (byte : UInt8) {n : Nat} (equal : n = byte.toNat) :
    UInt8.ofNat n = byte := by
  rw [equal, UInt8.ofNat_toNat]

/-- Decoding undoes encoding. -/
@[simp]
theorem decode_encode (bytes : Bytes) : decode (encode bytes) = some bytes := by
  induction bytes using encode.induct with
  | case1 => rfl
  | case2 a =>
      have aBound := a.toNat_lt
      have first := value_digit (a.toNat / 4) (by omega)
      have second := value_digit (a.toNat % 4 * 16) (by omega)
      simp only [encode, decode, decodePadded, first, second, and_self, if_true,
        Option.bind_eq_bind, Option.bind_some]
      rw [if_pos (by omega), byte_ofNat a (by omega)]
  | case3 a b =>
      have aBound := a.toNat_lt
      have bBound := b.toNat_lt
      have first := value_digit (a.toNat / 4) (by omega)
      have second := value_digit (a.toNat % 4 * 16 + b.toNat / 16) (by omega)
      have third := value_digit (b.toNat % 16 * 4) (by omega)
      have notPad := digit_ne_pad (b.toNat % 16 * 4) (by omega)
      simp only [encode, decode, decodePadded, first, second, third, notPad, and_self, if_true,
        if_false, Option.bind_eq_bind, Option.bind_some]
      rw [if_pos (by omega), byte_ofNat a (by omega), byte_ofNat b (by omega)]
  | case4 a b c rest ih =>
      have aBound := a.toNat_lt
      have bBound := b.toNat_lt
      have cBound := c.toNat_lt
      have first := value_digit (a.toNat / 4) (by omega)
      have second := value_digit (a.toNat % 4 * 16 + b.toNat / 16) (by omega)
      have third := value_digit (b.toNat % 16 * 4 + c.toNat / 64) (by omega)
      have fourth := value_digit (c.toNat % 64) (by omega)
      have notPad := digit_ne_pad (c.toNat % 64) (by omega)
      simp only [encode, decode, first, second, third, fourth, notPad, false_and, if_false, ih,
        Option.bind_eq_bind, Option.bind_some]
      rw [byte_ofNat a (by omega), byte_ofNat b (by omega),
        byte_ofNat c (by omega)]

theorem encode_injective : Function.Injective encode := by
  intro left right equal
  have decoded := congrArg decode equal
  rw [decode_encode, decode_encode] at decoded
  exact Option.some.inj decoded

private theorem toNat_ofNat {n : Nat} (small : n < 256) : (UInt8.ofNat n).toNat = n :=
  UInt8.toNat_ofNat_of_lt' small

private theorem encode_decodePadded {w x y : Char} {bytes : Bytes}
    (decoded : decodePadded w x y = some bytes) : encode bytes = [w, x, y, '='] := by
  simp only [decodePadded, Option.bind_eq_bind, Option.bind_eq_some_iff] at decoded
  obtain ⟨p, readP, q, readQ, decoded⟩ := decoded
  obtain ⟨pBound, rfl⟩ := digit_of_value readP
  obtain ⟨qBound, rfl⟩ := digit_of_value readQ
  split at decoded
  next isPad =>
    subst isPad
    split at decoded
    next canonical =>
      cases decoded
      rw [encode, toNat_ofNat (by omega)]
      rw [show (p * 4 + q / 16) / 4 = p by omega,
        show (p * 4 + q / 16) % 4 * 16 = q by omega]
    next => contradiction
  next notPad =>
    obtain ⟨r, readR, finished⟩ := Option.bind_eq_some_iff.mp decoded
    clear decoded
    obtain ⟨rBound, rfl⟩ := digit_of_value readR
    split at finished
    next canonical =>
      cases finished
      rw [encode, toNat_ofNat (by omega), toNat_ofNat (by omega)]
      rw [show (p * 4 + q / 16) / 4 = p by omega,
        show (p * 4 + q / 16) % 4 * 16 + (q % 16 * 16 + r / 4) / 16 = q by omega,
        show (q % 16 * 16 + r / 4) % 16 * 4 = r by omega]
    next => contradiction

/-- Only canonical texts decode: the text is the encoding of its bytes. -/
theorem encode_of_decode {content : Text} {bytes : Bytes}
    (decoded : decode content = some bytes) : encode bytes = content := by
  induction content using decode.induct generalizing bytes with
  | case1 =>
      cases decoded
      rfl
  | case2 w x y z rest padded =>
      rw [decode, if_pos padded] at decoded
      obtain ⟨rfl, rfl⟩ := padded
      exact encode_decodePadded decoded
  | case3 w x y z rest notPadded ih =>
      rw [decode, if_neg notPadded] at decoded
      simp only [Option.bind_eq_bind, Option.bind_eq_some_iff] at decoded
      obtain ⟨p, readP, q, readQ, r, readR, s, readS, tail, tailDecoded, finished⟩ := decoded
      obtain ⟨pBound, rfl⟩ := digit_of_value readP
      obtain ⟨qBound, rfl⟩ := digit_of_value readQ
      obtain ⟨rBound, rfl⟩ := digit_of_value readR
      obtain ⟨sBound, rfl⟩ := digit_of_value readS
      cases finished
      rw [encode, toNat_ofNat (by omega), toNat_ofNat (by omega), toNat_ofNat (by omega),
        ih tailDecoded]
      rw [show (p * 4 + q / 16) / 4 = p by omega,
        show (p * 4 + q / 16) % 4 * 16 + (q % 16 * 16 + r / 4) / 16 = q by omega,
        show (q % 16 * 16 + r / 4) % 16 * 4 + (r % 4 * 64 + s) / 64 = r by omega,
        show (r % 4 * 64 + s) % 64 = s by omega]
  | case4 content notEmpty tooShort =>
      rw [decode] at decoded
      · contradiction
      · exact notEmpty
      · exact tooShort

/-- Four characters for every started group of three bytes. -/
theorem length_encode (bytes : Bytes) :
    (encode bytes).length = 4 * ((bytes.length + 2) / 3) := by
  induction bytes using encode.induct with
  | case1 => rfl
  | case2 a => simp [encode]
  | case3 a b => simp [encode]
  | case4 a b c rest ih =>
      simp only [encode, List.length_cons, ih]
      omega

end ZkLlmGateway.Encoding.Base64
