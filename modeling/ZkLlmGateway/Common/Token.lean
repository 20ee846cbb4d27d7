import ZkLlmGateway.Encoding.Text
import Mathlib.Data.List.DropRight

/-!
# Token classes and fixed-size plaintexts

A request is forced into one of five coarse budget classes.  The class fixes
the prompt limit, the completion cap and the size to which a plaintext is
padded before it is encrypted.
-/

namespace ZkLlmGateway.Common

open ZkLlmGateway.Encoding

/-- A coarse-grained token budget class. -/
inductive TokenClass
  | c256
  | c512
  | c1024
  | c2048
  | c4096
  deriving DecidableEq, Repr

namespace TokenClass

/-- Limit on the prompt, in bytes after JSON serialization. -/
def maxPromptBytes : TokenClass → Nat
  | c256 => 2 * 1024
  | c512 => 4 * 1024
  | c1024 => 8 * 1024
  | c2048 => 16 * 1024
  | c4096 => 32 * 1024

/-- Upper bound on completion tokens that the gateway will allow. -/
def maxCompletionTokens : TokenClass → Nat
  | c256 => 256
  | c512 => 512
  | c1024 => 1024
  | c2048 => 2048
  | c4096 => 4096

/-- Target plaintext size before encryption, request side. -/
def envelopeRequestPlaintextBytes : TokenClass → Nat
  | c256 => 8 * 1024
  | c512 => 12 * 1024
  | c1024 => 20 * 1024
  | c2048 => 36 * 1024
  | c4096 => 68 * 1024

/-- Target plaintext size before encryption, response side. -/
def envelopeResponsePlaintextBytes : TokenClass → Nat
  | c256 => 8 * 1024
  | c512 => 16 * 1024
  | c1024 => 32 * 1024
  | c2048 => 64 * 1024
  | c4096 => 128 * 1024

/-- The byte that stands for the class in key derivation and associated data. -/
def idU8 : TokenClass → UInt8
  | c256 => 1
  | c512 => 2
  | c1024 => 3
  | c2048 => 4
  | c4096 => 5

/-- The serialized name. -/
def serdeName : TokenClass → Text
  | c256 => text "c256"
  | c512 => text "c512"
  | c1024 => text "c1024"
  | c2048 => text "c2048"
  | c4096 => text "c4096"

theorem idU8_injective : Function.Injective idU8 := by
  intro left right equal
  cases left <;> cases right <;> first | rfl | contradiction

end TokenClass

/-- Why a payload cannot be padded. -/
inductive PaddingError
  | tooLarge (len max : Nat)
  deriving DecidableEq

/-- Pad with zero bytes to a fixed length. -/
def padToLen (data : Bytes) (targetLen : Nat) : Except PaddingError Bytes :=
  if targetLen < data.length then
    .error (.tooLarge data.length targetLen)
  else
    .ok (data ++ List.replicate (targetLen - data.length) 0)

/-- Remove trailing zero padding. -/
def trimZeroPadding (data : Bytes) : Bytes :=
  data.rdropWhile (· == 0)

theorem padToLen_eq_ok_iff {data padded : Bytes} {targetLen : Nat} :
    padToLen data targetLen = .ok padded ↔
      data.length ≤ targetLen ∧
        padded = data ++ List.replicate (targetLen - data.length) 0 := by
  unfold padToLen
  split
  next tooLong =>
    constructor
    · intro failed
      contradiction
    · rintro ⟨fits, _⟩
      omega
  next fits =>
    simp only [Except.ok.injEq, Nat.le_of_not_lt fits, true_and]
    exact eq_comm

@[simp]
theorem length_of_padToLen {data padded : Bytes} {targetLen : Nat}
    (isPadded : padToLen data targetLen = .ok padded) : padded.length = targetLen := by
  obtain ⟨fits, rfl⟩ := padToLen_eq_ok_iff.mp isPadded
  simp only [List.length_append, List.length_replicate]
  omega

/-- Appending zeros does not change what trimming leaves. -/
theorem trimZeroPadding_append_zeros (data : Bytes) (count : Nat) :
    trimZeroPadding (data ++ List.replicate count 0) = trimZeroPadding data := by
  induction count with
  | zero => simp
  | succ count ih =>
      rw [List.replicate_succ', ← List.append_assoc, trimZeroPadding,
        List.rdropWhile_concat_pos _ _ _ (by decide)]
      exact ih

/-- A document whose last byte is not zero is left as it is. -/
theorem trimZeroPadding_concat {data : Bytes} {last : UInt8} (nonzero : last ≠ 0) :
    trimZeroPadding (data ++ [last]) = data ++ [last] := by
  rw [trimZeroPadding, List.rdropWhile_concat_neg _ _ _ (by simpa using nonzero)]

/-- Padding is trimmed with the zeros that the data ends with. -/
theorem trimZeroPadding_of_padToLen {data padded : Bytes} {targetLen : Nat}
    (isPadded : padToLen data targetLen = .ok padded) :
    trimZeroPadding padded = trimZeroPadding data := by
  obtain ⟨_, rfl⟩ := padToLen_eq_ok_iff.mp isPadded
  exact trimZeroPadding_append_zeros data _

end ZkLlmGateway.Common
