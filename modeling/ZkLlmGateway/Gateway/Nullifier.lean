import ZkLlmGateway.Gateway.Environment

/-!
# Nullifier values and their transitions

A replay key is absent, pending or spent.  The stored value is one status byte
and a big-endian millisecond timestamp.
-/

namespace ZkLlmGateway.Gateway

open ZkLlmGateway.Encoding ZkLlmGateway.Interaction

/-! ## Stored values -/

/-- `b'p'` -/
def pendingStatus : UInt8 := 112

/-- `b's'` -/
def spentStatus : UInt8 := 115

def encodeNullifierValue (status : UInt8) (tsMs : UInt64) : Bytes :=
  status :: toBeBytes 8 tsMs.toNat

def decodeNullifierValue : Bytes → Option (UInt8 × UInt64)
  | [] => none
  | status :: ts => if ts.length = 8 then some (status, .ofNat (fromBeBytes ts)) else none

@[simp]
theorem length_encodeNullifierValue (status : UInt8) (tsMs : UInt64) :
    (encodeNullifierValue status tsMs).length = 9 := by
  simp [encodeNullifierValue]

@[simp]
theorem decodeNullifierValue_encodeNullifierValue (status : UInt8) (tsMs : UInt64) :
    decodeNullifierValue (encodeNullifierValue status tsMs) = some (status, tsMs) := by
  have readBack : fromBeBytes (toBeBytes 8 tsMs.toNat) = tsMs.toNat :=
    fromBeBytes_toBeBytes (by have := tsMs.toNat_lt; omega)
  simp [encodeNullifierValue, decodeNullifierValue, readBack]

theorem encodeNullifierValue_inj {status otherStatus : UInt8} {tsMs otherTsMs : UInt64}
    (equal : encodeNullifierValue status tsMs = encodeNullifierValue otherStatus otherTsMs) :
    status = otherStatus ∧ tsMs = otherTsMs := by
  have decoded := congrArg decodeNullifierValue equal
  simpa using decoded

/-- A value that decodes is the encoding of what it decodes to. -/
theorem encodeNullifierValue_of_decode {value : Bytes} {status : UInt8} {tsMs : UInt64}
    (decoded : decodeNullifierValue value = some (status, tsMs)) :
    value = encodeNullifierValue status tsMs := by
  cases value with
  | nil => contradiction
  | cons first ts =>
      simp only [decodeNullifierValue, Option.ite_none_right_eq_some, Option.some.injEq,
        Prod.mk.injEq] at decoded
      obtain ⟨eight, rfl, rfl⟩ := decoded
      have small : fromBeBytes ts < 2 ^ 64 := by
        have bound := fromBeBytes_lt ts
        rw [eight] at bound
        exact bound
      rw [encodeNullifierValue, UInt64.toNat_ofNat_of_lt' small, ← eight, toBeBytes_fromBeBytes]

/-- `u64::saturating_sub` -/
def saturatingSub (left right : UInt64) : UInt64 :=
  if left < right then 0 else left - right

@[simp]
theorem toNat_saturatingSub (left right : UInt64) :
    (saturatingSub left right).toNat = left.toNat - right.toNat := by
  unfold saturatingSub
  split
  next below =>
    have := UInt64.lt_iff_toNat_lt.mp below
    simp only [UInt64.toNat_zero]
    omega
  next notBelow =>
    exact UInt64.toNat_sub_of_le _ _ (UInt64.not_lt.mp notBelow)

/-- The gateway's staleness test says that the time to live is over. -/
theorem add_lt_of_stale {now ts ttlMs : UInt64} (stale : saturatingSub now ts > ttlMs) :
    ts.toNat + ttlMs.toNat < now.toNat := by
  have past := UInt64.lt_iff_toNat_lt.mp stale
  rw [toNat_saturatingSub] at past
  omega

/-! ## Transitions -/

inductive ReserveError
  | alreadyUsed
  | db
  deriving DecidableEq

/-- Reserve an absent key, or replace a pending value that is stale. -/
def reserveNullifier (rkey pendingVal : Bytes) (pendingTtlMs : UInt64) :
    Handler (Except ReserveError Unit) := do
  -- Fast path: reserve if absent.
  match ← compareAndSwap rkey none (some pendingVal) with
  | .error _ => return .error .db
  | .ok true =>
      match ← flush with
      | .error _ => return .error .db
      | .ok () => return .ok ()
  | .ok false =>
      -- Slow path: check if the existing reservation is stale pending.
      match ← getValue rkey with
      | .error _ => return .error .db
      | .ok none => return .error .alreadyUsed
      | .ok (some val) =>
          match decodeNullifierValue val with
          | none => return .error .alreadyUsed
          | some (status, ts) =>
              if status = pendingStatus then
                let now ← nowMsU64
                if saturatingSub now ts > pendingTtlMs then
                  match ← compareAndSwap rkey (some val) (some pendingVal) with
                  | .error _ => return .error .db
                  | .ok true =>
                      match ← flush with
                      | .error _ => return .error .db
                      | .ok () => return .ok ()
                  | .ok false => return .error .alreadyUsed
                else
                  return .error .alreadyUsed
              else
                return .error .alreadyUsed

/-- Replace this exact pending value by a spent one. -/
def markNullifierSpent (rkey pendingVal spentVal : Bytes) : Handler (Except ReserveError Unit) := do
  match ← compareAndSwap rkey (some pendingVal) (some spentVal) with
  | .error _ => return .error .db
  | .ok false => return .error .db
  | .ok true =>
      match ← flush with
      | .error _ => return .error .db
      | .ok () => return .ok ()

/-- Remove this exact pending value, if it is still stored. -/
def releasePendingNullifier (rkey pendingVal : Bytes) : Handler (Except ReserveError Unit) := do
  match ← compareAndSwap rkey (some pendingVal) none with
  | .error _ => return .error .db
  | .ok false => return .ok ()
  | .ok true =>
      match ← flush with
      | .error _ => return .error .db
      | .ok () => return .ok ()

end ZkLlmGateway.Gateway
