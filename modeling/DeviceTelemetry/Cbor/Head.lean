import DeviceTelemetry.Bytes

/-!
# Heads of CBOR items

Every CBOR item starts with a head: a major type and an argument. The head takes the shortest of
the five forms, which are one, two, three, five and nine bytes long.
-/

set_option autoImplicit false

namespace DeviceTelemetry.Cbor

inductive Major where
  | unsigned
  | negative
  | text
  | array
  | map
deriving DecidableEq, Repr

def Major.code : Major → Nat
  | .unsigned => 0
  | .negative => 1
  | .text => 3
  | .array => 4
  | .map => 5

/-- The low `width` bytes of a number, high byte first. -/
def bigEndian : Nat → Nat → Bytes
  | 0, _ => []
  | width + 1, n => bigEndian width (n / 256) ++ [UInt8.ofNat n]

@[simp] theorem length_bigEndian (width n : Nat) : (bigEndian width n).length = width := by
  induction width generalizing n with
  | zero => rfl
  | succ width ih => simp [bigEndian, ih]

/-- The shortest head with argument `n`, for `n` below `2 ^ 64`. -/
def head (major : Major) (n : Nat) : Bytes :=
  let first (low : Nat) := UInt8.ofNat (32 * major.code + low)
  if n < 24 then [first n]
  else if n < 0x100 then first 24 :: bigEndian 1 n
  else if n < 0x10000 then first 25 :: bigEndian 2 n
  else if n < 0x100000000 then first 26 :: bigEndian 4 n
  else first 27 :: bigEndian 8 n

def headSize (n : Nat) : Nat :=
  if n < 24 then 1
  else if n < 0x100 then 2
  else if n < 0x10000 then 3
  else if n < 0x100000000 then 5
  else 9

@[simp] theorem length_head (major : Major) (n : Nat) : (head major n).length = headSize n := by
  simp only [head, headSize]
  repeat' split
  all_goals simp

theorem headSize_pos (n : Nat) : 0 < headSize n := by
  simp only [headSize]
  repeat' split
  all_goals omega

theorem headSize_le (n : Nat) : headSize n ≤ 9 := by
  simp only [headSize]
  repeat' split
  all_goals omega

theorem headSize_mono {m n : Nat} (h : m ≤ n) : headSize m ≤ headSize n := by
  simp only [headSize]
  repeat' split
  all_goals omega

def arrayHead (n : Nat) : Bytes := head .array n

end DeviceTelemetry.Cbor
