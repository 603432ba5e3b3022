/-!
# Byte strings

Serialized messages are lists of bytes: a list is what a proof can take apart, and the edges of the
program convert. The two little-endian conversions are the ones fixed-width fields use.
-/

namespace Missive

/-- A byte string. -/
abbrev Bytes := List UInt8

namespace Bytes

/-- The low `width` bytes of a natural number, least significant first. -/
def ofNat : (width : Nat) → Nat → Bytes
  | 0, _ => []
  | width + 1, n => UInt8.ofNat (n % 256) :: ofNat width (n / 256)

/-- The natural number that little-endian bytes spell. -/
def toNat : Bytes → Nat
  | [] => 0
  | b :: rest => b.toNat + 256 * toNat rest

/-- Splits off the first `n` bytes, when there are that many. -/
def take? (n : Nat) (bytes : Bytes) : Option (Bytes × Bytes) :=
  if n ≤ bytes.length then some (bytes.take n, bytes.drop n) else none

def consumed (before after : Bytes) : Bytes :=
  before.take (before.length - after.length)

@[simp] theorem length_ofNat (width n : Nat) : (ofNat width n).length = width := by
  induction width generalizing n with
  | zero => rfl
  | succ width ih => simp [ofNat, ih]

/-- Little-endian bytes read back as the number, reduced to the width they hold. -/
theorem toNat_ofNat (width n : Nat) : toNat (ofNat width n) = n % Nat.pow 256 width := by
  induction width generalizing n with
  | zero => exact (Nat.mod_one n).symm
  | succ width ih =>
    have byte : (UInt8.ofNat (n % 256)).toNat = n % 256 := by simp
    have wider : Nat.pow 256 (width + 1) = 256 * Nat.pow 256 width := Nat.mul_comm _ _
    rw [ofNat, toNat, ih, byte, wider, Nat.mod_mul]

@[simp] theorem take?_append {front rest : Bytes} {n : Nat} (width : front.length = n) :
    take? n (front ++ rest) = some (front, rest) := by
  subst width
  simp [take?]

@[simp] theorem consumed_append (front rest : Bytes) : consumed (front ++ rest) rest = front := by
  simp [consumed]

end Bytes

end Missive
