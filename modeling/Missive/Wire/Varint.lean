import Missive.Fault
import Missive.Power

/-!
# Varints

Integers travel in groups of seven bits, least significant first, each in a byte whose top bit tells
that more follow. Integers are reduced to 64 bits before they are written, so a varint has at most
ten bytes; a reader accepts up to ten bytes, minimal or not, and keeps the low 64 bits.
-/

namespace Missive.Varint

/-- The most bytes that a varint has. -/
def maxBytes : Nat := 10

def write : (limit : Nat) → Nat → Bytes
  | 0, _ => []
  | limit + 1, n =>
    if n < 128 then [UInt8.ofNat n] else UInt8.ofNat (n % 128 + 128) :: write limit (n / 128)

/-- The varint of an integer; negative ones are written as their two's complement. -/
def encode (n : Int) : Bytes := write maxBytes (n % word64).toNat

/-- Reads a number of at most `limit` bytes, and gives what follows it. -/
def read : (limit : Nat) → Bytes → Except Malformed (Nat × Bytes)
  | 0, _ => .error .overlongVarint
  | _ + 1, [] => .error .truncatedVarint
  | limit + 1, b :: rest =>
    if b.toNat < 128 then .ok (b.toNat, rest)
    else
      match read limit rest with
      | .ok (high, rest) => .ok (b.toNat - 128 + 128 * high, rest)
      | .error e => .error e

/-- The 64-bit number at the front of some bytes, and what follows it. -/
def decode (bytes : Bytes) : Except Malformed (Nat × Bytes) :=
  match read maxBytes bytes with
  | .ok (n, rest) => .ok (n % word64, rest)
  | .error e => .error e

end Missive.Varint
