import Missive.Bytes
import Missive.Power

/-!
# Binary64 numbers

A floating-point number is its 64-bit pattern. Everything the program does with one (narrowing to
single precision, comparing, converting from and to integers, reading decimals) is exact arithmetic
on the pattern, so nothing here depends on a machine's floating-point unit.

The central operation is `Format.nearest`: the bit pattern of the number of a format that lies
nearest to a positive ratio, a tie going to the even pattern.
-/

namespace Missive

/-- Divides and rounds to the nearest integer, a tie going to the even one. -/
def divNearestEven (num den : Nat) : Nat :=
  let q := num / den
  let twice := 2 * (num % den)
  if twice < den then q
  else if den < twice then q + 1
  else if q % 2 = 0 then q else q + 1

/-- A binary interchange format: the width of its fraction field, the exponent of the unit in the
last place of its smallest numbers, and the pattern of its infinity. -/
structure Format where
  fraction : Nat
  leastExponent : Int
  infinity : Nat

namespace Format

def double : Format := ⟨52, -1074, 0x7ff0000000000000⟩

def single : Format := ⟨23, -149, 0x7f800000⟩

def scaled (num den : Nat) (q : Int) : Nat :=
  if 0 ≤ q then divNearestEven num (den * pow2 q.toNat)
  else divNearestEven (num * pow2 (-q).toNat) den

/-- The exponent of the unit in the last place at `num / den`. -/
def unitExponent (f : Format) (num den : Nat) : Int :=
  let q : Int := (Nat.log2 num : Int) - (Nat.log2 den : Int) - (f.fraction : Int)
  let small :=
    if 0 ≤ q then num < den * pow2 q.toNat * pow2 f.fraction
    else num * pow2 (-q).toNat < den * pow2 f.fraction
  max (if small then q - 1 else q) f.leastExponent

/-- The pattern (without sign) nearest to `num / den`; patterns from infinity on are infinity. -/
def nearest (f : Format) (num den : Nat) : Nat :=
  if num = 0 then 0
  else
    let q := f.unitExponent num den
    min ((q - f.leastExponent).toNat * pow2 f.fraction + scaled num den q) f.infinity

/-- The magnitude of a finite pattern as `m * 2 ^ q`. -/
def decode (f : Format) (pattern : Nat) : Nat × Int :=
  let biased := pattern / pow2 f.fraction
  let low := pattern % pow2 f.fraction
  if biased = 0 then (low, f.leastExponent)
  else (pow2 f.fraction + low, f.leastExponent + (biased : Int) - 1)

end Format

/-- A double-precision number, given by its bits. -/
structure Binary64 where
  bits : UInt64
  deriving DecidableEq

namespace Binary64

def negative (x : Binary64) : Bool := 0x8000000000000000 ≤ x.bits.toNat

def pattern (x : Binary64) : Nat := x.bits.toNat % 0x8000000000000000

def ofPattern (negative : Bool) (pattern : Nat) : Binary64 :=
  ⟨UInt64.ofNat (pattern + if negative then 0x8000000000000000 else 0)⟩

def isNaN (x : Binary64) : Bool := Format.double.infinity < x.pattern

def isInfinite (x : Binary64) : Bool := x.pattern == Format.double.infinity

def isFinite (x : Binary64) : Bool := x.pattern < Format.double.infinity

def isZero (x : Binary64) : Bool := x.pattern == 0

def zero : Binary64 := ⟨0⟩

/-- The quiet not-a-number with an empty payload. -/
def nan : Binary64 := ⟨0x7ff8000000000000⟩

/-- The magnitude of a finite number as `m * 2 ^ q`. -/
def magnitude (x : Binary64) : Nat × Int := Format.double.decode x.pattern

def ratio (x : Binary64) : Nat × Nat :=
  let (m, q) := x.magnitude
  if 0 ≤ q then (m * pow2 q.toNat, 1) else (m, pow2 (-q).toNat)

/-- The number nearest to a signed ratio; a ratio beyond the largest number gives infinity. -/
def ofRatio (negative : Bool) (num den : Nat) : Binary64 :=
  ofPattern negative (Format.double.nearest num den)

/-- The number nearest to an integer, unless it is too large for a finite one. -/
def ofInt? (i : Int) : Option Binary64 :=
  let x := ofRatio (i < 0) i.natAbs 1
  if x.isFinite then some x else none

def truncate (x : Binary64) : Int :=
  let (num, den) := x.ratio
  if x.negative then -((num / den : Nat) : Int) else ((num / den : Nat) : Int)

/-- Equality of numbers: zeros of either sign are equal, a NaN equals nothing. -/
def equal (x y : Binary64) : Bool :=
  !x.isNaN && !y.isNaN && (x.bits == y.bits || (x.isZero && y.isZero))

def equalInt (x : Binary64) (i : Int) : Bool :=
  x.isFinite && x.truncate == i && x.ratio.1 == x.truncate.natAbs * x.ratio.2

/-- The order of a number and an integer; a NaN has none. -/
def compareInt (x : Binary64) (i : Int) : Option Ordering :=
  if x.isNaN then none
  else if x.isInfinite then some (if x.negative then .lt else .gt)
  else
    let (num, den) := x.ratio
    let signed : Int := if x.negative then -(num : Int) else num
    some (compare signed (i * den))

/-- The number nearest to the sum of a number and an integer. -/
def addInt (x : Binary64) (i : Int) : Binary64 :=
  if !x.isFinite then x
  else
    let (num, den) := x.ratio
    let signed : Int := if x.negative then -(num : Int) else num
    let sum := signed + i * den
    ofRatio (decide (sum < 0)) sum.natAbs den

/-- The single-precision pattern nearest to `x` with its sign. A finite number that rounds beyond
the largest finite one has none. A NaN keeps the top of its payload and becomes quiet. -/
def toSingle? (x : Binary64) : Option Nat :=
  let sign := if x.negative then 0x80000000 else 0
  if x.isNaN then
    some (sign + Format.single.infinity + pow2 22 + x.pattern / pow2 29 % pow2 22)
  else if x.isInfinite then some (sign + Format.single.infinity)
  else
    let (num, den) := x.ratio
    let p := Format.single.nearest num den
    if p < Format.single.infinity then some (sign + p) else none

/-- The number a single-precision pattern stands for. A NaN keeps its payload and becomes quiet. -/
def ofSingle (bits : Nat) : Binary64 :=
  let negative := decide (0x80000000 ≤ bits)
  let p := bits % 0x80000000
  if Format.single.infinity < p then
    ofPattern negative (Format.double.infinity + pow2 51 + p % pow2 22 * pow2 29)
  else if p = Format.single.infinity then ofPattern negative Format.double.infinity
  else
    let (m, q) := Format.single.decode p
    if 0 ≤ q then ofRatio negative (m * pow2 q.toNat) 1 else ofRatio negative m (pow2 (-q).toNat)

/-- The eight little-endian bytes. -/
def toBytes (x : Binary64) : Bytes := Bytes.ofNat 8 x.bits.toNat

/-- The number that eight little-endian bytes spell. -/
def ofBytes (bytes : Bytes) : Binary64 := ⟨UInt64.ofNat bytes.toNat⟩

theorem ofBytes_toBytes (x : Binary64) : ofBytes x.toBytes = x := by
  have h : x.bits.toNat < Nat.pow 256 8 := x.bits.toNat_lt
  simp only [ofBytes, toBytes, Bytes.toNat_ofNat, Nat.mod_eq_of_lt h]
  simp

end Binary64

end Missive
