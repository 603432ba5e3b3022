import Missive.Binary64

/-!
# Shortest decimals

The text of a floating-point number uses the fewest digits that read back as the same number; of
several such digit strings, the one nearest to it. `shortest?` finds them by trying grids of 1 to 17
digits: on each grid only the two neighbours of the number can qualify, and whether one reads back
is an exact comparison with the ends of the rounding interval.

`DigitLayout` records how the digits are laid out.
-/

namespace Missive.Decimal

/-- The power of ten of the leading digit of a positive ratio. The argument bounds the search for
ratios below one. -/
def leadingPower (num den : Nat) : Int :=
  if den ≤ num then (((Nat.toDigits 10 (num / den)).length - 1 : Nat) : Int)
  else below 400 1
where
  /-- The first `k` for which `num * 10 ^ k` reaches `den`. -/
  below : Nat → Nat → Int
    | 0, k => -(k : Int)
    | fuel + 1, k => if den ≤ num * pow10 k then -(k : Int) else below fuel (k + 1)

/-- The interval of ratios that round to `m * 2 ^ q`, in units of `2 ^ (q - 2)`: its two ends. -/
def roundingEnds (m : Nat) (q : Int) : Nat × Nat :=
  let lower := if m = pow2 52 ∧ Format.double.leastExponent < q then 4 * m - 1 else 4 * m - 2
  (lower, 4 * m + 2)

def scale2 (num den : Nat) (q : Int) : Nat × Nat :=
  if 0 ≤ q then (num * pow2 q.toNat, den) else (num, den * pow2 (-q).toNat)

def scale10 (num den : Nat) (e : Int) : Nat × Nat :=
  if 0 ≤ e then (num * pow10 e.toNat, den) else (num, den * pow10 (-e).toNat)

/-- Does `d * 10 ^ e` read back as `m * 2 ^ q`? The ends of the interval belong to it if `m` is
even. -/
def readsBack (m : Nat) (q : Int) (d : Nat) (e : Int) : Bool :=
  let (low, high) := roundingEnds m q
  let (a, b) := scale10 d 1 e
  let (ln, ld) := scale2 low 1 (q - 2)
  let (hn, hd) := scale2 high 1 (q - 2)
  if m % 2 = 0 then decide (ln * b ≤ a * ld) && decide (a * hd ≤ hn * b)
  else decide (ln * b < a * ld) && decide (a * hd < hn * b)

/-- The shortest digits of `m * 2 ^ q` on the grid of `n` digits, with the power of ten of the last
digit. Between two candidates the nearer wins, then the even one. -/
def onGrid? (m : Nat) (q : Int) (n : Nat) : Option (Nat × Int) :=
  let (num, den) := scale2 m 1 q
  let e := leadingPower num den - (n : Int) + 1
  let (a, b) := scale10 num den (-e)
  let d := a / b
  match readsBack m q d e, readsBack m q (d + 1) e with
  | true, false => some (d, e)
  | false, true => some (d + 1, e)
  | false, false => none
  | true, true =>
    let rest := 2 * (a % b)
    if rest < b then some (d, e)
    else if b < rest then some (d + 1, e)
    else if d % 2 = 0 then some (d, e) else some (d + 1, e)

def shortest? (x : Binary64) : Option (Nat × Int) :=
  let (m, q) := x.magnitude
  (List.range 17).findSome? fun k => onGrid? m q (k + 1)

def trimZeros : Nat → Nat → Int → Nat × Int
  | 0, d, e => (d, e)
  | fuel + 1, d, e => if d % 10 = 0 ∧ d ≠ 0 then trimZeros fuel (d / 10) (e + 1) else (d, e)

/-- How the digits of a number are laid out: leading powers from `least` up to below `beyond` are
written positionally, all others with an exponent of at least `exponentWidth` digits. -/
structure DigitLayout where
  least : Int
  beyond : Int
  exponentWidth : Nat

def DigitLayout.exponent (f : DigitLayout) (e : Int) : String :=
  let digits := toString e.natAbs
  let pad := String.ofList (List.replicate (f.exponentWidth - digits.length) '0')
  (if e < 0 then "e-" else "e+") ++ pad ++ digits

/-- Lays out the digits `d`, the last of which counts tens to the power `e`. -/
def DigitLayout.layout (f : DigitLayout) (d : Nat) (e : Int) : String :=
  let digits := Nat.toDigits 10 d
  let leading := e + (digits.length : Int) - 1
  if f.least ≤ leading ∧ leading < f.beyond then
    if 0 ≤ e then String.ofList (digits ++ List.replicate e.toNat '0') ++ ".0"
    else if leading < 0 then
      "0." ++ String.ofList (List.replicate (-leading - 1).toNat '0' ++ digits)
    else
      String.ofList (digits.take (leading + 1).toNat) ++ "."
        ++ String.ofList (digits.drop (leading + 1).toNat)
  else
    match digits with
    | [] => ""
    | first :: rest =>
      let point := if rest.isEmpty then "" else "." ++ String.ofList rest
      first.toString ++ point ++ f.exponent leading

def DigitLayout.text (f : DigitLayout) (x : Binary64) : String :=
  if x.isNaN then "nan"
  else
    let sign := if x.negative then "-" else ""
    if x.isInfinite then sign ++ "inf"
    else
      match shortest? x with
      | none => sign ++ "0.0"
      | some (d, e) =>
        let (d, e) := trimZeros 20 d e
        if d = 0 then sign ++ "0.0" else sign ++ f.layout d e

end Missive.Decimal
