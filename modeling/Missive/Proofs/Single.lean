import Mathlib
import Missive.Binary64

/-!
# Single precision survives widening

A number of single precision is widened to double precision when it is read and narrowed again when
it is written.  Both go through `Format.nearest`, which rounds a ratio.  The ratios that occur are of
the form `m * 2 ^ q`, and on those nothing is rounded: `nearest_form` gives the pattern in closed
form, from the position of the leading bit of `m` alone.

`exists_toSingle?` is what fields of single precision need: the widened number narrows to a pattern
that widens to it again.
-/

namespace Missive

open Nat

variable {m pattern p : Nat} {q : Int} {negative : Bool}

lemma pow2_eq (n : Nat) : pow2 n = 2 ^ n := rfl

/-- The number `m * 2 ^ q` as a ratio of natural numbers. -/
def formOf (m : Nat) (q : Int) : Nat × Nat :=
  if 0 ≤ q then (m * pow2 q.toNat, 1) else (m, pow2 (-q).toNat)

/-- A division without remainder is not rounded. -/
lemma divNearestEven_mul (a : Nat) {b : Nat} (positive : 0 < b) : divNearestEven (a * b) b = a := by
  simp [divNearestEven, Nat.mul_div_cancel a positive, positive]

lemma log2_mul_two_pow (positive : 0 < m) (k : Nat) :
    Nat.log2 (m * 2 ^ k) = Nat.log2 m + k := by
  induction k with
  | zero => simp
  | succ k ih =>
    have nonzero : m * 2 ^ k ≠ 0 := mul_ne_zero (by omega) (by simp)
    rw [pow_succ, ← mul_assoc, mul_comm _ 2, log2_two_mul nonzero, ih]
    omega

/-- Both parts of the ratio are powers of two times a factor, of which one is trivial. -/
lemma formOf_eq (m : Nat) (q : Int) : formOf m q = (m * 2 ^ q.toNat, 2 ^ (-q).toNat) := by
  unfold formOf
  split
  · rw [show (-q).toNat = 0 by omega]; rfl
  · rw [show q.toNat = 0 by omega, pow_zero, mul_one]; rfl

namespace Format

/-- The exponent of the last place at `m * 2 ^ q` depends only on where its leading bit is. -/
lemma unitExponent_form (f : Format) (positive : 0 < m) (q : Int) :
    f.unitExponent (formOf m q).1 (formOf m q).2 = max ((Nat.log2 m : Int) + q - f.fraction) f.leastExponent := by
  have leading : 2 ^ Nat.log2 m ≤ m := log2_self_le (by omega)
  simp only [formOf_eq, unitExponent, pow2_eq, log2_mul_two_pow positive, log2_two_pow]
  -- The exponent sought is the difference of the leading bits; the test never moves it.
  generalize exponent : ((Nat.log2 m + q.toNat : Nat) : Int) - ((-q).toNat : Int) - f.fraction = e
  have exact_ : ¬ (if 0 ≤ e then m * 2 ^ q.toNat < 2 ^ (-q).toNat * 2 ^ e.toNat * 2 ^ f.fraction
      else m * 2 ^ q.toNat * 2 ^ (-e).toNat < 2 ^ (-q).toNat * 2 ^ f.fraction) := by
    split
    · rw [not_lt, ← pow_add, ← pow_add,
        show (-q).toNat + e.toNat + f.fraction = Nat.log2 m + q.toNat by omega, pow_add]
      exact mul_le_mul_right _ leading
    · rw [not_lt, mul_assoc, ← pow_add, ← pow_add,
        show (-q).toNat + f.fraction = Nat.log2 m + (q.toNat + (-e).toNat) by omega, pow_add]
      exact mul_le_mul_right _ leading
  rw [if_neg exact_, ← exponent]
  congr 1
  omega

/-- In units of `2 ^ v`, the number `m * 2 ^ q` is a whole number if `v ≤ q`. It does not matter how
far the factor is shifted into the exponent. -/
lemma scaled_form (m k : Nat) {v : Int} (le : v ≤ q) :
    scaled (formOf (m * 2 ^ k) (q - k)).1 (formOf (m * 2 ^ k) (q - k)).2 v = m * 2 ^ (q - v).toNat := by
  have both : ∀ n d, scaled n d v = divNearestEven (n * 2 ^ (-v).toNat) (d * 2 ^ v.toNat) := by
    intro n d
    unfold scaled
    split
    · rw [show (-v).toNat = 0 by omega, pow_zero, mul_one]; rfl
    · rw [show v.toNat = 0 by omega, pow_zero, mul_one]; rfl
  rw [both, formOf_eq]
  dsimp only
  rw [show m * 2 ^ k * 2 ^ (q - k).toNat * 2 ^ (-v).toNat
      = m * 2 ^ (q - v).toNat * (2 ^ (-(q - k : Int)).toNat * 2 ^ v.toNat) by
    simp only [mul_assoc, ← pow_add]; congr 2; omega]
  exact divNearestEven_mul _ (by simp)

/-- The exponent of the last place of `m * 2 ^ q` in a format. -/
def lastPlace (f : Format) (m : Nat) (q : Int) : Int :=
  max ((Nat.log2 m : Int) + q - f.fraction) f.leastExponent

lemma lastPlace_le {f : Format} (fits : Nat.log2 m ≤ f.fraction) (least : f.leastExponent ≤ q) :
    f.lastPlace m q ≤ q := by
  unfold lastPlace
  omega

/-- **Nothing is rounded.**  The pattern of a number that fits into a format, in closed form. -/
lemma nearest_form (f : Format) (positive : 0 < m) (k : Nat) (fits : Nat.log2 m ≤ f.fraction)
    (least : f.leastExponent ≤ q) :
    f.nearest (formOf (m * 2 ^ k) (q - k)).1 (formOf (m * 2 ^ k) (q - k)).2
      = min ((f.lastPlace m q - f.leastExponent).toNat * 2 ^ f.fraction
          + m * 2 ^ (q - f.lastPlace m q).toNat) f.infinity := by
  have shifted : 0 < m * 2 ^ k := mul_pos positive (by simp)
  have nonzero : (formOf (m * 2 ^ k) (q - k)).1 ≠ 0 := by
    rw [formOf_eq]
    exact ne_of_gt (mul_pos shifted (by simp))
  have unit : f.unitExponent (formOf (m * 2 ^ k) (q - k)).1 (formOf (m * 2 ^ k) (q - k)).2 = f.lastPlace m q := by
    rw [unitExponent_form f shifted, log2_mul_two_pow positive, lastPlace]
    congr 1
    push_cast
    omega
  simp only [nearest, if_neg nonzero, unit, pow2_eq]
  rw [scaled_form m k (lastPlace_le fits least)]

/-- The parts of a pattern that is a whole number of last places. -/
lemma decode_nearest {f : Format} (positive : 0 < m) (fits : Nat.log2 m ≤ f.fraction) (least : f.leastExponent ≤ q) :
    f.decode ((f.lastPlace m q - f.leastExponent).toNat * 2 ^ f.fraction + m * 2 ^ (q - f.lastPlace m q).toNat)
      = (m * 2 ^ (q - f.lastPlace m q).toNat, f.lastPlace m q) := by
  have nonzero : m * 2 ^ (q - f.lastPlace m q).toNat ≠ 0 :=
    ne_of_gt (mul_pos positive (by simp))
  have leading : Nat.log2 (m * 2 ^ (q - f.lastPlace m q).toNat)
      = Nat.log2 m + (q - f.lastPlace m q).toNat := log2_mul_two_pow positive _
  have le := lastPlace_le fits least
  generalize count : m * 2 ^ (q - f.lastPlace m q).toNat = s at nonzero leading ⊢
  have above : s < 2 ^ (Nat.log2 s + 1) := lt_log2_self
  have below : 2 ^ Nat.log2 s ≤ s := log2_self_le nonzero
  have power : 0 < 2 ^ f.fraction := by simp
  unfold decode
  rw [pow2_eq]
  by_cases normal : f.leastExponent ≤ (Nat.log2 m : Int) + q - f.fraction
  · -- The leading bit is the implicit one, and counts up the exponent field by one.
    have place : f.lastPlace m q = (Nat.log2 m : Int) + q - f.fraction := by unfold lastPlace; omega
    have top : Nat.log2 s = f.fraction := by omega
    rw [top] at above below
    rw [pow_succ] at above
    have biased : ((f.lastPlace m q - f.leastExponent).toNat * 2 ^ f.fraction + s) / 2 ^ f.fraction
        = (f.lastPlace m q - f.leastExponent).toNat + 1 := by
      rw [Nat.add_comm, Nat.add_mul_div_right _ _ power, Nat.div_eq_of_lt_le (k := 1) (by omega) (by omega)]
      omega
    have low : ((f.lastPlace m q - f.leastExponent).toNat * 2 ^ f.fraction + s) % 2 ^ f.fraction
        = s - 2 ^ f.fraction := by
      rw [add_comm, add_mul_mod_self_right, mod_eq_sub_mod below, mod_eq_of_lt (by omega)]
    simp only [biased, low]
    rw [if_neg (by omega)]
    refine Prod.ext ?_ ?_
    · exact Nat.add_sub_cancel' below
    · change f.leastExponent + ((f.lastPlace m q - f.leastExponent).toNat + 1 : Nat) - 1 = _
      omega
  · have place : f.lastPlace m q = f.leastExponent := by unfold lastPlace; omega
    have small : s < 2 ^ f.fraction :=
      Nat.lt_of_lt_of_le above (Nat.pow_le_pow_right (by omega) (by omega))
    simp [place, div_eq_of_lt small, mod_eq_of_lt small]

end Format

namespace Binary64

/-- Is a number one of single precision? -/
def IsSingle (x : Binary64) : Prop := ∃ bits, bits < word32 ∧ ofSingle bits = x

section

variable (bound : pattern < 0x8000000000000000)

include bound

lemma toNat_ofPattern :
    (ofPattern negative pattern).bits.toNat = pattern + if negative then 0x8000000000000000 else 0 := by
  cases negative
  · simp [ofPattern]
    omega
  · simp [ofPattern]
    omega

lemma pattern_ofPattern :
    (ofPattern negative pattern).pattern = pattern := by
  rw [Binary64.pattern, toNat_ofPattern bound]
  cases negative <;> simp <;> omega

lemma negative_ofPattern :
    (ofPattern negative pattern).negative = negative := by
  rw [Binary64.negative, toNat_ofPattern bound]
  cases negative <;> simp
  omega

end

/-- The sign of a single-precision pattern. -/
def singleSign (negative : Bool) : Nat := if negative then 0x80000000 else 0

lemma decide_singleSign (small : p < 0x80000000) :
    decide (0x80000000 ≤ singleSign negative + p) = negative := by
  cases negative <;> simp [singleSign]
  omega

lemma singleSign_mod (small : p < 0x80000000) :
    (singleSign negative + p) % 0x80000000 = p := by
  cases negative <;> simp [singleSign] <;> omega

/-- The parts of a finite single-precision pattern, and the pattern put together from them. -/
lemma decode_single (finite : p < Format.single.infinity) (parts : Format.single.decode p = (m, q)) :
    (0 < m ∧ Nat.log2 m ≤ 23 ∧ -149 ≤ q ∧ q ≤ 104 ∧ (Format.single.lastPlace m q + 149).toNat * 2 ^ 23
          + m * 2 ^ (q - Format.single.lastPlace m q).toNat = p) ∨ (m = 0 ∧ p = 0) := by
  have infinity : p < 0x7f800000 := finite
  have split : (if p / 2 ^ 23 = 0 then (p % 2 ^ 23, (-149 : Int))
      else (2 ^ 23 + p % 2 ^ 23, -149 + ((p / 2 ^ 23 : Nat) : Int) - 1)) = (m, q) := parts
  by_cases subnormal : p / 2 ^ 23 = 0
  · rw [if_pos subnormal] at split
    obtain ⟨rfl, rfl⟩ := Prod.mk.inj split
    have small : p < 2 ^ 23 := by omega
    rw [mod_eq_of_lt small]
    by_cases zero : p = 0
    · exact .inr ⟨zero, zero⟩
    have leading : Nat.log2 p ≤ 22 := le_of_lt_succ ((log2_lt zero).2 small)
    have place : Format.single.lastPlace p (-149) = -149 := by
      simp only [Format.lastPlace, Format.single]; omega
    refine .inl ⟨by omega, by omega, by omega, by omega, ?_⟩
    simp [place]
  · rw [if_neg subnormal] at split
    obtain ⟨rfl, rfl⟩ := Prod.mk.inj split
    have leading : Nat.log2 (2 ^ 23 + p % 2 ^ 23) = 23 := by
      rw [log2_eq_iff (by omega)]
      omega
    have place : Format.single.lastPlace (2 ^ 23 + p % 2 ^ 23) (-149 + ((p / 2 ^ 23 : Nat) : Int) - 1)
        = -149 + ((p / 2 ^ 23 : Nat) : Int) - 1 := by
      simp only [Format.lastPlace, Format.single, leading]; omega
    refine .inl ⟨by omega, by omega, by omega, by omega, ?_⟩
    rw [place, Int.sub_self]
    simp only [Int.toNat_zero, pow_zero, mul_one]
    omega

/-- A number that was widened is narrowed without rounding. -/
lemma nearest_ratio {wide : Nat} (positive : 0 < m) (leading : Nat.log2 m ≤ 23) (lower : -149 ≤ q)
    (upper : q ≤ 104) (finite : p < Format.single.infinity)
    (back : (Format.single.lastPlace m q + 149).toNat * 2 ^ 23 + m * 2 ^ (q - Format.single.lastPlace m q).toNat = p)
    (widened : Format.double.nearest (formOf m q).1 (formOf m q).2 = wide) :
    wide < Format.double.infinity ∧
      Format.single.nearest (ofPattern negative wide).ratio.1 (ofPattern negative wide).ratio.2 = p := by
  have place : Format.double.lastPlace m q = (Nat.log2 m : Int) + q - 52 := by
    simp only [Format.lastPlace, Format.double]; omega
  obtain ⟨shift, shiftIs⟩ : ∃ shift : Nat, q - Format.double.lastPlace m q = shift :=
    ⟨(52 - Nat.log2 m), by omega⟩
  have bound : m * 2 ^ shift < 2 ^ 53 := by
    have : Nat.log2 (m * 2 ^ shift) = 52 := by rw [log2_mul_two_pow positive]; omega
    simpa [this] using lt_log2_self (n := m * 2 ^ shift)
  -- Double precision has room for both the factor and the exponent.
  have closed := Format.nearest_form Format.double positive 0 (q := q)
    (by simp only [Format.double]; omega) (by simp only [Format.double]; omega)
  have parts := Format.decode_nearest (f := Format.double) positive (q := q)
    (by simp only [Format.double]; omega) (by simp only [Format.double]; omega)
  have small : (Format.double.lastPlace m q - Format.double.leastExponent).toNat * 2 ^ Format.double.fraction
      + m * 2 ^ (q - Format.double.lastPlace m q).toNat < Format.double.infinity := by
    rw [shiftIs, Int.toNat_natCast, place]
    simp only [Format.double]
    omega
  rw [pow_zero, mul_one, cast_zero, Int.sub_zero, widened, min_eq_left (le_of_lt small)] at closed
  rw [← closed] at parts
  have finiteWide : wide < Format.double.infinity := by rw [closed]; exact small
  refine ⟨finiteWide, ?_⟩
  have pattern : (ofPattern negative wide).pattern = wide :=
    pattern_ofPattern (lt_trans finiteWide (by decide))
  have ratio : (ofPattern negative wide).ratio = formOf (m * 2 ^ shift) (q - shift) := by
    rw [Binary64.ratio, magnitude, pattern, parts, shiftIs, Int.toNat_natCast,
      show q - (shift : Int) = Format.double.lastPlace m q by omega]
    rfl
  rw [ratio, Format.nearest_form Format.single positive shift leading lower, ← back]
  exact min_eq_left (le_of_lt (back ▸ finite))

/-- A finite number of single precision narrows to the pattern it was widened from. -/
lemma toSingle?_ofSingle (finite : p < Format.single.infinity) :
    toSingle? (ofSingle (singleSign negative + p)) = some (singleSign negative + p) := by
  have small : p < 0x80000000 := lt_trans finite (by decide)
  have infinity : p < 0x7f800000 := finite
  obtain ⟨⟨m, q⟩, parts⟩ : ∃ parts, Format.single.decode p = parts := ⟨_, rfl⟩
  obtain ⟨wide, wideIs⟩ : ∃ wide, Format.double.nearest (formOf m q).1 (formOf m q).2 = wide :=
    ⟨_, rfl⟩
  have widened : ofSingle (singleSign negative + p) = ofPattern negative wide := by
    simp only [ofSingle, decide_singleSign small, singleSign_mod small, parts]
    rw [if_neg (by omega), if_neg (by omega), ← wideIs]
    unfold ofRatio formOf
    split <;> rfl
  have narrow : wide < Format.double.infinity ∧
      Format.single.nearest (ofPattern negative wide).ratio.1 (ofPattern negative wide).ratio.2 = p := by
    rcases decode_single finite parts with ⟨positive, leading, lower, upper, back⟩ | ⟨rfl, rfl⟩
    · exact nearest_ratio positive leading lower upper finite back wideIs
    · have zero : wide = 0 := by
        rw [← wideIs]
        unfold formOf
        split <;> simp [Format.nearest]
      subst zero
      cases negative <;> decide
  have bound : wide < 0x8000000000000000 := lt_trans narrow.1 (by decide)
  have number : ¬ (ofPattern negative wide).isNaN = true := by
    simpa [isNaN, pattern_ofPattern bound] using le_of_lt narrow.1
  have bounded : ¬ (ofPattern negative wide).isInfinite = true := by
    simpa [isInfinite, pattern_ofPattern bound] using Nat.ne_of_lt narrow.1
  rw [widened, toSingle?, if_neg number, if_neg bounded, negative_ofPattern bound]
  simp only [narrow.2, if_pos finite]
  rfl

/-- A not-a-number keeps the low bits of its payload when it is widened. -/
lemma ofSingle_nan (special : Format.single.infinity < p) (small : p < 0x80000000) :
    ofSingle (singleSign negative + p) = ofPattern negative (0x7ff8000000000000 + p % 2 ^ 22 * 2 ^ 29) := by
  simp only [ofSingle, decide_singleSign small, singleSign_mod small]
  rw [if_pos special]
  rfl

/-- A widened not-a-number keeps its payload when it is narrowed. -/
lemma toSingle?_nan (negative : Bool) {payload : Nat} (small : payload < 2 ^ 22) :
    toSingle? (ofPattern negative (0x7ff8000000000000 + payload * 2 ^ 29))
      = some (singleSign negative + (0x7f800000 + 2 ^ 22 + payload)) := by
  have bound : 0x7ff8000000000000 + payload * 2 ^ 29 < 0x8000000000000000 := by omega
  have nan : (ofPattern negative (0x7ff8000000000000 + payload * 2 ^ 29)).isNaN = true := by
    rw [isNaN, pattern_ofPattern bound, decide_eq_true_eq]
    simp only [Format.double]
    omega
  rw [toSingle?, if_pos nan, negative_ofPattern bound, pattern_ofPattern bound]
  simp only [Format.single, pow2_eq, singleSign]
  congr 1
  omega

/-- **Narrowing undoes widening.**  A number of single precision, not-a-numbers included, narrows to
a pattern that it is widened from. -/
lemma exists_toSingle? {x : Binary64} (single : x.IsSingle) :
    ∃ bits, x.toSingle? = some bits ∧ bits < word32 ∧ ofSingle bits = x := by
  obtain ⟨bits, bound, rfl⟩ := single
  have fits : bits < 4294967296 := bound
  obtain ⟨negative, p, small, rfl⟩ :
      ∃ negative p, p < 0x80000000 ∧ bits = singleSign negative + p := by
    by_cases sign : 0x80000000 ≤ bits
    · exact ⟨true, bits - 0x80000000, by omega, by simp [singleSign]; omega⟩
    · exact ⟨false, bits, by omega, by simp [singleSign]⟩
  rcases lt_trichotomy p Format.single.infinity with finite | rfl | special
  · exact ⟨_, toSingle?_ofSingle finite, bound, rfl⟩
  · refine ⟨_, ?_, bound, rfl⟩
    cases negative <;> decide
  · refine ⟨singleSign negative + (0x7f800000 + 2 ^ 22 + p % 2 ^ 22), ?_, ?_, ?_⟩
    · rw [ofSingle_nan special small]
      exact toSingle?_nan negative (mod_lt _ (by simp))
    · cases negative <;> simp [singleSign, word32] <;> omega
    · rw [ofSingle_nan special small, ofSingle_nan (by simp only [Format.single]; omega) (by omega)]
      congr 3
      omega

end Binary64

end Missive
