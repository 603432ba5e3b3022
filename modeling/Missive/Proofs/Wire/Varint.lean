import Mathlib
import Missive.Wire.Varint

/-!
# Varints read back

Three facts carry everything that is read from the wire.

**Reading undoes writing.**  `decode_encode` reads a written integer back as its residue modulo the
word, whatever bytes follow it.

**Any spelling will do.**  `Spells` says which bytes stand for a number, the shortest ones or not, and
without any reading: `decode_eq_ok_iff` says that reading takes just these.

**Reading takes a prefix.**  `decode_split` says that a successful reading took some bytes off the
front, at least one, and that the same bytes give the same number in front of anything else.  Progress
of every loop over serialized data, and the fact that no reading depends on what it has not reached,
come down to it.

`decodeAt_encode` sums up what this means for numbers at any place among other bytes, and adds that no
spelling of a number is shorter than the one that is written.
-/

namespace Missive.Varint

open List Nat

variable {limit n : Nat} {bytes rest : Bytes}

lemma write_ne_nil (limit n : Nat) : write (limit + 1) n ≠ [] := by
  rw [write]
  split <;> simp

lemma encode_ne_nil (n : Int) : encode n ≠ [] := write_ne_nil 9 _

/-- A number that fits into the limit is read back, whatever follows it. -/
lemma read_write (fits : n < 128 ^ (limit + 1)) (rest : Bytes) :
    read (limit + 1) (write (limit + 1) n ++ rest) = .ok (n, rest) := by
  induction limit generalizing n with
  | zero =>
    have byte : (UInt8.ofNat n).toNat = n := by simp; omega
    have small : n < 128 := by simpa using fits
    simp [write, read, small, byte]
  | succ limit ih =>
    rw [write]
    by_cases small : n < 128
    · have byte : (UInt8.ofNat n).toNat = n := by simp; omega
      simp [small, read, byte]
    · have byte : (UInt8.ofNat (n % 128 + 128)).toNat = n % 128 + 128 := by simp; omega
      have high : n / 128 < 128 ^ (limit + 1) := by
        rw [div_lt_iff_lt_mul (by omega)]
        rwa [pow_succ] at fits
      rw [if_neg small, cons_append, read, if_neg (by omega), ih high]
      simp only [byte, Except.ok.injEq, Prod.mk.injEq, and_true]
      omega

lemma residue_lt (n : Int) : (n % word64).toNat < word64 := by
  have positive : (0 : Int) < word64 := by decide
  have := Int.emod_lt_of_pos n positive
  have := Int.emod_nonneg n (Int.ne_of_gt positive)
  omega

lemma residue_of_lt (fits : n < word64) : ((n : Int) % word64).toNat = n := by
  rw [Int.emod_eq_of_lt (Int.natCast_nonneg n) (Int.ofNat_lt.2 fits), Int.toNat_natCast]

/-- **Reading undoes writing.**  An integer comes back as its residue modulo the word. -/
lemma decode_encode (n : Int) (rest : Bytes) :
    decode (encode n ++ rest) = .ok ((n % word64).toNat, rest) := by
  have fits : (n % word64).toNat < 128 ^ (9 + 1) := lt_of_lt_of_le (residue_lt n) (by decide)
  rw [decode, encode, maxBytes, read_write fits]
  simp only [mod_eq_of_lt (residue_lt n)]

lemma decode_encode_of_lt (fits : n < word64) (rest : Bytes) :
    decode (encode n ++ rest) = .ok (n, rest) := by
  rw [decode_encode, residue_of_lt fits]

/-! ## Spellings -/

/-- The number that groups of seven bits make up, the first one lowest. -/
def value : Bytes → Nat
  | [] => 0
  | b :: rest => b.toNat % 128 + 128 * value rest

/-- Bytes that spell a number as a varint: at most ten, of which all but the last have their top bit set
and which make up the number, up to the size of the word. -/
structure Spells (bytes : Bytes) (n : Nat) : Prop where
  short : bytes.length ≤ maxBytes
  ended : ∃ front last, bytes = front ++ [last] ∧ (∀ b ∈ front, 128 ≤ b.toNat) ∧ last.toNat < 128
  number : n = value bytes % word64

/-- A byte with its top bit set is followed by the rest of its number. -/
lemma read_continued {b : UInt8} {tail : Bytes} (high : ¬b.toNat < 128) :
    read (limit + 1) (b :: tail) = .ok (n, rest)
      ↔ ∃ k, read limit tail = .ok (k, rest) ∧ n = b.toNat % 128 + 128 * k := by
  have low : b.toNat % 128 = b.toNat - 128 := by
    have := b.toNat_lt
    omega
  rw [read, if_neg high, low]
  cases read limit tail with
  | error => simp
  | ok found =>
    obtain ⟨k, after⟩ := found
    simp only [Except.ok.injEq, Prod.mk.injEq]
    grind

lemma read_eq_ok_iff :
    read limit bytes = .ok (n, rest)
      ↔ ∃ front last, front.length < limit ∧ (∀ b ∈ front, 128 ≤ b.toNat) ∧ last.toNat < 128
        ∧ n = value (front ++ [last]) ∧ bytes = front ++ last :: rest := by
  induction limit generalizing n bytes with
  | zero => simp [read]
  | succ limit ih =>
    cases bytes with
    | nil => simp [read]
    | cons b tail =>
      by_cases small : b.toNat < 128
      · rw [read, if_pos small]
        constructor
        · rintro ⟨⟩
          exact ⟨[], b, by simp, by simp, small, by simp [value]; omega, rfl⟩
        · rintro ⟨front, last, -, high, -, rfl, whole⟩
          cases front with
          | nil =>
            obtain ⟨rfl, rfl⟩ := List.cons.inj whole
            simp [value]
            omega
          | cons =>
            obtain ⟨rfl, -⟩ := List.cons.inj whole
            exact absurd (high b (.head _)) (by omega)
      · simp only [read_continued small, ih]
        constructor
        · rintro ⟨k, ⟨front, last, short, more, ended, rfl, rfl⟩, rfl⟩
          refine ⟨b :: front, last, by simpa using short, ?_, ended, rfl, rfl⟩
          simpa using ⟨Nat.le_of_not_lt small, more⟩
        · rintro ⟨front, last, short, more, ended, rfl, whole⟩
          cases front with
          | nil =>
            obtain ⟨rfl, -⟩ := List.cons.inj whole
            exact absurd ended small
          | cons first front =>
            obtain ⟨rfl, rfl⟩ := List.cons.inj whole
            refine ⟨_, ⟨front, last, by simpa using short, ?_, ended, rfl, rfl⟩, rfl⟩
            exact fun x member => more x (.tail _ member)

/-- **Any spelling will do.**  Reading succeeds on the spellings of numbers, and only on them. -/
lemma decode_eq_ok_iff :
    decode bytes = .ok (n, rest) ↔ ∃ front, Spells front n ∧ bytes = front ++ rest := by
  have masked : decode bytes = .ok (n, rest) ↔ ∃ k, read maxBytes bytes = .ok (k, rest) ∧ n = k % word64 := by
    unfold decode
    cases read maxBytes bytes with
    | error => simp
    | ok found =>
      obtain ⟨k, after⟩ := found
      simp only [Except.ok.injEq, Prod.mk.injEq]
      grind
  simp only [masked, read_eq_ok_iff]
  constructor
  · rintro ⟨k, ⟨front, last, short, more, ended, rfl, rfl⟩, rfl⟩
    refine ⟨front ++ [last], ⟨?_, ⟨front, last, rfl, more, ended⟩, rfl⟩, by simp⟩
    rw [length_append]
    exact short
  · rintro ⟨_, ⟨short, ⟨front, last, rfl, more, ended⟩, rfl⟩, rfl⟩
    rw [length_append] at short
    exact ⟨_, ⟨front, last, short, more, ended, rfl, by simp⟩, rfl⟩

lemma Spells.decode_append (spells : Spells bytes n) (rest : Bytes) :
    decode (bytes ++ rest) = .ok (n, rest) :=
  decode_eq_ok_iff.2 ⟨bytes, spells, rfl⟩

lemma Spells.ne_nil (spells : Spells bytes n) : bytes ≠ [] := by
  obtain ⟨front, last, rfl, -⟩ := spells.ended
  simp

/-- What is written for an integer spells its residue. -/
lemma spells_residue (n : Int) : Spells (encode n) (n % word64).toNat := by
  obtain ⟨front, spells, whole⟩ := decode_eq_ok_iff.1 (decode_encode n [])
  simp only [append_nil] at whole
  exact whole ▸ spells

lemma spells_encode (fits : n < word64) : Spells (encode n) n := by
  simpa only [residue_of_lt fits] using spells_residue n

/-- **Reading takes a prefix.**  The bytes that a number was read from give it in front of anything
else too. -/
lemma decode_split (h : decode bytes = .ok (n, rest)) :
    ∃ front, front ≠ [] ∧ bytes = front ++ rest ∧ ∀ other, decode (front ++ other) = .ok (n, other) := by
  obtain ⟨front, spells, rfl⟩ := decode_eq_ok_iff.1 h
  exact ⟨front, spells.ne_nil, rfl, spells.decode_append⟩

/-! ## The shortest spelling -/

lemma value_lt (bytes : Bytes) : value bytes < 128 ^ bytes.length := by
  induction bytes with
  | nil => decide
  | cons =>
    rw [value, length_cons, pow_succ]
    omega

/-- A number that fits into some groups of seven bits is written in no more bytes. -/
lemma length_write_le {groups : Nat} (fits : n < 128 ^ (groups + 1)) : (write limit n).length ≤ groups + 1 := by
  induction limit generalizing n groups with
  | zero => simp [write]
  | succ limit ih =>
    rw [write]
    split
    · simp
    next large =>
      cases groups with
      | zero => exact absurd fits large
      | succ =>
        rw [pow_succ, mul_comm] at fits
        exact Nat.succ_le_succ (ih (Nat.div_lt_of_lt_mul fits))

/-- No spelling is shorter than what is written.  A long one may make up more than the word, but never less than
the number it spells. -/
lemma Spells.length_encode_le {n : Int} (spells : Spells bytes (n % word64).toNat) :
    (encode n).length ≤ bytes.length := by
  have fits := lt_of_le_of_lt (spells.number ▸ mod_le ..) (value_lt bytes)
  obtain ⟨groups, length⟩ := exists_eq_succ_of_ne_zero (mt length_eq_zero_iff.1 spells.ne_nil)
  rw [length] at fits ⊢
  exact length_write_le fits

/-! ## Offsets -/

/-- The number at an offset of some bytes, and the offset just past it. -/
def decodeAt (data : Bytes) (start : Nat) : Except Malformed (Nat × Nat) :=
  match decode (data.drop start) with
  | .ok (n, rest) => .ok (n, data.length - rest.length)
  | .error e => .error e

/-- A number is read at an offset just where one of its spellings stands. -/
lemma decodeAt_eq_ok_iff {data : Bytes} {start stop : Nat} :
    decodeAt data start = .ok (n, stop)
      ↔ ∃ front bytes rest, Spells bytes n ∧ data = front ++ bytes ++ rest ∧ start = front.length
        ∧ stop = start + bytes.length := by
  constructor
  · intro h
    unfold decodeAt at h
    split at h
    next rest found =>
      obtain ⟨rfl, rfl⟩ := Prod.mk.inj (Except.ok.inj h)
      obtain ⟨bytes, spells, whole⟩ := decode_eq_ok_iff.1 found
      have lengths := congrArg List.length whole
      have nonempty := length_pos_iff.2 spells.ne_nil
      simp only [length_drop, length_append] at lengths
      refine ⟨data.take start, bytes, rest, spells, ?_, ?_, by omega⟩
      · rw [append_assoc, ← whole, take_append_drop]
      · rw [length_take]
        omega
    next => cases h
  · rintro ⟨front, bytes, rest, spells, rfl, rfl, rfl⟩
    rw [decodeAt, append_assoc, drop_left, spells.decode_append]
    simp only [length_append, Except.ok.injEq, Prod.mk.injEq, true_and]
    omega

/-- A reading that fails ran out of bytes, or found too many that continue the number. -/
lemma read_error {e : Malformed} (failed : read limit bytes = .error e) :
    e = .truncatedVarint ∨ e = .overlongVarint := by
  induction limit generalizing bytes with
  | zero => exact .inr (Except.error.inj failed).symm
  | succ limit ih =>
    cases bytes with
    | nil => exact .inl (Except.error.inj failed).symm
    | cons =>
      rw [read] at failed
      split at failed
      · cases failed
      · split at failed
        · cases failed
        next again => exact ih (again.trans failed)

lemma decodeAt_error {e : Malformed} {data : Bytes} {start : Nat} (failed : decodeAt data start = .error e) :
    e = .truncatedVarint ∨ e = .overlongVarint := by
  rw [decodeAt, decode] at failed
  cases found : read maxBytes (data.drop start) with
  | ok => simp [found] at failed
  | error =>
    simp only [found, Except.error.injEq] at failed
    exact read_error (failed ▸ found)

/-- **Varints.**  An integer is written in one to ten bytes, which are read wherever they stand, and no fewer bytes
are read as the same number.  Reading at any place of any bytes takes one to ten of them, or fails. -/
theorem decodeAt_encode (n : Int) :
    (∀ front rest, decodeAt (front ++ encode n ++ rest) front.length
      = .ok ((n % 2 ^ 64).toNat, front.length + (encode n).length))
    ∧ 1 ≤ (encode n).length ∧ (encode n).length ≤ 10
    ∧ (∀ other, decodeAt other 0 = .ok ((n % 2 ^ 64).toNat, other.length) → (encode n).length ≤ other.length)
    ∧ ∀ data start, (∃ e, decodeAt data start = .error e ∧ (e = .truncatedVarint ∨ e = .overlongVarint))
      ∨ ∃ m stop, decodeAt data start = .ok (m, stop) ∧ m < 2 ^ 64
        ∧ start < stop ∧ stop ≤ min (start + 10) data.length := by
  have spells : Spells (encode n) (n % 2 ^ 64).toNat := spells_residue n
  refine ⟨fun front rest => decodeAt_eq_ok_iff.2 ⟨front, _, rest, spells, rfl, rfl, rfl⟩,
    length_pos_iff.2 spells.ne_nil, spells.short, fun other whole => ?_, fun data start => ?_⟩
  · obtain ⟨front, bytes, rest, same, rfl, -⟩ := decodeAt_eq_ok_iff.1 whole
    have := same.length_encode_le
    simp only [length_append]
    omega
  · cases found : decodeAt data start with
    | error e => exact .inl ⟨e, rfl, decodeAt_error found⟩
    | ok result =>
      obtain ⟨m, stop⟩ := result
      obtain ⟨front, bytes, rest, same, rfl, rfl, rfl⟩ := decodeAt_eq_ok_iff.1 found
      have nonempty := length_pos_iff.2 same.ne_nil
      have short : bytes.length ≤ 10 := same.short
      refine .inr ⟨m, _, rfl, same.number ▸ mod_lt _ (by decide), by omega, le_min (by omega) ?_⟩
      simp only [length_append]
      omega

/-- A spelling with a group to spare is read as well, and is longer. -/
theorem decodeAt_encode_padded :
    decodeAt ([0] ++ encode 300 ++ [1]) 1 = .ok (300, 3) ∧ decodeAt [0xac, 0x82, 0] 0 = .ok (300, 3)
      ∧ (encode 300).length ≤ 3 := by
  obtain ⟨reads, -, -, least, -⟩ := decodeAt_encode 300
  have padded : decodeAt [0xac, 0x82, 0] 0 = .ok (300, 3) := by decide
  exact ⟨reads [0] [1], padded, least [0xac, 0x82, 0] padded⟩

end Missive.Varint
