import Missive.Proofs.Ends
import Missive.Proofs.Single
import Missive.Proofs.Wire.Varint
import Missive.Wire.Scalar

/-!
# Scalars read back

Which scalars belong to a field type, and what happens to them on the wire.

**Framing.**  `read_varint`, `read_fixed` and `read_delimited` say for each of the three framings of a
scalar that a payload is found again in front of anything else.

**Codecs.**  `exists_encode` assembles the codecs: a scalar that belongs to a type is written, and what
was written reads back as it.

**Reading anything.**  `read_spec` is about bytes that nobody wrote: reading a scalar takes a nonempty
front off them or finds them malformed, and has no other outcome.
-/

namespace Missive

open List

variable {t : FieldType} {s : Scalar} {n i : Int} {width word : Nat} {data : Bytes}

/-! ## The scalars of a type -/

namespace FieldType

/-- The integers of an integer type: from the first number up to the second, which is not one of
them. -/
def bounds? : FieldType → Option (Int × Int)
  | int64 | sfixed64 | sint64 => some (-9223372036854775808, 9223372036854775808)
  | uint64 | fixed64 => some (0, 18446744073709551616)
  | int32 | enum | sfixed32 | sint32 => some (-2147483648, 2147483648)
  | uint32 | fixed32 => some (0, 4294967296)
  | _ => none

def Holds (t : FieldType) : Scalar → Prop
  | .int i => ∃ low high, t.bounds? = some (low, high) ∧ low ≤ i ∧ i < high
  | .bool _ => t = .bool
  | .float x => t = .double ∨ (t = .float ∧ x.IsSingle)
  | .text _ => t = .string
  | .bytes _ => t = .bytes
  | .none => False

end FieldType

/-- The number of payload bytes of a scalar that has a length in front of it. -/
def Scalar.size : Scalar → Nat
  | .text s => s.toUTF8.data.toList.length
  | .bytes data => data.length
  | _ => 0

lemma FieldType.holds_default (scalar : t.isScalar = true) : t.Holds t.default := by
  cases t <;> simp_all [isScalar, FieldType.default, Holds, bounds?]
  exact ⟨0, by decide, by decide⟩

/-! ## Framing -/

namespace FieldType

lemma read_varint (wire : t.wire = .varint)
    (decoded : t.decodePayload (.int ((n % word64).toNat : Int)) = .ok s) (rest : Bytes) :
    t.read t.wire (Varint.encode n ++ rest) = .ok (s, rest) := by
  unfold read
  simp only [wire, Varint.decode_encode, decoded]
  rfl

lemma read_fixed (wire : t.wire.width? = some width) (length : data.length = width)
    (decoded : t.decodePayload (.bytes data) = .ok s) (rest : Bytes) :
    t.read t.wire (data ++ rest) = .ok (s, rest) := by
  unfold read
  cases known : t.wire <;> rw [known] at wire <;> cases wire <;>
    simp only [WireType.width?, Bytes.take?_append length, decoded] <;> rfl

lemma read_delimited (wire : t.wire = .lengthDelimited) (fits : data.length < word64)
    (decoded : t.decodePayload (.bytes data) = .ok s) (rest : Bytes) :
    t.read t.wire (Varint.encode data.length ++ data ++ rest) = .ok (s, rest) := by
  unfold read
  simp only [wire, append_assoc, Varint.decode_encode_of_lt fits, Bytes.take?_append rfl, decoded]
  rfl

end FieldType

/-! ## Codecs -/

lemma unZigZag_zigZag (n : Int) : unZigZag (zigZag n) = n := by
  unfold unZigZag zigZag
  split <;> split <;> omega

lemma toSigned_eq (word : Nat) (n : Int) :
    toSigned word n = if (word : Int) ≤ 2 * (n % word) then n % word - word else n % word := rfl

lemma toSigned_modEq (word : Nat) (n : Int) : toSigned word n ≡ n [ZMOD word] := by
  rw [toSigned_eq]
  split
  · simp [Int.ModEq]
  · exact Int.mod_modEq n word

lemma toSigned_range (even : word % 2 = 0) (positive : 0 < word) (n : Int) :
    -(word / 2 : Int) ≤ toSigned word n ∧ toSigned word n < word / 2 := by
  have lower : 0 ≤ n % (word : Int) := Int.emod_nonneg n (by omega)
  have upper : n % (word : Int) < word := Int.emod_lt_of_pos n (by omega)
  rw [toSigned_eq]
  split <;> omega

/-- A signed integer of a word is found again from its residue. -/
lemma toSigned_emod (even : word % 2 = 0) (range : -(word / 2 : Int) ≤ i ∧ i < word / 2) :
    toSigned word (i % word) = i := by
  have residue : i % (word : Int) = if 0 ≤ i then i else i + word := by
    split
    · exact Int.emod_eq_of_lt (by omega) (by omega)
    · rw [← Int.add_emod_right]
      exact Int.emod_eq_of_lt (by omega) (by omega)
  rw [toSigned_eq, Int.emod_emod_of_dvd i (Int.dvd_refl _), residue]
  by_cases sign : 0 ≤ i
  · rw [if_pos sign, if_neg (by omega)]
  · rw [if_neg sign, if_pos (by omega)]
    omega

lemma toSigned_self (even : word % 2 = 0) (range : -(word / 2 : Int) ≤ i ∧ i < word / 2) :
    toSigned word i = i := by
  rw [toSigned_eq, ← Int.emod_emod_of_dvd i (Int.dvd_refl _), ← toSigned_eq, toSigned_emod even range]

lemma fromUTF8?_toUTF8 (s : String) : String.fromUTF8? ⟨s.toUTF8.data.toList.toArray⟩ = some s := by
  have same : (⟨s.toUTF8.data.toList.toArray⟩ : ByteArray) = s.toByteArray := by
    rw [String.toUTF8_eq_toByteArray]
  rw [same]
  simp [String.fromUTF8?, s.isValidUTF8, String.fromUTF8]

namespace FieldType

/-- A scalar on the wire: the bytes it is written as, which read back as it in front of anything. -/
def Writes (t : FieldType) (s : Scalar) (bytes : Bytes) : Prop :=
  t.encode (.scalar s) = .ok bytes ∧ bytes ≠ []
    ∧ (s.size < word64 → ∀ rest, t.read t.wire (bytes ++ rest) = .ok (s, rest))

lemma encode_eq_frame {payload : Value} (encoded : t.encodePayload (.scalar s) = .ok payload) :
    t.encode (.scalar s) = t.frame payload := congrArg (· >>= t.frame) encoded

lemma writes_varint (wire : t.wire = .varint) (encoded : t.encodePayload (.scalar s) = .ok (.int n))
    (decoded : t.decodePayload (.int ((n % word64).toNat : Int)) = .ok s) :
    t.Writes s (Varint.encode n) := by
  refine ⟨(encode_eq_frame encoded).trans ?_, Varint.encode_ne_nil n, fun _ => read_varint wire decoded⟩
  unfold frame
  rw [wire]
  rfl

lemma writes_fixed (wire : t.wire.width? = some width) (positive : 0 < width) (length : data.length = width)
    (encoded : t.encodePayload (.scalar s) = .ok (.bytes data))
    (decoded : t.decodePayload (.bytes data) = .ok s) : t.Writes s data := by
  refine ⟨(encode_eq_frame encoded).trans ?_, ne_nil_of_length_pos (length ▸ positive),
    fun _ => read_fixed wire length decoded⟩
  unfold frame
  cases known : t.wire <;> rw [known] at wire <;> cases wire

lemma writes_delimited (wire : t.wire = .lengthDelimited) (size : s.size = data.length)
    (encoded : t.encodePayload (.scalar s) = .ok (.bytes data))
    (decoded : t.decodePayload (.bytes data) = .ok s) :
    t.Writes s (Varint.encode data.length ++ data) := by
  refine ⟨(encode_eq_frame encoded).trans ?_, by simp [Varint.encode_ne_nil],
    fun fits => read_delimited wire (size ▸ fits) decoded⟩
  unfold frame
  rw [wire]

section

variable (wire : t.wire.width? = some width) (positive : 0 < width) (full : Nat.pow 256 width = word)

include wire positive full

/-- The bytes of an integer of an unsigned fixed-width type. -/
lemma writes_unsigned (range : 0 ≤ i ∧ i < word) (encoded : ∀ v, t.encodePayload v = unsignedBytes word width v)
    (decoded : ∀ data : Bytes, data.length = width → t.decodePayload (.bytes data) = .ok (.int (data.toNat : Int))) :
    ∃ bytes, t.Writes (.int i) bytes := by
  refine ⟨Bytes.ofNat width i.toNat, writes_fixed wire positive (Bytes.length_ofNat _ _) ?_ ?_⟩
  · rw [encoded]
    unfold unsignedBytes Value.toFixed
    simp only [Scalar.int?, if_pos range]
    rfl
  · rw [decoded _ (Bytes.length_ofNat _ _), Bytes.toNat_ofNat, full, Nat.mod_eq_of_lt (by omega),
      Int.toNat_of_nonneg range.1]

/-- The bytes of an integer of a signed fixed-width type. -/
lemma writes_signed (even : word % 2 = 0) (nonzero : 0 < word)
    (encoded : ∀ v, t.encodePayload v = signedBytes word width v)
    (range : -(word / 2 : Int) ≤ i ∧ i < word / 2) (decoded : ∀ data : Bytes, data.length = width →
      t.decodePayload (.bytes data) = .ok (.int (toSigned word (data.toNat : Int)))) :
    ∃ bytes, t.Writes (.int i) bytes := by
  refine ⟨Bytes.ofNat width (i % word).toNat, writes_fixed wire positive (Bytes.length_ofNat _ _) ?_ ?_⟩
  · rw [encoded]
    unfold signedBytes Value.toFixed
    simp only [Scalar.int?, if_pos range]
    rfl
  · have nonneg : 0 ≤ i % (word : Int) := Int.emod_nonneg i (by omega)
    have below : i % (word : Int) < word := Int.emod_lt_of_pos i (by omega)
    have residue : ((Bytes.ofNat width (i % word).toNat).toNat : Int) = i % word := by
      rw [Bytes.toNat_ofNat, full, Nat.mod_eq_of_lt (by omega)]
      omega
    rw [decoded _ (Bytes.length_ofNat _ _), residue]
    rw [toSigned_emod even range]

end

lemma residue_modEq (divides : word ∣ word64) (n : Int) : ((n % word64).toNat : Int) ≡ n [ZMOD word] := by
  rw [Int.ModEq, Int.toNat_of_nonneg (Int.emod_nonneg n (by decide))]
  exact Int.emod_emod_of_dvd n (Int.natCast_dvd_natCast.2 divides)

/-- The word of the types that take any integer, and keep of it what it is modulo the word. -/
def word? : FieldType → Option Nat
  | int64 | uint64 => some word64
  | int32 | enum | uint32 => some word32
  | _ => none

lemma Holds.eq_of_modEq {j : Int} (isWord : t.word? = some word) (one : t.Holds (.int i))
    (other : t.Holds (.int j)) (same : i ≡ j [ZMOD word]) : i = j := by
  obtain ⟨low, high, bounds, lower, upper⟩ := one
  obtain ⟨low', high', bounds', lower', upper'⟩ := other
  obtain ⟨k, difference⟩ := same.dvd
  cases t <;> cases isWord <;> cases bounds <;> cases bounds' <;>
    simp only [word64, word32] at difference <;> omega

/-- **Any integer.**  Whatever integer is written, the integer of the type that is congruent to it reads
back. -/
lemma exists_encode_any (isWord : t.word? = some word) (i : Int) :
    ∃ bytes residue, t.encode (.int i) = .ok bytes ∧ bytes ≠ []
      ∧ (∀ rest, t.read t.wire (bytes ++ rest) = .ok (.int residue, rest))
      ∧ t.Holds (.int residue) ∧ residue ≡ i [ZMOD word] := by
  have range : ∀ {word : Nat} (n : Int), 0 < word → 0 ≤ n % (word : Int) ∧ n % (word : Int) < word :=
    fun n some => ⟨Int.emod_nonneg n (by omega), Int.emod_lt_of_pos n (by omega)⟩
  have reread : ∀ {word : Nat}, word ∣ word64 → ∀ {m n : Int}, m ≡ ((n % word64).toNat : Int) [ZMOD word] →
      n ≡ i [ZMOD word] → m ≡ i [ZMOD word] :=
    fun divides _ _ decoded kept => decoded.trans ((residue_modEq divides _).trans kept)
  cases t with
  | int64 | int32 | enum =>
    cases isWord
    exact ⟨_, _, rfl, Varint.encode_ne_nil _, read_varint rfl rfl,
      ⟨_, _, rfl, toSigned_range (by decide) (by decide) _⟩, reread (by decide) (toSigned_modEq ..) rfl⟩
  | uint64 =>
    cases isWord
    exact ⟨_, _, rfl, Varint.encode_ne_nil _, read_varint rfl rfl, ⟨_, _, rfl, range _ (by decide)⟩,
      reread (by decide) (Int.mod_modEq ..) rfl⟩
  | uint32 =>
    cases isWord
    exact ⟨_, _, rfl, Varint.encode_ne_nil _, read_varint rfl rfl, ⟨_, _, rfl, range _ (by decide)⟩,
      reread (by decide) (Int.mod_modEq ..) (Int.mod_modEq ..)⟩
  | _ => cases isWord

lemma zigZag_residue (range : -9223372036854775808 ≤ i ∧ i < 9223372036854775808) :
    ((zigZag i % word64).toNat : Int) = zigZag i := by
  have small : 0 ≤ zigZag i ∧ zigZag i < 18446744073709551616 := by
    unfold zigZag
    split <;> omega
  rw [Int.emod_eq_of_lt small.1 (show zigZag i < (word64 : Int) from small.2), Int.toNat_of_nonneg small.1]

lemma fixedBytes_eq (length : data.length = width) : fixedBytes width (.bytes data) = .ok data := if_pos length

/-- Integers that belong to a type are written and read back. -/
lemma exists_encode_int (typed : t.Holds (.int i)) :
    ∃ bytes, t.Writes (.int i) bytes := by
  cases isWord : t.word? with
  | some =>
    obtain ⟨bytes, residue, encoded, some, reads, holds, same⟩ := exists_encode_any isWord i
    obtain rfl := holds.eq_of_modEq isWord typed same
    exact ⟨bytes, encoded, some, fun _ => reads⟩
  | none =>
    obtain ⟨low, high, bounds, lower, upper⟩ := typed
    cases t with
    | sint32 =>
      cases bounds
      refine ⟨_, writes_varint rfl rfl ?_⟩
      show Except.ok (Scalar.int (toSigned word32 (unZigZag ((zigZag i % word64).toNat : Int)))) = _
      rw [zigZag_residue ⟨by omega, by omega⟩, unZigZag_zigZag, toSigned_self (by decide) ⟨lower, upper⟩]
    | sint64 =>
      cases bounds
      refine ⟨_, writes_varint rfl rfl ?_⟩
      show Except.ok (Scalar.int (toSigned word64 (unZigZag ((zigZag i % word64).toNat : Int)))) = _
      rw [zigZag_residue ⟨lower, upper⟩, unZigZag_zigZag, toSigned_self (by decide) ⟨lower, upper⟩]
    | fixed64 | fixed32 =>
      cases bounds
      exact writes_unsigned rfl (by decide) (by decide) ⟨lower, upper⟩ (fun _ => rfl) fun data length => by
        unfold decodePayload; rw [fixedBytes_eq length]; rfl
    | sfixed64 | sfixed32 =>
      cases bounds
      exact writes_signed rfl (by decide) (by decide) (by decide) (by decide) (fun _ => rfl) ⟨lower, upper⟩
        fun data length => by unfold decodePayload; rw [fixedBytes_eq length]; rfl
    | _ => cases isWord <;> cases bounds

/-- **Codecs.**  A scalar that belongs to a type is written, and what was written reads back. -/
lemma exists_encode (typed : t.Holds s) :
    ∃ bytes, t.Writes s bytes := by
  cases s with
  | none => exact absurd typed id
  | int => exact exists_encode_int typed
  | bool b =>
    obtain rfl : t = .bool := typed
    refine ⟨_, writes_varint rfl rfl ?_⟩
    cases b <;> rfl
  | float x =>
    rcases typed with rfl | ⟨rfl, single⟩
    · refine ⟨_, writes_fixed rfl (by decide) (Bytes.length_ofNat 8 _) rfl ?_⟩
      unfold decodePayload
      rw [fixedBytes_eq (Bytes.length_ofNat 8 _)]
      show Except.ok (Scalar.float (Binary64.ofBytes x.toBytes)) = _
      rw [Binary64.ofBytes_toBytes]
    · obtain ⟨bits, narrow, bound, wide⟩ := Binary64.exists_toSingle? single
      refine ⟨Bytes.ofNat 4 bits, writes_fixed rfl (by decide) (Bytes.length_ofNat 4 _) ?_ ?_⟩
      · simp only [encodePayload, Value.toFloat, bind, Except.bind, narrow]
        rfl
      · unfold decodePayload
        rw [fixedBytes_eq (Bytes.length_ofNat 4 _)]
        show Except.ok (Scalar.float (Binary64.ofSingle (Bytes.ofNat 4 bits).toNat)) = _
        rw [Bytes.toNat_ofNat, Nat.mod_eq_of_lt (show bits < Nat.pow 256 4 from bound), wide]
  | text =>
    obtain rfl : t = .string := typed
    refine ⟨_, writes_delimited rfl rfl rfl ?_⟩
    unfold decodePayload
    simp only [fromUTF8?_toUTF8]
  | bytes =>
    obtain rfl : t = .bytes := typed
    exact ⟨_, writes_delimited rfl rfl rfl rfl⟩

/-- A scalar is read at an offset of some bytes, up to another one. -/
def ReadsAt (t : FieldType) (data : Bytes) (start : Nat) (s : Scalar) (stop : Nat) : Prop :=
  stop ≤ data.length ∧ t.read t.wire (data.drop start) = .ok (s, data.drop stop)

lemma readsAt_append {bytes : Bytes} (reads : ∀ rest, t.read t.wire (bytes ++ rest) = .ok (s, rest))
    (front rest : Bytes) :
    t.ReadsAt (front ++ bytes ++ rest) front.length s (front.length + bytes.length) := by
  constructor
  · simp
  · rw [← length_append, drop_left, append_assoc, drop_left]
    exact reads rest

/-- **Scalars read back.**  Wherever a scalar of a type stands among other bytes, it is read there, up to its
end.  The types that take any integer give back the one of theirs that is congruent to it. -/
theorem readsAt_encode (holds : t.Holds s) (small : s.size < word64) :
    (∃ bytes, t.encode (.scalar s) = .ok bytes
      ∧ ∀ front rest, t.ReadsAt (front ++ bytes ++ rest) front.length s (front.length + bytes.length))
    ∧ ∀ (u : FieldType) (word : Nat), u.word? = some word → ∀ i : Int, ∃ bytes residue, u.encode (.int i) = .ok bytes
      ∧ (∀ front rest, u.ReadsAt (front ++ bytes ++ rest) front.length (.int residue) (front.length + bytes.length))
      ∧ u.Holds (.int residue) ∧ residue ≡ i [ZMOD word]
      ∧ ∀ other, u.Holds (.int other) → other ≡ i [ZMOD word] → other = residue := by
  obtain ⟨bytes, encoded, -, reads⟩ := exists_encode holds
  refine ⟨⟨bytes, encoded, readsAt_append (reads small)⟩, fun u word isWord i => ?_⟩
  obtain ⟨bytes, residue, encoded, -, reads, holds, same⟩ := exists_encode_any isWord i
  exact ⟨bytes, residue, encoded, readsAt_append reads, holds, same,
    fun other holds' same' => holds'.eq_of_modEq isWord holds (same'.trans same.symm)⟩

theorem readsAt_encode_least : sint64.Holds (.int (-9223372036854775808))
    ∧ (∃ bytes, sint64.encode (.int (-9223372036854775808)) = .ok bytes
      ∧ sint64.ReadsAt ([8] ++ bytes ++ [16]) 1 (.int (-9223372036854775808)) (1 + bytes.length))
    ∧ ∃ bytes, int32.encode (.int 4294967295) = .ok bytes
      ∧ int32.ReadsAt ([] ++ bytes ++ []) 0 (.int (-1)) (0 + bytes.length) := by
  have holds : sint64.Holds (.int (-9223372036854775808)) := ⟨_, _, rfl, by decide, by decide⟩
  obtain ⟨⟨bytes, encoded, reads⟩, any⟩ := readsAt_encode holds (by decide)
  obtain ⟨bytes', residue, encoded', reads', -, -, unique⟩ := any int32 word32 rfl 4294967295
  obtain rfl : -1 = residue := unique (-1) ⟨_, _, rfl, by decide, by decide⟩ (by decide)
  exact ⟨holds, ⟨bytes, encoded, reads [8] [16]⟩, bytes', encoded', reads' [] []⟩

end FieldType

/-! ## Reading anything -/

/-- A scalar that reading a type can give. -/
def FieldType.Gives (t : FieldType) (s : Scalar) : Prop :=
  ∃ bytes rest, t.read t.wire bytes = .ok (s, rest)

lemma Bytes.take?_eq_some {n : Nat} {bytes front rest : Bytes}
    (h : Bytes.take? n bytes = some (front, rest)) : front.length = n ∧ bytes = front ++ rest := by
  unfold Bytes.take? at h
  split at h
  · obtain ⟨rfl, rfl⟩ := Prod.mk.inj (Option.some.inj h)
    exact ⟨length_take_of_le ‹_›, (take_append_drop n bytes).symm⟩
  · cases h

lemma Bytes.toNat_lt (data : Bytes) : data.toNat < Nat.pow 256 data.length := by
  induction data with
  | nil => decide
  | cons b rest =>
    have digit : b.toNat < 256 := b.toNat_lt
    have step : Nat.pow 256 (b :: rest).length = Nat.pow 256 rest.length * 256 := rfl
    rw [step, Bytes.toNat]
    omega

/-- Does a fault say that serialized data is malformed? -/
def Fault.isMalformed : Fault → Bool
  | malformed _ _ => true
  | _ => false

namespace FieldType

lemma decodePayload_int (wire : t.wire = .varint) (n : Int) :
    ∃ s, t.decodePayload (.int n) = .ok s := by
  cases t <;> cases wire <;> exact ⟨_, rfl⟩

lemma decodePayload_sized (wire : t.wire.width? = some width) (length : data.length = width) :
    ∃ s, t.decodePayload (.bytes data) = .ok s := by
  cases t <;> cases wire <;> unfold decodePayload <;> rw [fixedBytes_eq length] <;> exact ⟨_, rfl⟩

/-- All bytes are the payload of a scalar of a length-delimited type, except that a text is UTF-8. -/
lemma decodePayload_delimited (wire : t.wire = .lengthDelimited) (scalar : t.isScalar = true) (data : Bytes) :
    (∃ s, t.decodePayload (.bytes data) = .ok s) ∨ t.decodePayload (.bytes data) = .error (.data .invalidUtf8) := by
  cases t <;> cases wire <;> cases scalar
  · unfold decodePayload
    dsimp only
    cases String.fromUTF8? ⟨data.toArray⟩ with
    | none => exact .inr rfl
    | some => exact .inl ⟨_, rfl⟩
  · exact .inl ⟨_, rfl⟩

/-- Reading a scalar of a fixed width takes that many bytes. -/
lemma read_sized {wire : WireType} (sized : t.wire.width? = some width) (positive : 0 < width)
    (same : t.wire = wire) (bytes : Bytes) :
    (∃ s front rest, t.read wire bytes = .ok (s, rest) ∧ front ≠ [] ∧ bytes = front ++ rest)
      ∨ ∃ e, t.read wire bytes = .error e ∧ e.isMalformed = true := by
  subst same
  unfold read
  cases taken : Bytes.take? width bytes with
  | none =>
    refine .inr ⟨.data (.truncatedPayload t), ?_, rfl⟩
    cases known : t.wire <;> rw [known] at sized <;> cases sized <;> simp only [WireType.width?, taken]
  | some parts =>
    obtain ⟨payload, rest⟩ := parts
    obtain ⟨length, whole⟩ := Bytes.take?_eq_some taken
    obtain ⟨s, decoded⟩ := decodePayload_sized sized length
    refine .inl ⟨s, payload, rest, ?_, ne_nil_of_length_pos (length ▸ positive), whole⟩
    cases known : t.wire <;> rw [known] at sized <;> cases sized <;> simp only [WireType.width?, taken, decoded] <;> rfl

/-- **Reading anything.**  Reading a scalar takes a nonempty front off the bytes, or finds them
malformed. -/
lemma read_spec (scalar : t.isScalar = true) (bytes : Bytes) :
    (∃ s front rest, t.read t.wire bytes = .ok (s, rest) ∧ front ≠ [] ∧ bytes = front ++ rest)
      ∨ ∃ e, t.read t.wire bytes = .error e ∧ e.isMalformed = true := by
  unfold read
  cases wire : t.wire with
  | varint =>
    cases found : Varint.decode bytes with
    | error e => exact .inr ⟨.data e, rfl, rfl⟩
    | ok result =>
      obtain ⟨n, rest⟩ := result
      obtain ⟨front, nonempty, rfl, -⟩ := Varint.decode_split found
      obtain ⟨s, decoded⟩ := decodePayload_int wire n
      exact .inl ⟨s, front, rest, by simp only [decoded]; rfl, nonempty, rfl⟩
  | lengthDelimited =>
    cases found : Varint.decode bytes with
    | error e => exact .inr ⟨.data e, rfl, rfl⟩
    | ok result =>
      obtain ⟨size, rest⟩ := result
      obtain ⟨front, nonempty, rfl, -⟩ := Varint.decode_split found
      cases taken : Bytes.take? size rest with
      | none =>
        exact .inr ⟨.data (.truncatedPayload t), by simp only [taken], rfl⟩
      | some parts =>
        obtain ⟨payload, after⟩ := parts
        obtain ⟨-, whole⟩ := Bytes.take?_eq_some taken
        rcases decodePayload_delimited wire scalar payload with ⟨s, decoded⟩ | decoded
        · refine .inl ⟨s, front ++ payload, after, ?_, by simp [nonempty], by simp [whole]⟩
          simp only [taken, decoded]
          rfl
        · exact .inr ⟨.data .invalidUtf8, by simp only [taken, decoded]; rfl, rfl⟩
  | fixed32 => exact read_sized (by rw [wire]; rfl) (by decide) wire bytes
  | fixed64 => exact read_sized (by rw [wire]; rfl) (by decide) wire bytes
  | startGroup =>
    cases t <;> cases wire
    cases scalar
  | endGroup => cases t <;> cases wire

/-- What reading gives is what some payload stands for. -/
lemma Gives.exists_payload (gives : t.Gives s) :
    ∃ payload, t.decodePayload payload = .ok s := by
  obtain ⟨bytes, rest, found⟩ := gives
  have decoded : ∀ {payload : Value} {after : Bytes},
      (do return (← t.decodePayload payload, after)) = Except.ok (s, rest) →
        ∃ payload, t.decodePayload payload = .ok s := by
    intro payload after h
    obtain ⟨s', is, h⟩ := bind_ok h
    obtain ⟨rfl, -⟩ := Prod.mk.inj (Except.ok.inj h)
    exact ⟨payload, is⟩
  unfold read at found
  dsimp only at found
  split at found
  · split at found
    · exact decoded found
    · cases found
  · split at found
    · split at found
      · exact decoded found
      · cases found
    · cases found
  · split at found
    · exact decoded found
    · cases found
  · cases found

lemma fixedBytes_lt {payload : Value} (full : Nat.pow 256 width = word) (taken : fixedBytes width payload = .ok data) :
    data.toNat < word := by
  unfold fixedBytes at taken
  split at taken
  · split at taken
    · rename_i length
      cases taken
      rw [← full, ← length]
      exact Bytes.toNat_lt _
    · cases taken
  · cases taken

/-- What reading a type gives belongs to it. -/
lemma Gives.holds (gives : t.Gives s) : t.Holds s := by
  obtain ⟨payload, decoded⟩ := gives.exists_payload
  have signed32 (n : Int) : -2147483648 ≤ toSigned word32 n ∧ toSigned word32 n < 2147483648 :=
    toSigned_range (by decide) (by decide) n
  have signed64 (n : Int) :
      -9223372036854775808 ≤ toSigned word64 n ∧ toSigned word64 n < 9223372036854775808 :=
    toSigned_range (by decide) (by decide) n
  have residue {word : Nat} (positive : 0 < word) (n : Int) :
      0 ≤ n % (word : Int) ∧ n % (word : Int) < word :=
    ⟨Int.emod_nonneg n (by omega), Int.emod_lt_of_pos n (by omega)⟩
  have unsigned {n word : Nat} (small : n < word) : (0 : Int) ≤ n ∧ (n : Int) < word :=
    ⟨Int.natCast_nonneg n, Int.ofNat_lt.2 small⟩
  unfold decodePayload at decoded
  cases t <;> dsimp only at decoded
  case string =>
    split at decoded
    · split at decoded
      · cases decoded
        rfl
      · cases decoded
    · cases decoded
  case bool =>
    cases decoded
    rfl
  case group => cases decoded
  case message => cases decoded
  all_goals
    obtain ⟨x, taken, decoded⟩ := bind_ok decoded
    cases decoded
  case double => exact .inl rfl
  case float => exact .inr ⟨rfl, _, fixedBytes_lt (by decide) taken, rfl⟩
  case bytes => rfl
  case int64 | sint64 | sfixed64 => exact ⟨_, _, rfl, signed64 _⟩
  case int32 | enum | sint32 | sfixed32 => exact ⟨_, _, rfl, signed32 _⟩
  case uint64 | uint32 => exact ⟨_, _, rfl, residue (by decide) x⟩
  case fixed64 =>
    have small : x.toNat < word64 := fixedBytes_lt (by decide) taken
    exact ⟨_, _, rfl, unsigned small⟩
  case fixed32 =>
    have small : x.toNat < word32 := fixedBytes_lt (by decide) taken
    exact ⟨_, _, rfl, unsigned small⟩

/-- The sort of scalar that a field type has, whatever its range. -/
def Sorts : FieldType → Scalar → Prop
  | .double, s | .float, s => ∃ x, s = .float x
  | .bool, s => ∃ b, s = .bool b
  | .string, s => ∃ x, s = .text x
  | .bytes, s => ∃ b, s = .bytes b
  | .group, _ | .message, _ => False
  | _, s => ∃ i, s = .int i

lemma Holds.sorts (holds : t.Holds s) : t.Sorts s := by
  cases s with
  | none => exact absurd holds id
  | int i =>
    obtain ⟨low, high, bounds, -⟩ := holds
    cases t <;> first | exact ⟨i, rfl⟩ | exact absurd bounds (by simp [bounds?])
  | bool b =>
    obtain rfl : t = .bool := holds
    exact ⟨b, rfl⟩
  | float x => rcases holds with rfl | ⟨rfl, -⟩ <;> exact ⟨x, rfl⟩
  | text x =>
    obtain rfl : t = .string := holds
    exact ⟨x, rfl⟩
  | bytes data =>
    obtain rfl : t = .bytes := holds
    exact ⟨data, rfl⟩

lemma sorts_default (scalar : t.isScalar = true) : t.Sorts t.default := by
  cases t <;> first | exact ⟨_, rfl⟩ | exact absurd scalar (by decide)

end FieldType

end Missive
