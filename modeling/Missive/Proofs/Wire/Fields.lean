import Missive.Proofs.Wire.Cursor

/-!
# Cursors over well-formed fields

What the operations of a cursor do on fields as somebody wrote them.

**Payloads.**  A payload that was written is taken as what it stands for, and the cursor is then before
the next field.

**Verbatim.**  A field that nobody takes is skipped as a whole, and what is kept of it are its own bytes.

**Nothing else.**  What is skipped is a well-formed field, and the next tag opens one or there is none.
-/

namespace Missive

open List

variable {depth : Nat}

/-! ## Readers -/

namespace Reader

variable {bytes rest : Bytes} {number : Nat} {wire : WireType} {E : Fault → Bytes → Prop}

variable {field : Option Nat} {payload : Bytes} {Q : Unit → Bytes → Prop}

lemma ends_varint {n : Nat} (spells : Varint.Spells bytes n) {Q : Nat → Bytes → Prop} :
    Ends varint (bytes ++ rest) Q E ↔ Q n rest := by
  simp only [varint, ends_bind, ends_get, spells.decode_append, ends_set, ends_pure]

lemma ends_tag (tagged : SpellsTag bytes number wire) {Q : Nat × WireType → Bytes → Prop} :
    Ends tag (bytes ++ rest) Q E ↔ Q (number, wire) rest := by
  have small : wire.number < 8 := by cases wire <;> decide
  have low : (number * 8 + wire.number) % 8 = wire.number := by omega
  have high : (number * 8 + wire.number) / 8 = number := by omega
  have allowed : ¬(number = 0 ∨ maxFieldNumber < number) := by
    have := tagged.positive
    have := tagged.bounded
    omega
  simp only [tag, ends_bind, ends_varint tagged.varint, low, high, WireType.ofNumber?_number, if_neg allowed, ends_pure]

lemma ends_lengthDelimited {size data : Bytes} (spells : Varint.Spells size data.length) {Q : Bytes → Bytes → Prop} :
    Ends (lengthDelimited field) (size ++ (data ++ rest)) Q E ↔ Q data rest := by
  simp only [lengthDelimited, ends_bind, ends_get, spells.decode_append, Bytes.take?_append, ends_set, ends_pure]

lemma ends_skipFlat (framed : wire.Frames payload) :
    Ends (skipFlat field number wire) (payload ++ rest) Q E ↔ Q () rest := by
  cases wire with
  | varint =>
    obtain ⟨n, spells⟩ := framed
    simp only [skipFlat, ends_bind, ends_varint spells, ends_pure]
  | lengthDelimited =>
    obtain ⟨size, data, rfl, spells⟩ := framed
    rw [append_assoc]
    simp only [skipFlat, ends_bind, ends_lengthDelimited spells, ends_pure]
  | fixed32 | fixed64 =>
    have length := framed
    simp only [WireType.Frames] at length
    simp only [skipFlat, WireType.width?, ends_bind, ends_get, Bytes.take?_append length, ends_set]
  | startGroup => exact framed.elim
  | endGroup => exact framed.elim

/-- **Groups.**  The fields of a group are skipped up to the tag that ends it. -/
lemma ends_skipGroup {levels turns : Nat} {numbers : List Nat} {fields closing : Bytes}
    (inside : WireFields levels numbers fields) (closes : SpellsTag closing number .endGroup)
    (deep : depth + levels ≤ maxDepth) (enough : (fields ++ (closing ++ rest)).length < turns) :
    Ends (skipGroup field turns number depth) (fields ++ (closing ++ rest)) Q E ↔ Q () rest := by
  induction inside generalizing number depth turns closing rest Q E with
  | nil =>
    obtain ⟨turns, rfl⟩ : ∃ k, turns = k + 1 := ⟨turns - 1, by omega⟩
    have some : (closing ++ rest).isEmpty = false := by simp [closes.ne_nil]
    rw [nil_append]
    simp only [skipGroup, ends_bind, ends_ite, ends_throw, ends_get, some, ends_tag closes]
    rw [if_neg (by omega), if_neg (by simp), if_neg (by simp)]
    rfl
  | @flat levels n wire tag payload after numbers tagged framed later ih =>
    obtain ⟨turns, rfl⟩ : ∃ k, turns = k + 1 := ⟨turns - 1, by omega⟩
    have front := length_pos_iff.2 tagged.ne_nil
    simp only [append_assoc, length_append] at enough ⊢
    have some : (tag ++ (payload ++ (after ++ (closing ++ rest)))).isEmpty = false := by
      simp [tagged.ne_nil]
    have afterwards : ∀ {Q E}, Ends (skipGroup field turns number depth) (after ++ (closing ++ rest)) Q E
        ↔ Q () rest := ih closes deep (by simp only [length_append]; omega)
    simp only [skipGroup, ends_bind, ends_ite, ends_throw, ends_get, some, ends_tag tagged]
    rw [if_neg (by omega), if_neg (by simp)]
    cases wire with
    | startGroup => exact framed.elim
    | endGroup => exact framed.elim
    | varint | fixed64 | lengthDelimited | fixed32 =>
      simp only [ends_bind, ends_skipFlat framed, afterwards]
  | @group levels n opening fields closing' after inner numbers opens inside closes' later ih ihLater =>
    obtain ⟨turns, rfl⟩ : ∃ k, turns = k + 1 := ⟨turns - 1, by omega⟩
    have front := length_pos_iff.2 opens.ne_nil
    simp only [append_assoc, length_append] at enough ⊢
    have some : (opening ++ (fields ++ (closing' ++ (after ++ (closing ++ rest))))).isEmpty = false := by
      simp [opens.ne_nil]
    have within : ∀ {Q E}, Ends (skipGroup field turns n (depth + 1))
        (fields ++ (closing' ++ (after ++ (closing ++ rest)))) Q E ↔ Q () (after ++ (closing ++ rest)) :=
      ih closes' (by omega) (by simp only [length_append]; omega)
    have afterwards : ∀ {Q E}, Ends (skipGroup field turns number depth) (after ++ (closing ++ rest)) Q E
        ↔ Q () rest := ihLater closes deep (by simp only [length_append]; omega)
    simp only [skipGroup, ends_bind, ends_ite, ends_throw, ends_get, some, ends_tag opens]
    rw [if_neg (by omega), if_neg (by simp)]
    simp only [within, afterwards]

/-- **Skipping.**  The payload of a field is skipped, whatever follows it. -/
lemma ends_skip (framed : WirePayload (maxDepth - depth) number wire payload) :
    Ends (skip field number wire depth) (payload ++ rest) Q E ↔ Q () rest := by
  generalize room : maxDepth - depth = levels at framed
  cases framed with
  | flat framed =>
    have flat : wire ≠ .startGroup := by
      rintro rfl
      exact framed
    simp only [skip, if_neg flat, ends_skipFlat framed]
  | group inside closes =>
    rw [append_assoc]
    simp only [skip, ends_bind, ends_get, if_true]
    exact ends_skipGroup inside closes (by omega) (Nat.lt_succ_self _)

end Reader

/-! ## Cursors -/

namespace Cursor

/-- A cursor before the next field of the message it walks over. -/
structure Before (cur : Cursor) (depth : Nat) (group : Option Nat) (rest : Bytes) : Prop where
  rest : cur.rest = rest
  depth : cur.depth = depth
  group : cur.group = group
  goes : cur.ended = false
  free : (cur.field.isSome && !cur.consumed) = false

/-- A cursor at the payload of a field, with all that is left from its tag on. -/
structure Stands (cur : Cursor) (depth : Nat) (group : Option Nat) (number : Nat) (wire : WireType)
    (mark rest : Bytes) : Prop where
  rest : cur.rest = rest
  mark : cur.mark = mark
  depth : cur.depth = depth
  group : cur.group = group
  goes : cur.ended = false
  field : cur.field = some number
  wire : cur.wire = wire
  waiting : cur.consumed = false

variable {cur : Cursor} {number : Nat} {group : Option Nat} {wire : WireType} {mark rest bytes : Bytes}
  {t : FieldType} {s : Scalar}

lemma before_ofBytes (data : Bytes) : (ofBytes data).Before 0 none data :=
  ⟨rfl, rfl, rfl, rfl, rfl⟩

lemma next_field (before : cur.Before depth group (bytes ++ rest))
    (tagged : SpellsTag bytes number wire) (opens : wire ≠ .endGroup) :
    Succeeds next cur
      (fun found cur' => found = some number ∧ cur'.Stands depth group number wire (bytes ++ rest) rest) := by
  have unread : (bytes ++ rest).isEmpty = false := by simp [tagged.ne_nil]
  simp only [next, nextTag, ends_bind, ends_get, ends_ite, ends_modify, ends_set, before.free,
    Bool.false_eq_true, if_false, before.goes, unread, ends_reading, before.rest,
    Reader.ends_tag tagged]
  cases wire <;> first
    | exact absurd rfl opens
    | exact ⟨rfl, rfl, rfl, before.depth, before.group, rfl, rfl, rfl, rfl⟩

lemma next_end (before : cur.Before depth none []) :
    Succeeds next cur (fun found cur' => found = none ∧ cur'.rest = []) := by
  have none : cur.rest.isEmpty = true := by simp [before.rest]
  simp only [next, nextTag, ends_bind, ends_get, ends_ite, ends_modify, ends_pure, before.free,
    Bool.false_eq_true, if_false, before.goes, none, if_true, before.group]
  exact ⟨trivial, before.rest⟩

lemma next_close (before : cur.Before depth (some number) (bytes ++ rest)) (closes : SpellsTag bytes number .endGroup) :
    Succeeds next cur (fun found cur' => found = none ∧ cur'.rest = rest) := by
  have unread : (bytes ++ rest).isEmpty = false := by simp [closes.ne_nil]
  simp only [next, nextTag, ends_bind, ends_get, ends_ite, ends_modify, ends_set, ends_pure,
    before.free, Bool.false_eq_true, if_false, before.goes, unread, ends_reading, before.rest,
    Reader.ends_tag closes, before.group]
  rw [if_neg (by simp)]
  exact ⟨trivial, trivial⟩

/-! ## Payloads -/

lemma Stands.claimed (stands : cur.Stands depth group number wire mark rest) :
    Before { cur with consumed := true } depth group rest :=
  ⟨stands.rest, stands.depth, stands.group, stands.goes, by simp⟩

lemma take_stands (stands : cur.Stands depth group number wire mark rest) {wires : List WireType}
    (allowed : wire ∈ wires) :
    Succeeds (take wires) cur (fun found cur' => found = wire ∧ cur' = { cur with consumed := true }) := by
  simp only [take, ends_bind, ends_get, ends_ite, ends_throw, ends_set, ends_pure, stands.field,
    stands.waiting, stands.wire, contains_iff_mem.2 allowed]
  exact ⟨trivial, trivial⟩

lemma scalar_before (before : cur.Before depth group (bytes ++ rest)) (writes : t.Writes s bytes)
    (small : s.size < word64) :
    Succeeds (scalar t t.wire) cur (fun found cur' => found = s ∧ cur'.Before depth group rest) := by
  simp only [scalar, ends_bind, ends_get, before.rest, writes.2.2 small, ends_set, ends_pure]
  exact ⟨trivial, rfl, before.depth, before.group, before.goes, before.free⟩

/-- **Scalars.**  A scalar that was written is taken back. -/
lemma singular_stands (stands : cur.Stands depth group number t.wire mark (bytes ++ rest))
    (writes : t.Writes s bytes) (small : s.size < word64) :
    Succeeds (singular t) cur (fun found cur' => found = s ∧ cur'.Before depth group rest) := by
  simp only [singular, ends_bind]
  refine (take_stands stands (mem_singleton_self _)).ends ?_
  rintro - cur' ⟨rfl, rfl⟩
  exact scalar_before stands.claimed writes small

lemma payload_before {data : Bytes} (before : cur.Before depth group (Varint.encode data.length ++ (data ++ rest)))
    (small : data.length < word64) :
    Succeeds payload cur (fun found cur' => found = data ∧ cur'.Before depth group rest) := by
  simp only [payload, ends_bind, ends_get, ends_reading, before.rest,
    Reader.ends_lengthDelimited (Varint.spells_encode small)]
  exact ⟨trivial, rfl, before.depth, before.group, before.goes, before.free⟩

end Cursor

/-- Scalars of one type in a row, as they are written. -/
inductive FieldType.WritesAll (t : FieldType) : List Scalar → Bytes → Prop
  | nil : FieldType.WritesAll t [] []
  | cons {s : Scalar} {scalars : List Scalar} {first others : Bytes} (head : t.Writes s first)
      (small : s.size < word64) (tail : FieldType.WritesAll t scalars others) :
      FieldType.WritesAll t (s :: scalars) (first ++ others)

/-- A packed run gives back the scalars it was made of. -/
lemma FieldType.WritesAll.readPacked {t : FieldType} {scalars : List Scalar} {bytes : Bytes}
    (writes : t.WritesAll scalars bytes) {turns : Nat} (enough : bytes.length ≤ turns) :
    t.readPacked turns bytes = ⟨scalars, none⟩ := by
  induction writes generalizing turns with
  | nil => cases turns <;> rfl
  | @cons s scalars first others head small tail ih =>
    obtain ⟨-, nonempty, reads⟩ := head
    have front := length_pos_iff.2 nonempty
    rw [length_append] at enough
    obtain ⟨turns, rfl⟩ : ∃ k, turns = k + 1 := ⟨turns - 1, by omega⟩
    obtain ⟨b, more, whole⟩ : ∃ b more, first ++ others = b :: more :=
      exists_cons_of_ne_nil (by simp [nonempty])
    have found : t.read t.wire (b :: more) = .ok (s, others) := whole ▸ reads small others
    rw [whole]
    simp only [FieldType.readPacked, found, ih (show others.length ≤ turns by omega)]

namespace Cursor

variable {cur : Cursor} {number : Nat} {group : Option Nat} {wire : WireType} {mark rest bytes : Bytes}
  {t : FieldType} {s : Scalar}

/-- One scalar of a repeated field. -/
lemma repeated_single (stands : cur.Stands depth group number t.wire mark (bytes ++ rest))
    (writes : t.Writes s bytes) (small : s.size < word64) :
    Succeeds (repeated t) cur (fun taken cur' => taken = ⟨[s], none⟩ ∧ cur'.Before depth group rest) := by
  simp only [repeated, ends_bind, ends_ite, ends_pure]
  split
  · refine (singular_stands stands writes small).ends ?_
    rintro - cur' ⟨rfl, before⟩
    exact ⟨rfl, before⟩
  · refine (take_stands stands (.head _)).ends ?_
    rintro - cur' ⟨rfl, rfl⟩
    have single : t.wire ≠ .lengthDelimited := by
      cases t <;> simp_all [FieldType.isPackable, FieldType.wire]
    rw [if_pos single]
    refine (scalar_before stands.claimed writes small).ends ?_
    rintro - cur' ⟨rfl, before⟩
    exact ⟨rfl, before⟩

/-- **Packed scalars.**  A packed run is taken as the scalars that its bytes read as. -/
lemma repeated_packed (packable : t.isPackable = true) (stands : cur.Stands depth group number .lengthDelimited mark
      (Varint.encode bytes.length ++ (bytes ++ rest))) (small : bytes.length < word64) :
    Succeeds (repeated t) cur
      (fun taken cur' => taken = t.readPacked bytes.length bytes ∧ cur'.Before depth group rest) := by
  simp only [repeated, ends_bind, ends_ite, ends_pure, packable, Bool.not_true, Bool.false_eq_true, if_false]
  refine (take_stands stands (by simp)).ends ?_
  rintro - cur' ⟨rfl, rfl⟩
  rw [if_neg (by simp)]
  refine (payload_before stands.claimed small).ends ?_
  rintro data cur' ⟨rfl, before⟩
  exact ⟨rfl, before⟩

lemma enter_before (shallow : cur.depth < maxDepth) (rest : Bytes) (group : Option Nat) :
    Succeeds (enter rest group) cur (fun inner cur' => cur' = cur ∧ inner.Before (cur.depth + 1) group rest) := by
  simp only [enter, ends_bind, ends_get, ends_ite, ends_throw, ends_pure]
  rw [if_neg (by omega)]
  exact ⟨trivial, rfl, rfl, rfl, rfl, rfl⟩

/-! ## Fields that nobody takes -/

/-- **Verbatim.**  What is kept of a field that nobody takes is the field. -/
lemma skipUnknown_stands {payload tag : Bytes}
    (stands : cur.Stands depth group number wire (tag ++ (payload ++ rest)) (payload ++ rest))
    (framed : WirePayload (maxDepth - depth) number wire payload) :
    Succeeds skipUnknown cur (fun data cur' => data = tag ++ payload ∧ cur'.Before depth group rest) := by
  simp only [skipUnknown, skipPayload, ends_bind, ends_get, ends_set, ends_ite, ends_pure, ends_reading,
    stands.field, stands.waiting, stands.rest, stands.mark, stands.wire, stands.depth,
    Option.isNone_some, Bool.or_false, Bool.false_eq_true, if_false, Option.getD_some,
    Reader.ends_skip framed]
  rw [← append_assoc, Bytes.consumed_append]
  exact ⟨rfl, rfl, rfl, stands.group, stands.goes, by simp⟩

/-- What is skipped is a field. -/
lemma skipUnknown_yields {tag : Bytes} (stands : cur.Stands depth group number wire (tag ++ bytes) bytes) :
    Yields skipUnknown cur fun data cur' => ∃ payload rest, bytes = payload ++ rest
      ∧ WirePayload (maxDepth - depth) number wire payload ∧ data = tag ++ payload
      ∧ cur'.Before depth group rest := by
  simp only [skipUnknown, skipPayload, ends_bind, ends_get, ends_set, ends_ite, ends_throw, ends_pure,
    ends_reading, stands.field, stands.waiting, stands.rest, stands.mark, stands.wire, stands.depth,
    Option.isNone_some, Bool.or_false, Bool.false_eq_true, if_false, Option.getD_some]
  refine (Reader.skip_spec _ number wire depth bytes).yields.imp ?_
  rintro - rest ⟨payload, framed, rfl⟩
  refine ⟨payload, rest, rfl, framed, ?_, rfl, rfl, stands.group, stands.goes, by simp⟩
  rw [← append_assoc, Bytes.consumed_append]

/-- What follows the fields of nested data, up to its end. -/
inductive Closes : Option Nat → Bytes → Bytes → Prop
  | message : Closes none [] []
  | group {number : Nat} {closing rest : Bytes} (closes : SpellsTag closing number .endGroup) :
      Closes (some number) (closing ++ rest) rest

lemma Closes.data_ends (closes : Closes none bytes rest) : bytes = [] ∧ rest = [] := by
  cases closes
  exact ⟨rfl, rfl⟩

/-- The next tag opens a field, or there is none before the data or group ends. -/
lemma next_yields (before : cur.Before depth group bytes) :
    Yields next cur fun found cur' =>
      match found with
      | none => Closes group bytes cur'.rest
      | some number => ∃ tag wire rest, bytes = tag ++ rest ∧ SpellsTag tag number wire
          ∧ cur'.Stands depth group number wire bytes rest := by
  simp only [next, nextTag, ends_bind, ends_get, ends_ite, ends_modify, ends_set, ends_pure, before.free,
    Bool.false_eq_true, if_false, before.goes, before.rest, ends_reading]
  split
  · rename_i none
    obtain rfl := List.isEmpty_iff.1 none
    cases group with
    | some => simp only [before.group]; trivial
    | none =>
      simp only [before.group, ends_pure]
      exact .message
  · refine (Reader.tag_spec bytes).yields.imp ?_
    rintro ⟨number, wire⟩ rest ⟨tag, tagged, rfl⟩
    cases wire with
    | endGroup =>
      simp only [ends_ite, ends_throw, ends_modify, ends_pure, ends_bind]
      split
      · trivial
      · rename_i same
        rw [← before.group, ← not_not.1 same]
        exact .group tagged
    | varint | fixed64 | lengthDelimited | startGroup | fixed32 =>
      exact ⟨tag, _, rest, rfl, tagged, rfl, rfl, before.depth, before.group, rfl, rfl, rfl, rfl⟩

end Cursor

end Missive
