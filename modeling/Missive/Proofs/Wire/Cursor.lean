import Missive.Proofs.Wire.Grammar

/-!
# Cursors over anything

What the operations of a cursor do on bytes that nobody wrote.

**Onward.**  A cursor only ever moves on: what it has not read is always a suffix of what it had not
read before, on the level and in the group it was made for.

**Malformed or fine.**  Each operation that decoding uses, applied in the state it is meant for, ends
well or finds the data malformed.  That state is `Cursor.Standing`: a tag was read and its payload was
not taken yet.

**Nothing else.**  Tags and payloads that are read or skipped are those of the grammar.
-/

namespace Missive

open List

variable {t : FieldType} {c : Cursor} {number : Nat}

/-! ## Readers -/

/-- A reading that fails has found the data malformed, and has not left it. -/
def Broken (start : Bytes) (e : Fault) (rest : Bytes) : Prop :=
  e.isMalformed = true ∧ rest <:+ start

lemma Broken.append {front start rest : Bytes} {e : Fault} (broken : Broken start e rest) :
    Broken (front ++ start) e rest :=
  ⟨broken.1, broken.2.trans (suffix_append front start)⟩

namespace Reader

lemma varint_spec (bytes : Bytes) :
    Ends varint bytes (fun n rest => ∃ front, Varint.Spells front n ∧ bytes = front ++ rest) (Broken bytes) := by
  simp only [varint, ends_bind, ends_get]
  cases found : Varint.decode bytes with
  | error => exact ⟨rfl, suffix_refl _⟩
  | ok => exact Varint.decode_eq_ok_iff.1 found

lemma tag_spec (bytes : Bytes) :
    Ends tag bytes (fun result rest => ∃ front, SpellsTag front result.1 result.2 ∧ bytes = front ++ rest)
      (Broken bytes) := by
  simp only [tag, ends_bind]
  refine (varint_spec bytes).mono ?_ (fun _ _ broken => broken)
  rintro n rest ⟨front, spells, rfl⟩
  have suffix := suffix_append front rest
  cases known : WireType.ofNumber? (n % 8) with
  | none => exact ⟨rfl, suffix⟩
  | some wire =>
    simp only [ends_ite, ends_bind, ends_throw, ends_pure]
    split
    · exact ⟨rfl, suffix⟩
    · have whole : n = n / 8 * 8 + wire.number := by
        have : n % 8 = wire.number := WireType.number_of_ofNumber? known
        omega
      exact ⟨front, ⟨whole ▸ spells, by omega, by omega⟩, rfl⟩

lemma lengthDelimited_spec (field : Option Nat) (bytes : Bytes) :
    Ends (lengthDelimited field) bytes
      (fun payload rest => ∃ size, Varint.Spells size payload.length ∧ bytes = size ++ (payload ++ rest))
      (Broken bytes) := by
  simp only [lengthDelimited, ends_bind, ends_get]
  cases found : Varint.decode bytes with
  | error => exact ⟨rfl, suffix_refl _⟩
  | ok result =>
    obtain ⟨n, after⟩ := result
    obtain ⟨size, spells, rfl⟩ := Varint.decode_eq_ok_iff.1 found
    dsimp only
    cases taken : Bytes.take? n after with
    | none => exact ⟨rfl, suffix_refl _⟩
    | some parts =>
      obtain ⟨payload, rest⟩ := parts
      obtain ⟨rfl, rfl⟩ := Bytes.take?_eq_some taken
      exact ⟨size, spells, rfl⟩

/-- The wire types whose payload can be skipped without looking for an end. -/
def isFlat (wire : WireType) : Bool := wire != .startGroup && wire != .endGroup

lemma skipFlat_spec (field : Option Nat) (number : Nat) (wire : WireType) (bytes : Bytes) :
    Ends (skipFlat field number wire) bytes (fun _ rest => ∃ payload, wire.Frames payload ∧ bytes = payload ++ rest)
      (fun e rest => isFlat wire = true → Broken bytes e rest) := by
  cases wire with
  | varint =>
    simp only [skipFlat, ends_bind, ends_pure]
    refine (varint_spec bytes).mono ?_ fun _ _ broken _ => broken
    rintro n rest ⟨front, spells, rfl⟩
    exact ⟨front, ⟨n, spells⟩, rfl⟩
  | lengthDelimited =>
    simp only [skipFlat, ends_bind, ends_pure]
    refine (lengthDelimited_spec field bytes).mono ?_ fun _ _ broken _ => broken
    rintro payload rest ⟨size, spells, rfl⟩
    exact ⟨size ++ payload, ⟨size, payload, rfl, spells⟩, (append_assoc ..).symm⟩
  | fixed32 | fixed64 =>
    simp only [skipFlat, WireType.width?, ends_bind, ends_get]
    split
    · exact fun _ => ⟨rfl, suffix_refl _⟩
    · rename_i payload rest taken
      exact ⟨payload, Bytes.take?_eq_some taken⟩
  | startGroup | endGroup => exact fun flat => absurd flat (by decide)

/-- **Groups.**  What is skipped of a group are well-formed fields and the tag that ends it. -/
lemma skipGroup_spec (field : Option Nat) (turns number depth : Nat) (bytes : Bytes) :
    Ends (skipGroup field turns number depth) bytes
      (fun _ rest => depth ≤ maxDepth ∧ ∃ numbers fields closing, WireFields (maxDepth - depth) numbers fields
        ∧ SpellsTag closing number .endGroup ∧ bytes = fields ++ (closing ++ rest))
      (Broken bytes) := by
  induction turns generalizing number depth bytes with
  | zero => exact ⟨rfl, suffix_refl _⟩
  | succ turns ih =>
    simp only [skipGroup, ends_bind, ends_ite, ends_throw, ends_get]
    split
    · exact ⟨rfl, suffix_refl _⟩
    split
    · exact ⟨rfl, suffix_refl _⟩
    rename_i shallow _
    refine (tag_spec bytes).mono ?_ (fun _ _ broken => broken)
    rintro ⟨n, wire⟩ after ⟨tag, tagged, rfl⟩
    cases wire with
    | endGroup =>
      simp only [ends_ite, ends_throw, ends_pure]
      split
      · exact ⟨rfl, suffix_append tag after⟩
      · rename_i same
        obtain rfl : n = number := not_not.1 same
        exact ⟨by omega, [], [], tag, .nil, tagged, rfl⟩
    | startGroup =>
      simp only [ends_bind]
      refine (ih n (depth + 1) after).mono ?_ fun _ _ broken => broken.append
      rintro - middle ⟨room, inner, fields, closing, inside, closes, rfl⟩
      refine (ih number depth middle).mono ?_ fun _ _ broken => broken.append.append.append
      rintro - rest ⟨-, numbers, others, closing', later, closes', rfl⟩
      obtain ⟨levels, level⟩ : ∃ levels, maxDepth - depth = levels + 1 := ⟨maxDepth - (depth + 1), by omega⟩
      obtain rfl : maxDepth - (depth + 1) = levels := by omega
      rw [level] at later ⊢
      exact ⟨by omega, _, _, closing', .group tagged inside closes later, closes', by simp⟩
    | varint | fixed64 | lengthDelimited | fixed32 =>
      simp only [ends_bind]
      refine (skipFlat_spec field n _ after).mono ?_ fun _ _ broken => (broken rfl).append
      rintro - middle ⟨payload, framed, rfl⟩
      refine (ih number depth middle).mono ?_ fun _ _ broken => broken.append.append
      rintro - rest ⟨-, numbers, others, closing, later, closes, rfl⟩
      exact ⟨by omega, _, _, closing, .flat tagged framed later, closes, by simp⟩

lemma skip_spec (field : Option Nat) (number : Nat) (wire : WireType) (depth : Nat) (bytes : Bytes) :
    Ends (skip field number wire depth) bytes
      (fun _ rest => ∃ payload, WirePayload (maxDepth - depth) number wire payload ∧ bytes = payload ++ rest)
      (fun e rest => wire ≠ .endGroup → Broken bytes e rest) := by
  simp only [skip, ends_ite, ends_bind, ends_get]
  split
  · rename_i opens
    subst opens
    refine (skipGroup_spec field _ number (depth + 1) bytes).mono ?_ fun _ _ broken _ => broken
    rintro - rest ⟨room, numbers, fields, closing, inside, closes, rfl⟩
    have level : maxDepth - depth = maxDepth - (depth + 1) + 1 := by omega
    rw [level]
    exact ⟨fields ++ closing, .group inside closes, (append_assoc ..).symm⟩
  · rename_i flat
    refine (skipFlat_spec field number wire bytes).mono ?_ fun _ _ broken opens =>
      broken (by simp [isFlat, flat, opens])
    rintro - rest ⟨payload, framed, rfl⟩
    exact ⟨payload, .flat framed, rfl⟩

end Reader

/-! ## Cursors -/

namespace Cursor

variable {c' c'' : Cursor}

/-- A cursor has moved on to another state: it has not gone back, and it is on the same level and in
the same group. -/
structure Onward (c c' : Cursor) : Prop where
  rest : c'.rest <:+ c.rest
  depth : c'.depth = c.depth
  group : c'.group = c.group

lemma Onward.refl (c : Cursor) : Onward c c := ⟨suffix_refl _, rfl, rfl⟩

lemma Onward.trans (first : Onward c c') (second : Onward c' c'') :
    Onward c c'' :=
  ⟨second.rest.trans first.rest, second.depth.trans first.depth, second.group.trans first.group⟩

/-- What holds of every cursor that decoding works with: the payload it stands at can be skipped, and
only a group ends before the data does. -/
structure Sound (c : Cursor) : Prop where
  wire : c.wire ≠ .endGroup
  ended : c.ended = true → c.group.isSome = true

/-- The tag of a field was read, and its payload was not taken yet. -/
structure Standing (c : Cursor) (number : Nat) : Prop extends c.Sound where
  field : c.field = some number
  waiting : c.consumed = false
  marked : ∃ tag, SpellsTag tag number c.wire ∧ c.mark = tag ++ c.rest

/-- A cursor after an operation that ended well. -/
structure Moved (c c' : Cursor) : Prop extends c.Onward c', c'.Sound

/-- A cursor after an operation that failed: the data is malformed. -/
structure Failed (c : Cursor) (e : Fault) (c' : Cursor) : Prop extends c.Onward c' where
  malformed : e.isMalformed = true

lemma Moved.trans (first : Onward c c') (second : Moved c' c'') : Moved c c'' :=
  ⟨first.trans second.toOnward, second.toSound⟩

lemma Failed.trans {e : Fault} (first : Onward c c') (second : Failed c' e c'') :
    Failed c e c'' :=
  ⟨first.trans second.toOnward, second.malformed⟩

@[simp] lemma ends_reading {α : Type} {r : Reader α} {Q : α → Cursor → Prop} {E : Fault → Cursor → Prop} :
    Ends (reading r) c Q E ↔ Ends r c.rest (fun a rest => Q a { c with rest }) (fun e rest => E e { c with rest }) := by
  unfold Ends reading
  cases r c.rest <;> rfl

lemma reading_spec {α : Type} {r : Reader α} (sound : c.Sound) {Q : α → Bytes → Prop}
    (spec : Ends r c.rest Q (Broken c.rest)) (inside : ∀ a rest, Q a rest → rest <:+ c.rest) :
    Ends (reading r) c (fun a c' => Moved c c' ∧ c' = { c with rest := c'.rest } ∧ Q a c'.rest) (Failed c) := by
  rw [ends_reading]
  refine spec.mono (fun a rest h => ?_) (fun e rest broken => ?_)
  · exact ⟨⟨⟨inside a rest h, rfl, rfl⟩, ⟨sound.wire, sound.ended⟩⟩, rfl, h⟩
  · exact ⟨⟨broken.2, rfl, rfl⟩, broken.1⟩

lemma skipPayload_spec (sound : c.Sound) :
    Ends skipPayload c (fun _ c' => Moved c c'
        ∧ ∃ payload, WirePayload (maxDepth - c.depth) (c.field.getD 0) c.wire payload ∧ c.rest = payload ++ c'.rest)
      (Failed c) := by
  simp only [skipPayload, ends_bind, ends_get, ends_set]
  have claimed : Sound { c with consumed := true } := ⟨sound.wire, sound.ended⟩
  have skips := (Reader.skip_spec c.field (c.field.getD 0) c.wire c.depth c.rest).mono
    (fun _ _ skipped => skipped) fun _ _ broken => broken sound.wire
  refine (reading_spec claimed skips ?_).mono ?_ ?_
  · rintro - rest ⟨payload, -, whole⟩
    exact ⟨payload, whole.symm⟩
  · rintro - c' ⟨moved, -, skipped⟩
    exact ⟨⟨⟨moved.rest, moved.depth, moved.group⟩, moved.toSound⟩, skipped⟩
  · intro e c' failed
    exact ⟨⟨failed.rest, failed.depth, failed.group⟩, failed.malformed⟩

/-- What reading the next tag gives: a field to stand at, or the end. -/
def Advanced (c : Cursor) : Option Nat → Cursor → Prop
  | some number, c' =>
    1 ≤ number ∧ number ≤ maxFieldNumber ∧ c'.Standing number ∧ c.Onward c' ∧ c'.rest.length < c.rest.length
  | none, c' => Moved c c' ∧ (c'.group = none → c'.rest = [])

lemma nextTag_spec (sound : c.Sound) :
    Ends nextTag c (Advanced c) (Failed c) := by
  have here : Onward c { c with field := none } := ⟨suffix_refl _, rfl, rfl⟩
  simp only [nextTag, ends_bind, ends_modify, ends_get, ends_ite, ends_pure]
  split
  · rename_i ended
    refine ⟨⟨here, sound.wire, sound.ended⟩, fun none => ?_⟩
    have some := sound.ended ended
    simp_all
  split
  · rename_i empty
    cases group : c.group with
    | some =>
      simp only [ends_bind, ends_throw]
      exact ⟨⟨suffix_refl _, rfl, group.symm⟩, rfl⟩
    | none =>
      simp only [ends_pure]
      have onward : Onward c { c with group := none, field := none } :=
        ⟨suffix_refl _, rfl, group.symm⟩
      exact ⟨⟨onward, sound.wire, group ▸ sound.ended⟩, fun _ => List.isEmpty_iff.1 empty⟩
  simp only [ends_set, ends_reading]
  refine (Reader.tag_spec c.rest).mono ?_ ?_
  · rintro ⟨number, wire⟩ rest ⟨tag, tagged, whole⟩
    have suffix : rest <:+ c.rest := ⟨tag, whole.symm⟩
    have shorter : rest.length < c.rest.length := by
      have := length_pos_iff.2 tagged.ne_nil
      simp only [whole, length_append]
      omega
    by_cases ends : wire = .endGroup
    · subst ends
      simp only [ends_ite, ends_bind, ends_throw, ends_modify, ends_pure]
      split
      · exact ⟨⟨suffix, rfl, rfl⟩, rfl⟩
      · rename_i same
        have group : c.group = some number := by simpa using Eq.symm (not_not.1 same)
        exact ⟨⟨⟨suffix, rfl, rfl⟩, sound.wire, fun _ => by simp [group]⟩, by simp [group]⟩
    · cases wire <;> first | exact absurd rfl ends | skip
      all_goals
        simp only [ends_bind, ends_modify, ends_pure]
        exact ⟨tagged.positive, tagged.bounded, ⟨⟨by simp, sound.ended⟩, rfl, rfl, tag, tagged, whole⟩,
          ⟨suffix, rfl, rfl⟩, shorter⟩
  · intro e rest broken
    exact ⟨⟨broken.2, rfl, rfl⟩, broken.1⟩

lemma next_spec (sound : c.Sound) : Ends next c (Advanced c) (Failed c) := by
  simp only [next, ends_bind, ends_get, ends_ite]
  split
  · refine (skipPayload_spec sound).mono ?_ (fun _ _ failed => failed)
    rintro _ c' ⟨moved, -⟩
    refine (nextTag_spec moved.toSound).mono (fun found c'' advanced => ?_) fun _ _ failed =>
      failed.trans moved.toOnward
    cases found with
    | none => exact ⟨advanced.1.trans moved.toOnward, advanced.2⟩
    | some =>
      obtain ⟨positive, bounded, standing, onward, shorter⟩ := advanced
      exact ⟨positive, bounded, standing, moved.toOnward.trans onward, Nat.lt_of_lt_of_le shorter moved.rest.length_le⟩
  · exact nextTag_spec sound

/-! ## Payloads -/

lemma take_spec (standing : c.Standing number) (wires : List WireType) :
    Ends (take wires) c (fun wire c' => wire = c.wire ∧ wire ∈ wires ∧ c' = { c with consumed := true })
      (Failed c) := by
  simp only [take, ends_bind, ends_get, ends_ite, ends_throw, ends_set, ends_pure, standing.field, standing.waiting]
  simp only [Option.isNone_some, Bool.or_false, Bool.false_eq_true, if_false]
  split
  · exact ⟨trivial, by simpa using ‹wires.contains c.wire = true›, trivial⟩
  · exact ⟨Onward.refl c, rfl⟩

lemma scalar_spec (sound : c.Sound) (scalarType : t.isScalar = true) :
    Ends (scalar t t.wire) c (fun s c' => t.Gives s ∧ Moved c c') (Failed c) := by
  simp only [scalar, ends_bind, ends_get]
  rcases FieldType.read_spec scalarType c.rest with ⟨s, front, rest, found, -, whole⟩ | ⟨e, found, bad⟩
  · simp only [found, ends_bind, ends_set, ends_pure]
    exact ⟨⟨_, _, found⟩, ⟨⟨front, whole.symm⟩, rfl, rfl⟩, sound.wire, sound.ended⟩
  · simp only [found, ends_throw]
    exact ⟨Onward.refl c, bad⟩

lemma Standing.claimed (standing : c.Standing number) :
    Moved c { c with consumed := true } :=
  ⟨⟨suffix_refl _, rfl, rfl⟩, standing.wire, standing.ended⟩

lemma singular_spec (standing : c.Standing number) (scalarType : t.isScalar = true) :
    Ends (singular t) c (fun s c' => t.Gives s ∧ Moved c c') (Failed c) := by
  simp only [singular, ends_bind]
  refine (take_spec standing [t.wire]).mono ?_ (fun _ _ failed => failed)
  rintro wire c' ⟨-, found, rfl⟩
  obtain rfl : wire = t.wire := by simpa using found
  have claimed := standing.claimed
  refine (scalar_spec claimed.toSound scalarType).mono ?_ fun _ _ failed =>
    failed.trans claimed.toOnward
  rintro s c' ⟨gives, moved⟩
  exact ⟨gives, moved.trans claimed.toOnward⟩

lemma payload_spec (sound : c.Sound) :
    Ends payload c (fun _ c' => Moved c c') (Failed c) := by
  simp only [payload, ends_bind, ends_get]
  refine (reading_spec sound (Reader.lengthDelimited_spec c.field c.rest) ?_).mono
    (fun _ _ h => h.1) (fun _ _ failed => failed)
  rintro data rest ⟨size, -, whole⟩
  exact ⟨size ++ data, by rw [whole, append_assoc]⟩

end Cursor

/-- What the scalars of a packed run are, and that it breaks off only where the data is malformed. -/
structure Taken.Sound (t : FieldType) (taken : Taken) : Prop where
  values : ∀ s ∈ taken.values, t.Gives s
  fault : ∀ e, taken.fault = some e → e.isMalformed = true

lemma Taken.sound_nil (t : FieldType) : Taken.Sound t ⟨[], none⟩ := ⟨by simp, by simp⟩

lemma Taken.sound_singleton {s : Scalar} (gives : t.Gives s) :
    Taken.Sound t ⟨[s], none⟩ := ⟨by simpa using gives, by simp⟩

lemma FieldType.readPacked_spec (scalarType : t.isScalar = true) (turns : Nat)
    (packed : Bytes) : Taken.Sound t (t.readPacked turns packed) := by
  induction turns generalizing packed with
  | zero => exact Taken.sound_nil t
  | succ turns ih =>
    cases packed with
    | nil => exact Taken.sound_nil t
    | cons b tail =>
      simp only [FieldType.readPacked]
      rcases FieldType.read_spec scalarType (b :: tail) with
        ⟨s, front, rest, found, -, -⟩ | ⟨e, found, bad⟩
      · simp only [found]
        refine ⟨fun x member => ?_, (ih rest).fault⟩
        rcases mem_cons.1 member with rfl | later
        · exact ⟨_, _, found⟩
        · exact (ih rest).values x later
      · simp only [found]
        exact ⟨by simp, by simpa using bad⟩

namespace Cursor

lemma repeated_spec (standing : c.Standing number) (scalarType : t.isScalar = true) :
    Ends (repeated t) c (fun taken c' => taken.Sound t ∧ Moved c c') (Failed c) := by
  simp only [repeated, ends_bind, ends_ite, ends_pure]
  split
  · refine (singular_spec standing scalarType).mono (fun s c' h => ?_) (fun _ _ failed => failed)
    exact ⟨Taken.sound_singleton h.1, h.2⟩
  refine (take_spec standing _).mono ?_ (fun _ _ failed => failed)
  rintro wire c' ⟨-, found, rfl⟩
  have claimed := standing.claimed
  split
  · obtain rfl : wire = t.wire := by simpa [‹wire ≠ .lengthDelimited›] using found
    refine (scalar_spec claimed.toSound scalarType).mono (fun s c' h => ?_) fun _ _ failed =>
      failed.trans claimed.toOnward
    exact ⟨Taken.sound_singleton h.1, h.2.trans claimed.toOnward⟩
  · refine (payload_spec claimed.toSound).mono ?_ fun _ _ failed => failed.trans claimed.toOnward
    rintro packed c' moved
    exact ⟨FieldType.readPacked_spec scalarType _ _, moved.trans claimed.toOnward⟩

/-- What is kept of a field that nobody takes is the field. -/
lemma skipUnknown_spec (standing : c.Standing number) :
    Ends skipUnknown c (fun data c' => Moved c c' ∧ WireFields (maxDepth - c.depth) [number] data) (Failed c) := by
  simp only [skipUnknown, ends_bind, ends_get, ends_ite, ends_throw, ends_pure, standing.field, standing.waiting]
  simp only [Option.isNone_some, Bool.or_false, Bool.false_eq_true, if_false]
  refine (skipPayload_spec standing.toSound).mono ?_ fun _ _ failed => failed
  rintro - c' ⟨moved, payload, framed, whole⟩
  obtain ⟨tag, tagged, mark⟩ := standing.marked
  rw [standing.field, Option.getD_some] at framed
  rw [mark, whole, ← append_assoc, Bytes.consumed_append]
  exact ⟨moved, framed.single tagged⟩

/-- **Nesting is bounded.**  A cursor over nested data is made only for a level that is allowed. -/
lemma enter_spec (c : Cursor) (rest : Bytes) (group : Option Nat) :
    Ends (enter rest group) c
      (fun inner c' => c' = c ∧ c.depth < maxDepth ∧ inner = { rest, depth := c.depth + 1, group })
      (Failed c) := by
  simp only [enter, ends_bind, ends_get, ends_ite, ends_throw, ends_pure]
  split
  · exact ⟨Onward.refl c, rfl⟩
  · exact ⟨trivial, by omega, trivial⟩

end Cursor

end Missive
