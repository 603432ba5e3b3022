import Missive.Proofs.Message.Absorb

/-!
# Framing

Where a field ends does not depend on what it is taken for.

**Taking.**  An operation takes the current field if, whenever it succeeds, it has read a payload that is
framed as the wire type of the field asks, and what follows the payload has made no difference.
Everything that decoding applies to a field takes it (`takes_decodeNumber`), and leaves the class of the
message and the names of its loose attributes alone.  For groups that needs the decoder of nested data to
stop at the tag that ends the group (`Nests`), which in turn follows from what it applies to the fields
inside.

**Seeing.**  `Sees` lists the fields that decoding goes through, with their numbers and bytes.
-/

namespace Missive

open Plan List Decoding Cursor

variable {cur cur' : Cursor} {wire : WireType} {bytes rest data : Bytes} {s s' : Content × Cursor}
  {group : Option Nat} {p : Program} {decode : Decoding Unit} {existing v : Value}
  {number i depth : Nat} {m m' : Content} {R : Content → Content → Prop} {plan c : ClassPlan}
  {table : Option ExtensionTable}

/-! ## Taking a field -/

namespace Cursor

variable {α : Type}

/-- A cursor over other bytes, with the same bytes in front of them. -/
def facing (cur : Cursor) (front bytes : Bytes) : Cursor := { cur with rest := bytes, mark := front ++ bytes }

/-- A cursor behind the payload of its field. -/
def past (cur : Cursor) (rest : Bytes) : Cursor := { cur with rest := rest, consumed := true }

/-- What a cursor has before it is the payload of its field, and then the rest. -/
structure Spans (cur : Cursor) (payload rest : Bytes) : Prop where
  rest : cur.rest = payload ++ rest
  framed : WirePayload (maxDepth - cur.depth) (cur.field.getD 0) cur.wire payload

/-- An action takes the current field, where its result is good. -/
def Takes (x : Reading α) (good : α → Prop) : Prop :=
  ∀ ⦃cur cur' : Cursor⦄ ⦃a : α⦄, x cur = .ok a cur' → good a →
    ∃ payload rest, cur.Spans payload rest ∧ cur' = cur.past rest ∧ ∀ front other, cur.mark = front ++ cur.rest →
        x (cur.facing front (payload ++ other)) = .ok a ((cur.facing front (payload ++ other)).past other)

variable {wires : List WireType} {t : FieldType}

/-- A cursor stands at a field of one of some wire types that nothing was read of. -/
abbrev Awaits (cur : Cursor) (wires : List WireType) : Prop :=
  cur.field.isSome = true ∧ cur.consumed = false ∧ cur.wire ∈ wires

lemma take_eq_ok_iff : take wires cur = .ok wire cur'
    ↔ cur.Awaits wires ∧ cur.wire = wire ∧ { cur with consumed := true } = cur' := by
  rw [run_eq_ok_iff]
  simp only [Awaits, take, ends_bind, ends_get, ends_ite, ends_throw, ends_set, ends_pure]
  cases cur.field <;> cases cur.consumed <;> by_cases allowed : cur.wire ∈ wires <;> simp [allowed]

lemma sized_framed {size : Nat} {s : Scalar} (found : (match Bytes.take? size bytes with
      | some (payload, rest) => do return (← t.decodePayload (.bytes payload), rest)
      | none => .error (.data (.truncatedPayload t))) = Except.ok (ε := Fault) (s, rest)) :
    ∃ payload : Bytes, payload.length = size ∧ bytes = payload ++ rest ∧ t.decodePayload (.bytes payload) = .ok s := by
  cases taken : Bytes.take? size bytes with
  | none => simp [taken] at found
  | some =>
    rw [taken] at found
    obtain ⟨value, payloadIs, same⟩ := bind_ok found
    obtain ⟨rfl, rfl⟩ := Prod.mk.inj (Except.ok.inj same)
    obtain ⟨length, rfl⟩ := Bytes.take?_eq_some taken
    exact ⟨_, length, rfl, payloadIs⟩

/-- The payload of a scalar is framed as its wire type asks. -/
lemma read_framed {s : Scalar} (found : t.read wire bytes = .ok (s, rest)) :
    ∃ payload, wire.Frames payload ∧ bytes = payload ++ rest
      ∧ ∀ other, t.read wire (payload ++ other) = .ok (s, other) := by
  cases wire with
  | varint =>
    simp only [FieldType.read] at found
    cases decoded : Varint.decode bytes with
    | error => simp [decoded] at found
    | ok =>
      rw [decoded] at found
      obtain ⟨value, payloadIs, same⟩ := bind_ok found
      obtain ⟨rfl, rfl⟩ := Prod.mk.inj (Except.ok.inj same)
      obtain ⟨front, spells, rfl⟩ := Varint.decode_eq_ok_iff.1 decoded
      refine ⟨front, ⟨_, spells⟩, rfl, fun other => ?_⟩
      simp only [FieldType.read, spells.decode_append, payloadIs]
      rfl
  | lengthDelimited =>
    simp only [FieldType.read] at found
    cases decoded : Varint.decode bytes with
    | error => simp [decoded] at found
    | ok =>
      rw [decoded] at found
      obtain ⟨data, length, split, payloadIs⟩ := sized_framed found
      obtain ⟨front, spells, rfl⟩ := Varint.decode_eq_ok_iff.1 decoded
      rw [split, ← length] at *
      refine ⟨front ++ data, ⟨front, data, rfl, spells⟩, (append_assoc ..).symm, fun other => ?_⟩
      rw [append_assoc]
      simp only [FieldType.read, spells.decode_append, Bytes.take?_append, payloadIs]
      rfl
  | fixed32 | fixed64 =>
    simp only [FieldType.read, WireType.width?] at found
    obtain ⟨data, length, rfl, payloadIs⟩ := sized_framed found
    refine ⟨data, length, rfl, fun other => ?_⟩
    simp only [FieldType.read, WireType.width?, Bytes.take?_append length, payloadIs]
    rfl
  | startGroup | endGroup => simp [FieldType.read, WireType.width?] at found

lemma scalar_eq_ok_iff {s : Scalar} : scalar t wire cur = .ok s cur'
    ↔ ∃ rest, t.read wire cur.rest = .ok (s, rest) ∧ cur' = { cur with rest } := by
  rw [run_eq_ok_iff]
  simp only [scalar, ends_bind, ends_get]
  cases t.read wire cur.rest with
  | error => simp
  | ok =>
    simp only [ends_bind, ends_set, ends_pure]
    simp [Prod.ext_iff, eq_comm]

lemma payload_eq_ok_iff : payload cur = .ok data cur'
    ↔ ∃ size rest, Varint.Spells size data.length ∧ cur.rest = size ++ (data ++ rest) ∧ cur' = { cur with rest } := by
  constructor
  · intro run
    rw [run_eq_ok_iff] at run
    simp only [payload, ends_bind, ends_get, ends_reading] at run
    obtain ⟨_, rest, read, rfl, rfl⟩ := Succeeds.exists_run run
    obtain ⟨size, spells, whole⟩ :=
      yields_iff.1 (Reader.lengthDelimited_spec cur.field cur.rest).yields _ _ read
    exact ⟨size, rest, spells, whole, rfl⟩
  · rintro ⟨size, rest, spells, whole, rfl⟩
    rw [run_eq_ok_iff]
    simp only [payload, ends_bind, ends_get, ends_reading, whole, Reader.ends_lengthDelimited spells]
    exact ⟨trivial, trivial⟩

lemma enter_eq_ok_iff {inner : Cursor} :
    enter rest group cur = .ok inner cur'
      ↔ cur.depth < maxDepth ∧ { rest, depth := cur.depth + 1, group } = inner ∧ cur = cur' := by
  rw [run_eq_ok_iff]
  simp only [enter, ends_bind, ends_get, ends_ite, ends_throw, ends_pure]
  by_cases deep : maxDepth ≤ cur.depth <;> simp [deep]
  omega

/-- **Scalars.** -/
lemma takes_singular (t : FieldType) (good : Scalar → Prop) : Takes (singular t) good := by
  intro cur cur' a run _
  obtain ⟨wire, middle, took, read⟩ := run_bind_ok run
  obtain ⟨waiting, rfl, rfl⟩ := take_eq_ok_iff.1 took
  obtain ⟨rest, found, rfl⟩ := scalar_eq_ok_iff.1 read
  obtain ⟨payload, framed, whole, reads⟩ := read_framed found
  refine ⟨payload, rest, ⟨whole, .flat framed⟩, rfl, fun front other _ => ?_⟩
  refine (bind_run_ok (take_eq_ok_iff.2 ⟨waiting, rfl, rfl⟩) ?_)
  exact scalar_eq_ok_iff.2 ⟨other, reads other, rfl⟩

lemma Takes.map {β : Type} {x : Reading α} (takes : Takes x fun _ => True) (f : α → β)
    (good : β → Prop) : Takes (do return f (← x)) good := by
  intro cur cur' b run _
  obtain ⟨a, _, ran, rfl, rfl⟩ := run_bind_ok run
  obtain ⟨payload, rest, spans, rfl, again⟩ := takes ran trivial
  exact ⟨payload, rest, spans, rfl, fun front other marked => bind_run_ok (again front other marked) rfl⟩

/-- **Repeated scalars.** -/
lemma takes_repeated (t : FieldType) (good : Taken → Prop) : Takes (repeated t) good := by
  intro cur cur' a run _
  unfold repeated at run ⊢
  split at run
  · rename_i single
    simp only [if_pos single]
    exact (takes_singular t _).map (fun s => (⟨[s], none⟩ : Taken)) (fun _ => True) run trivial
  rename_i packable
  obtain ⟨wire, middle, took, run⟩ := run_bind_ok run
  obtain ⟨waiting, rfl, rfl⟩ := take_eq_ok_iff.1 took
  split at run
  · rename_i single
    obtain ⟨value, middle, read, rfl, rfl⟩ := run_bind_ok run
    obtain ⟨rest, found, rfl⟩ := scalar_eq_ok_iff.1 read
    obtain ⟨payload, framed, whole, reads⟩ := read_framed found
    refine ⟨payload, rest, ⟨whole, .flat framed⟩, rfl, fun front other _ => ?_⟩
    rw [if_neg packable]
    refine bind_run_ok (take_eq_ok_iff.2 ⟨waiting, rfl, rfl⟩) ?_
    rw [if_pos (show (cur.facing _ _).wire ≠ _ from single)]
    exact bind_run_ok (scalar_eq_ok_iff.2 ⟨other, reads other, rfl⟩) rfl
  · rename_i packed
    obtain ⟨data, middle, read, rfl, rfl⟩ := run_bind_ok run
    obtain ⟨size, rest, spells, whole, rfl⟩ := payload_eq_ok_iff.1 read
    have wire : cur.wire = .lengthDelimited := not_not.1 packed
    refine ⟨size ++ data, rest, ⟨?_, .flat ?_⟩, rfl, fun front other _ => ?_⟩
    · rw [append_assoc]
      exact whole
    · rw [wire]
      exact ⟨size, data, rfl, spells⟩
    · rw [if_neg packable]
      refine bind_run_ok (take_eq_ok_iff.2 ⟨waiting, rfl, rfl⟩) ?_
      rw [if_neg (show ¬(cur.facing _ _).wire ≠ _ from packed)]
      exact bind_run_ok (payload_eq_ok_iff.2 ⟨size, other, spells, append_assoc .., rfl⟩) rfl

/-- Skipping the payload of the current field succeeds where one is, and stops behind it. -/
lemma skipPayload_eq_ok_iff :
    skipPayload cur = .ok () cur' ↔ ∃ payload rest, cur.Spans payload rest ∧ cur' = cur.past rest := by
  constructor
  · intro run
    rw [run_eq_ok_iff] at run
    simp only [skipPayload, ends_bind, ends_get, ends_set, ends_reading] at run
    obtain ⟨_, rest, skip, -, rfl⟩ := Succeeds.exists_run run
    obtain ⟨payload, framed, whole⟩ := yields_iff.1 (Reader.skip_spec _ _ _ _ _).yields _ _ skip
    exact ⟨payload, rest, ⟨whole, framed⟩, rfl⟩
  · rintro ⟨payload, rest, spans, rfl⟩
    rw [run_eq_ok_iff]
    simp only [skipPayload, ends_bind, ends_get, ends_set, ends_reading, spans.rest, Reader.ends_skip spans.framed]
    exact ⟨trivial, rfl⟩

lemma skipUnknown_eq_ok_iff : skipUnknown cur = .ok data cur'
    ↔ (cur.field.isSome = true ∧ cur.consumed = false) ∧ skipPayload cur = .ok () cur'
      ∧ data = Bytes.consumed cur.mark cur'.rest := by
  rw [run_eq_ok_iff]
  simp only [skipUnknown, ends_bind, ends_get, ends_ite, ends_throw, ends_pure]
  cases skipped : skipPayload cur <;> cases cur.field <;> cases cur.consumed <;>
    simp [Ends, skipped]
  all_goals grind

/-- **Fields that nobody wants.** -/
lemma takes_skipUnknown (good : Bytes → Prop) : Takes skipUnknown good := by
  intro cur cur' data run _
  obtain ⟨waiting, skipped, rfl⟩ := skipUnknown_eq_ok_iff.1 run
  obtain ⟨payload, rest, spans, rfl⟩ := skipPayload_eq_ok_iff.1 skipped
  refine ⟨payload, rest, spans, rfl, fun front other marked => ?_⟩
  refine skipUnknown_eq_ok_iff.2 ⟨waiting, skipPayload_eq_ok_iff.2 ⟨payload, other, ⟨rfl, spans.framed⟩, rfl⟩, ?_⟩
  show Bytes.consumed cur.mark rest = Bytes.consumed (front ++ (payload ++ other)) other
  rw [marked, spans.rest, ← append_assoc, ← append_assoc, Bytes.consumed_append, Bytes.consumed_append]

/-- An action stays where it is, and only depends on how deep that is. -/
def Beside (x : Reading α) : Prop :=
  ∀ ⦃cur cur' : Cursor⦄ ⦃a : α⦄, x cur = .ok a cur' →
    cur' = cur ∧ ∀ other : Cursor, other.depth = cur.depth → x other = .ok a other

lemma beside_pure (a : α) : Beside (pure a) := by
  rintro cur cur' b ⟨⟩
  exact ⟨rfl, fun _ _ => rfl⟩

lemma beside_throw (e : Fault) : Beside (throw e : Reading α) := by
  rintro cur cur' b ⟨⟩

lemma beside_ofExcept (r : Except Fault α) : Beside (ofExcept r) := by
  cases r with
  | ok a => exact beside_pure a
  | error e => exact beside_throw e

lemma beside_enter (rest : Bytes) (group : Option Nat) : Beside (enter rest group) := by
  intro cur cur' inner run
  obtain ⟨shallow, rfl, rfl⟩ := enter_eq_ok_iff.1 run
  refine ⟨rfl, fun other depth => enter_eq_ok_iff.2 ⟨depth ▸ shallow, by rw [depth], rfl⟩⟩

lemma Beside.bind {β : Type} {x : Reading α} {y : α → Reading β} (first : Beside x)
    (second : ∀ a, Beside (y a)) : Beside (x >>= y) := by
  intro cur cur' b run
  obtain ⟨a, middle, ran, later⟩ := run_bind_ok run
  obtain ⟨rfl, again⟩ := first ran
  obtain ⟨rfl, again'⟩ := second a later
  exact ⟨rfl, fun other depth => bind_run_ok (again other depth) (again' other depth)⟩

/-- What reads a payload with its length in front goes on behind the payload. -/
lemma delimited_eq_ok_iff {y : Bytes → Reading α} {a : α} :
    (do let _ ← take [.lengthDelimited]; let data ← payload; y data : Reading α) cur = .ok a cur'
      ↔ cur.Awaits [.lengthDelimited] ∧ ∃ size data rest, Varint.Spells size data.length
        ∧ cur.rest = size ++ (data ++ rest) ∧ y data (cur.past rest) = .ok a cur' := by
  constructor
  · intro run
    obtain ⟨wire, _, took, run⟩ := run_bind_ok run
    obtain ⟨waiting, -, rfl⟩ := take_eq_ok_iff.1 took
    obtain ⟨data, _, read, run⟩ := run_bind_ok run
    obtain ⟨size, rest, spells, whole, rfl⟩ := payload_eq_ok_iff.1 read
    exact ⟨waiting, size, data, rest, spells, whole, run⟩
  · rintro ⟨waiting, size, data, rest, spells, whole, run⟩
    refine bind_run_ok (take_eq_ok_iff.2 ⟨waiting, rfl, rfl⟩) ?_
    exact bind_run_ok (payload_eq_ok_iff.2 ⟨size, rest, spells, whole, rfl⟩) run

/-- A payload with its length in front is taken, whatever is made of it. -/
lemma takes_delimited {y : Bytes → Reading α} (beside : ∀ data, Beside (y data)) (good : α → Prop) :
    Takes (do let _ ← take [.lengthDelimited]; let data ← payload; y data) good := by
  intro cur cur' a run _
  obtain ⟨waiting, size, data, rest, spells, whole, run⟩ := delimited_eq_ok_iff.1 run
  obtain ⟨rfl, again⟩ := beside data run
  refine ⟨size ++ data, rest, ⟨?_, .flat ?_⟩, rfl, fun front other _ => ?_⟩
  · rw [append_assoc]
    exact whole
  · rw [mem_singleton.1 waiting.2.2]
    exact ⟨size, data, rfl, spells⟩
  · exact delimited_eq_ok_iff.2 ⟨waiting, size, data, other, spells, append_assoc .., again _ rfl⟩

end Cursor

/-! ## Nested data -/

/-- Decoding a group stops at the tag that ends it, and what follows makes no difference. -/
def Nests (decode : Decoding Unit) : Prop :=
  ∀ ⦃m m' : Content⦄ ⦃cur cur' : Cursor⦄ ⦃depth number : Nat⦄ ⦃bytes : Bytes⦄,
    cur.Before depth (some number) bytes → decode (m, cur) = .ok () (m', cur') →
    ∃ numbers fields closing, WireFields (maxDepth - depth) numbers fields
      ∧ SpellsTag closing number .endGroup ∧ bytes = fields ++ (closing ++ cur'.rest)
      ∧ ∀ {other : Cursor} {rest : Bytes}, other.Before depth (some number) (fields ++ (closing ++ rest)) →
        Succeeds decode (m, other) fun _ s => s.1 = m' ∧ s.2.rest = rest

section nested

lemma takes_decodeMessageField (target : Meaning) (existing : Value) (good : Placed → Prop) :
    Cursor.Takes (decodeMessageField p decode target existing) good := by
  refine takes_delimited (fun data => ?_) good
  refine (beside_ofExcept _).bind fun start => ?_
  exact (beside_enter data none).bind fun inner => beside_pure _

lemma takes_decodeMapField (key : FieldType) (value : MapValue) (good : Key × Value → Prop) :
    Cursor.Takes (decodeMapField p decode key value) good := by
  refine takes_delimited (fun data => ?_) good
  refine (beside_enter data none).bind fun inner => ?_
  split
  · exact beside_throw _
  · split
    · exact beside_pure _
    · split
      · exact beside_pure _
      · exact (beside_ofExcept _).bind fun fresh => beside_pure _

lemma Cursor.ofExcept_eq_ok_iff {α : Type} {r : Except Fault α} {a : α} :
    Cursor.ofExcept r cur = .ok a cur' ↔ r = .ok a ∧ cur = cur' := by
  rw [run_eq_ok_iff]
  cases r <;> simp [Cursor.ofExcept]

/-- A cursor over the fields of the group that the current field is. -/
def Cursor.inGroup (cur : Cursor) : Cursor :=
  { rest := cur.rest, depth := cur.depth + 1, group := cur.field }

lemma runNested_eq_iff {start : Content} {inner : Cursor} :
    runNested decode existing start cur = (⟨v, none⟩, inner)
      ↔ ∃ m, decode (start, cur) = .ok () (m, inner) ∧ m.value = v := by
  unfold runNested
  cases decode (start, cur) with
  | ok => simp [Prod.ext_iff, and_comm]
  | error => simp

lemma decodeGroupField_eq_ok_iff {target : Meaning} :
    decodeGroupField p decode target existing cur = .ok ⟨v, none⟩ cur' ↔ cur.Awaits [.startGroup] ∧ cur.depth < maxDepth
        ∧ ∃ start m inner, nestedTarget p target existing = .ok start
          ∧ decode (start, cur.inGroup) = .ok () (m, inner) ∧ m.value = v
          ∧ cur.past inner.rest = cur' := by
  constructor
  · intro run
    obtain ⟨wire, _, took, run⟩ := run_bind_ok run
    obtain ⟨waiting, -, rfl⟩ := take_eq_ok_iff.1 took
    obtain ⟨_, _, ⟨⟩, run⟩ := run_bind_ok run
    obtain ⟨inner, _, entered, run⟩ := run_bind_ok run
    obtain ⟨shallow, rfl, rfl⟩ := enter_eq_ok_iff.1 entered
    obtain ⟨start, _, made, run⟩ := run_bind_ok run
    obtain ⟨target, rfl⟩ := ofExcept_eq_ok_iff.1 made
    generalize nested : runNested decode existing start _ = outcome at run
    obtain ⟨⟨v', fault⟩, inner⟩ := outcome
    cases fault with
    | some => cases run
    | none =>
      obtain ⟨m, ran, rfl⟩ := runNested_eq_iff.1 nested
      cases run
      exact ⟨waiting, shallow, start, m, inner, target, ran, rfl, rfl⟩
  · rintro ⟨waiting, shallow, start, m, inner, made, ran, rfl, rfl⟩
    refine bind_run_ok (take_eq_ok_iff.2 ⟨waiting, rfl, rfl⟩) ?_
    refine bind_run_ok rfl ?_
    refine bind_run_ok (enter_eq_ok_iff.2 ⟨shallow, rfl, rfl⟩) ?_
    refine bind_run_ok (ofExcept_eq_ok_iff.2 ⟨made, rfl⟩) ?_
    have nested : runNested decode existing start cur.inGroup = _ := runNested_eq_iff.2 ⟨m, ran, rfl⟩
    simp only [Cursor.inGroup] at nested
    simp only [nested]
    rfl

lemma decodeMessageField_eq_ok_iff {target : Meaning} :
    decodeMessageField p decode target existing cur = .ok ⟨v, none⟩ cur'
      ↔ cur.Awaits [.lengthDelimited] ∧ cur.depth < maxDepth
        ∧ ∃ size data rest start m inner, Varint.Spells size data.length ∧ cur.rest = size ++ (data ++ rest)
          ∧ nestedTarget p target existing = .ok start
          ∧ decode (start, { rest := data, depth := cur.depth + 1 }) = .ok () (m, inner) ∧ m.value = v
          ∧ cur.past rest = cur' := by
  constructor
  · intro run
    obtain ⟨waiting, size, data, rest, spells, whole, run⟩ := delimited_eq_ok_iff.1 run
    obtain ⟨start, _, made, run⟩ := run_bind_ok run
    obtain ⟨target, rfl⟩ := ofExcept_eq_ok_iff.1 made
    obtain ⟨inner, _, entered, run⟩ := run_bind_ok run
    obtain ⟨shallow, rfl, rfl⟩ := enter_eq_ok_iff.1 entered
    generalize nested : runNested decode existing start _ = outcome at run
    obtain ⟨placed, inner⟩ := outcome
    cases run
    obtain ⟨m, ran, rfl⟩ := runNested_eq_iff.1 nested
    exact ⟨waiting, shallow, size, data, rest, start, m, inner, spells, whole, target, ran, rfl, rfl⟩
  · rintro ⟨waiting, shallow, size, data, rest, start, m, inner, spells, whole, made, ran, rfl, rfl⟩
    refine delimited_eq_ok_iff.2 ⟨waiting, size, data, rest, spells, whole, ?_⟩
    refine bind_run_ok (ofExcept_eq_ok_iff.2 ⟨made, rfl⟩) ?_
    refine bind_run_ok (enter_eq_ok_iff.2 ⟨shallow, rfl, rfl⟩) ?_
    simp only [runNested, Cursor.past, ran]
    rfl

lemma Cursor.inGroup_before (field : cur.field = some number) :
    cur.inGroup.Before (cur.depth + 1) (some number) cur.rest :=
  ⟨rfl, rfl, field, rfl, rfl⟩

/-- **Groups.**  A group is skipped as it is decoded. -/
lemma takes_decodeGroupField (nests : Nests decode) (target : Meaning) (existing : Value) :
    Cursor.Takes (decodeGroupField p decode target existing) fun placed => placed.fault = none := by
  rintro cur cur' ⟨v, -⟩ run rfl
  obtain ⟨waiting, shallow, start, m, inner, made, ran, rfl, rfl⟩ := decodeGroupField_eq_ok_iff.1 run
  obtain ⟨number, field⟩ := Option.isSome_iff_exists.1 waiting.1
  obtain ⟨numbers, fields, closing, wire, closes, whole, again⟩ := nests (inGroup_before field) ran
  have level : maxDepth - cur.depth = maxDepth - (cur.depth + 1) + 1 := by omega
  refine ⟨fields ++ closing, inner.rest, ⟨?_, ?_⟩, rfl, fun front other _ => ?_⟩
  · rw [append_assoc]
    exact whole
  · rw [level, field, mem_singleton.1 waiting.2.2]
    exact .group wire closes
  · have before : (cur.facing front (fields ++ closing ++ other)).inGroup.Before (cur.depth + 1) (some number)
        (fields ++ (closing ++ other)) := by
      rw [← append_assoc]
      exact inGroup_before field
    obtain ⟨_, ⟨m', inner'⟩, ran', rfl, left⟩ := (again before).exists_run
    refine decodeGroupField_eq_ok_iff.2 ⟨waiting, shallow, start, _, inner', made, ran', rfl, ?_⟩
    rw [left]

/-- **Nested data.** -/
lemma takes_decodeNested (nests : Nests decode) (group : Bool) (target : Meaning) (existing : Value) :
    Cursor.Takes (decodeNested p decode group target existing) fun placed => placed.fault = none := by
  intro cur cur' placed run fine
  obtain ⟨meaning, _, evaluates, later⟩ := run_bind_ok run
  obtain ⟨evaluated, rfl⟩ := ofExcept_eq_ok_iff.1 evaluates
  have takes : Cursor.Takes (if group then decodeGroupField p decode meaning existing
      else decodeMessageField p decode meaning existing) fun placed => placed.fault = none := by
    split
    · exact takes_decodeGroupField nests _ _
    · exact takes_decodeMessageField _ _ _
  obtain ⟨payload, rest, spans, rfl, again⟩ := takes later fine
  refine ⟨payload, rest, spans, rfl, fun front other marked => ?_⟩
  exact bind_run_ok (ofExcept_eq_ok_iff.2 ⟨evaluated, rfl⟩) (again front other marked)

end nested

/-! ## Fields -/

/-- A message is of the same class as another one, marked as it is, and has loose attributes of the same
names. -/
structure Content.Kin (m m' : Content) : Prop where
  type : m'.head.type = m.head.type
  merged : m'.head.merged = m.head.merged
  names : m'.loose.map (·.1) = m.loose.map (·.1)

lemma Content.Kin.refl (m : Content) : m.Kin m := ⟨rfl, rfl, rfl⟩

lemma Content.Kin.trans {m'' : Content} (first : m.Kin m') (second : m'.Kin m'') : m.Kin m'' :=
  ⟨second.type.trans first.type, second.merged.trans first.merged, second.names.trans first.names⟩

/-- Relations between messages that hold step by step, and hold where neither the class nor the slots of a
message change. -/
class Content.Steady (R : Content → Content → Prop) : Prop where
  aside : ∀ {m m'}, m.Kin m' → m'.slots = m.slots → R m m'
  trans : ∀ {m m' m''}, R m m' → R m' m'' → R m m''

lemma Content.Steady.refl [steady : Steady R] (m : Content) : R m m :=
  steady.aside (.refl m) rfl

/-- What is written to a slot keeps messages related. -/
def Content.Writes (R : Content → Content → Prop) (plan : ClassPlan) (i : Nat) : Prop :=
  ∀ ⦃m m' : Content⦄ ⦃v : Value⦄, m.write plan i v = .ok m' → R m m'

instance : Content.Steady Content.Kin := ⟨fun kin _ => kin, .trans⟩

lemma Content.writes_kin (plan : ClassPlan) (i : Nat) : Writes Kin plan i := by
  intro m m' v written
  unfold write at written
  split at written
  · cases written
    exact ⟨rfl, rfl, rfl⟩
  · obtain ⟨data, -, same⟩ := bind_ok written
    cases same
    exact ⟨rfl, rfl, rfl⟩
  · cases written

namespace Decoding

variable {α β : Type}

/-- An action that has nothing to do with the cursor, and changes a message in a certain way only. -/
def Still (R : Content → Content → Prop) (x : Decoding α) : Prop :=
  ∀ ⦃m m' : Content⦄ ⦃cur cur' : Cursor⦄ ⦃a : α⦄, x (m, cur) = .ok a (m', cur') →
    cur' = cur ∧ R m m' ∧ ∀ other, x (m, other) = .ok a (m', other)

/-- An action takes the current field, and changes the message in a certain way only. -/
def Takes (R : Content → Content → Prop) (x : Decoding α) : Prop :=
  ∀ ⦃m m' : Content⦄ ⦃cur cur' : Cursor⦄ ⦃a : α⦄, x (m, cur) = .ok a (m', cur') →
    ∃ payload rest, cur.Spans payload rest ∧ cur' = cur.past rest ∧ R m m'
      ∧ ∀ front other, cur.mark = front ++ cur.rest → x (m, cur.facing front (payload ++ other))
        = .ok a (m', (cur.facing front (payload ++ other)).past other)

lemma reading_eq_ok_iff {r : Reading α} {a : α} :
    reading r (m, cur) = .ok a (m', cur') ↔ m = m' ∧ r cur = .ok a cur' := by
  cases result : r cur <;> simp [reading, result, and_left_comm]

lemma still_throw (e : Fault) : Still R (throw e : Decoding α) := by
  rintro m m' cur cur' b ⟨⟩

lemma still_ite {c : Prop} [Decidable c] {x y : Decoding α} (yes : Still R x) (no : Still R y) :
    Still R (if c then x else y) := by
  split
  · exact yes
  · exact no

lemma still_store (writes : Content.Writes R plan i) (v : Value) :
    Still R (store plan i v) := by
  intro m m' cur cur' u run
  obtain ⟨_, _, ⟨⟩, later⟩ := run_bind_ok run
  obtain ⟨m'', ⟨_, _⟩, stored, ⟨⟩⟩ := run_bind_ok later
  obtain ⟨rfl, read⟩ := reading_eq_ok_iff.1 stored
  obtain ⟨written, rfl⟩ := ofExcept_eq_ok_iff.1 read
  refine ⟨rfl, writes written, fun other => bind_run_ok rfl ?_⟩
  have again : reading (Cursor.ofExcept (m.write plan i v)) (m, other) = .ok m'' (m, other) :=
    reading_eq_ok_iff.2 ⟨rfl, ofExcept_eq_ok_iff.2 ⟨written, rfl⟩⟩
  exact bind_run_ok again rfl

lemma takes_throw (e : Fault) : Takes R (throw e : Decoding α) := by
  rintro m m' cur cur' b ⟨⟩

variable [steady : Content.Steady R]

lemma still_pure (a : α) : Still R (pure a) := by
  rintro m m' cur cur' b ⟨⟩
  exact ⟨rfl, steady.refl m, fun _ => rfl⟩

lemma still_content : Still R content := by
  rintro m m' cur cur' b ⟨⟩
  exact ⟨rfl, steady.refl m, fun _ => rfl⟩

lemma still_update {f : Content → Content} (kin : ∀ m : Content, m.Kin (f m))
    (same : ∀ m : Content, (f m).slots = m.slots) : Still R (update f) := by
  rintro m m' cur cur' b ⟨⟩
  exact ⟨rfl, steady.aside (kin m) (same m), fun _ => rfl⟩

lemma still_ofExcept (r : Except Fault α) : Still R (reading (Cursor.ofExcept r)) := by
  cases r with
  | ok a => exact still_pure a
  | error e => exact still_throw e

lemma Still.bind {x : Decoding α} {y : α → Decoding β} (first : Still R x) (second : ∀ a, Still R (y a)) :
    Still R (x >>= y) := by
  intro m m' cur cur' b run
  obtain ⟨a, ⟨m'', _⟩, ran, later⟩ := run_bind_ok run
  obtain ⟨rfl, kin, again⟩ := first ran
  obtain ⟨rfl, kin', again'⟩ := second a later
  exact ⟨rfl, steady.trans kin kin', fun other => bind_run_ok (again other) (again' other)⟩

lemma Still.whether {c : Prop} [Decidable c] {x : Decoding α} {y : Decoding β} (first : Still R x)
    (second : Still R y) : Still R (if c then do let _ ← x; y else y : Decoding β) :=
  still_ite (first.bind fun _ => second) second

lemma still_current (plan : ClassPlan) (i : Nat) : Still R (current p plan i) :=
  still_content.bind fun _ => still_ofExcept _

lemma still_raise (f : Option Fault) : Still R (raise f) := by
  cases f with
  | none => exact still_pure _
  | some f => exact still_throw f

lemma still_needList (v : Value) : Still R (needList v) :=
  still_ite (still_throw _) (still_pure _)

lemma still_storeExtension (e : Extension) (v : Value) : Still R (storeExtension e v) :=
  still_update (fun _ => ⟨rfl, rfl, rfl⟩) fun _ => rfl

lemma still_updateExtension (number : Int) (v : Value) : Still R (update (·.updateExtension number v)) :=
  still_update (fun _ => ⟨rfl, rfl, rfl⟩) fun _ => rfl

lemma raise_eq_ok {f : Option Fault} {u : Unit} (run : raise f s = .ok u s') :
    f = none := by
  cases f with
  | none => rfl
  | some => cases run

lemma raise_bind_eq_ok {f : Option Fault} {y : Unit → Decoding β} {b : β} (run : (raise f >>= y) s = .ok b s') :
    f = none := by
  obtain ⟨_, _, raised, -⟩ := run_bind_ok run
  exact raise_eq_ok raised

lemma of_ite_bind_eq_ok {P : Prop} {c : Prop} [Decidable c] {x : Decoding α} {y : Decoding β}
    (needs : ∀ s s' b, y s = .ok b s' → P) {b : β}
    (run : (if c then do let _ ← x; y else y : Decoding β) s = .ok b s') : P := by
  split at run
  · obtain ⟨_, _, -, later⟩ := run_bind_ok run
    exact needs _ _ _ later
  · exact needs _ _ _ run

lemma Takes.bind {x : Decoding α} {y : α → Decoding β} (first : Takes R x) (second : ∀ a, Still R (y a)) :
    Takes R (x >>= y) := by
  intro m m' cur cur' b run
  obtain ⟨a, ⟨m'', _⟩, ran, later⟩ := run_bind_ok run
  obtain ⟨payload, rest, spans, rfl, kin, again⟩ := first ran
  obtain ⟨rfl, kin', again'⟩ := second a later
  exact ⟨payload, rest, spans, rfl, steady.trans kin kin', fun front other marked =>
    bind_run_ok (again front other marked) (again' _)⟩

lemma Still.takes {x : Decoding α} {y : α → Decoding β} (first : Still R x) (second : ∀ a, Takes R (y a)) :
    Takes R (x >>= y) := by
  intro m m' cur cur' b run
  obtain ⟨a, ⟨m'', _⟩, ran, later⟩ := run_bind_ok run
  obtain ⟨rfl, kin, again⟩ := first ran
  obtain ⟨payload, rest, spans, rfl, kin', again'⟩ := second a later
  exact ⟨payload, rest, spans, rfl, steady.trans kin kin', fun front other marked =>
    bind_run_ok (again _) (again' front other marked)⟩

omit steady in
/-- A field is taken from the message's cursor, if only good results are gone on with. -/
lemma takes_reading {r : Reading α} {good : α → Prop} {y : α → Decoding β} (takes : Cursor.Takes r good)
    (fine : ∀ a s s' b, y a s = .ok b s' → good a) (still : ∀ a, Still R (y a)) :
    Takes R (reading r >>= y) := by
  intro m m' cur cur' b run
  obtain ⟨a, ⟨m'', middle⟩, ran, later⟩ := run_bind_ok run
  obtain ⟨rfl, read⟩ := reading_eq_ok_iff.1 ran
  obtain ⟨payload, rest, spans, rfl, again⟩ := takes read (fine a _ _ b later)
  obtain ⟨rfl, kin, again'⟩ := still a later
  refine ⟨payload, rest, spans, rfl, kin, fun front other marked => bind_run_ok ?_ (again' _)⟩
  exact reading_eq_ok_iff.2 ⟨rfl, again front other marked⟩

omit steady in
lemma takes_read {r : Reading α} {y : α → Decoding β} (takes : ∀ good, Cursor.Takes r good)
    (still : ∀ a, Still R (y a)) : Takes R (reading r >>= y) :=
  takes_reading (takes fun _ => True) (fun _ _ _ _ _ => trivial) still

end Decoding

section fields

open Decoding

variable [Content.Steady R] (nests : Nests decode)

lemma takes_decodeScalars (type : FieldType) (items : Value) : Takes R (decodeScalars type items) := by
  have read : Takes R (do
      let taken ← reading (Cursor.repeated type)
      if !taken.values.isEmpty then needList items
      return taken : Decoding Taken) := by
    refine takes_read (takes_repeated type) fun taken => ?_
    exact (still_needList _).whether (still_pure _)
  unfold decodeScalars
  dsimp only
  split
  · exact (still_needList items).takes fun _ => read
  · exact read

lemma takes_keepUnknown : Takes R keepUnknown := by
  refine takes_read takes_skipUnknown fun data => ?_
  refine still_content.bind fun m => ?_
  split
  · exact still_update (fun _ => ⟨rfl, rfl, rfl⟩) fun _ => rfl
  · refine still_update (fun m => ⟨rfl, rfl, ?_⟩) fun _ => rfl
    rw [Content.setLoose, map_map]
    congr 1
    funext x
    simp only [Function.comp_apply]
    split <;> rfl
  · exact still_throw _

/-- A case is placed only if its value could be decoded. -/
lemma placeCase_eq_ok {o : OneofPlan} {made : CaseTag} {number : Int} {current : Value} {placed : Placed}
    {u : Unit} (run : placeCase p plan o i made number current existing placed s = .ok u s') :
    placed.fault = none := by
  unfold placeCase at run
  cases fault : placed.fault with
  | none => rfl
  | some f =>
    rw [fault, Option.orElse_eq_orElse, Option.orElse_some] at run
    have raised : ∀ (s s' : Content × Cursor) (u : Unit), (throw f : Decoding Unit) s = .ok u s' → False :=
      fun _ _ _ thrown => by cases thrown
    cases current with
    | case => exact (of_ite_bind_eq_ok raised run).elim
    | scalar | list | map | message | tuple | loop => cases run

variable (writes : Content.Writes R plan i)

include writes

lemma still_placeCase (o : OneofPlan) (made : CaseTag) (number : Int) (current existing : Value) (placed : Placed) :
    Still R (placeCase p plan o i made number current existing placed) := by
  unfold placeCase
  split
  · cases current with
    | case => exact (still_store writes _).whether (still_throw _)
    | scalar | list | map | message | tuple | loop => exact still_throw _
  · refine (still_ofExcept _).bind fun active => ?_
    cases active with
    | none => exact still_store writes _
    | some => exact (still_throw _).whether (still_store writes _)

include nests

lemma takes_decodeField (locals : Locals) (f : FieldPlan) :
    Takes R (decodeField p decode locals plan f i) := by
  unfold decodeField
  cases f.kind with
  | scalar type => exact takes_read (takes_singular type) fun _ => still_store writes _
  | repeated type =>
    refine (still_current plan i).takes fun items => ?_
    refine (takes_decodeScalars type items).bind fun taken => ?_
    exact (still_store writes _).whether (still_raise _)
  | message group =>
    refine (still_current plan i).takes fun existing => ?_
    refine takes_reading (takes_decodeNested nests group _ existing)
      (fun _ _ _ _ run => of_ite_bind_eq_ok (fun _ _ _ => raise_eq_ok) run) fun placed => ?_
    exact (still_store writes _).whether (still_raise _)
  | repeatedMessage group =>
    refine (still_current plan i).takes fun items => ?_
    refine (still_ofExcept _).takes fun target => (still_needList items).takes fun _ => ?_
    exact takes_reading (takes_decodeNested nests group target .none) (fun _ _ _ _ => raise_bind_eq_ok)
      fun placed => (still_raise _).bind fun _ => still_store writes _
  | map key value ref =>
    refine (still_current plan i).takes fun entries => ?_
    have entry : ∀ kind, Takes R (reading (decodeMapField p decode key kind) >>= fun read => do
        store plan i (← reading (Cursor.ofExcept (entries.putKey read.1 read.2))) : Decoding Unit) := by
      intro kind
      refine takes_read (takes_decodeMapField key kind) ?_
      rintro ⟨k, v⟩
      exact (still_ofExcept _).bind fun _ => still_store writes _
    cases ref with
    | none => exact (still_pure _).takes entry
    | some =>
      exact (still_ofExcept _).takes fun target => (still_pure _).takes entry

omit writes in
lemma takes_decodeMember (locals : Locals) (m : MemberPlan) (existing : Value) :
    Cursor.Takes (decodeMember p decode locals m existing) fun placed => placed.fault = none := by
  unfold decodeMember
  cases m.kind with
  | scalar type => exact (takes_singular type _).map (fun s => (⟨.scalar s, none⟩ : Placed)) _
  | message group => exact takes_decodeNested nests group _ existing
  | entry => exact (takes_singular .message _).map (fun s => (⟨.scalar s, none⟩ : Placed)) _

lemma takes_decodeOneof (o : OneofPlan) (number : Int) :
    Takes R (decodeOneof p decode plan o i number) := by
  unfold decodeOneof
  refine still_content.takes fun m => (still_current plan i).takes fun current => ?_
  refine (still_ofExcept _).takes ?_
  rintro ⟨made, decoder⟩
  dsimp only
  split
  · exact (still_ofExcept _).takes fun _ => takes_throw _
  · refine (still_ofExcept _).takes fun existing => ?_
    exact takes_reading (takes_decodeMember nests _ _ existing) (fun _ _ _ _ run => placeCase_eq_ok run)
      fun placed => still_placeCase writes ..

omit writes

lemma takes_decodeExtension (e : Extension) : Takes R (decodeExtension p decode e) := by
  unfold decodeExtension
  have stored : ∀ (fault : Option Fault) (v : Value), Still R (do Decoding.raise fault; storeExtension e v) :=
    fun _ _ => (still_raise _).bind fun _ => still_storeExtension _ _
  refine still_content.takes fun m => ?_
  dsimp only
  split
  · unfold decodeRepeatedExtension
    dsimp only
    split
    · exact (takes_decodeScalars _ _).bind fun taken => (still_updateExtension _ _).whether (stored _ _)
    · refine (still_needList _).takes fun _ => ?_
      exact takes_reading (takes_decodeNested nests _ _ _) (fun _ _ _ _ => raise_bind_eq_ok) fun placed => stored _ _
  · unfold decodeSingularExtension
    split
    · exact takes_read (takes_singular _) fun _ => still_storeExtension _ _
    · exact takes_reading (takes_decodeNested nests _ _ _)
        (fun _ _ _ _ run => of_ite_bind_eq_ok (fun _ _ _ => raise_bind_eq_ok) run)
        fun placed => (still_updateExtension _ _).whether (stored _ _)

lemma takes_decodeRanged (own : Meaning) (number : Nat) :
    Takes R (decodeRanged p table decode own number) := by
  unfold decodeRanged
  refine still_content.takes fun m => ?_
  dsimp only
  split
  on_goal 1 => refine (still_throw _).takes fun _ => ?_
  all_goals
    refine (still_ofExcept _).takes fun meaning => ?_
    split
    · split
      · exact takes_keepUnknown
      · exact takes_throw _
      · exact takes_decodeExtension nests _
    · exact takes_throw _
    · exact takes_throw _
    · exact takes_keepUnknown

/-- **All fields.**  Whatever decoding makes of a field, it takes it, and writes to the slot of its number at
most. -/
lemma takes_decodeNumber_of (writes : ∀ i, c.route number = .slot i → Content.Writes R c i) (assigned : OneofLocals) :
    Takes R (decodeNumber p table decode c assigned number) := by
  unfold decodeNumber
  dsimp only
  split
  · rename_i i route
    split
    · exact takes_keepUnknown.bind fun _ => still_pure _
    · refine (still_current _ _).takes fun _ => ?_
      exact (takes_decodeOneof nests (writes i route) _ _).bind fun _ => still_pure _
    · exact (takes_decodeField nests (writes i route) _ _).bind fun _ => still_pure _
  · exact (takes_decodeRanged nests _ _).bind fun _ => still_pure _
  · exact takes_keepUnknown.bind fun _ => still_pure _

lemma takes_decodeNumber (c : ClassPlan) (assigned : OneofLocals) (number : Nat) :
    Takes Content.Kin (decodeNumber p table decode c assigned number) :=
  takes_decodeNumber_of nests (fun i _ => Content.writes_kin c i) assigned

end fields

/-! ## Runs -/

lemma Cursor.Stands.ext {other : Cursor} {mark : Bytes} (stands : cur.Stands depth group number wire mark rest)
    (stands' : other.Stands depth group number wire mark rest) : cur = other := by
  obtain ⟨rfl, rfl, rfl, rfl, goes, field, rfl, waiting⟩ := stands
  obtain ⟨h1, h2, h3, h4, goes', field', h5, waiting'⟩ := stands'
  cases cur
  cases other
  simp_all

section runs

/-- What was taken of a field is its payload, and any other rest might have followed. -/
lemma Decoding.Takes.at_field {α : Type} {x : Decoding α} (takes : Takes R x) {tag : Bytes}
    (stands : cur.Stands depth group number wire (tag ++ bytes) bytes) {a : α}
    (run : x (m, cur) = .ok a (m', cur')) :
    ∃ payload rest, bytes = payload ++ rest ∧ WirePayload (maxDepth - depth) number wire payload
      ∧ cur'.Before depth group rest ∧ R m m'
      ∧ ∀ {other : Cursor} {rest : Bytes},
        other.Stands depth group number wire (tag ++ (payload ++ rest)) (payload ++ rest) →
        Succeeds x (m, other) fun b s => b = a ∧ s.1 = m' ∧ s.2.Before depth group rest := by
  obtain ⟨payload, rest, ⟨whole, framed⟩, rfl, kin, again⟩ := takes run
  have behind : ∀ {other : Cursor} {mark all rest : Bytes},
      other.Stands depth group number wire mark all → (other.past rest).Before depth group rest :=
    fun stands' => ⟨rfl, stands'.depth, stands'.group, stands'.goes, by simp [Cursor.past]⟩
  rw [stands.depth, stands.field, stands.wire] at framed
  refine ⟨payload, rest, stands.rest ▸ whole, framed, behind stands, kin, ?_⟩
  intro other rest' stands'
  have faces : (cur.facing tag (payload ++ rest')).Stands depth group number wire
      (tag ++ (payload ++ rest')) (payload ++ rest') :=
    ⟨rfl, rfl, stands.depth, stands.group, stands.goes, stands.field, stands.wire, stands.waiting⟩
  have marked : cur.mark = tag ++ cur.rest := by rw [stands.mark, stands.rest]
  rw [stands'.ext faces, Succeeds, ends_of_ok (again tag rest' marked)]
  exact ⟨rfl, rfl, behind faces⟩

/-- **Runs, field by field.**  A run that succeeds stops at the end of its data or group, or goes over a field and on
behind it. -/
@[elab_as_elim]
lemma decodeFields_induction (nests : Nests decode) {P : Nat → OneofLocals → Content → Cursor → Bytes → Prop}
    (stop : ∀ {turns assigned cur bytes}, Cursor.next cur = .ok none cur' → Cursor.Closes group bytes cur'.rest →
      P (turns + 1) assigned m' cur bytes)
    (field : ∀ {turns assigned last m₁ m₂ cur cur₁ cur₂ number wire tag payload rest},
      Cursor.next cur = .ok (some number) cur₁ → SpellsTag tag number wire →
      cur₁.Stands depth group number wire (tag ++ (payload ++ rest)) (payload ++ rest) →
      WirePayload (maxDepth - depth) number wire payload →
      decodeNumber p table decode c assigned number (m₁, cur₁) = .ok last (m₂, cur₂) →
      P turns last m₂ cur₂ rest → P (turns + 1) assigned m₁ cur (tag ++ (payload ++ rest)))
    (before : cur.Before depth group bytes) {turns : Nat} (enough : bytes.length < turns) {assigned : OneofLocals}
    (run : decodeFields p table decode c turns assigned (m, cur) = .ok () (m', cur')) :
    P turns assigned m cur bytes := by
  induction turns generalizing m cur bytes assigned with
  | zero => exact absurd enough (by omega)
  | succ turns ih =>
    obtain ⟨found, ⟨_, cur₁⟩, read, later⟩ := run_bind_ok run
    obtain ⟨rfl, next⟩ := reading_eq_ok_iff.1 read
    have stops := yields_iff.1 (next_yields before) _ _ next
    cases found with
    | none =>
      cases later
      exact stop next stops
    | some number =>
      obtain ⟨tag, wire, after, rfl, tagged, stands⟩ := stops
      obtain ⟨last, ⟨m₁, cur₂⟩, step, later⟩ := run_bind_ok later
      obtain ⟨payload, rest, rfl, framed, before', -, -⟩ :=
        (takes_decodeNumber nests c assigned number).at_field stands step
      have shorter : rest.length < turns := by
        have := length_pos_iff.2 tagged.ne_nil
        simp only [length_append] at enough
        omega
      exact field next tagged stands framed step (ih before' shorter later)

/-- **Runs in step.**  A decoder that follows another one over every field follows it over all of them. -/
lemma decodeFields_follows (nests : Nests decode) {S : Content → Content → Prop} {p' : Program}
    {table' : Option ExtensionTable} {decode' : Decoding Unit} {c' : ClassPlan}
    (step : ∀ {m m' m₁ cur cur₁ number wire tag payload rest assigned assigned' last}, S m m' →
      SpellsTag tag number wire →
      cur.Stands depth group number wire (tag ++ (payload ++ rest)) (payload ++ rest) → wire ≠ .endGroup →
      decodeNumber p table decode c assigned number (m, cur) = .ok last (m₁, cur₁) →
      ∃ last' m₁', decodeNumber p' table' decode' c' assigned' number (m', cur) = .ok last' (m₁', cur₁) ∧ S m₁ m₁')
    (before : cur.Before depth group bytes) {turns : Nat} (enough : bytes.length < turns) {assigned : OneofLocals}
    (run : decodeFields p table decode c turns assigned (m, cur) = .ok () (m', cur')) (w : Content)
    (assigned' : OneofLocals) (related : S m w) :
    ∃ w', decodeFields p' table' decode' c' turns assigned' (w, cur) = .ok () (w', cur') ∧ S m' w' := by
  revert w assigned'
  refine decodeFields_induction nests ?_ ?_ before enough run
  · intro _ _ _ _ next _ w _ related
    exact ⟨w, bind_run_ok (reading_eq_ok_iff.2 ⟨rfl, next⟩) rfl, related⟩
  · intro _ _ _ _ _ _ _ _ _ _ _ _ _ next tagged stands framed run later w _ related
    obtain ⟨_, _, run', related'⟩ := step related tagged stands framed.ne_endGroup run
    obtain ⟨w', later', related''⟩ := later _ _ related'
    exact ⟨w', bind_run_ok (reading_eq_ok_iff.2 ⟨rfl, next⟩) (bind_run_ok run' later'), related''⟩

/-- **Runs.**  A run of the decoder goes over well-formed fields up to the end of its data or group, and
any other rest might have followed them. -/
lemma decodeFields_passes (nests : Nests decode) (before : cur.Before depth group bytes) {turns : Nat}
    (enough : bytes.length < turns) {assigned : OneofLocals}
    (run : decodeFields p table decode c turns assigned (m, cur) = .ok () (m', cur')) :
    ∃ numbers fields tail last, WireFields (maxDepth - depth) numbers fields ∧ bytes = fields ++ tail
      ∧ Cursor.Closes group tail cur'.rest ∧ m.Kin m'
      ∧ Passes p table decode c depth group assigned m fields fun last' m'' => last' = last ∧ m'' = m' := by
  refine decodeFields_induction nests (fun _ closes => ?_) ?_ before enough run
  · exact ⟨[], [], _, _, .nil, rfl, closes, .refl _, passes_nil ⟨rfl, rfl⟩⟩
  intro _ assigned assigned₁ m m₁ _ _ _ number wire tag payload rest _ tagged stands framed step later
  obtain ⟨numbers, fields, tail, last, wire', rfl, closes, kin', passes⟩ := later
  obtain ⟨payload', _, whole, framed', -, kin, again⟩ :=
    (takes_decodeNumber nests c assigned number).at_field stands step
  obtain ⟨rfl, rfl⟩ := framed.append_inj framed' whole
  refine ⟨number :: numbers, tag ++ (payload ++ fields), tail, last, framed.cons tagged wire', by simp, closes,
    kin.trans kin', ?_⟩
  rw [← append_assoc]
  refine (passes_number (P := fun last' m'' => last' = assigned₁ ∧ m'' = m₁) tagged
    framed.ne_endGroup fun {cur rest} stands' => ?_).trans ?_
  · refine (again stands').ends ?_
    rintro - s ⟨rfl, rfl, before⟩
    exact ⟨⟨rfl, rfl⟩, before⟩
  · rintro _ _ ⟨rfl, rfl⟩
    exact passes

lemma ends_decodeInto_iff {Q : Unit → Content × Cursor → Prop} :
    Succeeds (decodeInto p table decode) (m, cur) Q
      ↔ m.replaces "decode_message" = false ∧ ∃ c, p.plan? m.head.type = some c ∧ checkOwners c m = .ok ()
        ∧ Succeeds (decodeFields p table decode c (cur.rest.length + 1) {}) (m.merged, cur) Q := by
  simp only [decodeInto, ends_bind, ends_get, ends_ite, ends_throw]
  cases m.replaces "decode_message" <;> cases p.plan? m.head.type with
  | none => simp
  | some c => cases owners : checkOwners c m <;> simp [owners, Cursor.ofExcept]

/-- A decoder of messages decodes groups up to the tag that ends them. -/
lemma nests_decodeInto (nests : Nests decode) : Nests (decodeInto p table decode) := by
  intro m m' cur cur' depth number bytes before run
  rw [run_eq_ok_iff, ends_decodeInto_iff] at run
  obtain ⟨plain, c, found, owners, run⟩ := run
  have enough : bytes.length < cur.rest.length + 1 := by
    rw [before.rest]
    omega
  obtain ⟨numbers, fields, tail, last, wire, rfl, closes, -, passes⟩ :=
    decodeFields_passes nests before enough (run_eq_ok_iff.2 run)
  generalize cur'.rest = left at closes
  cases closes with
  | group closing =>
    refine ⟨numbers, fields, _, wire, closing, rfl, fun {other rest} before' => ?_⟩
    refine ends_decodeInto_iff.2 ⟨plain, c, found, owners, ?_⟩
    refine (passes.succeeds (.group closing) before' ?_).ends ?_
    · rw [before'.rest]
      omega
    · rintro - s ⟨⟨_, -, same⟩, left⟩
      exact ⟨same, left⟩

/-- **All levels.** -/
lemma nests_decodeMessage (p : Program) (table : Option ExtensionTable) (levels : Nat) :
    Nests (decodeMessage p table levels) := by
  induction levels with
  | zero =>
    rintro m m' cur cur' depth number bytes - ⟨⟩
  | succ levels ih => exact nests_decodeInto ih

end runs

/-! ## Operations -/

/-- What decoding can apply to the current field. -/
inductive Operation where
  | singular (type : FieldType)
  | repeated (type : FieldType)
  | nested (group : Bool) (target : Meaning) (existing : Value)
  | entry (key : FieldType) (value : MapValue)
  | extension (e : Extension)
  | member (plan : ClassPlan) (o : OneofPlan) (index : Nat) (number : Int)
  | dispatch (plan : ClassPlan) (assigned : OneofLocals) (number : Nat)

/-- An operation on the current field of a message, given how nested data is decoded. -/
def Operation.run (p : Program) (table : Option ExtensionTable) (decode : Decoding Unit) :
    Operation → Decoding Unit
  | singular type => do
    let _ ← Decoding.reading (Cursor.singular type)
  | repeated type => do
    let taken ← Decoding.reading (Cursor.repeated type)
    Decoding.raise taken.fault
  | nested group target existing => do
    let placed ← Decoding.reading (decodeNested p decode group target existing)
    Decoding.raise placed.fault
  | entry key value => do
    let _ ← Decoding.reading (decodeMapField p decode key value)
  | extension e => decodeExtension p decode e
  | member plan o index number => decodeOneof p decode plan o index number
  | dispatch plan assigned number => do
    let _ ← decodeNumber p table decode plan assigned number

lemma Operation.takes (nests : Nests decode) (op : Operation) :
    Decoding.Takes Content.Kin (op.run p table decode) := by
  cases op with
  | singular type => exact takes_read (takes_singular type) fun _ => still_pure _
  | repeated type => exact takes_read (takes_repeated type) fun _ => still_raise _
  | nested group target existing =>
    exact takes_reading (takes_decodeNested nests group target existing)
      (fun _ _ _ _ run => raise_eq_ok run) fun _ => still_raise _
  | entry key value => exact takes_read (takes_decodeMapField key value) fun _ => still_pure _
  | extension e => exact takes_decodeExtension nests e
  | member plan o index number => exact takes_decodeOneof nests (Content.writes_kin plan index) o number
  | dispatch plan assigned number =>
    exact (takes_decodeNumber nests plan assigned number).bind fun _ => still_pure _

lemma Decoding.Takes.skipPayload {α : Type} {x : Decoding α} (takes : Takes Content.Kin x) {a : α}
    (run : x (m, cur) = .ok a (m', cur')) :
    Cursor.skipPayload cur = .ok () cur' := by
  obtain ⟨payload, rest, spans, same, -⟩ := takes run
  exact skipPayload_eq_ok_iff.2 ⟨payload, rest, spans, same⟩

/-! ## Seeing fields -/

/-- The fields that decoding goes through, with their numbers and bytes, up to the end of the data. -/
inductive Sees (p : Program) (table : Option ExtensionTable) (decode : Decoding Unit) (c : ClassPlan) :
    OneofLocals → Content × Cursor → List (Nat × Bytes) → Content × Cursor → Prop
  | done {assigned : OneofLocals} {m : Content} {cur cur' : Cursor}
      (next : Cursor.next cur = .ok none cur') : Sees p table decode c assigned (m, cur) [] (m, cur')
  | field {assigned assigned' : OneofLocals} {m m' : Content} {cur cur' cur'' : Cursor} {number : Nat}
      {fields : List (Nat × Bytes)} {s : Content × Cursor} (next : Cursor.next cur = .ok (some number) cur')
      (step : decodeNumber p table decode c assigned number (m, cur') = .ok assigned' (m', cur''))
      (later : Sees p table decode c assigned' (m', cur'') fields s) :
      Sees p table decode c assigned (m, cur) ((number, Bytes.consumed cur'.mark cur''.rest) :: fields) s

/-- The fields that reading a message goes through. -/
def Reads (p : Program) (table : Option ExtensionTable) (t : TypeId) (data : Bytes)
    (fields : List (Nat × Bytes)) : Prop :=
  ∃ start c s, Content.fresh p t = .ok start ∧ p.plan? start.head.type = some c
    ∧ Sees p table (decodeMessage p table (maxDepth + 1)) c {}
        ({ start with head := { start.head with merged := true } }, Cursor.ofBytes data) fields s

section sees

variable {p' : Program} {table' : Option ExtensionTable} {decode' : Decoding Unit} {c' : ClassPlan}
  {assigned assigned' : OneofLocals}

variable {fields fields' : List (Nat × Bytes)}

/-- A run that succeeds goes through fields. -/
lemma exists_sees (nests : Nests decode) {turns : Nat} (before : cur.Before depth group bytes)
    (enough : bytes.length < turns)
    (run : decodeFields p table decode c turns assigned (m, cur) = .ok () (m', cur')) :
    ∃ fields, Sees p table decode c assigned (m, cur) fields (m', cur') :=
  decodeFields_induction nests (fun next _ => ⟨[], .done next⟩)
    (fun next _ _ _ step ⟨_, sees⟩ => ⟨_, .field next step sees⟩) before enough run

/-- **One sequence.**  Whatever two runs make of the fields, they go through the same ones. -/
lemma Sees.unique {start : Content × Cursor} (sees : Sees p table decode c assigned start fields s)
    (nests : Nests decode) (nests' : Nests decode')
    (sees' : Sees p' table' decode' c' assigned' (m', start.2) fields' s') : fields = fields' := by
  induction sees generalizing assigned' m' fields' s' with
  | done next =>
    cases sees' with
    | done => rfl
    | field next' =>
      rw [next] at next'
      cases next'
  | @field _ _ _ _ _ _ _ number _ _ next step later ih =>
    cases sees' with
    | done next' =>
      rw [next] at next'
      cases next'
    | field next' step' later' =>
      obtain ⟨rfl, rfl⟩ : _ = _ ∧ _ = _ := by simpa [next] using next'
      have skipped := (takes_decodeNumber nests c _ number).skipPayload step
      rw [(takes_decodeNumber nests' c' _ number).skipPayload step'] at skipped
      obtain rfl : _ = _ := by simpa using skipped
      rw [ih later']

lemma exists_reads {t : TypeId} (parsed : parse p table t data = .ok m) :
    ∃ fields, Reads p table t data fields := by
  cases made : Content.fresh p t with
  | error => simp [parse, made] at parsed
  | ok start =>
    obtain ⟨cur, run⟩ := (parse_eq_ok_iff made).1 parsed
    rw [run_eq_ok_iff] at run
    obtain ⟨-, c, found, -, run⟩ := ends_decodeInto_iff.1 run
    obtain ⟨fields, sees⟩ := exists_sees (nests_decodeMessage p table (maxDepth + 1))
      (before_ofBytes data) (Nat.lt_succ_self _) (run_eq_ok_iff.2 run)
    exact ⟨fields, start, c, _, made, found, sees⟩

lemma Reads.unique {t t' : TypeId} (reads : Reads p table t data fields) (reads' : Reads p' table' t' data fields') :
    fields = fields' := by
  obtain ⟨_, _, _, -, -, sees⟩ := reads
  obtain ⟨_, _, _, -, -, sees'⟩ := reads'
  exact sees.unique (nests_decodeMessage _ _ _) (nests_decodeMessage _ _ _) sees'

end sees

/-- **Framing does not depend on the schema.**  Where an operation on the current field succeeds, so does
skipping the field, and both leave the cursor at the same place.  Any two messages that can be read from
some data see the same fields there, with the same numbers and bytes. -/
theorem framing_schemaless :
    (∀ (p : Program) (table : Option ExtensionTable) (levels : Nat) (op : Operation) (m m' : Content)
        (cur cur' : Cursor), op.run p table (decodeMessage p table levels) (m, cur) = .ok () (m', cur') →
          Cursor.skipPayload cur = .ok () cur')
      ∧ ∀ (p p' : Program) (table table' : Option ExtensionTable) (t t' : TypeId) (data : Bytes)
          (m m' : Content), parse p table t data = .ok m → parse p' table' t' data = .ok m' →
          ∃ fields, (∀ other, Reads p table t data other ↔ other = fields)
            ∧ ∀ other, Reads p' table' t' data other ↔ other = fields := by
  constructor
  · intro p table levels op m m' cur cur' run
    exact (op.takes (nests_decodeMessage p table levels)).skipPayload run
  · intro p p' table table' t t' data m m' parsed parsed'
    obtain ⟨fields, reads⟩ := exists_reads parsed
    obtain ⟨fields', reads'⟩ := exists_reads parsed'
    obtain rfl := reads.unique reads'
    refine ⟨fields, fun other => ⟨fun h => h.unique reads, ?_⟩, fun other => ⟨fun h => h.unique reads, ?_⟩⟩
    · rintro rfl
      exact reads
    · rintro rfl
      exact reads'

/-- A message with a group in it. -/
def groupProgram : Program :=
  .ofFiles
    [{ name := "a.proto"
       messages :=
        [{ name := "N"
           fields := [{ name := "g", number := 1, type := .group, typeName := ".N.G" }]
           messages := [{ name := "G", fields := [{ name := "a", number := 1, type := .int32 }] }] }] }]

/-- A group that one message knows and another one skips, and a message that the other one knows. -/
theorem framing_schemaless_sample :
    ∃ m m' fields, parse groupProgram none 0 [0x0b, 0x08, 1, 0x0c, 0x22, 0] = .ok m
      ∧ parse sampleProgram none 0 [0x0b, 0x08, 1, 0x0c, 0x22, 0] = .ok m'
      ∧ (∀ other, Reads groupProgram none 0 [0x0b, 0x08, 1, 0x0c, 0x22, 0] other ↔ other = fields)
      ∧ ∀ other, Reads sampleProgram none 0 [0x0b, 0x08, 1, 0x0c, 0x22, 0] other ↔ other = fields := by
  obtain ⟨m, parsed⟩ : ∃ m, parse groupProgram none 0 [0x0b, 0x08, 1, 0x0c, 0x22, 0] = .ok m :=
    exists_of_isOk (by decide +kernel)
  obtain ⟨m', parsed'⟩ : ∃ m', parse sampleProgram none 0 [0x0b, 0x08, 1, 0x0c, 0x22, 0] = .ok m' :=
    exists_of_isOk (by decide +kernel)
  obtain ⟨fields, same⟩ := framing_schemaless.2 _ _ none none 0 0 _ m m' parsed parsed'
  exact ⟨m, m', fields, parsed, parsed', same⟩

end Missive
