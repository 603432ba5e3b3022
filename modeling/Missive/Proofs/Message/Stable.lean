import Missive.Proofs.Message.Roundtrip

/-!
# A stable form

Data can be read that nobody would write: varints with more bytes than they need, packed runs in pieces,
fields that are overwritten or merged later, entries without a key or value, unknown fields between known
ones, and all of it in any order.  Writing what was read gives it a form that no longer changes.

**What was read can be read back.**  Decoding puts into a message what its class asks for: scalars of the
range of their type, and unknown fields that are well formed and not declared.  So the message is one that
a round trip restores, once the numbers and lengths in it are within bounds.  The bounds are stated on
their own, and `Typed.join` puts the two together.

**One level.**  A message in a map is there even if its entry had no value, one level below the entry.
So the message may have a level more than the data, and it is the message whose levels are bounded.
-/

namespace Missive

open Plan Schema Program

/-! ## What reading gives -/

/-- What reading gives: scalars of the range of their type, extensions that are known, and unknown fields
that are well formed and that the decoder keeps as unknown. -/
def Rules.parsed (p : Program) (table : Option ExtensionTable) : Rules where
  scalar := FieldType.Holds
  extension := fun t e _ => ∃ known ∈ table, known.find? t e.number = some e
  unknown := fun levels t data =>
    ∃ numbers, WireFields (levels - 1) numbers data ∧ ∀ n ∈ numbers, p.Unheard table t n

/-- What is asked of a message that was read, to write it and read it again: there are no not-a-numbers in
it, and the lengths of its payloads can be written. -/
def Rules.bounded (p : Program) : Rules where
  scalar := fun _ s => s.isNaN = false ∧ s.size < word64
  packed := fun type items => ∀ bytes, Encoding.all type.encode items = .ok bytes → bytes.length < word64
  message := fun v => ∀ bytes, p.serialize v = .ok bytes → bytes.length < word64
  entry := fun key value messages e =>
    ∀ bytes, Encoding.keyValue p key value messages e = .ok bytes → bytes.length < word64

section parsed

variable {p : Program} {table : Option ExtensionTable}

/-- What a field without presence starts with is a value of its type. -/
lemma Program.Valid.initial_holds (valid : p.Valid) (ready : p.Ready table)
    {t : TypeId} {c : ClassPlan} {slot : Nat} {f : FieldPlan} {type : FieldType} {s : Scalar}
    (found : p.plan? t = some c) (declared : Declared.field slot f ∈ c.declared)
    (kind : f.kind = .scalar type false s) : type.Holds s := by
  obtain ⟨-, m, -, planned⟩ := ready.planned found
  obtain ⟨g, -, -, kindOf⟩ := planned.exists_kindOf declared
  rw [kind] at kindOf
  obtain ⟨-, -, scalar, -⟩ := kindOf_scalar kindOf
  have zero : f.kind.StartsAtZero := (valid.of_plan found).zero _ declared
  rw [kind] at zero
  obtain rfl : s = type.default := zero
  exact FieldType.holds_default scalar

lemma Rules.decoded_parsed (ready : p.Ready table) (valid : p.Valid) :
    (Rules.parsed p table).Decoded p table where
  sorts := fun _ _ holds => holds.sorts
  gives := fun _ _ _ gives => gives.holds
  default := fun _ scalar => FieldType.holds_default scalar
  initial := fun _ _ _ _ _ _ found declared kind => valid.initial_holds ready found declared kind
  packed := fun _ _ => trivial
  message := fun _ => trivial
  entry := fun _ _ _ _ => trivial
  extension := fun _ _ _ => Iff.rfl
  nothing := fun _ _ => ⟨[], .nil, by simp⟩
  unknown := by
    rintro levels t data number field unheard wellFormed ⟨numbers, fields, others⟩
    refine ⟨numbers ++ [number], fields.append wellFormed, fun n member => ?_⟩
    rcases List.mem_append.1 member with old | new
    · exact others n old
    · rw [List.mem_singleton.1 new]
      exact unheard

/-- What was read is typed by all rules that decoding keeps. -/
lemma Rules.Decoded.typed {R : Rules} (rules : R.Decoded p table) (ready : p.Ready table) {t : TypeId} {c : ClassPlan}
    (found : p.plan? t = some c) {data : Bytes} {m : Content} (parsed : parse p table t data = .ok m) :
    Typed p R (fun _ => False) (maxDepth + 1) t m.value := by
  obtain ⟨start, made, typed⟩ := fresh_typed ready rules found (maxDepth + 1)
  obtain ⟨cur, run⟩ := (parse_eq_ok_iff made).1 parsed
  exact ((ends_of_ok run).1 (decodeWith_ends ready rules typed data)).1

lemma typed_of_parse (ready : p.Ready table) (valid : p.Valid) {t : TypeId} {data : Bytes} {m : Content}
    (isClass : (p.plan? t).isSome = true) (parsed : parse p table t data = .ok m) :
    Typed p (.parsed p table) (fun _ => False) (maxDepth + 1) t m.value := by
  obtain ⟨c, found⟩ := Option.isSome_iff_exists.1 isClass
  exact (Rules.decoded_parsed ready valid).typed ready found parsed

/-- What was read and is within bounds can be read back. -/
lemma Rules.join_parsed : (Rules.parsed p none).Join (.bounded p) 1 (.readable p none) where
  scalar := fun _ _ holds bounded => ⟨holds, bounded⟩
  packed := fun _ _ _ short => short
  message := fun _ _ short => short
  entry := fun _ _ _ _ _ short => short
  extension := by
    rintro t e v ⟨known, ⟨⟩, -⟩
  unknown := by
    rintro levels t data ⟨numbers, fields, unheard⟩ -
    exact ⟨numbers, fields, fun n member => ⟨fun c found => (unheard n member c found).1, by simp⟩⟩

end parsed

variable {levels : Nat} {m : Content}

/-! ## Writing what was read -/

/-- A message with a single field, a number. -/
def countFiles : List FileDecl :=
  [{ name := "a.proto", messages := [{ name := "M", fields := [{ name := "a", number := 1, type := .int32 }] }] }]

def countProgram : Program := .ofFiles countFiles

lemma evaluated_count :
    ((Program.build countFiles {}).isOk = true ∧ countProgram.arena.Regular ∧ countProgram.Clear
      ∧ countProgram.Comparable ∧ countProgram.Valid)
      ∧ (countProgram.plan? 0).map (fun c => (c.isAny, c.slots))
        = some (false, [.field ⟨"a", "_a", 1, .scalar .int32 true (.int 0)⟩])
      ∧ (parse countProgram none 0 [0x08, 0x81, 0x80, 0, 0x78, 1, 0x08, 0x85, 0]
        >>= fun m => countProgram.serialize m.value) = .ok [0x08, 5, 0x78, 1] := by
  decide +kernel

/-- A message with scalars only that was read is typed by all rules that allow the scalars. -/
lemma typed_of_scalars {p : Program} {R : Rules} {slots : List SlotPlan} {data : Bytes} (ready : p.Ready none)
    (valid : p.Valid) (isPlan : (p.plan? 0).map (fun c => (c.isAny, c.slots)) = some (false, slots))
    (scalars : ∀ plan ∈ slots, ∃ name storage number type default,
      plan = .field ⟨name, storage, number, .scalar type true default⟩ ∧ ∀ s, type.Holds s → R.scalar type s)
    (unknown : ∀ levels t data, R.unknown levels t data) (parsed : parse p none 0 data = .ok m) :
    Typed p R (fun _ => False) levels 0 m.value := by
  obtain ⟨c, found, isPlan⟩ := Option.map_eq_some_iff.1 isPlan
  obtain ⟨plain, rfl⟩ := Prod.mk.inj isPlan
  have fits := ((Rules.decoded_parsed ready valid).typed ready found parsed).fits found
  rw [typed_eq]
  refine ⟨c, m, found, rfl, fits.type, fits.whole, fits.plain, unknown _ _ _, fits.length, ?_, ?_, fits.distinct, ?_⟩
  · intro _ i plan slot
    have holds := fits.slots plain i plan slot
    obtain ⟨_, _, _, _, _, rfl, scalar⟩ := scalars plan (List.mem_of_getElem? slot)
    exact Or.imp id (fun ⟨s, is, holds⟩ => ⟨s, is, scalar s holds⟩) holds
  · simp [plain]
  · intro x member
    obtain ⟨-, -, ⟨known, ⟨⟩, -⟩, -⟩ := fits.extensions x member

lemma bounded_count {data : Bytes} (parsed : parse countProgram none 0 data = .ok m) :
    Typed countProgram (.bounded countProgram) (fun _ => False) levels 0 m.value := by
  obtain ⟨⟨able, regular, clear, -, valid⟩, isPlan, -⟩ := evaluated_count
  have ready : countProgram.Ready none := ready_of_build (build_ofFiles able) regular clear (by simp)
  refine typed_of_scalars ready valid isPlan ?_ (fun _ _ _ => trivial) parsed
  simp only [List.mem_singleton, forall_eq]
  refine ⟨_, _, _, _, _, rfl, fun s holds => ?_⟩
  obtain ⟨i, rfl⟩ := holds.sorts
  exact ⟨rfl, show 0 < word64 by decide⟩

end Missive
