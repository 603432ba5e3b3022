import Missive.Proofs.Message.Absorb

/-!
# Messages without fields

A message of a class that declares nothing keeps all that is decoded into it.

**Exactly the grammar.**  Data can be decoded into it if and only if the data are well-formed fields, with
groups on at most as many levels as are allowed, and it is then written as it was read.
-/

namespace Missive

open Plan Schema List Program

section bare

variable {p : Program} {table : Option ExtensionTable} {decode : Decoding Unit} {s : Message}
  {c : ClassPlan} {m : Content}

/-- A class without fields and extension ranges has no use for any number. -/
lemma Plan.Planned.route_bare (planned : Planned p.arena s c) (resolved : s.Resolved)
    (fields : s.fields = []) (ranges : s.ranges.isEmpty = true) (number : Int) :
    c.route number = .unknown := by
  have outside : c.ranges.contains number = false := by
    rw [planned.ranges, Ranges.contains, List.isEmpty_iff.1 ranges]
    rfl
  rw [planned.route_other resolved (by simp [fields]), outside]
  rfl

lemma Plan.Planned.visits_bare (planned : Planned p.arena s c) (fields : s.fields = [])
    (ranges : s.ranges.isEmpty = true) : c.visits = [] := by
  have sorted : s.sorted = [] := by
    rw [Message.sorted, fields, sortFields, sortBy]
  rw [planned.visits, Plan.visits, stretches, sorted, List.isEmpty_iff.1 ranges]
  rfl

lemma Plan.Planned.slots_bare (planned : Planned p.arena s c) (resolved : s.Resolved)
    (fields : s.fields = []) : c.slots = [] := by
  have declared : c.declared = [] := by
    have numbers := planned.numbers_eq
    rwa [fields, map_nil, map_eq_nil_iff] at numbers
  refine eq_nil_iff_forall_not_mem.2 fun slot inside => ?_
  obtain ⟨i, found⟩ := mem_iff_getElem?.1 inside
  obtain ⟨d, member, -⟩ := planned.exists_declared resolved found
  simp [declared] at member

/-- Where nothing is stored, nothing is stored in place of the number of owners. -/
lemma ownersSlot?_bare (slots : c.slots = []) : c.ownersSlot? = none := by
  simp [ClassPlan.ownersSlot?, ClassPlan.storedUnder?, ClassPlan.anyNames, slots, ownersName]

lemma keepsNumber_of_route {number : Nat} (route : c.route number = .unknown) :
    KeepsNumber p table decode c m number := by
  intro assigned cur
  simp only [decodeNumber, route]

/-- A message of a class that visits nothing is written as its unknown fields. -/
lemma serialize_bare (found : p.plan? m.head.type = some c) (visits : c.visits = [])
    (plain : m.loose = []) : p.serialize m.value = .ok m.head.unknown := by
  obtain ⟨head, slots, extensions, loose⟩ := m
  obtain rfl : loose = [] := plain
  have items : p.content (p.walk (Content.value ⟨head, slots, extensions, []⟩)) = (Unknown.mk head.unknown).items := by
    show p.summarizeItems head (partList _ _) (partExtensions _ _) (partLoose _ []) = _
    simp only [Program.summarizeItems, partLoose, List.lookup, Option.isSome_none, Bool.false_eq_true,
      if_false, found, visits, visitAll, unknownItems, nil_append]
  have spells : p.Spells (Content.value ⟨head, slots, extensions, []⟩) head.unknown := by
    refine ⟨?_, rfl, rfl⟩
    rw [items]
    cases head.unknown with
    | nil => rfl
    | cons => exact Item.spells_singleton.2 rfl
  exact spells.serialize

end bare

variable {files : List FileDecl} {options : Plan.Options} {p : Program}

/-- **Exactly the grammar.**  A message that declares nothing is read from well-formed fields and from
nothing else.  It keeps them all, and is written as it was read. -/
theorem parse_bare_iff (built : Program.build files options = .ok p) {t : TypeId} {s : Message}
    (message : p.arena.message? t = some s) (fields : s.fields = []) (ranges : s.ranges.isEmpty = true)
    {c : ClassPlan} (found : p.plan? t = some c) (born : c.birthFault? = none)
    (table : Option ExtensionTable) (data : Bytes) :
    ((∃ m, parse p table t data = .ok m) ↔ ∃ numbers, WireFields maxDepth numbers data)
      ∧ ∀ m, parse p table t data = .ok m → m.head.unknown = data ∧ p.serialize m.value = .ok data := by
  obtain ⟨rfl, s', resolved, planned⟩ := planned_of_build built found
  cases message.symm.trans planned.found
  have made := fresh_of_born found born
  have owners := ownersSlot?_bare (planned.slots_bare resolved fields)
  have before := Cursor.before_ofBytes data
  set start : Content := { head := { type := c.id }, slots := c.freshSlots, extensions := [] }
  set merged : Content := { start with head := { start.head with merged := true } }
  have keeps : ∀ n data, KeepsNumber p table (decodeMessage p table (maxDepth + 1)) c (merged.addUnknown data) n :=
    fun n _ => keepsNumber_of_route (planned.route_bare resolved fields ranges n)
  have opened : ∀ {Q E}, Ends (decodeWith p table) (start, Cursor.ofBytes data) Q E
      ↔ Ends (decodeFields p table (decodeMessage p table (maxDepth + 1)) c (data.length + 1) {})
          (merged, Cursor.ofBytes data) Q E :=
    ends_decodeInto found rfl owners
  -- What is read are well-formed fields, and all of them are kept.
  have sound : Yields (decodeWith p table) (start, Cursor.ofBytes data) fun _ s =>
      (∃ numbers, WireFields maxDepth numbers data) ∧ s.1 = merged.addUnknown data := by
    rw [Yields, opened]
    exact decodeFields_yields_unknown before rfl keeps (Nat.lt_succ_self _) {}
  rw [yields_iff] at sound
  refine ⟨⟨?_, ?_⟩, ?_⟩
  · rintro ⟨m, parsed⟩
    obtain ⟨cur, run⟩ := (parse_eq_ok_iff made).1 parsed
    exact (sound () _ run).1
  · rintro ⟨numbers, wire⟩
    have absorbs : Absorbs p table (decodeMessage p table (maxDepth + 1)) c 0 none merged data
        (· = merged.addUnknown data) :=
      absorbs_unknown wire (Nat.le_of_eq (Nat.zero_add _)) rfl fun n _ => keeps n
    have complete : Succeeds (decodeWith p table) (start, Cursor.ofBytes data) fun _ s =>
        s.1 = merged.addUnknown data ∧ s.2.rest = [] := by
      rw [Succeeds, opened]
      exact absorbs.succeeds .message (by simpa using before) (by simp) {}
    obtain ⟨_, ⟨m, cur⟩, run, -⟩ := complete.exists_run
    exact ⟨m, (parse_eq_ok_iff made).2 ⟨cur, run⟩⟩
  · intro m parsed
    obtain ⟨cur, run⟩ := (parse_eq_ok_iff made).1 parsed
    obtain rfl : m = merged.addUnknown data := (sound () _ run).2
    have unknown : (merged.addUnknown data).head.unknown = data := nil_append data
    exact ⟨unknown, unknown ▸ serialize_bare found (planned.visits_bare fields ranges) rfl⟩

/-- A message that declares nothing. -/
def bareProgram : Program := .ofFiles [{ name := "a.proto", messages := [{ name := "M" }] }]

theorem parse_bare_iff_sample :
    (∃ numbers, WireFields maxDepth numbers [0x0b, 0x10, 0x81, 0, 0x0c])
      ∧ ∃ m, parse bareProgram none 0 [0x0b, 0x10, 0x81, 0, 0x0c] = .ok m ∧ m.head.unknown = [0x0b, 0x10, 0x81, 0, 0x0c]
        ∧ bareProgram.serialize m.value = .ok [0x0b, 0x10, 0x81, 0, 0x0c] := by
  have built : Program.build [{ name := "a.proto", messages := [{ name := "M" }] }] {} = .ok bareProgram :=
    build_ofFiles (by decide +kernel)
  obtain ⟨accepts, keeps⟩ := parse_bare_iff built
    (s := (bareProgram.arena.message? 0).get (by decide +kernel)) (Option.some_get _).symm
    (by decide +kernel) (by decide +kernel) (c := (bareProgram.plan? 0).get (by decide +kernel))
    (Option.some_get _).symm (by decide +kernel) none [0x0b, 0x10, 0x81, 0, 0x0c]
  obtain ⟨m, parsed⟩ : ∃ m, parse bareProgram none 0 [0x0b, 0x10, 0x81, 0, 0x0c] = .ok m :=
    exists_of_isOk (by decide +kernel)
  exact ⟨accepts.1 ⟨m, parsed⟩, m, parsed, keeps m parsed⟩

/-- A message with another one inside that takes the place of what makes new messages. -/
def unbornFiles : List FileDecl :=
  [{ name := "a.proto", messages := [{ name := "M", messages := [{ name := "__new__" }] }] }]

/-- Where there can be no message of a class, none can be read, not even from no data. -/
theorem parse_unborn :
    ∃ p s, Program.build unbornFiles {} = .ok p ∧ p.arena.message? 0 = some s ∧ s.fields = []
      ∧ s.ranges.isEmpty = true ∧ WireFields maxDepth [] [] ∧ parse p none 0 [] = .error .wrongType := by
  refine ⟨.ofFiles unbornFiles, ((Program.ofFiles unbornFiles).arena.message? 0).get (by decide +kernel),
    build_ofFiles (by decide +kernel), (Option.some_get _).symm, by decide +kernel,
    by decide +kernel, .nil, eq_error_of_faultOf? (by decide +kernel)⟩

end Missive
