import Missive.Proofs.Message.Concat

/-!
# Decoding oneofs

A oneof holds nothing or a case: the number of one of its members and the member's value.

**Other fields.**  Decoding a field that is no member of a oneof leaves the slot of the oneof alone
(`Content.Spares`), whatever the field is taken for.

**Members.**  A field of a member opens the case of the member or, if that is the case already, replaces its
scalar or is merged into its message.  `OneofStep` is that one step.  A field of another member is read to
its end, and is a conflict then (`OneofAt.conflict`).

**Runs.**  Decoding goes through the fields of some data one by one, so the oneof takes one step for each of
them.  Of such steps only those of one member can follow each other (`OneofMerged`).
-/

namespace Missive

open Plan List Cursor Program

/-! ## Fields of some data -/

/-- A field in some data: its tag, which spells a number and a wire type, and its payload. -/
structure WireField where
  number : Nat
  wire : WireType
  tag : Bytes
  payload : Bytes

namespace WireField

def bytes (f : WireField) : Bytes := f.tag ++ f.payload

/-- The tag says what the field is, and the payload is framed as the wire type asks. -/
structure Formed (f : WireField) : Prop where
  tagged : SpellsTag f.tag f.number f.wire
  framed : WirePayload maxDepth f.number f.wire f.payload

def Split (data : Bytes) (fields : List WireField) : Prop :=
  (∀ f ∈ fields, f.Formed) ∧ (fields.map bytes).flatten = data

lemma Split.cons {f : WireField} {fields : List WireField} {data : Bytes} (formed : f.Formed)
    (split : Split data fields) : Split (f.bytes ++ data) (f :: fields) :=
  ⟨forall_mem_cons.2 ⟨formed, split.1⟩, by rw [map_cons, flatten_cons, split.2]⟩

/-- Data is a row of fields in one way only. -/
lemma Split.unique {fields fields' : List WireField} {data : Bytes} (one : Split data fields)
    (other : Split data fields') : fields = fields' := by
  induction fields generalizing data fields' with
  | nil =>
    obtain ⟨-, rfl⟩ := one
    cases fields' with
    | nil => rfl
    | cons f' =>
      obtain ⟨formed, same⟩ := other
      have tagged := (formed f' (.head _)).tagged.ne_nil
      simp [bytes, tagged] at same
  | cons f rest ih =>
    obtain ⟨formed, rfl⟩ := one
    obtain ⟨formed', same⟩ := other
    have first := formed f (.head _)
    cases fields' with
    | nil => simp [bytes, first.tagged.ne_nil] at same
    | cons f' =>
      have first' := formed' f' (.head _)
      simp only [map_cons, flatten_cons, bytes, append_assoc] at same
      obtain ⟨tag, number, wire, same⟩ := first'.tagged.append_inj first.tagged same
      have framed := first.framed
      rw [← number, ← wire] at framed
      obtain ⟨payload, same⟩ := first'.framed.append_inj framed same
      have head : f = f' := by
        cases f
        cases f'
        simp_all
      rw [head, ih ⟨fun g later => formed g (.tail _ later), rfl⟩ ⟨fun g later => formed' g (.tail _ later), same⟩]

/-- The fields of the members of a oneof, among others. -/
def membersOf (o : OneofPlan) (fields : List WireField) : List WireField :=
  fields.filter fun f => (o.member? f.number).isSome

end WireField

/-- What a field makes of the value of a member: a scalar takes its place, and nested data is merged into the
message that is there or, if none is, into a new one. -/
inductive Plan.MemberKind.Merges (p : Program) (table : Option ExtensionTable) (f : WireField) :
    MemberKind → Value → Value → Prop
  | scalar {type : FieldType} {default s : Scalar} {old : Value} (wire : f.wire = type.wire)
      (read : type.read f.wire f.payload = .ok (s, [])) : Merges p table f (.scalar type default) old (.scalar s)
  | message {ref decodeRef : ClassRef} {size data : Bytes} {start m : Content} {inner : Cursor} {old : Value}
      (wire : f.wire = .lengthDelimited) (payload : f.payload = size ++ data)
      (spells : Varint.Spells size data.length)
      (target : nestedTarget p (.type decodeRef.target) old = .ok start)
      (merged : decodeMessage p table (maxDepth + 1) (start, { rest := data, depth := 1 }) = .ok () (m, inner)) :
      Merges p table f (.message false ref decodeRef) old m.value
  | group {ref decodeRef : ClassRef} {start m : Content} {inner : Cursor} {old : Value}
      (wire : f.wire = .startGroup) (target : nestedTarget p (.type decodeRef.target) old = .ok start)
      (merged : decodeMessage p table (maxDepth + 1)
        (start, { rest := f.payload, depth := 1, group := some f.number }) = .ok () (m, inner))
      (ends : inner.rest = []) : Merges p table f (.message true ref decodeRef) old m.value

/-- What several fields make of the value of a member, one after the other. -/
inductive Plan.MemberKind.MergesAll (p : Program) (table : Option ExtensionTable) (kind : MemberKind) :
    List WireField → Value → Value → Prop
  | nil {v : Value} : MergesAll p table kind [] v v
  | cons {f : WireField} {fields : List WireField} {old v new : Value} (first : kind.Merges p table f old v)
      (later : MergesAll p table kind fields v new) : MergesAll p table kind (f :: fields) old new

/-! ## Payloads of members -/

section members

variable {p : Program} {table : Option ExtensionTable} {kind : MemberKind} {f : WireField} {cur : Cursor}
  {rest : Bytes} (stands : cur.Stands 0 none f.number f.wire (f.tag ++ (f.payload ++ rest)) (f.payload ++ rest))

include stands

/-- A scalar is read from the payload, and nothing behind it. -/
lemma singular_eq_ok_iff {type : FieldType} {s : Scalar} :
    Cursor.singular type cur = .ok s (cur.past rest)
      ↔ f.wire = type.wire ∧ type.read f.wire f.payload = .ok (s, []) := by
  constructor
  · intro run
    obtain ⟨wire, middle, took, read⟩ := run_bind_ok run
    obtain ⟨⟨-, -, wireIs⟩, rfl, rfl⟩ := take_eq_ok_iff.1 took
    obtain ⟨rest', found, same⟩ := scalar_eq_ok_iff.1 read
    obtain rfl : rest = rest' := congrArg Cursor.rest same
    rw [stands.wire, stands.rest] at found
    obtain ⟨payload, -, whole, reads⟩ := read_framed found
    refine ⟨stands.wire ▸ mem_singleton.1 wireIs, ?_⟩
    rw [append_cancel_right whole]
    simpa using reads []
  · rintro ⟨wire, found⟩
    obtain ⟨payload, -, whole, reads⟩ := read_framed found
    obtain rfl : f.payload = payload := by simpa using whole
    have waiting : cur.Awaits [type.wire] :=
      ⟨by simp [stands.field], stands.waiting, by simp [stands.wire, wire]⟩
    refine bind_run_ok (take_eq_ok_iff.2 ⟨waiting, rfl, rfl⟩) ?_
    refine scalar_eq_ok_iff.2 ⟨rest, ?_, rfl⟩
    rw [stands.wire, stands.rest]
    exact reads rest

/-- A group is read from the payload, and nothing behind it. -/
lemma decode_inGroup_iff {decode : Decoding Unit} (nests : Nests decode) {start m : Content} :
    (∃ inner, decode (start, cur.inGroup) = .ok () (m, inner) ∧ inner.rest = rest)
      ↔ ∃ inner, decode (start, { rest := f.payload, depth := 1, group := some f.number }) = .ok () (m, inner)
        ∧ inner.rest = [] := by
  -- Either run stops at the tag that ends the group, and would have done so with the other rest.
  have moves : ∀ {one other : Cursor} {rest rest' : Bytes}, one.Before 1 (some f.number) (f.payload ++ rest) →
      other.Before 1 (some f.number) (f.payload ++ rest') →
      (∃ inner, decode (start, one) = .ok () (m, inner) ∧ inner.rest = rest) →
      ∃ inner, decode (start, other) = .ok () (m, inner) ∧ inner.rest = rest' := by
    rintro one other _ rest' before before' ⟨inner, run, rfl⟩
    obtain ⟨numbers, fields, closing, -, -, whole, again⟩ := nests before run
    rw [← append_assoc] at whole
    rw [append_cancel_right whole, append_assoc] at before'
    obtain ⟨_, ⟨_, inner'⟩, run', rfl, left⟩ := (again before').exists_run
    exact ⟨inner', run', left⟩
  have outer : cur.inGroup.Before 1 (some f.number) (f.payload ++ rest) := by
    have before := inGroup_before stands.field
    rwa [stands.depth, stands.rest] at before
  have alone : ({ rest := f.payload, depth := 1, group := some f.number } : Cursor).Before 1 (some f.number)
      (f.payload ++ []) := ⟨(append_nil _).symm, rfl, rfl, rfl, rfl⟩
  exact ⟨moves outer alone, moves alone outer⟩

/-- **One payload.**  What is taken for a member is what its payload makes of it, whatever follows. -/
lemma takes_iff_merges {old v : Value} :
    kind.Takes p (decodeMessage p table (maxDepth + 1)) cur (cur.past rest) old v ↔ kind.Merges p table f old v := by
  have waiting : ∀ {wire}, cur.Awaits [wire] ↔ f.wire = wire := by
    simp [Cursor.Awaits, stands.field, stands.waiting, stands.wire]
  have behind : ∀ {rest'}, cur.past rest' = cur.past rest ↔ rest' = rest :=
    ⟨fun same => congrArg Cursor.rest same, fun same => same ▸ rfl⟩
  have shallow : cur.depth < maxDepth := by
    rw [stands.depth]
    decide
  cases kind with
  | scalar =>
    constructor
    · rintro ⟨read⟩
      obtain ⟨wire, found⟩ := (singular_eq_ok_iff stands).1 read
      exact .scalar wire found
    · rintro ⟨wire, found⟩
      exact .scalar ((singular_eq_ok_iff stands).2 ⟨wire, found⟩)
  | entry => constructor <;> rintro ⟨⟩
  | message group ref decodeRef =>
    have nested : (MemberKind.message group ref decodeRef).Takes p (decodeMessage p table (maxDepth + 1)) cur
        (cur.past rest) old v ↔ decodeNested p (decodeMessage p table (maxDepth + 1)) group
          (.type decodeRef.target) old cur = .ok ⟨v, none⟩ (cur.past rest) :=
      ⟨fun takes => by cases takes with | message read => exact read, .message⟩
    rw [nested]
    cases group with
    | false =>
      refine decodeMessageField_eq_ok_iff.trans ?_
      simp only [waiting, behind, stands.rest, stands.depth]
      constructor
      · rintro ⟨wire, -, size, data, _, start, m, inner, spells, whole, target, merged, rfl, rfl⟩
        rw [← append_assoc] at whole
        exact .message wire (append_cancel_right whole) spells target merged
      · intro merges
        cases merges with
        | @message _ _ size data start m inner _ wire payload spells target merged =>
          refine ⟨wire, by decide, size, data, rest, start, m, inner, spells, ?_, target, merged, rfl, rfl⟩
          rw [payload, append_assoc]
    | true =>
      refine decodeGroupField_eq_ok_iff.trans ?_
      simp only [waiting, behind]
      have moves := fun start m =>
        @decode_inGroup_iff f cur rest stands _ (nests_decodeMessage p table (maxDepth + 1)) start m
      constructor
      · rintro ⟨wire, -, start, m, inner, target, ran, rfl, ends⟩
        obtain ⟨inner', merged, ends'⟩ := (moves start m).1 ⟨inner, ran, ends⟩
        exact .group wire target merged ends'
      · intro merges
        cases merges with
        | @group _ _ start m inner _ wire target merged ends =>
          obtain ⟨inner', ran, ends'⟩ := (moves start m).2 ⟨inner, merged, ends⟩
          exact ⟨wire, shallow, start, m, inner', target, ran, rfl, ends'⟩

end members

/-! ## One step -/

/-- A message of the same class, with the same in a slot. -/
structure Content.Spares (i : Nat) (m m' : Content) : Prop extends m.Kin m' where
  slot : m'.slot i = m.slot i
  length : m'.slots.length = m.slots.length

instance (i : Nat) : Content.Steady (Content.Spares i) where
  aside := fun kin same => ⟨kin, by rw [Content.slot, same]; rfl, by rw [same]⟩
  trans := fun one two => ⟨one.toKin.trans two.toKin, two.slot.trans one.slot, two.length.trans one.length⟩

lemma Content.writes_spares {c : ClassPlan} (plain : c.isAny = false) {i j : Nat} (other : j ≠ i) :
    Writes (Spares i) c j := by
  intro m m' v written
  have kin := writes_kin c j written
  rw [Content.write, place_plain plain] at written
  cases written
  exact ⟨kin, slot_setSlot_ne other, length_set⟩

/-- What a oneof holds of one of its members, if it holds that of no other one: the value of its case, or
nothing. -/
def HeldAs (t : TypeId) (i : Nat) (number : Int) (v x : Value) : Prop :=
  v = .none ∧ x = .none ∨ ∃ origin, v = .case { owner := t, slot := i, number := .int number, origin } x []

/-- One step of a oneof, for one field.  A field of no member changes nothing. -/
inductive OneofStep (p : Program) (table : Option ExtensionTable) (t : TypeId) (i : Nat) (o : OneofPlan)
    (f : WireField) : Value → Value → Prop
  | other {v : Value} (outside : o.member? f.number = none) : OneofStep p table t i o f v v
  | member {member : MemberPlan} {old x y : Value} (inside : o.member? f.number = some member)
      (held : HeldAs t i f.number old x) (merges : member.kind.Merges p table f x y) :
      OneofStep p table t i o f old (.case { owner := t, slot := i, number := .int f.number } y [])

namespace OneofAt

variable {p : Program} {table : Option ExtensionTable} {t : TypeId} {c : ClassPlan} {i : Nat} {o : OneofPlan}
  {m m' : Content} {cur cur' : Cursor} {assigned assigned' : OneofLocals} (oneof : OneofAt p t c i o)
  (holds : m.HoldsOneof t i)

include oneof holds

/-- **One step.**  Where a field is decoded, the oneof takes its step. -/
lemma step (room : i < m.slots.length) {number : Nat} {wire : WireType} {tag bytes : Bytes}
    (stands : cur.Stands 0 none number wire (tag ++ bytes) bytes)
    (run : decodeNumber p table (decodeMessage p table (maxDepth + 1)) c assigned number (m, cur)
      = .ok assigned' (m', cur')) :
    ∃ payload rest, bytes = payload ++ rest ∧ WirePayload maxDepth number wire payload
      ∧ cur'.Before 0 none rest ∧ m'.HoldsOneof t i ∧ i < m'.slots.length
      ∧ OneofStep p table t i o ⟨number, wire, tag, payload⟩ (m.slot i) (m'.slot i) := by
  have nests := nests_decodeMessage p table (maxDepth + 1)
  obtain ⟨payload, rest, ⟨whole, framed⟩, rfl, kin, -⟩ := takes_decodeNumber nests c assigned number run
  rw [stands.rest] at whole
  subst whole
  rw [stands.depth, stands.field, stands.wire] at framed
  have behind : (cur.past rest).Before 0 none rest :=
    ⟨rfl, stands.depth, stands.group, stands.goes, by simp [Cursor.past]⟩
  have type := kin.type.trans holds.type
  have loose : m'.loose = [] := by simpa [holds.plain] using kin.names
  refine ⟨payload, rest, rfl, framed, behind, ?_⟩
  cases inside : o.member? number with
  | none =>
    have elsewhere : ∀ j, c.route number = .slot j → j ≠ i := by
      rintro j route rfl
      simpa [inside] using (oneof.routes number).1 route
    obtain ⟨-, -, -, -, spares, -⟩ := takes_decodeNumber_of nests
      (fun j route => Content.writes_spares oneof.plain (elsewhere j route)) assigned run
    refine ⟨⟨type, loose, spares.slot ▸ holds.held⟩, spares.length ▸ room, ?_⟩
    rw [spares.slot]
    exact .other inside
  | some member =>
    obtain ⟨v, takes, rfl⟩ := (oneof.decodeNumber_iff holds inside true assigned).1 ⟨_, run⟩
    have named := (member?_eq_some inside).2
    rw [Content.slot_setSlot room]
    have same : i < (m.setSlot i v).slots.length := by rwa [Content.setSlot, length_set]
    generalize m.slot i = old at takes ⊢
    -- The case is that of the member now, whether it was before or nothing was set.
    obtain ⟨x, y, rfl, held, takes⟩ : ∃ x y, v = .case { owner := t, slot := i, number := .int number } y []
        ∧ HeldAs t i number old x
        ∧ member.kind.Takes p (decodeMessage p table (maxDepth + 1)) cur (cur.past rest) x y := by
      rw [← named]
      cases takes with
      | opens takes => exact ⟨_, _, rfl, .inl ⟨rfl, rfl⟩, takes⟩
      | again takes => exact ⟨_, _, rfl, .inr ⟨_, rfl⟩, takes⟩
    refine ⟨⟨type, loose, .inr ⟨number, none, y, Content.slot_setSlot room⟩⟩, same, ?_⟩
    exact .member inside held ((@takes_iff_merges p table member.kind ⟨number, wire, tag, payload⟩ cur rest stands
      x y).1 takes)

/-- **Conflicts.**  Where the case of another member is there, a field of a member that can be decoded is read
to its end, and then there is a fault.  The message is as it was. -/
lemma conflict {f : WireField} {member : MemberPlan} (inside : o.member? f.number = some member) {rest : Bytes}
    (stands : cur.Stands 0 none f.number f.wire (f.tag ++ (f.payload ++ rest)) (f.payload ++ rest))
    {n : Int} {origin : Option Nat} {x v : Value}
    (is : m.slot i = .case { owner := t, slot := i, number := .int n, origin } x []) (other : n ≠ f.number)
    (merges : member.kind.Merges p table f .none v) {Q E} :
    Ends (decodeNumber p table (decodeMessage p table (maxDepth + 1)) c assigned f.number) (m, cur) Q E
      ↔ E (.conflictingOneof o.declared (Scalar.int n).display f.number) (m, cur.past rest) := by
  have named := (member?_eq_some inside).2
  have differs : (Scalar.int n).equal (.int f.number) = false := by simp [Scalar.equal, Scalar.int?, other]
  have existing : member.existing (m.slot i) = .ok .none := by
    rw [is, existing_case, named, differs]
    exact congrArg Except.ok (ite_self _)
  rw [oneof.ends_decodeNumber inside holds.type holds.plain existing,
    ends_of_ok ((decodeMember_iff (oneof.leads inside)).2 ((takes_iff_merges stands).2 merges))]
  simp [placeCase, oneof.makes inside, is, faultOf?, Value.caseNumber?, Decoding.ends_reading, differs]

end OneofAt

/-! ## Runs -/

/-- What becomes of a oneof over the fields of its members. -/
inductive OneofMerged (p : Program) (table : Option ExtensionTable) (t : TypeId) (i : Nat) (o : OneofPlan)
    (own : List WireField) : Value → Value → Prop
  /-- There are none, and nothing changes. -/
  | kept {v : Value} (none : own = []) : OneofMerged p table t i o own v v
  /-- All of them are of one member, no other one was set, and they are merged into its value. -/
  | merged {member : MemberPlan} {old x y : Value} (there : own ≠ [])
      (inside : o.member? member.number = some member) (alike : ∀ f ∈ own, (f.number : Int) = member.number)
      (held : HeldAs t i member.number old x) (merges : member.kind.MergesAll p table own x y) :
      OneofMerged p table t i o own old (.case { owner := t, slot := i, number := .int member.number } y [])

section runs

variable {p : Program} {table : Option ExtensionTable} {t : TypeId} {c : ClassPlan} {i : Nat} {o : OneofPlan}
  {m m' : Content} {cur cur' : Cursor} {bytes : Bytes}

/-- Once a member is set, only its own fields can follow. -/
lemma OneofStep.merged {f : WireField} {fields : List WireField} {old v new : Value}
    (first : OneofStep p table t i o f old v) (later : OneofMerged p table t i o (WireField.membersOf o fields) v new) :
    OneofMerged p table t i o (WireField.membersOf o (f :: fields)) old new := by
  unfold WireField.membersOf at later ⊢
  cases first with
  | other outside =>
    rw [filter_cons_of_neg (by simp [outside])]
    exact later
  | @member member _ x y inside held merges =>
    have named := (member?_eq_some inside).2
    rw [filter_cons_of_pos (by simp [inside])]
    rw [← named] at held later inside
    cases later with
    | kept none =>
      rw [none]
      exact .merged (by simp) inside (by simp [named]) held (.cons merges .nil)
    | @merged member' _ x' y' there inside' alike held' merges' =>
      rcases held' with ⟨⟨⟩, -⟩ | ⟨origin, same⟩
      simp only [Value.case.injEq, CaseTag.mk.injEq, Scalar.int.injEq] at same
      obtain ⟨⟨-, -, number, -⟩, rfl, -⟩ := same
      rw [number, inside'] at inside
      cases inside
      exact .merged (by simp) inside' (forall_mem_cons.2 ⟨named.symm, alike⟩) held (.cons merges merges')

/-- **Runs.**  Decoding takes a oneof through the steps of all fields of the data. -/
lemma OneofAt.run (oneof : OneofAt p t c i o) (holds : m.HoldsOneof t i) (room : i < m.slots.length)
    (before : cur.Before 0 none bytes) {turns : Nat} (enough : bytes.length < turns) {assigned : OneofLocals}
    (run : decodeFields p table (decodeMessage p table (maxDepth + 1)) c turns assigned (m, cur) = .ok () (m', cur')) :
    ∃ fields, WireField.Split bytes fields
      ∧ OneofMerged p table t i o (WireField.membersOf o fields) (m.slot i) (m'.slot i) := by
  revert holds room
  refine decodeFields_induction (nests_decodeMessage p table (maxDepth + 1)) ?_ ?_ before enough run
  · intro _ _ _ _ _ closes _ _
    obtain ⟨rfl, -⟩ := closes.data_ends
    exact ⟨[], ⟨by simp, rfl⟩, .kept rfl⟩
  · intro _ _ _ m m₁ _ _ _ number wire tag payload rest _ tagged stands framed step later holds room
    obtain ⟨_, _, whole, framed', before', holds', room', stepped⟩ := oneof.step holds room stands step
    obtain ⟨rfl, rfl⟩ := framed.append_inj framed' whole
    obtain ⟨fields, split, merged⟩ := later holds' room'
    refine ⟨⟨number, wire, tag, payload⟩ :: fields, ?_, stepped.merged merged⟩
    rw [← append_assoc]
    exact split.cons ⟨tagged, framed⟩

end runs

/-! ## Merging -/

section merging

variable {files : List Schema.FileDecl} {options : Plan.Options} {p : Program} {table : Option ExtensionTable}
  {t : TypeId} {c : ClassPlan} {i : Nat} {o : OneofPlan} {R : Rules} {I : Inside} {m : Content}

/-- A message that holds any other one has no oneof. -/
lemma Plan.Planned.plain_of_oneof {a : Schema.Arena} {s : Schema.Message} (planned : Planned a s c)
    (regular : a.Regular) (slot : c.slots[i]? = some (.oneof o)) : c.isAny = false := by
  by_contra isAny
  obtain ⟨url, value, declared, -⟩ := planned.any_declared regular (by simpa using isAny)
  have slots : c.slots = [.field url, .field value] := by
    rw [planned.slots, declared]
    rfl
  have member := mem_of_getElem? slot
  simp [slots] at member

lemma Plan.MemberKind.Merges.ne_endGroup {kind : MemberKind} {f : WireField} {old v : Value}
    (merges : kind.Merges p table f old v) : f.wire ≠ .endGroup := by
  cases merges with
  | @scalar type _ _ _ wire read => exact wire ▸ type.wire_ne_endGroup
  | message wire | group wire => simp [wire]

/-- Merging data is decoding its fields. -/
lemma exists_run_of_merging (found : p.plan? m.head.type = some c) {data : Bytes} {m' : Content}
    (merged : merging p table m data = .ok m') :
    m.replaces "decode_message" = false ∧ checkOwners c m = .ok ()
      ∧ ∃ cur, decodeFields p table (decodeMessage p table (maxDepth + 1)) c (data.length + 1) {}
          (m.merged, Cursor.ofBytes data) = .ok () (m', cur) := by
  rw [merging_eq_outcome] at merged
  obtain ⟨_, cur, run⟩ := outcome_eq_ok_iff.1 merged
  obtain ⟨reachable, c', found', counted, run⟩ := ends_decodeInto_iff.1 (run_eq_ok_iff.1 run)
  cases found.symm.trans found'
  exact ⟨reachable, counted, cur, run_eq_ok_iff.2 run⟩

/-- **Oneofs.**  Where data can be merged into a message, all fields of the members of a oneof in it are of
one member, which is the one that was set if any was; its case is set then, with the last scalar, or with
what all payloads give that are merged into the message that was there.  A field of another member that
could be decoded is read to its end, and is a conflict then; all is left as it was before this field. -/
theorem merge_oneof (built : Program.build files options = .ok p) (regular : p.arena.Regular)
    (found : p.plan? t = some c) (slot : c.slots[i]? = some (.oneof o))
    (leads : ∀ member ∈ o.members, member.kind.Leads p o.decoderVariables) (fits : m.Fits R I t c)
    (table : Option ExtensionTable) :
    (∀ data m', merging p table m data = .ok m' → ∃ fields, (∀ other, WireField.Split data other ↔ other = fields)
          ∧ OneofMerged p table t i o (WireField.membersOf o fields) (m.slot i) (m'.slot i))
      ∧ ∀ front m₁ number origin x f member v back, merging p table m front = .ok m₁ →
        m₁.slot i = .case { owner := t, slot := i, number := .int number, origin } x [] →
        SpellsTag f.tag f.number f.wire → o.member? f.number = some member → number ≠ f.number →
        member.kind.Merges p table f .none v →
        ∃ cur, decodeWith p table (m, Cursor.ofBytes (front ++ (f.bytes ++ back)))
            = .error (.conflictingOneof o.declared (Scalar.int number).display f.number) (m₁, cur)
          ∧ cur.rest = back := by
  obtain ⟨-, s, resolved, planned⟩ := planned_of_build built found
  have plain := planned.plain_of_oneof regular slot
  have oneof : OneofAt p t c i o := planned.oneofAt resolved (members_of_build built) found slot plain
    fun isMember => leads _ (member?_eq_some isMember).1
  have room : i < m.slots.length := by
    rw [fits.length plain]
    exact (List.getElem?_eq_some_iff.1 slot).1
  have holds : m.HoldsOneof t i := by
    refine ⟨fits.type, fits.plain, ?_⟩
    rcases fits.slots plain i _ slot with is | ⟨n, member', origin, x, is, -, -⟩
    · exact .inl is
    · exact .inr ⟨n, origin, x, is⟩
  have plan : p.plan? m.head.type = some c := fits.type ▸ found
  constructor
  · intro data m' merged
    obtain ⟨-, -, cur, run⟩ := exists_run_of_merging plan merged
    -- That data was merged into a message is not kept in its slots.
    have holds' : ({ m with head := { m.head with merged := true } } : Content).HoldsOneof t i :=
      ⟨holds.type, holds.plain, holds.held⟩
    obtain ⟨fields, split, merged⟩ := oneof.run holds' room (before_ofBytes data) (by omega) run
    refine ⟨fields, fun other => ⟨fun split' => split'.unique split, ?_⟩, merged⟩
    rintro rfl
    exact split
  · intro front m₁ number origin x f member v back merged is tagged inside other merges
    obtain ⟨reachable, counted, cur, run⟩ := exists_run_of_merging plan merged
    have nests := nests_decodeMessage p table (maxDepth + 1)
    obtain ⟨numbers, fields, tail, last, -, split, closes, kin, passes⟩ :=
      decodeFields_passes nests (before_ofBytes front) (by omega) run
    obtain ⟨rfl, -⟩ := closes.data_ends
    obtain rfl : front = fields := by simpa using split
    have holds' : m₁.HoldsOneof t i :=
      ⟨kin.type.trans holds.type, by simpa [holds.plain] using kin.names, .inr ⟨number, origin, x, is⟩⟩
    have failed : Ends (decodeWith p table) (m, Cursor.ofBytes (front ++ (f.bytes ++ back))) (fun _ _ => False)
        fun e s => e = .conflictingOneof o.declared (Scalar.int number).display f.number ∧ s.1 = m₁
          ∧ s.2.rest = back := by
      refine (ends_decodeInto_of plan reachable counted).2 ?_
      refine passes (before_ofBytes _) (by simp [Cursor.ofBytes]) ?_
      rintro _ _ cur turns ⟨rfl, rfl⟩ before enough
      obtain ⟨turns, rfl⟩ : ∃ k, turns = k + 1 := ⟨turns - 1, by omega⟩
      rw [WireField.bytes, append_assoc] at before
      simp only [decodeFields, ends_bind, Decoding.ends_reading]
      refine (next_field before tagged merges.ne_endGroup).ends ?_
      rintro _ cur' ⟨rfl, stands⟩
      simp only [ends_bind]
      exact (oneof.conflict holds' inside stands is other merges).2 ⟨rfl, rfl, rfl⟩
    cases run : decodeWith p table (m, Cursor.ofBytes (front ++ (f.bytes ++ back))) with
    | ok => exact ((ends_of_ok run).1 failed).elim
    | error e s =>
      obtain ⟨rfl, rfl, left⟩ := (ends_of_error run).1 failed
      exact ⟨s.2, rfl, left⟩

end merging

/-- A message with a oneof of a number and a message. -/
def choiceFiles : List Schema.FileDecl :=
  [{ name := "a.proto"
     messages :=
      [{ name := "M"
         fields := [{ name := "a", number := 1, type := .int32, oneof := some 0 },
          { name := "b", number := 2, type := .message, typeName := ".M", oneof := some 0 }]
         oneofs := ["o"] }] }]

def choiceProgram : Program := .ofFiles choiceFiles

def choicePlan : ClassPlan := (choiceProgram.plan? 0).get (by decide +kernel)

def choiceOneof : OneofPlan where
  name := "o"
  declared := "o"
  className := "OneofO"
  storageName := "_o"
  members := [⟨"a", 1, .scalar .int32 (.int 0)⟩, ⟨"b", 2, .message false sampleRef sampleRef⟩]

/-- A new message. -/
def choiceMessage : Content where
  head := { type := 0 }
  slots := [.none]
  extensions := []

/-- The case in a slot of a message and the scalar of the case, if that is what is there. -/
def scalarCase? (i : Nat) : Except Fault Content → Option (CaseTag × Scalar)
  | .ok m =>
    match m.slot i with
    | .case tag (.scalar s) [] => some (tag, s)
    | _ => none
  | .error _ => none

lemma exists_of_scalarCase? {i : Nat} {x : Except Fault Content} {tag : CaseTag} {s : Scalar}
    (h : scalarCase? i x = some (tag, s)) : ∃ m, x = .ok m ∧ m.slot i = .case tag (.scalar s) [] := by
  unfold scalarCase? at h
  split at h
  · split at h
    · cases h
      exact ⟨_, rfl, by assumption⟩
    · cases h
  · cases h

/-- The number is set twice; then a message of the other member follows, and something else. -/
theorem merge_oneof_choice :
    ∃ m fields cur, merging choiceProgram none choiceMessage [0x08, 5, 0x08, 7] = .ok m
      ∧ m.slot 0 = .case { owner := 0, slot := 0, number := .int 1 } (.scalar (.int 7)) []
      ∧ (∀ other, WireField.Split [0x08, 5, 0x08, 7] other ↔ other = fields)
      ∧ OneofMerged choiceProgram none 0 0 choiceOneof (WireField.membersOf choiceOneof fields) .none (m.slot 0)
      ∧ decodeWith choiceProgram none (choiceMessage, Cursor.ofBytes [0x08, 5, 0x08, 7, 0x12, 0, 0x78, 1])
        = .error (.conflictingOneof "o" (Scalar.int 1).display 2) (m, cur)
      ∧ cur.rest = [0x78, 1] := by
  obtain ⟨able, regular, plain, slots, leads, merged, decoded⟩ : (Program.build choiceFiles {}).isOk = true
      ∧ choiceProgram.arena.Regular ∧ choicePlan.isAny = false ∧ choicePlan.slots = [.oneof choiceOneof]
      ∧ (∀ member ∈ choiceOneof.members, member.kind.Leads choiceProgram choiceOneof.decoderVariables)
      ∧ scalarCase? 0 (merging choiceProgram none choiceMessage [0x08, 5, 0x08, 7])
        = some ({ owner := 0, slot := 0, number := .int 1 }, .int 7)
      ∧ (nestedTarget choiceProgram (.type 0) .none >>= fun start => outcome (decodeMessage choiceProgram none
          (maxDepth + 1) (start, { rest := [], depth := 1 }))).isOk = true := by decide +kernel
  have found : choiceProgram.plan? 0 = some choicePlan := (Option.some_get _).symm
  have slot : choicePlan.slots[0]? = some (.oneof choiceOneof) := by rw [slots]; rfl
  have fits : choiceMessage.Fits (.known none) (inside choiceProgram (.known none) (fun _ => False) 0) 0
      choicePlan := by
    refine ⟨rfl, rfl, rfl, trivial, fun _ => by rw [slots]; rfl, fun _ i plan there => ?_, by simp [plain], ?_, ?_⟩
    · rw [slots] at there
      obtain ⟨rfl, rfl⟩ : i = 0 ∧ plan = .oneof choiceOneof := by
        cases i <;> simp_all
      exact .inl rfl
    · exact nodup_nil
    · exact fun x inside => absurd inside not_mem_nil
  obtain ⟨all, conflicts⟩ := merge_oneof (build_ofFiles able) regular found slot leads fits none
  obtain ⟨m, accepted, is⟩ := exists_of_scalarCase? merged
  obtain ⟨fields, split, merged⟩ := all _ m accepted
  have spells : Varint.Spells [0x12] (2 * 8 + WireType.lengthDelimited.number) :=
    ⟨by decide, ⟨[], 0x12, rfl, by simp, by decide⟩, by decide +kernel⟩
  have empty : Varint.Spells [0] 0 := ⟨by decide, ⟨[], 0, rfl, by simp, by decide⟩, by decide +kernel⟩
  obtain ⟨_, done⟩ := exists_of_isOk decoded
  obtain ⟨start, target, done⟩ := bind_ok done
  obtain ⟨_, inner, run⟩ := outcome_eq_ok_iff.1 done
  obtain ⟨cur, fault, left⟩ := conflicts [0x08, 5, 0x08, 7] m 1 none _ ⟨2, .lengthDelimited, [0x12], [0]⟩
    ⟨"b", 2, .message false sampleRef sampleRef⟩ _ [0x78, 1] accepted is ⟨spells, by decide, by decide⟩ rfl
    (by decide) (.message rfl rfl empty target run)
  exact ⟨m, fields, cur, accepted, is, split, merged, fault, left⟩

/-- Two messages, the first of which is called like a variable of the decoder of the second. -/
def currentMemberFiles : List Schema.FileDecl :=
  [{ name := "a.proto"
     messages :=
      [{ name := "current" },
       { name := "M"
         fields := [{ name := "a", number := 1, type := .int32, oneof := some 0 },
          { name := "b", number := 2, type := .message, typeName := ".current", oneof := some 0 }]
         oneofs := ["o"] }] }]

/-- Where the variable of a decoder hides the class of a member, the member is no conflict but not decoded at
all, though its payload is that of a message of the class. -/
theorem merge_oneof_hidden :
    ∃ p inner m, Program.build currentMemberFiles {} = .ok p ∧ p.arena.Regular
      ∧ parse p none 0 [] = .ok inner ∧ parse p none 1 [0x08, 1] = .ok m
      ∧ m.slot 0 = .case { owner := 1, slot := 0, number := .int 1 } (.scalar (.int 1)) []
      ∧ merging p none m [0x12, 0] = .error .wrongType := by
  obtain ⟨able, regular, reads, is, fault⟩ : (Program.build currentMemberFiles {}).isOk = true
      ∧ (Program.ofFiles currentMemberFiles).arena.Regular
      ∧ (parse (.ofFiles currentMemberFiles) none 0 []).isOk = true
      ∧ scalarCase? 0 (parse (.ofFiles currentMemberFiles) none 1 [0x08, 1])
        = some ({ owner := 1, slot := 0, number := .int 1 }, .int 1)
      ∧ faultOf? (parse (.ofFiles currentMemberFiles) none 1 [0x08, 1] >>= fun m =>
        merging (.ofFiles currentMemberFiles) none m [0x12, 0]) = some .wrongType := by decide +kernel
  obtain ⟨inner, parsed⟩ := exists_of_isOk reads
  obtain ⟨m, accepted, is⟩ := exists_of_scalarCase? is
  rw [accepted] at fault
  exact ⟨_, inner, m, build_ofFiles able, regular, parsed, accepted, is, eq_error_of_faultOf? fault⟩

end Missive
