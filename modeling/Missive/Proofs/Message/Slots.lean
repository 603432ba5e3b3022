import Missive.Proofs.Message.Framing
import Missive.Proofs.Message.Restore

/-!
# Fields and their slots

Decoding a field reads the slot of the field, takes the current field of the cursor for a value, and stores
what comes of the two.  Nothing else of the message has a say in it, and nothing else changes.

`Takes` is what becomes of the value of a slot, one rule for each kind of field.  Where a typed message
stands at a declared field, decoding its number succeeds if and only if the field is taken so
(`AtField.decodeNumber_iff`).
-/

namespace Missive

open Plan Decoding

/-! ## Taking a field -/

/-- Between two cursors stands a field of a kind, which turns a value of its slot into another one. -/
inductive Plan.FieldKind.Takes (p : Program) (decode : Decoding Unit) (cur cur' : Cursor) :
    FieldKind → Value → Value → Prop
  | scalar {type : FieldType} {presence : Bool} {default s : Scalar} {old : Value}
      (read : Cursor.singular type cur = .ok s cur') :
      Takes p decode cur cur' (.scalar type presence default) old (.scalar s)
  | repeated {type : FieldType} {packed : Bool} {items : List Value} {scalars : List Scalar}
      (read : Cursor.repeated type cur = .ok ⟨scalars, none⟩ cur') :
      Takes p decode cur cur' (.repeated type packed) (.list items) (.list (items ++ scalars.map .scalar))
  | message {group : Bool} {ref : ClassRef} {old v : Value}
      (read : decodeNested p decode group (.type ref.target) old cur = .ok ⟨v, none⟩ cur') :
      Takes p decode cur cur' (.message group ref) old v
  | repeatedMessage {group : Bool} {ref : ClassRef} {items : List Value} {v : Value}
      (read : decodeNested p decode group (.type ref.target) .none cur = .ok ⟨v, none⟩ cur') :
      Takes p decode cur cur' (.repeatedMessage group ref) (.list items) (.list (items ++ [v]))
  | map {key value : FieldType} {ref : Option ClassRef} {entries : List (Key × Value)} {e : Key × Value}
      (read : decodeMapField p decode key (MapValue.of value ref) cur = .ok e cur') :
      Takes p decode cur cur' (.map key value ref) (.map false entries) (.map false (putEntry e.1 e.2 entries))

/-- The same for a member of a oneof, and the value of its case. -/
inductive Plan.MemberKind.Takes (p : Program) (decode : Decoding Unit) (cur cur' : Cursor) :
    MemberKind → Value → Value → Prop
  | scalar {type : FieldType} {default s : Scalar} {old : Value} (read : Cursor.singular type cur = .ok s cur') :
      Takes p decode cur cur' (.scalar type default) old (.scalar s)
  | message {group : Bool} {ref decodeRef : ClassRef} {old v : Value}
      (read : decodeNested p decode group (.type decodeRef.target) old cur = .ok ⟨v, none⟩ cur') :
      Takes p decode cur cur' (.message group ref decodeRef) old v

lemma takes_existing {p : Program} {decode : Decoding Unit} {cur cur' : Cursor} {kind : MemberKind} {x v : Value} :
    kind.Takes p decode cur cur' (if kind.ref?.isSome then x else .none) v ↔ kind.Takes p decode cur cur' x v := by
  cases kind with
  | scalar =>
    constructor <;> rintro ⟨read⟩ <;> exact .scalar read
  | message => rfl
  | entry => constructor <;> rintro ⟨⟩

/-- The same for whatever is declared in a class.  The case of a oneof is a new one, or one of the same
member as before. -/
inductive Plan.Declared.Takes (p : Program) (decode : Decoding Unit) (t : TypeId) (cur cur' : Cursor) :
    Declared → Value → Value → Prop
  | field {slot : Nat} {f : FieldPlan} {old new : Value} (takes : f.kind.Takes p decode cur cur' old new) :
      Takes p decode t cur cur' (.field slot f) old new
  | opens {slot : Nat} {o : OneofPlan} {member : MemberPlan} {first : Bool} {x : Value}
      (takes : member.kind.Takes p decode cur cur' .none x) :
      Takes p decode t cur cur' (.member slot o member first) .none
        (.case { owner := t, slot, number := .int member.number } x [])
  | again {slot : Nat} {o : OneofPlan} {member : MemberPlan} {first : Bool} {origin : Option Nat} {x y : Value}
      (takes : member.kind.Takes p decode cur cur' x y) :
      Takes p decode t cur cur' (.member slot o member first)
        (.case { owner := t, slot, number := .int member.number, origin } x [])
        (.case { owner := t, slot, number := .int member.number } y [])

/-! ## Decoding and taking -/

section slots

variable {p : Program} {table : Option ExtensionTable} {R : Rules} {I : Inside} {decode : Decoding Unit}
  {t : TypeId} {c : ClassPlan} {m m' : Content} {cur cur' : Cursor} {levels number : Nat}

/-- What fits is stored in its own slot, if no message that holds any other one has a content. -/
lemma Content.Fits.write_eq (ready : p.Ready table) (rules : R.Decoded p table) (fits : m.Fits R I t c)
    (empty : ∀ v, ¬I.content v) (found : p.plan? t = some c) {d : Declared} (declared : d ∈ c.declared)
    {v : Value} (valueFits : d.content.Fits R I t d.slot v) :
    m.write c d.slot v = .ok (m.setSlot d.slot v) := by
  obtain ⟨-, s, resolved, planned⟩ := ready.planned found
  cases isAny : c.isAny with
  | false => rw [Content.write, place_plain isAny]
  | true =>
    obtain ⟨url, value, whole, -, -, -, urlKind, -, -, valueKind⟩ :=
      planned.any_declared ready.regular isAny
    obtain ⟨first, second, -⟩ := planned.place_any ready.regular isAny
    rw [whole] at declared
    rcases List.mem_cons.1 declared with rfl | later
    · rw [Content.write, Declared.slot, first]
    · obtain rfl := List.mem_singleton.1 later
      simp only [Declared.content, SlotPlan.Fits, valueKind, FieldKind.Fits] at valueFits
      obtain ⟨s, rfl, scalar⟩ := valueFits.resolve_left (by simp)
      obtain ⟨data, rfl⟩ := rules.sorts _ _ scalar
      obtain ⟨url, known, content, slots, -, ⟨-, -, -, rfl | inner⟩ | ⟨-, inner⟩⟩ := fits.any isAny
      · rw [Content.write, Declared.slot, second]
        simp [Value.toBytes, Content.setSlot, slots, bind, Except.bind, pure, Except.pure]
      · exact absurd inner (empty _)
      · exact absurd inner (empty _)

lemma ends_decodeScalars {type : FieldType} {items : List Value} {Q E} :
    Ends (decodeScalars type (.list items)) (m, cur) Q E
      ↔ Ends (Cursor.repeated type) cur (fun taken cur' => Q taken (m, cur')) fun e cur' => E e (m, cur') := by
  simp only [decodeScalars, ends_bind, ends_ite, ends_needList, ends_reading, ends_pure, ite_self]

section field

variable {slot : Nat} {f : FieldPlan} {locals : Locals} (ready : p.Ready table)
  (rules : R.Decoded p table) (here : AtField p R (fun _ => False) levels t c number m cur)
  (declared : Declared.field slot f ∈ c.declared) (leads : f.kind.Leads p (locals.map (·.1)))

include ready rules here declared leads

/-- **Fields.**  A field that is in no oneof is decoded if it can be taken. -/
lemma AtField.decodeField_iff (coded : f.kind.IsCoded) :
    decodeField p decode locals c f slot (m, cur) = .ok () (m', cur')
      ↔ ∃ v, f.kind.Takes p decode cur cur' (m.slot slot) v ∧ m' = m.setSlot slot v := by
  rw [run_eq_done_iff]
  cases kind : f.kind with
  | scalar type =>
    rw [kind] at coded
    have write : ∀ {s cur₁}, Cursor.singular type cur = .ok s cur₁ →
        m.write c slot (.scalar s) = .ok (m.setSlot slot (.scalar s)) := by
      intro s cur₁ read
      have gives := ((ends_of_ok read).1 (Cursor.singular_spec here.standing coded)).1
      refine here.fits.write_eq ready rules (fun _ => id) here.found declared ?_
      simp only [Declared.content, SlotPlan.Fits, kind]
      exact .inr ⟨s, rfl, rules.gives _ _ coded gives⟩
    simp only [decodeField, kind, ends_bind, ends_reading]
    refine succeeds_iff.trans ⟨?_, ?_⟩
    · rintro ⟨s, cur₁, read, stored⟩
      cases (ends_store (write read)).1 stored
      exact ⟨_, .scalar read, rfl⟩
    · rintro ⟨_, takes, rfl⟩
      cases takes with
      | scalar read => exact ⟨_, _, read, (ends_store (write read)).2 rfl⟩
  | repeated =>
    obtain ⟨read, current, write⟩ := here.readWrite ready declared (by simp [kind])
    rw [kind] at current
    obtain ⟨items, is, -, -⟩ := current
    rw [is] at read
    simp only [decodeField, kind, ends_bind, ends_current read, ends_decodeScalars, Value.isList,
      if_true, ends_store (write _).1, Value.extend, is]
    refine succeeds_iff.trans ⟨?_, ?_⟩
    · rintro ⟨⟨scalars, fault⟩, cur₁, taken, raised⟩
      cases fault with
      | some => exact raised.elim
      | none =>
        cases raised
        exact ⟨_, .repeated taken, rfl⟩
    · rintro ⟨_, takes, rfl⟩
      cases takes with
      | repeated taken => exact ⟨_, _, taken, rfl⟩
  | message =>
    obtain ⟨read, -, write⟩ := here.readWrite ready declared (by simp [kind])
    rw [kind] at leads
    simp only [decodeField, kind, ends_bind, ends_reading, ends_current read, leads.meaning]
    refine succeeds_iff.trans ⟨?_, ?_⟩
    · rintro ⟨⟨v, fault⟩, cur₁, taken, stored⟩
      cases fault with
      | some => simp [ends_store (write _).1] at stored
      | none =>
        simp only [Option.isNone_none, Bool.true_or, if_true, ends_bind, ends_store (write _).1] at stored
        cases stored
        exact ⟨v, .message taken, rfl⟩
    · rintro ⟨v, takes, rfl⟩
      cases takes with
      | message taken =>
        refine ⟨_, _, taken, ?_⟩
        simp [ends_store (write _).1]
  | repeatedMessage =>
    obtain ⟨read, current, write⟩ := here.readWrite ready declared (by simp [kind])
    rw [kind] at leads current
    obtain ⟨items, is, -⟩ := current
    rw [is] at read
    simp only [decodeField, kind, ends_bind, ends_reading, ends_current read, leads.meaning,
      Meaning.evaluated, Cursor.ends_ofExcept_ok, ends_needList, Value.extend, is]
    refine succeeds_iff.trans ⟨?_, ?_⟩
    · rintro ⟨⟨v, fault⟩, cur₁, taken, raised⟩
      cases fault with
      | some => exact raised.elim
      | none =>
        cases (ends_store (write _).1).1 raised
        exact ⟨_, .repeatedMessage taken, rfl⟩
    · rintro ⟨_, takes, rfl⟩
      cases takes with
      | repeatedMessage taken => exact ⟨_, _, taken, (ends_store (write _).1).2 rfl⟩
  | map key value ref =>
    obtain ⟨read, current, write⟩ := here.readWrite ready declared (by simp [kind])
    rw [kind] at leads current
    obtain ⟨entries, is, -⟩ := current
    rw [is] at read
    -- Whichever way the class of the values is found, the entry is put into the map.
    have entry : ∀ kind, kind = MapValue.of value ref →
        (Succeeds (decodeMapField p decode key kind) cur (fun e cur₁ => Ends (do
            Decoding.store c slot (← Decoding.reading (Cursor.ofExcept ((Value.map false entries).putKey e.1 e.2))))
            (m, cur₁) (fun _ s => s = (m', cur')) fun _ _ => False)
          ↔ ∃ v, (FieldKind.map key value ref).Takes p decode cur cur' (m.slot slot) v ∧ m' = m.setSlot slot v) := by
      rintro kind rfl
      simp only [ends_bind, ends_reading, Value.putKey, Cursor.ends_ofExcept_ok, ends_store (write _).1, is]
      refine succeeds_iff.trans ⟨?_, ?_⟩
      · rintro ⟨e, cur₁, taken, same⟩
        cases same
        exact ⟨_, .map taken, rfl⟩
      · rintro ⟨_, takes, rfl⟩
        cases takes with
        | map taken => exact ⟨_, _, taken, rfl⟩
    simp only [decodeField, kind, ends_bind, ends_current read]
    cases ref with
    | none => simpa using entry (.scalar value) rfl
    | some r =>
      have leads : r.Leads p (locals.map (·.1)) := leads r rfl
      simpa [leads.meaning, Meaning.evaluated, MapValue.ofMeaning] using entry (.message (.type r.target)) rfl

end field

end slots

/-! ## Oneofs -/

/-- A message of a class keeps a oneof in a slot, which holds nothing or a case. -/
structure Content.HoldsOneof (t : TypeId) (i : Nat) (m : Content) : Prop where
  type : m.head.type = t
  plain : m.loose = []
  held : m.slot i = .none
    ∨ ∃ number origin x, m.slot i = .case { owner := t, slot := i, number := .int number, origin } x []

/-- A oneof of a class, kept in a slot of its own: exactly the numbers of its members lead there, cases can be
made for them, and from its decoder their classes are found. -/
structure OneofAt (p : Program) (t : TypeId) (c : ClassPlan) (i : Nat) (o : OneofPlan) : Prop where
  plain : c.isAny = false
  slot : c.slots[i]? = some (.oneof o)
  routes : ∀ number, c.route number = .slot i ↔ (o.member? number).isSome = true
  makes : ∀ {number member}, o.member? number = some member →
    p.checkMember { owner := t, slot := i, number := .int number } = .ok ()
  leads : ∀ {number member}, o.member? number = some member → member.kind.Leads p o.decoderVariables

section member

variable {p : Program} {table : Option ExtensionTable} {decode : Decoding Unit} {t : TypeId} {c : ClassPlan}
  {m m' : Content} {cur cur' : Cursor} {i : Nat} {o : OneofPlan} {member : MemberPlan} {number : Int}

lemma Plan.Planned.oneofAt {s : Schema.Message} (planned : Planned p.arena s c) (resolved : s.Resolved)
    (members : p.members = []) (found : p.plan? t = some c) (slot : c.slots[i]? = some (.oneof o))
    (plain : c.isAny = false)
    (leads : ∀ {number member}, o.member? number = some member → member.kind.Leads p o.decoderVariables) :
    OneofAt p t c i o := by
  refine ⟨plain, slot, fun number => ⟨fun route => ?_, fun isMember => ?_⟩, ?_, leads⟩
  · rcases planned.route_eq resolved number with ⟨d, declared, same, route'⟩ | ⟨-, route'⟩
    · obtain rfl : d.slot = i := Route.slot.inj (route'.symm.trans route)
      have content := Option.some.inj ((planned.slot_of_declared resolved declared).symm.trans slot)
      cases d with
      | field => cases content
      | member slot other member =>
        cases content
        obtain ⟨-, -, -, -, isMember⟩ := planned.oneof_of_member declared
        rw [show member.number = number from same] at isMember
        rw [isMember]
        rfl
    · rw [route'] at route
      split at route <;> cases route
  · obtain ⟨member, isMember⟩ := Option.isSome_iff_exists.1 isMember
    obtain ⟨first, declared⟩ := planned.declared_of_oneof resolved slot isMember
    rw [← (member?_eq_some isMember).2]
    exact planned.route_declared resolved declared
  · exact fun isMember => checkMember_of_member members found slot isMember

/-- Only scalars have a codec. -/
lemma isScalar_of_read {type : FieldType} {wire : WireType} {bytes rest : Bytes} {s : Scalar}
    (read : type.read wire bytes = .ok (s, rest)) : type.isScalar = true := by
  by_contra nested
  have none : ∀ payload, type.decodePayload payload = .error .noScalarCodec := by
    intro payload
    cases type <;> simp [FieldType.isScalar] at nested <;> rfl
  unfold FieldType.read at read
  simp only [none] at read
  split at read
  · split at read <;> cases read
  · split at read
    · split at read <;> cases read
    · cases read
  · split at read <;> cases read
  · cases read

lemma decodeMember_iff (leads : member.kind.Leads p o.decoderVariables) {current : Local} {old v : Value} :
    decodeMember p decode (o.decoderLocals current) member old cur = .ok ⟨v, none⟩ cur'
      ↔ member.kind.Takes p decode cur cur' old v := by
  unfold decodeMember
  cases kind : member.kind with
  | scalar =>
    constructor
    · intro run
      obtain ⟨s, _, read, ⟨⟩⟩ := run_bind_ok run
      exact .scalar read
    · intro takes
      cases takes with
      | scalar read => exact bind_run_ok read rfl
  | message group ref decodeRef =>
    have leads : decodeRef.Leads p ((o.decoderLocals current).map (·.1)) := by
      rw [o.map_decoderLocals]
      simpa only [kind, MemberKind.Leads] using leads
    simp only [leads.meaning]
    constructor
    · exact fun read => .message read
    · intro takes
      cases takes with
      | message read => exact read
  | entry =>
    constructor
    · intro run
      obtain ⟨s, _, run, -⟩ := run_bind_ok run
      obtain ⟨wire, _, -, read⟩ := run_bind_ok run
      obtain ⟨rest, found, -⟩ := Cursor.scalar_eq_ok_iff.1 read
      exact absurd (isScalar_of_read found) (by decide)
    · rintro ⟨⟩

lemma existing_case {tag : CaseTag} {x : Value} {loose : List (String × Value)} :
    member.existing (.case tag x loose) = .ok (if member.kind.ref?.isSome then
      (if tag.number.equal (.int member.number) then x else .none) else .none) := by
  unfold MemberPlan.existing
  split <;> rfl

/-- A case is placed if its value could be decoded and no other member is set. -/
lemma placeCase_iff (plain : c.isAny = false) (holds : m.HoldsOneof t i)
    (checked : p.checkMember { owner := t, slot := i, number := .int number } = .ok ()) {old : Value}
    {placed : Placed} {cur₁ : Cursor} :
    placeCase p c o i { owner := t, slot := i, number := .int number } number (m.slot i) old placed (m, cur₁)
        = .ok () (m', cur')
      ↔ (placed.fault = none ∧ ∀ tag x loose, m.slot i = .case tag x loose → tag.number = .int number)
        ∧ m' = m.setSlot i (.case { owner := t, slot := i, number := .int number } placed.value [])
        ∧ cur₁ = cur' := by
  have write : ∀ v, m.write c i v = .ok (m.setSlot i v) := fun v => by rw [Content.write, place_plain plain]
  rw [run_eq_done_iff]
  unfold placeCase
  rw [checked]
  cases fault : placed.fault with
  | some =>
    simp only [Option.orElse_eq_orElse, Option.orElse_some]
    rcases holds.held with is | ⟨n, origin, x, is⟩ <;> rw [is] <;> simp [ends_store (write _)]
  | none =>
    simp only [faultOf?, Option.orElse_eq_orElse, Option.orElse_none, ends_bind, ends_reading]
    rcases holds.held with is | ⟨n, origin, x, is⟩ <;> rw [is]
    · simp [Value.caseNumber?, ends_store (write _), @eq_comm _ m']
    · by_cases same : n = number
      · subst same
        have equal : (Scalar.int n).equal (.int n) = true := by simp [Scalar.equal, Scalar.int?]
        simp only [Value.caseNumber?, Cursor.ends_ofExcept_ok, equal, Bool.not_true, Bool.false_eq_true, if_false,
          ends_store (write _), Prod.mk.injEq, @eq_comm _ m', true_and]
        refine ⟨fun same => ⟨?_, same⟩, fun h => h.2⟩
        rintro tag x loose ⟨⟩
        rfl
      · have differs : (Scalar.int n).equal (.int number) = false := by simp [Scalar.equal, Scalar.int?, same]
        simp [Value.caseNumber?, differs, same]

/-- What a member is decoded into matters for messages only, and then it is that of the same member. -/
lemma Content.HoldsOneof.exists_existing (holds : m.HoldsOneof t i) (first : Bool) :
    ∃ old, member.existing (m.slot i) = .ok old
      ∧ ∀ v, (Declared.member i o member first).Takes p decode t cur cur' (m.slot i)
          (.case { owner := t, slot := i, number := .int member.number } v [])
        ↔ member.kind.Takes p decode cur cur' old v
          ∧ ∀ tag x loose, m.slot i = .case tag x loose → tag.number = .int member.number := by
  rcases holds.held with is | ⟨n, origin, x, is⟩ <;> rw [is]
  · refine ⟨.none, ite_self _, fun v => ⟨fun takes => ?_, fun h => .opens h.1⟩⟩
    cases takes with
    | opens takes => exact ⟨takes, by simp⟩
  · refine ⟨_, existing_case, fun v => ?_⟩
    have equal : (Scalar.int member.number).equal (.int member.number) = true := by
      simp [Scalar.equal, Scalar.int?]
    constructor
    · intro takes
      cases takes with
      | again takes =>
        rw [equal]
        refine ⟨takes_existing.2 takes, ?_⟩
        rintro tag x loose ⟨⟩
        rfl
    · rintro ⟨takes, active⟩
      obtain rfl : n = member.number := by simpa using active _ _ _ rfl
      rw [equal] at takes
      exact .again (takes_existing.1 takes)

namespace OneofAt

variable (oneof : OneofAt p t c i o)

include oneof

/-- The number of a member is decoded as one, and its value is placed then. -/
lemma ends_decodeNumber {number : Nat} (isMember : o.member? number = some member) (type : m.head.type = t)
    (loose : m.loose = []) {old : Value} (existing : member.existing (m.slot i) = .ok old)
    {assigned : OneofLocals} {Q E} :
    Ends (decodeNumber p table decode c assigned number) (m, cur) Q E
      ↔ Ends (decodeMember p decode (o.decoderLocals (m.slot i).caseLocal) member old) cur
          (fun placed cur' => Ends (placeCase p c o i { owner := t, slot := i, number := .int number } number
            (m.slot i) old placed) (m, cur')
            (fun _ s => Q { current := (m.slot i).caseLocal, value := .unhashable } s) E)
          fun e cur' => E e (m, cur') := by
  have route : c.route number = .slot i := (oneof.routes number).2 (by rw [isMember]; rfl)
  have read : m.read p c i = .ok (m.slot i) := by rw [Content.read, place_plain oneof.plain]
  have decoder : caseDecoder p c o i number m = .ok ({ owner := t, slot := i, number := .int number }, o) := by
    rw [caseDecoder, loose, type]
    rfl
  simp only [decodeNumber, route, oneof.slot, ends_bind, ends_current read, ends_pure, decodeOneof,
    ends_content, ends_reading, decoder, Cursor.ends_ofExcept_ok, isMember, existing]

/-- **Members.**  A member of a oneof is decoded if it can be taken. -/
lemma decodeNumber_iff (holds : m.HoldsOneof t i) {number : Nat} (isMember : o.member? number = some member)
    (first : Bool) (assigned : OneofLocals) :
    (∃ last, decodeNumber p table decode c assigned number (m, cur) = .ok last (m', cur'))
      ↔ ∃ v, (Declared.member i o member first).Takes p decode t cur cur' (m.slot i) v ∧ m' = m.setSlot i v := by
  have named := (member?_eq_some isMember).2
  have leads := oneof.leads isMember
  have makes := oneof.makes isMember
  obtain ⟨old, existing, taken⟩ := @Content.HoldsOneof.exists_existing p decode t m cur cur' i o member holds first
  have decoded := @ends_decodeNumber p table decode t c m cur i o member oneof number isMember holds.type
    holds.plain old existing assigned
  rw [← named] at makes decoded
  constructor
  · rintro ⟨last, run⟩
    rw [run_eq_ok_iff, Succeeds, decoded] at run
    obtain ⟨⟨v, fault⟩, cur₁, read, placed⟩ := succeeds_iff.1 run
    obtain ⟨_, _, stored, -, rfl⟩ := succeeds_iff.1 placed
    obtain ⟨⟨rfl, active⟩, rfl, rfl⟩ := (placeCase_iff oneof.plain holds makes).1 stored
    exact ⟨_, (taken v).2 ⟨(decodeMember_iff leads).1 read, active⟩, rfl⟩
  · rintro ⟨w, takes, rfl⟩
    obtain ⟨v, rfl⟩ : ∃ v, w = Value.case { owner := t, slot := i, number := .int member.number } v [] := by
      generalize m.slot i = current at takes
      cases takes <;> exact ⟨_, rfl⟩
    obtain ⟨takes, active⟩ := (taken v).1 takes
    refine ⟨{ current := (m.slot i).caseLocal, value := .unhashable }, ?_⟩
    rw [run_eq_ok_iff, Succeeds, decoded, ends_of_ok ((decodeMember_iff leads).2 takes),
      ends_of_ok ((placeCase_iff oneof.plain holds makes).2 ⟨⟨rfl, active⟩, rfl, rfl⟩)]
    exact ⟨rfl, rfl⟩

end OneofAt

end member

section declared

variable {p : Program} {table : Option ExtensionTable} {R : Rules} {decode : Decoding Unit} {t : TypeId}
  {c : ClassPlan} {m m' : Content} {cur cur' : Cursor} {levels number : Nat}

/-- Where a member is declared, there is its oneof. -/
lemma Content.Fits.oneofAt {I : Inside} (fits : m.Fits R I t c) (ready : p.Ready table)
    (found : p.plan? t = some c) {i : Nat} {o : OneofPlan} {member : MemberPlan} {first : Bool}
    (declared : Declared.member i o member first ∈ c.declared) :
    OneofAt p t c i o ∧ m.HoldsOneof t i := by
  obtain ⟨-, s, resolved, planned⟩ := ready.planned found
  obtain ⟨plain, -, held⟩ := fits.read_eq ready found declared (by rintro _ _ _ _ _ ⟨⟩)
  have slot := planned.slot_of_declared resolved declared
  refine ⟨planned.oneofAt resolved ready.members found slot plain fun isMember => ?_, fits.type, fits.plain, ?_⟩
  · obtain ⟨first', declared'⟩ := planned.declared_of_oneof resolved slot isMember
    exact (ready.clear.of_plan found).declared _ declared'
  · rcases held with is | ⟨n, member', origin, x, is, -, -⟩
    · exact .inl is
    · exact .inr ⟨n, origin, x, is⟩

/-- **Declared numbers.**  A field that is declared is decoded if it can be taken, and changes its slot
only. -/
lemma AtField.decodeNumber_iff (ready : p.Ready table) (rules : R.Decoded p table)
    (here : AtField p R (fun _ => False) levels t c number m cur) {d : Declared} (declared : d ∈ c.declared)
    (named : d.number = number) (assigned : OneofLocals) :
    (∃ last, decodeNumber p table decode c assigned number (m, cur) = .ok last (m', cur'))
      ↔ ∃ v, d.Takes p decode t cur cur' (m.slot d.slot) v ∧ m' = m.setSlot d.slot v := by
  obtain ⟨-, s, resolved, planned⟩ := ready.planned here.found
  cases d with
  | field i f =>
    have route := planned.route_declared resolved declared
    have slot : c.slots[i]? = some (.field f) := planned.slot_of_declared resolved declared
    have leads := (ready.clear.of_plan here.found).declared _ declared
    have fields : decodeField p decode (c.decoderLocals assigned.current assigned.value) c f i (m, cur)
        = .ok () (m', cur') ↔ _ :=
      here.decodeField_iff ready rules declared (c.map_decoderLocals _ _ ▸ leads)
        (planned.field_isCoded ready.regular declared)
    rw [named] at route
    simp only [decodeNumber, route, Declared.slot, slot]
    constructor
    · rintro ⟨last, run⟩
      obtain ⟨_, _, run, ⟨⟩⟩ := run_bind_ok run
      obtain ⟨v, takes, rfl⟩ := fields.1 run
      exact ⟨v, .field takes, rfl⟩
    · rintro ⟨v, takes, rfl⟩
      cases takes with
      | field takes => exact ⟨_, bind_run_ok (fields.2 ⟨v, takes, rfl⟩) rfl⟩
  | member i o member first =>
    obtain ⟨oneof, holds⟩ := here.fits.oneofAt ready here.found declared
    obtain ⟨-, -, -, -, isMember⟩ := planned.oneof_of_member declared
    rw [show member.number = number from named] at isMember
    exact oneof.decodeNumber_iff holds isMember first assigned

end declared

end Missive
