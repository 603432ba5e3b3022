import Missive.Proofs.Message.Slots

/-!
# Concatenation

Decoding goes over the fields of its data one by one, and carries nothing from one field to the next but
the message.  So data may be cut between two fields: what the front leaves behind is what the back is
decoded into (`outcome_append`).

**Variables.**  A decoder does carry something else: the variables that decoding a oneof assigns.  They
make a difference only where they hide a class, so in a clear program they make none
(`outcome_decodeFields`).

**Fields.**  A field that holds one message is decoded into the message that is there, so two of it are as
good as one with the payloads in a row.
-/

namespace Missive

open Plan Decoding Program

variable {m m' : Content} {p : Program} {table : Option ExtensionTable} {decode : Decoding Unit}
  {c : ClassPlan} {depth number levels : Nat} {group : Option Nat} {cur : Cursor} {t : TypeId}
variable {α : Type} {r : Except Fault Content} {assigned : OneofLocals}

/-! ## Outcomes -/

/-- What becomes of a message: the message afterwards, or the fault. -/
def outcome {α : Type} : EStateM.Result Fault (Content × Cursor) α → Except Fault Content
  | .ok _ s => .ok s.1
  | .error e _ => .error e

section outcome

variable {β : Type} {x : Decoding α} {s s' : Content × Cursor}

lemma outcome_eq_iff : outcome (x s) = r ↔ Ends x s (fun _ t => r = .ok t.1) fun e _ => r = .error e := by
  unfold Ends
  cases x s <;> simp [outcome, eq_comm]

lemma outcome_eq_ok_iff : outcome (x s) = .ok m ↔ ∃ a cur, x s = .ok a (m, cur) := by
  cases x s <;> simp [outcome, Prod.ext_iff]

lemma outcome_bind_ok {a : α} {f : α → Decoding β} (run : x s = .ok a s') :
    outcome ((x >>= f) s) = outcome (f a s') := by
  simp [bind, EStateM.bind, run]

lemma outcome_bind_error {e : Fault} {f : α → Decoding β} (run : x s = .error e s') :
    outcome ((x >>= f) s) = .error e := by
  simp [bind, EStateM.bind, run, outcome]

end outcome

/-- Two actions do the same to a message and a cursor, whatever their results are. -/
def Decoding.Alike {α : Type} (x y : Decoding α) : Prop :=
  ∀ s, (∃ a b t, x s = .ok a t ∧ y s = .ok b t) ∨ ∃ e t, x s = .error e t ∧ y s = .error e t

lemma Decoding.Alike.refl (x : Decoding α) : x.Alike x := by
  intro s
  cases run : x s with
  | ok a t => exact .inl ⟨a, a, t, rfl, rfl⟩
  | error e t => exact .inr ⟨e, t, rfl, rfl⟩

lemma Decoding.alike_return {β : Type} (x : Decoding α) (b b' : β) :
    Alike (do let _ ← x; return b) (do let _ ← x; return b') := by
  intro s
  cases run : x s with
  | ok a t => exact .inl ⟨b, b', t, bind_run_ok run rfl, bind_run_ok run rfl⟩
  | error e t => exact .inr ⟨e, t, by simp [bind, EStateM.bind, run], by simp [bind, EStateM.bind, run]⟩

/-! ## Variables -/

section runs

variable {cur' other : Cursor} {bytes : Bytes}

/-- A field is decoded alike, whatever the variables hold that do not hide its class. -/
lemma decodeField_locals {locals locals' : Locals} (same : locals.map (·.1) = locals'.map (·.1))
    {f : FieldPlan} (leads : f.kind.Leads p (locals.map (·.1))) (i : Nat) :
    decodeField p decode locals c f i = decodeField p decode locals' c f i := by
  have leads' := same ▸ leads
  unfold decodeField
  cases kind : f.kind with
  | scalar => rfl
  | repeated => rfl
  | message =>
    rw [kind] at leads leads'
    simp only [ClassRef.Leads.meaning leads, ClassRef.Leads.meaning leads']
  | repeatedMessage =>
    rw [kind] at leads leads'
    simp only [ClassRef.Leads.meaning leads, ClassRef.Leads.meaning leads']
  | map key value ref =>
    rw [kind] at leads leads'
    cases ref with
    | none => rfl
    | some r => simp only [ClassRef.Leads.meaning (leads r rfl), ClassRef.Leads.meaning (leads' r rfl)]

/-- **One field.**  What decoding a field does is independent of the variables. -/
lemma alike_decodeNumber (planned : ∃ s, s.Resolved ∧ Planned p.arena s c) (clear : c.Clear p)
    (assigned assigned' : OneofLocals) (number : Nat) :
    Decoding.Alike (decodeNumber p table decode c assigned number)
      (decodeNumber p table decode c assigned' number) := by
  obtain ⟨s, resolved, planned⟩ := planned
  unfold decodeNumber
  rcases planned.route_eq resolved number with ⟨d, declared, -, route⟩ | ⟨-, route⟩
  · have leads := clear.declared d declared
    rw [route]
    simp only [planned.slot_of_declared resolved declared]
    cases d with
    | member => exact .refl _
    | field slot =>
      simp only [Declared.content, Declared.slot]
      have names := c.map_decoderLocals assigned.current assigned.value
      have names' := c.map_decoderLocals assigned'.current assigned'.value
      rw [decodeField_locals (names.trans names'.symm) (names ▸ leads)]
      exact alike_return _ _ _
  · rw [route]
    split
    · rename_i taken
      split at taken <;> cases taken
    · rename_i taken
      have ranged : c.ranges.contains number = true := by
        by_contra outside
        rw [if_neg outside] at taken
        cases taken
      simp only [clear.own_meaning ranged (c.map_decoderLocals _ _)]
      exact alike_return _ _ _
    · exact alike_return _ _ _

/-- **Tags.**  Two cursors before the same data read the same tag. -/
lemma Cursor.next_alike (before : cur.Before depth group bytes) (before' : other.Before depth group bytes) :
    (∃ e cur₁ cur₂, next cur = .error e cur₁ ∧ next other = .error e cur₂)
      ∨ (∃ cur₁ cur₂, next cur = .ok none cur₁ ∧ next other = .ok none cur₂)
      ∨ ∃ number cur₁, next cur = .ok (some number) cur₁ ∧ next other = .ok (some number) cur₁ := by
  have both : Ends next cur
      (fun found cur₁ => Ends next other (fun found' cur₂ => found = found' ∧ (found.isSome → cur₁ = cur₂))
        fun _ _ => False)
      (fun e _ => Ends next other (fun _ _ => False) fun e' _ => e = e') := by
    simp only [next, nextTag, ends_bind, ends_get, ends_ite, ends_modify, ends_set, ends_pure, before.free,
      before'.free, Bool.false_eq_true, if_false, before.goes, before'.goes, before.rest, before'.rest,
      before.group, before'.group, ends_reading]
    split
    · cases group <;> simp
    · cases run : Reader.tag bytes with
      | error => simp [ends_of_error run]
      | ok found =>
        obtain ⟨number, wire⟩ := found
        simp only [ends_of_ok run]
        cases wire with
        | endGroup =>
          simp only [ends_ite, ends_throw, ends_modify, ends_pure, ends_bind]
          split <;> simp
        | varint | fixed64 | lengthDelimited | startGroup | fixed32 =>
          simp only [ends_modify, ends_pure, ends_bind]
          simp [before.depth, before'.depth]
  cases run : next cur with
  | error e cur₁ =>
    rw [ends_of_error run] at both
    cases run' : next other with
    | error e' cur₂ => exact .inl ⟨e, cur₁, cur₂, rfl, by rw [(ends_of_error run').1 both]⟩
    | ok => exact ((ends_of_ok run').1 both).elim
  | ok found cur₁ =>
    rw [ends_of_ok run] at both
    cases run' : next other with
    | error => exact ((ends_of_error run').1 both).elim
    | ok found' cur₂ =>
      obtain ⟨rfl, same⟩ := (ends_of_ok run').1 both
      cases found with
      | none => exact .inr (.inl ⟨cur₁, cur₂, rfl, rfl⟩)
      | some number => exact .inr (.inr ⟨number, cur₁, rfl, by rw [same rfl]⟩)

lemma Decoding.reading_ok {r : Reading α} {a : α} (run : r cur = .ok a cur') (m : Content) :
    reading r (m, cur) = .ok a (m, cur') := by
  simp [reading, run]

lemma Decoding.reading_error {r : Reading α} {e : Fault} (run : r cur = .error e cur')
    (m : Content) : reading r (m, cur) = .error e (m, cur') := by
  simp [reading, run]

/-- **Runs.**  What becomes of a message is independent of the variables, and of the cursor but for the
data before it. -/
lemma outcome_decodeFields (nests : Nests decode) (planned : ∃ s, s.Resolved ∧ Planned p.arena s c)
    (clear : c.Clear p) (before : cur.Before depth group bytes) (before' : other.Before depth group bytes)
    {turns turns' : Nat} (enough : bytes.length < turns) (enough' : bytes.length < turns')
    (assigned assigned' : OneofLocals) :
    outcome (decodeFields p table decode c turns assigned (m, cur))
      = outcome (decodeFields p table decode c turns' assigned' (m, other)) := by
  induction turns generalizing m cur other bytes turns' assigned assigned' with
  | zero => exact absurd enough (by omega)
  | succ turns ih =>
    obtain ⟨turns', rfl⟩ : ∃ k, turns' = k + 1 := ⟨turns' - 1, by omega⟩
    unfold decodeFields
    rcases Cursor.next_alike before before' with ⟨e, cur₁, cur₂, next, next'⟩ | ⟨cur₁, cur₂, next, next'⟩
      | ⟨number, cur₁, next, next'⟩
    · rw [outcome_bind_error (reading_error next m), outcome_bind_error (reading_error next' m)]
    · rw [outcome_bind_ok (reading_ok next m), outcome_bind_ok (reading_ok next' m)]
      rfl
    · rw [outcome_bind_ok (reading_ok next m), outcome_bind_ok (reading_ok next' m)]
      obtain ⟨tag, wire, after, rfl, tagged, stands⟩ := yields_iff.1 (Cursor.next_yields before) _ _ next
      have alike : Decoding.Alike (decodeNumber p table decode c assigned number)
        (decodeNumber p table decode c assigned' number) := alike_decodeNumber planned clear _ _ _
      rcases alike (m, cur₁) with ⟨a, a', ⟨m₁, cur₂⟩, run, run'⟩ | ⟨e, s, run, run'⟩
      · rw [outcome_bind_ok run, outcome_bind_ok run']
        obtain ⟨payload, rest, rfl, -, behind, -, -⟩ :=
          (takes_decodeNumber nests c assigned number).at_field stands run
        have front := List.length_pos_iff.2 tagged.ne_nil
        simp only [List.length_append] at enough enough'
        exact ih behind behind (by omega) (by omega) a a'
      · rw [outcome_bind_error run, outcome_bind_error run']

end runs

/-! ## Data in two parts -/

section append

variable {cur' whole back : Cursor} {a b : Bytes}

lemma Content.replaces_iff {name : String} : m.replaces name = true ↔ name ∈ m.loose.map (·.1) := by
  unfold Content.replaces
  induction m.loose with
  | nil => simp
  | cons first rest ih =>
    rw [List.lookup_cons, List.map_cons, List.mem_cons, ← ih]
    by_cases same : name = first.1
    · simp [same]
    · rw [beq_false_of_ne same]
      simp [same]

lemma Content.Kin.replaces_eq (kin : m.Kin m') (name : String) : m'.replaces name = m.replaces name := by
  rw [Bool.eq_iff_iff, Content.replaces_iff, Content.replaces_iff, kin.names]

lemma Content.Kin.checkOwners_eq (kin : m.Kin m') (owners : c.ownersSlot? = none) :
    checkOwners c m' = checkOwners c m := by
  simp only [checkOwners, kin.replaces_eq, owners]

lemma outcome_decodeInto (found : p.plan? m.head.type = some c)
    (reachable : m.replaces "decode_message" = false) (counted : checkOwners c m = .ok ()) :
    outcome (decodeInto p table decode (m, cur)) = outcome (decodeFields p table decode c (cur.rest.length + 1) {}
          (m.merged, cur)) := by
  rw [outcome_eq_iff, ends_decodeInto_of found reachable counted]
  exact outcome_eq_iff.1 rfl

/-- **Two parts.**  Where the front of some data can be decoded, decoding all of it is decoding the back
into what the front has given. -/
lemma outcome_append (planned : ∀ {t c}, p.plan? t = some c → ∃ s, s.Resolved ∧ Planned p.arena s c)
    (clear : p.Clear) (before : cur.Before depth none a)
    (run : outcome (decodeMessage p table levels (m, cur)) = .ok m')
    (beforeWhole : whole.Before depth none (a ++ b)) (beforeBack : back.Before depth none b) :
    outcome (decodeMessage p table levels (m, whole)) = outcome (decodeMessage p table levels (m', back)) := by
  cases levels with
  | zero => cases run
  | succ levels =>
    have nests := nests_decodeMessage p table levels
    obtain ⟨_, cur', into⟩ := outcome_eq_ok_iff.1 run
    obtain ⟨reachable, c, found, counted, fields⟩ := ends_decodeInto_iff.1 (run_eq_ok_iff.1 into)
    have owners := (clear.of_plan found).owners
    have enough : ∀ {cur : Cursor} {bytes : Bytes}, cur.Before depth none bytes →
        bytes.length < cur.rest.length + 1 := by
      intro cur bytes before
      rw [before.rest]
      omega
    obtain ⟨numbers, front, tail, last, -, split, closes, kin, passes⟩ :=
      decodeFields_passes nests before (enough before) (run_eq_ok_iff.2 fields)
    obtain rfl : a = front := by
      obtain ⟨rfl, -⟩ := closes.data_ends
      simpa using split
    -- What is decoded already is marked as such, so decoding the back starts from it as it is.
    have again : m'.merged = m' := by
      rw [Content.merged, show true = m'.head.merged from kin.merged.symm]
    have back_eq : outcome (decodeInto p table (decodeMessage p table levels) (m', back)) = _ :=
      outcome_decodeInto (show p.plan? m'.head.type = some c from kin.type ▸ found)
        ((kin.replaces_eq _).trans reachable) ((kin.checkOwners_eq owners).trans counted)
    rw [again] at back_eq
    rw [decodeMessage, back_eq, outcome_decodeInto found reachable counted, outcome_eq_iff]
    refine passes beforeWhole (enough beforeWhole) ?_
    rintro _ _ cur turns ⟨rfl, rfl⟩ before enough'
    exact outcome_eq_iff.1 (outcome_decodeFields nests (planned found) (clear.of_plan found) before
      beforeBack enough' (enough beforeBack) _ _)

end append

/-! ## Fields with one message -/

/-- The current field of a cursor is one of a number, with a payload behind its length. -/
def Cursor.Offers (cur : Cursor) (depth : Nat) (group : Option Nat) (number : Nat) (payload : Bytes) : Prop :=
  ∃ mark size rest, Varint.Spells size payload.length
    ∧ cur.Stands depth group number .lengthDelimited mark (size ++ (payload ++ rest))

/-- What becomes of a message when nested data is decoded and put into it. -/
def placing (put : Value → Content) : EStateM.Result Fault Cursor Placed → Except Fault Content
  | .ok placed _ =>
    match placed.fault with
    | none => .ok (put placed.value)
    | some e => .error e
  | .error e _ => .error e

section nested

variable {payload : Bytes} {target : TypeId} {existing : Value} {put : Value → Content}

lemma placing_eq_iff {x : Reading Placed} :
    placing put (x cur) = r ↔ Ends x cur (fun placed _ => match placed.fault with
          | none => r = .ok (put placed.value)
          | some e => r = .error e)
        fun e _ => r = .error e := by
  unfold Ends
  cases x cur with
  | error => simp [placing, eq_comm]
  | ok placed => cases fault : placed.fault <;> simp [placing, fault, eq_comm]

/-- What becomes of nested data depends on its payload and on how deep it is. -/
lemma placing_decodeNested (offers : cur.Offers depth group number payload) :
    placing put (decodeNested p decode false (.type target) existing cur) = (do
      let start ← nestedTarget p (.type target) existing
      if maxDepth ≤ depth then .error (.malformed (some number) .tooDeep)
      else return put (← outcome (decode (start, { rest := payload, depth := depth + 1 }))).value) := by
  obtain ⟨mark, size, rest, spells, stands⟩ := offers
  rw [placing_eq_iff]
  simp only [decodeNested, Meaning.evaluated, ends_bind, Cursor.ends_ofExcept_ok, ends_ite,
    Bool.false_eq_true, if_false, decodeMessageField, Cursor.payload, Cursor.enter, ends_get, ends_throw,
    ends_pure]
  refine (Cursor.take_stands stands (by simp)).ends ?_
  rintro - cur' ⟨rfl, rfl⟩
  simp only [Cursor.ends_reading, stands.rest, Reader.ends_lengthDelimited spells]
  cases nestedTarget p (.type target) existing with
  | error => rfl
  | ok start =>
    simp only [Cursor.ends_ofExcept_ok, stands.depth, stands.field]
    split
    · rfl
    · unfold runNested
      cases run : decode (start, { rest := payload, depth := depth + 1 }) <;>
        simp [run, outcome, bind, Except.bind, pure, Except.pure]

/-- **Two payloads.**  Where nested data can be decoded, decoding more of it into what it has given is
decoding both in a row. -/
lemma placing_append (planned : ∀ {t c}, p.plan? t = some c → ∃ s, s.Resolved ∧ Planned p.arena s c)
    (clear : p.Clear) {P Q : Bytes} {first second both : Cursor}
    (offersFirst : first.Offers depth group number P) (offersSecond : second.Offers depth group number Q)
    (offersBoth : both.Offers depth group number (P ++ Q))
    (run : placing put (decodeNested p (decodeMessage p table levels) false (.type target) existing first) = .ok m') :
    ∃ v, m' = put v ∧ ∀ put' : Value → Content,
      placing put' (decodeNested p (decodeMessage p table levels) false (.type target) v second) = placing put'
          (decodeNested p (decodeMessage p table levels) false (.type target) existing both) := by
  rw [placing_decodeNested offersFirst] at run
  obtain ⟨start, made, run⟩ := bind_ok run
  split at run
  · cases run
  · rename_i shallow
    obtain ⟨inner, front, same⟩ := bind_ok run
    cases same
    refine ⟨inner.value, rfl, fun put' => ?_⟩
    have there : nestedTarget p (.type target) inner.value = .ok inner := rfl
    rw [placing_decodeNested offersSecond, placing_decodeNested offersBoth, made, there]
    have entered : ∀ bytes : Bytes, ({ rest := bytes, depth := depth + 1 } : Cursor).Before (depth + 1) none bytes :=
      fun _ => ⟨rfl, rfl, rfl, rfl, rfl⟩
    simp only [if_neg shallow]
    exact congrArg (fun r : Except Fault Content => do return put' (← r).value)
      (outcome_append planned clear (entered P) front (entered (P ++ Q)) (entered Q)).symm

/-- Decoding a number decodes nested data into a place of a message.  What is there is `existing`, and
`put` gives the message with something else there. -/
def Places (p : Program) (table : Option ExtensionTable) (decode : Decoding Unit) (c : ClassPlan)
    (number : Nat) (target : TypeId) (m : Content) (existing : Value) (put : Value → Content) : Prop :=
  ∀ assigned cur, outcome (decodeNumber p table decode c assigned number (m, cur))
    = placing put (decodeNested p decode false (.type target) existing cur)

lemma places_field (plain : c.isAny = false) {i : Nat} {f : FieldPlan} {ref : ClassRef}
    (route : c.route number = .slot i) (slot : c.slots[i]? = some (.field f))
    (kind : f.kind = .message false ref) (leads : ref.Leads p c.decoderVariables) (m : Content) :
    Places p table decode c number ref.target m (m.slot i) (m.setSlot i) := by
  intro assigned cur
  have read : m.read p c i = .ok (m.slot i) := by rw [Content.read, place_plain plain]
  have write : ∀ v, m.write c i v = .ok (m.setSlot i v) := fun v => by rw [Content.write, place_plain plain]
  have meaning : ref.meaning (c.decoderLocals assigned.current assigned.value) = .type ref.target :=
    ClassRef.Leads.meaning (c.map_decoderLocals _ _ ▸ leads)
  rw [outcome_eq_iff]
  simp only [decodeNumber, route, slot, decodeField, kind, meaning, ends_bind, ends_pure,
    ends_current read, ends_reading, ends_ite, ends_store (write _)]
  refine (placing_eq_iff.1 rfl).mono ?_ fun e cur' same => same
  intro placed cur' same
  cases fault : placed.fault with
  | none =>
    rw [fault] at same
    simpa [fault] using same
  | some =>
    rw [fault] at same
    split
    · exact same
    · exact same

lemma places_extension {known : ExtensionTable} {e : Extension} (route : c.route number = .extension)
    (own : ∀ assigned : OneofLocals, c.own.meaning (c.decoderLocals assigned.current assigned.value) = .type t)
    (found : known.find? t number = some e) (type : e.type = .message) (single : e.repeated = false)
    (whole : m.head.bare = false) (plain : m.loose = []) :
    Places p (some known) decode c number (e.messageType.getD p.baseType) m ((m.extension? e.number).getD .none)
      fun v => { m with extensions := Content.putExtension e v m.extensions } := by
  intro assigned cur
  have extended : Extended.ofLoose m.head.bare m.extensions m.loose = .usual m.extensions := by
    simp [Extended.ofLoose, plain, whole]
  have message : (FieldType.message == .group) = false := rfl
  rw [outcome_eq_iff]
  simp only [decodeNumber, route, decodeRanged, own, ends_bind, ends_pure, ends_content, extended,
    Meaning.evaluated, ends_reading, Cursor.ends_ofExcept_ok, found, decodeExtension, single,
    Bool.false_eq_true, if_false, decodeSingularExtension, type, FieldType.isScalar, decodeExtensionMessage,
    message]
  refine (placing_eq_iff.1 rfl).mono ?_ fun e cur' same => same
  intro placed cur' same
  cases fault : placed.fault with
  | none =>
    rw [fault] at same
    simpa [fault, Decoding.storeExtension] using same
  | some =>
    rw [fault] at same
    simpa [fault] using same

/-- A member that is a message is a place, if no other one is set. -/
lemma places_member {i : Nat} {o : OneofPlan} {member : MemberPlan} {ref decodeRef : ClassRef}
    (oneof : OneofAt p t c i o) (isMember : o.member? number = some member)
    (kind : member.kind = .message false ref decodeRef) (type : m.head.type = t) (plain : m.loose = [])
    (there : member.existing (m.slot i) = .ok existing)
    (active : m.slot i = .none ∨ ∃ tag v loose, m.slot i = .case tag v loose ∧ tag.number = .int number) :
    Places p table decode c number decodeRef.target m existing
      fun v => m.setSlot i (.case { owner := t, slot := i, number := .int number } v []) := by
  intro assigned cur
  have leads := oneof.leads isMember
  rw [kind] at leads
  have meaning : ∀ l, decodeRef.meaning (o.decoderLocals l) = .type decodeRef.target :=
    fun l => ClassRef.Leads.meaning (o.map_decoderLocals l ▸ leads)
  have write : ∀ v, m.write c i v = .ok (m.setSlot i v) := fun v => by
    rw [Content.write, place_plain oneof.plain]
  rw [outcome_eq_iff, oneof.ends_decodeNumber isMember type plain there]
  simp only [decodeMember, kind, meaning]
  refine (placing_eq_iff.1 rfl).mono ?_ fun e cur' same => same
  intro placed cur' same
  unfold placeCase
  rw [oneof.makes isMember]
  cases fault : placed.fault with
  | none =>
    rw [fault] at same
    simp only [faultOf?, Option.orElse_eq_orElse, Option.orElse_none, ends_bind, ends_reading]
    rcases active with is | ⟨tag, v, loose, is, sameNumber⟩
    · simp only [is, Value.caseNumber?, Cursor.ends_ofExcept_ok, ends_store (write _)]
      exact same
    · have equal : (Scalar.int number).equal (.int number) = true := by simp [Scalar.equal, Scalar.int?]
      simp only [is, Value.caseNumber?, sameNumber, Cursor.ends_ofExcept_ok, equal, Bool.not_true,
        Bool.false_eq_true, if_false, ends_store (write _)]
      exact same
  | some =>
    rw [fault] at same
    simp only [Option.orElse_eq_orElse, Option.orElse_some]
    split
    · simp only [ends_bind, ends_ite, ends_store (write _), ends_throw]
      split
      · exact same
      · exact same
    · exact same

end nested

/-- A number that a class holds one message under: that of a field, of a member of a oneof, or of an
extension that is known. -/
inductive SingularMessage (table : Option ExtensionTable) (t : TypeId) (c : ClassPlan) (number : Nat) : Prop
  | field {i : Nat} {f : FieldPlan} {ref : ClassRef} (declared : Declared.field i f ∈ c.declared)
      (named : f.number = number) (kind : f.kind = .message false ref)
  | member {i : Nat} {o : OneofPlan} {member : MemberPlan} {first : Bool} {ref decodeRef : ClassRef}
      (declared : Declared.member i o member first ∈ c.declared) (named : member.number = number)
      (kind : member.kind = .message false ref decodeRef)
  | extension {known : ExtensionTable} {e : Extension} (ranged : c.ranges.contains number = true)
      (listed : table = some known) (found : known.find? t number = some e) (type : e.type = .message)
      (single : e.repeated = false)

section places

variable {R : Rules} {I : Inside}

section

variable (single : SingularMessage table t c number) (ready : p.Ready none) (found : p.plan? t = some c)
  (fits : m.Fits R I t c)

include single ready found fits

/-- **Places.**  Where one message can be decoded into what a message holds of it, more can be decoded into
what that has given. -/
lemma SingularMessage.exists_places (run : outcome (decodeNumber p table decode c assigned number (m, cur)) = .ok m') :
    ∃ target existing put, Places p table decode c number target m existing put
      ∧ ∀ v, Places p table decode c number target (put v) v put := by
  obtain ⟨same, s, resolved, planned⟩ := ready.planned found
  have clear := ready.clear.of_plan found
  cases single with
  | @field i f ref declared named kind =>
    obtain ⟨any, -, -⟩ := fits.read_eq ready found declared (by rintro _ _ _ _ _ ⟨⟩; simp [kind])
    have route := planned.route_declared resolved declared
    have slot := planned.slot_of_declared resolved declared
    have leads := clear.declared _ declared
    simp only [Declared.number, Declared.slot, Declared.content, Declared.Leads, kind, named] at route slot leads
    have room : i < m.slots.length := by
      rw [fits.length any]
      exact (List.getElem?_eq_some_iff.1 slot).1
    refine ⟨ref.target, _, _, places_field any route slot kind leads m, fun v => ?_⟩
    have again : Places p table decode c number ref.target (m.setSlot i v) _ _ :=
      places_field any route slot kind leads (m.setSlot i v)
    have overwrites : (m.setSlot i v).setSlot i = m.setSlot i := funext fun w => Content.setSlot_setSlot
    rwa [Content.slot_setSlot room, overwrites] at again
  | @member i o member first ref decodeRef declared named kind =>
    obtain ⟨oneof, holds⟩ := fits.oneofAt ready found declared
    obtain ⟨-, -, -, -, isMember⟩ := planned.oneof_of_member declared
    rw [named] at isMember
    have room : i < m.slots.length := by
      rw [fits.length oneof.plain]
      exact (List.getElem?_eq_some_iff.1 oneof.slot).1
    -- What is there is the case of this member, since another one would be in conflict.
    obtain ⟨existing, there, active⟩ : ∃ existing, member.existing (m.slot i) = .ok existing
        ∧ (m.slot i = .none ∨ ∃ tag v loose, m.slot i = .case tag v loose ∧ tag.number = .int number) := by
      obtain ⟨_, cur', run⟩ := outcome_eq_ok_iff.1 run
      obtain ⟨_, takes, -⟩ := (oneof.decodeNumber_iff holds isMember first assigned).1 ⟨_, run⟩
      generalize m.slot i = current at takes
      cases takes with
      | opens => exact ⟨.none, ite_self _, .inl rfl⟩
      | again => exact ⟨_, existing_case, .inr ⟨_, _, _, rfl, congrArg Scalar.int named⟩⟩
    refine ⟨decodeRef.target, existing, _, places_member oneof isMember kind fits.type fits.plain there active,
      fun v => ?_⟩
    obtain ⟨after, put⟩ : ∃ after, after
      = m.setSlot i (.case { owner := t, slot := i, number := .int number } v []) := ⟨_, rfl⟩
    have is : after.slot i = .case { owner := t, slot := i, number := .int number } v [] := by
      rw [put, Content.slot_setSlot room]
    have there' : member.existing (after.slot i) = .ok v := by
      rw [is, existing_case, kind, named]
      simp [MemberKind.ref?, Scalar.equal, Scalar.int?]
    have type : after.head.type = t := put ▸ fits.type
    have plain : after.loose = [] := put ▸ fits.plain
    have again : Places p table decode c number decodeRef.target after v _ :=
      places_member oneof isMember kind type plain there' (.inr ⟨_, _, _, is, rfl⟩)
    rw [put] at again
    simp only [Content.setSlot_setSlot] at again
    exact again
  | @extension known e ranged listed isKnown type single =>
    subst listed
    have route := planned.route_ranged resolved ranged
    have own : ∀ assigned : OneofLocals,
        c.own.meaning (c.decoderLocals assigned.current assigned.value) = .type t := fun assigned => by
      rw [clear.own_meaning ranged (c.map_decoderLocals _ _), planned.own, same]
    refine ⟨_, _, _, places_extension route own isKnown type single fits.whole fits.plain, fun v => ?_⟩
    have again : Places p (some known) decode c number (e.messageType.getD p.baseType)
        { m with extensions := Content.putExtension e v m.extensions } _ _ :=
      places_extension route own isKnown type single fits.whole fits.plain
    simpa only [Content.extension?, Content.find?_putExtension, Option.map_some, Option.getD_some,
      Content.putExtension_putExtension] using again

/-- **Two fields.**  Where a field with one message can be decoded, decoding another one of the same number
after it is decoding one with both payloads in a row. -/
lemma SingularMessage.outcome_append {P Q : Bytes} {first second both : Cursor}
    (offersFirst : first.Offers depth group number P) (offersSecond : second.Offers depth group number Q)
    (offersBoth : both.Offers depth group number (P ++ Q))
    (run : outcome (decodeNumber p table (decodeMessage p table levels) c assigned number (m, first)) = .ok m')
    (assigned' assigned'' : OneofLocals) :
    outcome (decodeNumber p table (decodeMessage p table levels) c assigned' number (m', second))
      = outcome (decodeNumber p table (decodeMessage p table levels) c assigned'' number (m, both)) := by
  obtain ⟨target, existing, put, places, again⟩ := single.exists_places ready found fits run
  rw [places] at run
  obtain ⟨v, rfl, same⟩ := placing_append (fun found => (ready.planned found).2) ready.clear offersFirst
    offersSecond offersBoth run
  rw [places, again v]
  exact same put

end

end places

/-! ## Messages -/

/-- What merging data into a message gives: the message, or the fault. -/
def merging (p : Program) (table : Option ExtensionTable) (m : Content) (data : Bytes) :
    Except Fault Content :=
  match mergeBytes p table m data with
  | (m, none) => .ok m
  | (_, some f) => .error f

lemma merging_eq_outcome {data : Bytes} :
    merging p table m data = outcome (decodeWith p table (m, Cursor.ofBytes data)) := by
  unfold merging mergeBytes
  cases decodeWith p table (m, Cursor.ofBytes data) <;> rfl

def sampleField (payload : Bytes) : Cursor where
  rest := Varint.encode payload.length ++ (payload ++ [])
  field := some 4
  wire := .lengthDelimited
  consumed := false

/-- The only member of the oneof is a message. -/
lemma singularMessage_sample : SingularMessage none 0 samplePlan 4 := by
  obtain ⟨-, s, resolved, planned⟩ := planned_of_build build_sample plan_sample
  have slot : samplePlan.slots[0]? = some (.oneof sampleOneof) := by
    rw [slots_sample.2]
    rfl
  obtain ⟨d, declared, -, content⟩ := planned.exists_declared resolved slot
  cases d with
  | field => cases content
  | member slot o member =>
    cases content
    obtain ⟨-, -, -, -, found⟩ := planned.oneof_of_member declared
    obtain rfl := List.mem_singleton.1 (member?_eq_some found).1
    exact .member declared rfl rfl

/-- A message that is called like a variable which decoding its oneof assigns. -/
def currentFiles : List Schema.FileDecl :=
  [{ name := "a.proto"
     messages :=
      [{ name := "current"
         oneofs := ["o"]
         fields := [{ name := "a", number := 1, type := .int32, oneof := some 0 }]
         extensionRanges := [(10, 11)] }] }]

end Missive
