import Missive.Proofs.Message.Reader

/-!
# Round trip

A message that was written is read back as an equal one.

**Fields.**  Each kind of field has its way to be absorbed, and leaves an echo of its value in its spot.  This asks
of the decoder of nested data that it restores the messages on the levels below (`Restores`).

**The run.**  The encodings of a message come in ascending order of their numbers.  While they are read,
the new message is partway: for the numbers that were read it has echoes of what the message has, and
nothing for the others (`Partway`).  Each encoding adds its number, and behind the last one the new message
has all that the old one has.

**The level.**  A message that was read back is an echo as a whole: it is equal to the message, of its class,
and written as it is.  So messages are restored if the messages on the levels below are.
-/

namespace Missive

open Plan Schema List

variable {p : Program} {table : Option ExtensionTable} {I : Inside} {kind : FieldKind} {v v' : Value}
  {R : Rules} {t : TypeId} {slot levels i : Nat} {content : Value → Prop} {plan : SlotPlan} {c : ClassPlan}
  {decode : Decoding Unit} {depth : Nat} {group : Option Nat} {m m' : Content} {number : Int} {bytes : Bytes}

/-! ## Unset fields -/

section unset

variable {fits : Value → Prop} {encode : Value → Except Fault Bytes}

lemma FieldType.default_truthy (type : FieldType) : type.default.truthy = false := by
  cases type <;> rfl

/-- Of the scalars of a type, those that are zero or empty are equal to the default. -/
lemma same_default {type : FieldType} {s : Scalar} (holds : type.Holds s) (zero : s.truthy = false) :
    Same p (.scalar type.default) (.scalar s) := by
  cases s with
  | none => exact holds.elim
  | bool b =>
    obtain rfl : type = .bool := holds
    obtain rfl : b = false := zero
    exact same_self rfl
  | int i =>
    obtain ⟨low, high, bounds, -, -⟩ := holds
    obtain rfl : i = 0 := by simpa [Scalar.truthy] using zero
    cases type <;> simp [FieldType.bounds?] at bounds <;> exact same_self rfl
  | float x =>
    have isZero : x.isZero = true := by simpa [Scalar.truthy] using zero
    have number : x.isNaN = false := by
      have pattern : x.pattern = 0 := by simpa [Binary64.isZero] using isZero
      simp [Binary64.isNaN, pattern]
    have isDefault : type.default = .float Binary64.zero := by
      rcases holds with rfl | ⟨rfl, -⟩ <;> rfl
    have zeros : Binary64.zero.isNaN = false ∧ Binary64.zero.isZero = true := by decide
    rw [isDefault]
    exact same_scalar (by simp [Scalar.equal, Binary64.equal, number, isZero, zeros])
      (by simp [Scalar.equal, Binary64.equal, number, isZero, zeros])
  | text x =>
    obtain rfl : type = .string := holds
    obtain rfl : x = "" := by simpa [Scalar.truthy] using zero
    exact same_self rfl
  | bytes data =>
    obtain rfl : type = .bytes := holds
    obtain rfl : data = [] := by simpa [Scalar.truthy] using zero
    exact same_self rfl

/-- An unset field is absent. -/
lemma isPresent_initial (zero : kind.StartsAtZero) :
    kind.isPresent kind.initial = false := by
  cases kind with
  | scalar type presence default =>
    cases presence with
    | true => rfl
    | false =>
      obtain rfl : default = type.default := zero
      exact type.default_truthy
  | _ => rfl

/-- An unset field can be read back. -/
lemma Rules.Legible.initial (legible : R.Legible p table) (zero : kind.StartsAtZero) (coded : kind.IsCoded) :
    kind.Fits R I kind.initial := by
  cases kind with
  | scalar type presence default =>
    cases presence with
    | true => exact .inl ⟨rfl, rfl⟩
    | false =>
      obtain rfl : default = type.default := zero
      exact .inr ⟨_, rfl, legible.default coded⟩
  | repeated type packed =>
    refine ⟨[], rfl, by simp, fun _ => legible.packed.2 fun bytes encoded => ?_⟩
    cases encoded
    decide
  | message => exact .inl rfl
  | repeatedMessage => exact ⟨[], rfl, by simp⟩
  | map => exact ⟨[], rfl, by simp, List.Pairwise.nil, by simp⟩

lemma isNew_initial : kind.initial.Every (Value.IsNew p) := by
  cases kind with
  | scalar type presence => cases presence <;> exact Value.isNew_scalar _
  | repeated | repeatedMessage => exact Value.every_list.2 ⟨trivial, by simp⟩
  | message => exact Value.isNew_scalar _
  | map => exact Value.every_map.2 ⟨trivial, by simp⟩

/-- An absent field is equal to an unset one. -/
lemma same_initial (legible : R.Legible p table) (zero : kind.StartsAtZero) (fits : kind.Fits R I v)
    (absent : kind.isPresent v = false) :
    Same p kind.initial v := by
  have none : Same p .none .none := same_self rfl
  cases kind with
  | scalar type presence default =>
    rcases fits with ⟨rfl, rfl⟩ | ⟨s, rfl, holds⟩
    · exact none
    · cases presence with
      | true => cases s <;> first | exact none | simp [FieldKind.isPresent, Value.isPresent] at absent
      | false =>
        obtain rfl : default = type.default := zero
        exact same_default (legible.scalar holds).1 absent
  | repeated | repeatedMessage =>
    obtain ⟨items, rfl, -⟩ := fits
    obtain rfl : items = [] := by simpa [FieldKind.isPresent, Value.truthy] using absent
    exact same_list .nil
  | message =>
    cases v with
    | scalar s => cases s <;> first | exact none | simp [FieldKind.isPresent, Value.isPresent] at absent
    | _ => simp [FieldKind.isPresent, Value.isPresent] at absent
  | map =>
    obtain ⟨entries, rfl, -⟩ := fits
    obtain rfl : entries = [] := by simpa [FieldKind.isPresent, Value.truthy] using absent
    exact same_map .nil .nil (by simp)

lemma Echo.ne_nil (echo : Echo R p fits encode v v') (nonempty : v ≠ .list []) : v' ≠ .list [] := by
  rintro rfl
  have truthy := echo.truthy
  have list := echo.list
  cases v with
  | list items => cases items <;> simp_all [Value.truthy]
  | _ => cases list

lemma Echo.kind_isPresent (echo : Echo R p fits encode v v') (kind : FieldKind) :
    kind.isPresent v' = kind.isPresent v := by
  cases kind <;> simp only [FieldKind.isPresent, echo.present, echo.truthy]

end unset

/-- Lists in strictly ascending order are the same if they have the same members. -/
lemma eq_of_ascending {α : Type} {xs ys : List (Int × α)} (ascending : xs.Pairwise fun a b => a.1 < b.1)
    (ascending' : ys.Pairwise fun a b => a.1 < b.1) (members : ∀ x, x ∈ xs ↔ x ∈ ys) : xs = ys := by
  have distinct : ∀ {zs : List (Int × α)}, (zs.Pairwise fun a b => a.1 < b.1) → zs.Nodup := by
    intro zs ascending
    refine ascending.imp ?_
    rintro a b less rfl
    exact Int.lt_irrefl _ less
  refine Perm.eq_of_pairwise (fun a b _ _ less greater => ?_) ascending ascending'
    ((perm_ext_iff_of_nodup (distinct ascending) (distinct ascending')).2 members)
  exact absurd less (Int.lt_asymm greater)

/-! ## Fields -/

/-- What holds while the fields of a message of a class are read back. -/
structure Walking (p : Program) (table : Option ExtensionTable) (R : Rules) (content : Value → Prop)
    (decode : Decoding Unit) (t : TypeId) (c : ClassPlan) (depth levels : Nat) : Prop
    extends NestedReader p table decode depth where
  legible : R.Legible p table
  found : p.plan? t = some c
  valid : c.Valid
  nested : ∀ n below, depth < below → below + n ≤ depth + levels → Restores p R content n decode below
  spelled : (inside p R content levels).Spelled p R
  shallow : depth + levels ≤ maxDepth

section walking

variable {key value : FieldType} {ref : Option ClassRef} (walking : Walking p table R content decode t c depth levels)

include walking

/-- **Messages and groups.**  What is written of one is restored where there was none. -/
lemma Walking.isTaken_message {isGroup : Bool} {t' : TypeId}
    (fits : MessageFits R (inside p R content levels) isGroup t' v)
    (encoded : Encoding.message p isGroup number v = .ok bytes) (positive : 0 < number)
    (bounded : number ≤ maxFieldNumber) :
    IsTaken depth group number bytes fun cur cur' =>
      ∃ u, decodeNested p decode isGroup (.type t') .none cur = .ok ⟨u, none⟩ cur'
        ∧ Echo R p (MessageFits R (inside p R content levels) isGroup t') (Encoding.message p isGroup number) v u := by
  obtain ⟨⟨k, rfl, typed⟩, small⟩ := id fits
  obtain ⟨inside, spells⟩ := walking.spelled.nested t' v ⟨k, rfl, typed⟩
  obtain ⟨c', -, found, -, -⟩ := typed_eq p _ content k ▸ typed
  have fresh := fresh_eq walking.ready found
  have shallow := walking.shallow
  refine (isTaken_nested (walking.nested k (depth + 1) (by omega) (by omega) typed spells.serialize fresh) fresh
    (by omega) spells.serialize
    (fun isMessage => walking.legible.message.1 (small isMessage) inside spells.serialize) positive bounded
    encoded).mono ?_
  rintro cur cur' ⟨u, run, echo⟩
  exact ⟨u, run, (fits.echo walking.legible (echo.imp (fun typed => ⟨k, rfl, typed⟩) id)).message isGroup number⟩

/-- The value of an entry is restored, as a scalar or as a message. -/
lemma Walking.restoresValue {e : Key × Value} (fits : EntryFits R (inside p R content levels) key value ref e)
    (encoded : Encoding.entryValue p value ref.isSome e.2 = .ok bytes) :
    RestoresValue p decode key (MapValue.of value ref) (depth + 1) bytes
      (Echo R p (fun v => EntryFits R (inside p R content levels) key value ref (e.1, v))
        (Encoding.entryValue p value ref.isSome) e.2) := by
  obtain ⟨keyFits, valueFits, size⟩ := id fits
  cases ref with
  | none =>
    obtain ⟨s, valueIs, scalar⟩ := valueFits
    obtain ⟨holds, small⟩ := walking.legible.scalar scalar
    rw [valueIs] at encoded ⊢
    refine (restoresValue_scalar holds small encoded).mono ?_
    rintro _ rfl
    exact .scalar scalar (valueIs ▸ fits)
  | some r =>
    obtain ⟨⟨k, rfl, typed⟩, isSmall⟩ := valueFits
    have small := walking.legible.message.1 isSmall
    obtain ⟨inside, spells⟩ := walking.spelled.entry r.target e.2 ⟨k, rfl, typed⟩
    obtain ⟨c', -, found, -, -⟩ := typed_eq p _ content k ▸ typed
    have fresh := fresh_eq walking.ready found
    have shallow := walking.shallow
    refine (restoresValue_message (walking.nested k (depth + 2) (by omega) (by omega) typed spells.serialize fresh)
      fresh (by omega) (small inside spells.serialize) spells.serialize encoded).mono fun v echo => ?_
    have alike : Encoding.entryValue p value true v = Encoding.entryValue p value true e.2 :=
      (echo.message false 2).encoded
    refine echo.imp (fun typed' => ⟨keyFits, ⟨⟨k, rfl, typed'⟩, ?_⟩, ?_⟩) fun _ => alike
    · exact walking.legible.message.2 fun bytes spelled => small bytes (echo.encoded ▸ spelled)
    · exact walking.legible.entry.2 fun bytes spelled =>
        walking.legible.entry.1 size bytes (Encoding.keyValue_congr alike ▸ spelled)

/-- **Entries of maps.**  What is written of one is restored, with its key. -/
lemma Walking.isTaken_entry {e : Key × Value} (fits : EntryFits R (inside p R content levels) key value ref e)
    (room : 1 ≤ levels) (encoded : Encoding.entry p number key value ref.isSome e = .ok bytes) :
    IsTaken depth group number bytes fun cur cur' =>
      ∃ e', decodeMapField p decode key (MapValue.of value ref) cur = .ok e' cur'
        ∧ EntryEcho p R (inside p R content levels) key value ref e' e := by
  obtain ⟨⟨s, isKey, scalar⟩, -, size⟩ := id fits
  obtain ⟨holds, small⟩ := walking.legible.scalar scalar
  have shallow := walking.shallow
  exact Missive.isTaken_entry isKey holds small (by omega) (walking.legible.entry.1 size)
    (fun _ valueIs => walking.restoresValue fits valueIs) encoded

/-- **Fields and extensions.**  What is written of one that is present is absorbed where nothing is set, and
leaves an echo. -/
lemma Walking.absorbs_present {spot : Spot} (keeps : c.Keeps p table number spot kind)
    (known : m.Known p table depth t c) (unset : m.held p spot = kind.initial)
    (fits : kind.Fits R (inside p R content levels) v) (present : kind.isPresent v = true)
    (encoded : kind.encoding p number v = .ok bytes) :
    Absorbs p table decode c depth group m bytes fun m' => m'.Known p table depth t c
      ∧ ∃ u, Echo R p (kind.Fits R (inside p R content levels)) (kind.encoding p number) v u ∧ m' = m.keep spot u := by
  have reads := walking.toNestedReader
  have found := walking.found
  have valid := walking.valid
  obtain ⟨positive, bounded⟩ := keeps.number_valid valid
  cases kind with
  | scalar type =>
    obtain ⟨s, rfl, scalar⟩ : R.Holds type v := by
      rcases fits with ⟨rfl, rfl⟩ | holds
      · simp [FieldKind.isPresent, Value.isPresent] at present
      · exact holds
    obtain ⟨typed, small⟩ := walking.legible.scalar scalar
    refine keeps.absorbs reads found valid known ((isTaken_scalar typed small encoded).mono fun cur cur' read => ?_)
    exact ⟨_, .scalar read, .scalar scalar fits⟩
  | repeated type packed =>
    obtain ⟨items, rfl, all, size⟩ := id fits
    have nonempty : items ≠ [] := by
      rintro rfl
      cases present
    refine (keeps.absorbs_runs reads found valid nonempty known unset (fun x member => ?_)
      (fun packs => walking.legible.packed.1 (size packs)) encoded).mono ?_
    · obtain ⟨s, rfl, scalar⟩ := all x member
      exact ⟨s, rfl, walking.legible.scalar scalar⟩
    · rintro m' ⟨known', rfl⟩
      exact ⟨known', _, .scalars all fits, rfl⟩
  | message isGroup ref =>
    have fits : MessageFits R (inside p R content levels) isGroup ref.target v := by
      rcases fits with rfl | fits
      · simp [FieldKind.isPresent, Value.isPresent] at present
      · exact fits
    refine keeps.absorbs reads found valid known ((walking.isTaken_message fits encoded positive bounded).mono ?_)
    rintro cur cur' ⟨u, run, echo⟩
    exact ⟨u, unset ▸ .message run, echo.imp .inr id⟩
  | repeatedMessage isGroup ref =>
    obtain ⟨items, rfl, all⟩ := fits
    have nonempty : items ≠ [] := by
      rintro rfl
      cases present
    refine (keeps.absorbs_row reads found valid Value.list (fun y x => Echo R p (MessageFits R
      (inside p R content levels) isGroup ref.target) (Encoding.message p isGroup number) x y) nonempty known unset
      encoded ?_).mono ?_
    · rintro front x later done bytes rfl - encoded
      refine (walking.isTaken_message (all x (by simp)) encoded positive bounded).mono ?_
      rintro cur cur' ⟨u, run, echo⟩
      exact ⟨u, .repeatedMessage run, echo⟩
    · rintro m' ⟨known', us, echoes, rfl⟩
      exact ⟨known', _, echo_list echoes (fun fits => ⟨us, rfl, fits⟩) id, rfl⟩
  | map key value ref =>
    obtain ⟨entries, rfl, room, distinct, all⟩ := id fits
    have nonempty : entries ≠ [] := by
      rintro rfl
      cases present
    refine (keeps.absorbs_row reads found valid (Value.map false) (EntryEcho p R (inside p R content levels) key
      value ref) nonempty known unset encoded ?_).mono ?_
    · rintro front e later done bytes rfl echoes encoded
      have absent : ∀ x ∈ done, x.1.equal e.1 = false := by
        intro x member
        obtain ⟨old, inside, key, -⟩ := exists_right_of_mem echoes member
        rw [key]
        exact (pairwise_append.1 distinct).2.2 old inside e (.head _)
      refine (walking.isTaken_entry (all e (by simp)) (room (by simp)) encoded).mono ?_
      rintro cur cur' ⟨e', run, echo⟩
      refine ⟨e', ?_, echo⟩
      rw [← putEntry_append (k := e'.1) (v := e'.2) (echo.1 ▸ absent)]
      exact .map run
    · rintro m' ⟨known', us, echoes, rfl⟩
      exact ⟨known', _, echo_map fits echoes, rfl⟩

/-- **Members.**  What is written of a member is absorbed where no case is set, and leaves the case of an
echo. -/
lemma Walking.absorbs_member {o : OneofPlan} {member : MemberPlan} {first : Bool}
    (declared : Declared.member slot o member first ∈ c.declared) (known : m.Known p table depth t c)
    (unset : m.slot slot = .none) (fits : member.kind.Fits R (inside p R content levels) v)
    (encoded : member.kind.encoding p member.number v = .ok bytes) :
    Absorbs p table decode c depth group m bytes fun m' => m'.Known p table depth t c
      ∧ ∃ u, (∃ v', Echo R p (member.kind.Fits R (inside p R content levels))
            (member.kind.encoding p member.number) v v'
          ∧ u = .case { owner := t, slot, number := .int member.number } v' [])
        ∧ m' = m.setSlot slot u := by
  obtain ⟨-, s, resolved, planned⟩ := walking.ready.planned walking.found
  obtain ⟨plan, isOneof, -, oneof, isMember⟩ := planned.oneof_of_member declared
  have coded := planned.member_isCoded walking.ready.regular isOneof oneof (member?_eq_some isMember).1
  obtain ⟨positive, bounded⟩ : 0 < member.number ∧ member.number ≤ maxFieldNumber :=
    walking.valid.numbers _ declared
  refine walking.toNestedReader.absorbs_member walking.found declared known unset positive bounded
    (fun v' echo => ⟨v', echo, rfl⟩) ?_
  cases kind : member.kind with
  | scalar =>
    rw [kind] at fits encoded
    obtain ⟨s, rfl, scalar⟩ := id fits
    obtain ⟨typed, small⟩ := walking.legible.scalar scalar
    exact (isTaken_scalar typed small encoded).mono fun cur cur' read => ⟨_, .scalar read, .scalar scalar fits⟩
  | message isGroup ref decodeRef =>
    rw [kind] at fits encoded coded
    have target : ref.target = decodeRef.target := coded
    refine (walking.isTaken_message fits encoded positive bounded).mono ?_
    rintro cur cur' ⟨u, run, echo⟩
    exact ⟨u, .message (target ▸ run), echo⟩
  | entry =>
    rw [kind] at fits
    exact fits.elim

end walking

/-! ## Partway -/

/-- What a slot holds once it was read: an echo of what the message has there. -/
def Plan.SlotPlan.Echoed (p : Program) (R : Rules) (I : Inside) (t : TypeId) (slot : Nat) :
    SlotPlan → Value → Value → Prop
  | .field f, v, v' => Echo R p (f.kind.Fits R I) (f.kind.encoding p f.number) v v'
  | .oneof o, v, v' => ∃ number member origin x x', v = .case { owner := t, slot, number := .int number, origin } x []
        ∧ v' = .case { owner := t, slot, number := .int number } x' []
        ∧ o.member? number = some member
        ∧ Echo R p (member.kind.Fits R I) (member.kind.encoding p number) x x'

/-- A message that was read partway from the encodings of another one. -/
abbrev Partway (p : Program) (table : Option ExtensionTable) (R : Rules) (I : Inside) (depth : Nat) (t : TypeId)
    (c : ClassPlan) (m : Content) : List Int → Content → Prop :=
  Refilled p table depth t c (fun n => ∃ result, Carries p c m n result)
    (fun i u => ∀ plan v, c.slots[i]? = some plan → m.read p c i = .ok v → plan.Echoed p R I t i v u)
    (fun e u => ∃ v, (e, v) ∈ m.extensions ∧ Echo R p (e.Fits R I) (e.encoding p) v u) m.extensions

section partway

variable {s : Message} {done : List Int}

/-- What holds while a message is read back: the message itself can be read back. -/
structure Rereading (p : Program) (table : Option ExtensionTable) (R : Rules) (content : Value → Prop)
    (decode : Decoding Unit) (t : TypeId) (c : ClassPlan) (s : Message) (depth levels : Nat) (m : Content) : Prop
    extends Walking p table R content decode t c depth levels where
  resolved : s.Resolved
  planned : Planned p.arena s c
  fits : m.Fits R (Missive.inside p R content levels) t c

variable (reading : Rereading p table R content decode t c s depth levels m)

include reading

/-- What is written of a declared field is absorbed by its slot, if that is as in a new message. -/
lemma Rereading.absorbs_sends (known : m'.Known p table depth t c) {d : Declared} (declared : d ∈ c.declared)
    (unset : m'.slot d.slot = c.freshSlot d.slot) (read : m.read p c d.slot = .ok v) (sends : d.Sends p v (.ok bytes)) :
    Absorbs p table decode c depth group m' bytes fun m'' => m''.Known p table depth t c
      ∧ ∃ u, (∀ plan v, c.slots[d.slot]? = some plan → m.read p c d.slot = .ok v →
          plan.Echoed p R (inside p R content levels) t d.slot v u) ∧ m'' = m'.setSlot d.slot u := by
  have slot := reading.planned.slot_of_declared reading.resolved declared
  obtain ⟨w, read', fits, -⟩ := reading.fits.exists_read reading.planned reading.ready.regular reading.spelled slot
  cases read.symm.trans read'
  -- Whatever echo of the value there is, it is one of what stands in the slot.
  have echoed : ∀ {u}, d.content.Echoed p R (inside p R content levels) t d.slot v u →
      ∀ plan v, c.slots[d.slot]? = some plan → m.read p c d.slot = .ok v →
        plan.Echoed p R (inside p R content levels) t d.slot v u := by
    intro u echo plan w slot' read'
    cases slot.symm.trans slot'
    cases read.symm.trans read'
    exact echo
  generalize isResult : Except.ok bytes = result at sends
  cases sends with
  | @field i f _ present =>
    refine (reading.absorbs_present (.field declared) known
      (unset.trans (freshSlot_field reading.ready reading.found declared)) fits present isResult.symm).mono ?_
    rintro m'' ⟨known', u, echo, rfl⟩
    exact ⟨known', u, echoed echo, rfl⟩
  | @member i o x first tag v loose active =>
    obtain ⟨-, -, -, -, isMember⟩ := reading.planned.oneof_of_member declared
    rcases fits with unset | ⟨n, member, origin, y, same, isMember', fits⟩
    · cases unset
    obtain ⟨rfl, rfl, rfl⟩ := Value.case.inj same
    obtain rfl : n = x.number := by simpa using active
    cases isMember.symm.trans isMember'
    refine (reading.absorbs_member declared known
      (unset.trans (freshSlot_member reading.ready reading.found declared)) fits isResult.symm).mono ?_
    rintro m'' ⟨known', _, ⟨v', echo, rfl⟩, rfl⟩
    exact ⟨known', _, echoed ⟨_, x, origin, v, v', rfl, rfl, isMember, echo⟩, rfl⟩

omit reading in
lemma Content.putExtension_append {e : Extension} {extensions : List (Extension × Value)}
    (absent : e.number ∉ extensions.map (·.1.number)) :
    putExtension e v extensions = extensions ++ [(e, v)] := by
  induction extensions with
  | nil => rfl
  | cons x rest ih =>
    simp only [map_cons, mem_cons, not_or] at absent
    rw [putExtension_cons, if_neg (by simpa using Ne.symm absent.1), ih absent.2]
    rfl

section

variable (partway : Partway p table R (inside p R content levels) depth t c m done m')

include partway

/-- What is written of an extension is absorbed where it is not set. -/
lemma Rereading.step_extension {e : Extension} (set : (e, v) ∈ m.extensions) (new : e.number ∉ done)
    (encoded : e.encoding p v = .ok bytes) :
    Absorbs p table decode c depth group m' bytes
      (Partway p table R (inside p R content levels) depth t c m (e.number :: done)) := by
  obtain ⟨isId, -⟩ := reading.ready.planned reading.found
  obtain ⟨-, ranged, extension, fits⟩ := reading.fits.extensions _ set
  obtain ⟨known, nonempty⟩ := reading.legible.extension.1 extension
  have typed := fun nested => (exists_messageType reading.ready known nested).imp fun _ => And.left
  have isPresent := e.isPresent_kind reading.legible.encodable fits nonempty
  have absent : e.number ∉ m'.extensions.map (·.1.number) := by
    intro inside
    obtain ⟨x, member, same⟩ := mem_map.1 inside
    exact new (same ▸ (partway.here x member).1)
  have unset : m'.extension? e.number = none := by
    rw [Content.extension?, Option.map_eq_none_iff, find?_eq_none]
    intro x member same
    exact absent (mem_map.2 ⟨x, member, by simpa using same⟩)
  refine (reading.absorbs_present (.extension ranged (isId ▸ known)) partway.known
    (by rw [Content.held, Content.extended, unset]; rfl) ((e.fits_iff typed isPresent.1).1 fits) isPresent.2
    (e.encoding_eq p v ▸ encoded)).mono ?_
  rintro m'' ⟨known', u, echo, rfl⟩
  have extensions : (m'.withExtension e u).extensions = m'.extensions ++ [(e, u)] :=
    Content.putExtension_append absent
  have filled : ∀ i, c.Filled (e.number :: done) i → c.Filled done i := by
    rintro i ⟨d, declared, isSlot, isDone⟩
    refine ⟨d, declared, isSlot, (mem_cons.1 isDone).resolve_left ?_⟩
    exact reading.planned.number_ne_ranged reading.resolved declared ranged
  refine ⟨known', partway.head, forall_mem_cons.2 ⟨⟨_, .extension set⟩, partway.carried⟩,
    fun i isFilled => partway.filled i (filled i isFilled), fun i unfilled => partway.unfilled i ?_, fun x member => ?_,
    fun x old isDone => ?_⟩
  · rintro ⟨d, declared, isSlot, isDone⟩
    exact unfilled ⟨d, declared, isSlot, .tail _ isDone⟩
  · rw [Content.keep, extensions] at member
    rcases mem_append.1 member with old | last
    · obtain ⟨isDone, rest⟩ := partway.here x old
      exact ⟨.tail _ isDone, rest⟩
    · obtain rfl := mem_singleton.1 last
      refine ⟨.head _, v, set, echo.imp (e.fits_iff typed ?_).2 fun _ => ?_⟩
      · rw [echo.present, isPresent.1]
      · rw [e.encoding_eq, e.encoding_eq, echo.encoded]
  · rw [Content.keep, extensions]
    rcases mem_cons.1 isDone with same | later
    · refine ⟨u, mem_append.2 (.inr (mem_singleton.2 ?_))⟩
      rw [inj_on_of_nodup_map reading.fits.distinct old set same]
    · obtain ⟨w, inside⟩ := partway.there x old later
      exact ⟨w, mem_append_left _ inside⟩

/-- **One encoding.**  What a message carries under a number that was not read is absorbed by a message that
was read partway, which then has it. -/
lemma Rereading.step (carries : Carries p c m number (.ok bytes)) (new : number ∉ done) :
    Absorbs p table decode c depth group m' bytes
      (Partway p table R (inside p R content levels) depth t c m (number :: done)) := by
  rcases carries_iff_sends.1 carries with ⟨d, declared, rfl, v, read, sends⟩ | ⟨x, set, rfl, encoded⟩
  · have outside : ∀ e ∈ c.declared, ∀ x ∈ m.extensions, e.number ≠ x.1.number := fun e other x set =>
      reading.planned.number_ne_ranged reading.resolved other (reading.fits.extensions x set).2.1
    -- Nothing else that was read is in the slot.
    have unset : ¬c.Filled done d.slot := by
      rintro ⟨e, other, same, isDone⟩
      obtain ⟨result, carries'⟩ := partway.carried _ isDone
      rcases carries_iff_sends.1 carries' with ⟨e₁, other₁, named, w, read', sends'⟩ | ⟨x, set, named, -⟩
      · obtain rfl := reading.planned.declared_ext reading.resolved other₁ other named
        rw [same, read] at read'
        cases read'
        exact new (reading.planned.sends_number reading.resolved other declared same sends' sends ▸ isDone)
      · exact outside e other x set named.symm
    refine (reading.absorbs_sends partway.known declared (partway.unfilled _ unset) read sends).mono ?_
    rintro m'' ⟨known, u, echoed, rfl⟩
    exact partway.set reading.ready reading.found declared unset (outside d declared) ⟨_, carries⟩ known echoed
  · exact reading.step_extension partway set new encoded

end

/-! ## Behind the last encoding -/

omit reading in
/-- What stands in a slot behind the last encoding. -/
def Plan.SlotPlan.Restored (p : Program) (R : Rules) (I : Inside) (t : TypeId) (slot : Nat) :
    SlotPlan → Value → Value → Prop
  | .field f, v, v' => (R.Tells v → Same p v' v) ∧ f.kind.Fits R I v' ∧ f.kind.isPresent v' = f.kind.isPresent v
      ∧ (f.kind.isPresent v = true → f.kind.encoding p f.number v' = f.kind.encoding p f.number v)
      ∧ v'.Every (Value.IsNew p)
  | .oneof o, v, v' => (v = .none ∧ v' = .none) ∨ (SlotPlan.oneof o).Echoed p R I t slot v v'

omit reading in
lemma Plan.SlotPlan.Restored.same (h : plan.Restored p R I t i v v') (tells : R.Tells v) : Same p v' v := by
  cases plan with
  | field => exact h.1 tells
  | oneof =>
    rcases h with ⟨rfl, rfl⟩ | ⟨number, member, origin, x, x', rfl, rfl, -, echo⟩
    · exact same_self rfl
    · exact same_case (echo.same (.inl (tells.numeric (by simp))))

omit reading in
lemma Plan.SlotPlan.Restored.fits (h : plan.Restored p R I t i v v') : plan.Fits R I t i v' := by
  cases plan with
  | field => exact h.2.1
  | oneof =>
    rcases h with ⟨rfl, rfl⟩ | ⟨number, member, origin, x, x', rfl, rfl, found, echo⟩
    · exact .inl rfl
    · exact .inr ⟨number, member, none, x', rfl, found, echo.fits⟩

omit reading in
lemma Plan.SlotPlan.Restored.new (h : plan.Restored p R I t i v v') : v'.Every (Value.IsNew p) := by
  cases plan with
  | field => exact h.2.2.2.2
  | oneof =>
    rcases h with ⟨rfl, rfl⟩ | ⟨number, member, origin, x, x', rfl, rfl, -, echo⟩
    · exact Value.isNew_scalar .none
    · exact Value.every_case.2 ⟨rfl, echo.new⟩

section complete

variable (complete : ∀ number result, Carries p c m number result → number ∈ done)
  (partway : Partway p table R (inside p R content levels) depth t c m done m')

include complete partway

/-- **Slots.**  If all was read that a message carries, each slot is restored. -/
lemma Rereading.exists_restored (slot : c.slots[i]? = some plan) :
    ∃ v v', m.read p c i = .ok v ∧ m'.read p c i = .ok v' ∧ plan.Restored p R (inside p R content levels) t i v v' := by
  obtain ⟨v, read, fits, -⟩ := reading.fits.exists_read reading.planned reading.ready.regular reading.spelled slot
  obtain ⟨d, declared, rfl, content⟩ := reading.planned.exists_declared reading.resolved slot
  refine ⟨v, _, read, partway.known.read_slot reading.ready reading.found (fun _ => id) declared, ?_⟩
  -- What the message has to say of the slot was read.
  have silent : ¬c.Filled done d.slot → ∀ e ∈ c.declared, e.slot = d.slot → ∀ result, ¬e.Sends p v result :=
    fun unfilled e other same result sends => unfilled ⟨e, other, same, complete _ _ (carries_iff_sends.2
      (.inl ⟨e, other, rfl, v, same ▸ read, sends⟩))⟩
  by_cases filled : c.Filled done d.slot
  · have echo := partway.filled _ filled plan v slot read
    cases plan with
    | field f => exact ⟨echo.same, echo.fits, echo.kind_isPresent f.kind, fun _ => echo.encoded, echo.new⟩
    | oneof => exact .inr echo
  · rw [partway.unfilled _ filled]
    cases d with
    | field i f =>
      obtain rfl : SlotPlan.field f = plan := content
      have zero : f.kind.StartsAtZero := reading.valid.zero _ declared
      have absent : f.kind.isPresent v = false :=
        Bool.eq_false_iff.2 fun present => silent filled _ declared rfl _ (.field present)
      rw [Declared.slot, freshSlot_field reading.ready reading.found declared]
      refine ⟨fun _ => same_initial reading.legible zero fits absent,
        reading.legible.initial zero (reading.planned.field_isCoded reading.ready.regular declared), ?_, ?_,
        isNew_initial⟩
      · rw [isPresent_initial zero, absent]
      · exact fun present => Bool.noConfusion (absent.symm.trans present)
    | member i o x =>
      obtain rfl : SlotPlan.oneof o = plan := content
      refine .inl ⟨?_, freshSlot_member reading.ready reading.found declared⟩
      rcases fits with none | ⟨n, member, origin, x, rfl, isMember, -⟩
      · exact none
      · obtain ⟨first', other⟩ := reading.planned.declared_of_oneof reading.resolved slot isMember
        exact absurd (.member (by rw [(member?_eq_some isMember).2])) (silent filled _ other rfl _)

/-- A message that holds any other one is read back with its type and the bytes of its content. -/
lemma Rereading.exists_any (isAny : c.isAny = true) :
    ∃ url data content, m'.slots = [.text url, .bytes data, .none] ∧ R.scalar .string (.text url)
      ∧ R.scalar .bytes (.bytes data) ∧ AnyHolds p url data content m.slots := by
  obtain ⟨first, second, -⟩ := reading.planned.place_any reading.ready.regular isAny
  obtain ⟨urlPlan, valuePlan, declared, -, -, -, urlKind, -, -, valueKind⟩ :=
    reading.planned.any_declared reading.ready.regular isAny
  have slots : c.slots = [.field urlPlan, .field valuePlan] := by
    rw [reading.planned.slots, declared]
    rfl
  obtain ⟨url', data', shape'⟩ := partway.known.exists_bytes (fun _ => id) isAny
  have anyFits := reading.fits.any isAny
  obtain ⟨data, valueBytes, -⟩ := anyFits.exists_valueBytes reading.spelled
  obtain ⟨url, known, inner, shape, -⟩ := anyFits
  obtain ⟨v, v', read, read', restored⟩ := reading.exists_restored complete partway
    (show c.slots[0]? = some (.field urlPlan) by rw [slots]; rfl)
  obtain ⟨w, w', readSecond, readSecond', restored'⟩ := reading.exists_restored complete partway
    (show c.slots[1]? = some (.field valuePlan) by rw [slots]; rfl)
  obtain rfl : .text url = v := by
    rw [Content.read, first] at read
    simpa [Content.slot, shape] using read
  obtain rfl : .text url' = v' := by
    rw [Content.read, first] at read'
    simpa [Content.slot, shape'] using read'
  obtain rfl : .bytes data = w := by
    rw [Content.read, second] at readSecond
    exact Except.ok.inj (valueBytes.symm.trans readSecond)
  obtain rfl : .bytes data' = w' := by
    rw [Content.read, second, shape'] at readSecond'
    exact Except.ok.inj readSecond'
  obtain rfl : url' = url := by simpa [Same, equal, Scalar.equal] using (restored.same (.inr ⟨_, rfl, rfl⟩)).1
  obtain rfl : data' = data := by simpa [Same, equal, Scalar.equal] using (restored'.same (.inr ⟨_, rfl, rfl⟩)).1
  have urlFits := restored.fits
  have dataFits := restored'.fits
  simp only [SlotPlan.Fits, urlKind, valueKind, FieldKind.Fits, Bool.false_eq_true, false_and, false_or]
    at urlFits dataFits
  obtain ⟨_, ⟨⟩, urlScalar⟩ := urlFits
  obtain ⟨_, ⟨⟩, dataScalar⟩ := dataFits
  exact ⟨url', data', inner, shape', urlScalar, dataScalar, known, shape, valueBytes⟩

lemma Rereading.exists_extension {x : Extension × Value} (set : x ∈ m.extensions) :
    ∃ v', (x.1, v') ∈ m'.extensions ∧ Echo R p (x.1.Fits R (inside p R content levels)) (x.1.encoding p) x.2 v' := by
  obtain ⟨v', member⟩ := partway.there x set (complete _ _ (.extension set))
  obtain ⟨-, v, set', echo⟩ := partway.here _ member
  have same : (x.1, v) = x := inj_on_of_nodup_map reading.fits.distinct set' set rfl
  exact ⟨v', member, congrArg Prod.snd same ▸ echo⟩

/-- What was read back has the same extensions. -/
lemma Rereading.numbers_perm : (m'.extensions.map (·.1.number)).Perm (m.extensions.map (·.1.number)) := by
  refine (perm_ext_iff_of_nodup partway.known.distinct reading.fits.distinct).2 fun n => ?_
  constructor
  · intro member
    obtain ⟨x, inside, rfl⟩ := mem_map.1 member
    obtain ⟨-, v, set, -⟩ := partway.here x inside
    exact mem_map.2 ⟨_, set, rfl⟩
  · intro member
    obtain ⟨x, set, rfl⟩ := mem_map.1 member
    obtain ⟨v', inside, -⟩ := reading.exists_extension complete partway set
    exact mem_map.2 ⟨_, inside, rfl⟩

/-- What was read back is a message of the class. -/
lemma Rereading.restored_fits : (m'.addUnknown m.head.unknown).Fits R (inside p R content levels) t c where
  type := partway.known.type
  whole := partway.known.whole
  plain := partway.known.plain
  unknown := by
    rw [Content.addUnknown, partway.head]
    exact reading.fits.unknown
  length := partway.known.length
  slots := fun plain i plan slot => by
    obtain ⟨v, v', -, read, restored⟩ := reading.exists_restored complete partway slot
    rw [Content.read, place_plain plain] at read
    cases read
    exact restored.fits
  any := fun isAny => by
    obtain ⟨url, data, -, shape, urlFits, dataFits, -⟩ := reading.exists_any complete partway isAny
    exact ⟨url, _, _, shape, urlFits, .inl ⟨data, rfl, dataFits, .inl rfl⟩⟩
  distinct := partway.known.distinct
  extensions := fun x member => by
    obtain ⟨-, v, set, echo⟩ := partway.here x member
    obtain ⟨extended, ranged, extension, fits⟩ := reading.fits.extensions _ set
    obtain ⟨known, nonempty⟩ := reading.legible.extension.1 extension
    exact ⟨extended, ranged, reading.legible.extension.2 ⟨known, echo.ne_nil nonempty⟩, echo.fits⟩

/-- What was read back is equal. -/
lemma Rereading.restored_matches (numeric : R.Numeric) : (m'.addUnknown m.head.unknown).Matches p c m where
  type := partway.known.type.trans reading.fits.type.symm
  plain := ⟨partway.known.plain, reading.fits.plain⟩
  whole := ⟨partway.known.whole, reading.fits.whole⟩
  unknown := by simp [Content.addUnknown, partway.head]
  slots := fun plain => by
    refine forall₂_iff_get.2 ⟨?_, fun i here there => ?_⟩
    · exact (partway.known.length plain).trans (reading.fits.length plain).symm
    · have room : i < c.slots.length := by rwa [← reading.fits.length plain]
      obtain ⟨v, v', read, read', restored⟩ := reading.exists_restored complete partway (getElem?_eq_getElem room)
      rw [Content.read, place_plain plain] at read read'
      cases read
      cases read'
      have here' : i < m'.slots.length := here
      show Same p (m'.slots.get ⟨i, here'⟩) (m.slots.get ⟨i, there⟩)
      simpa [Content.slot, here', there, getD_eq_getElem?_getD] using restored.same (.inl numeric)
  any := fun isAny => by
    obtain ⟨url, data, inner, shape, -, -, holds⟩ := reading.exists_any complete partway isAny
    exact ⟨url, data, inner, ⟨.bytes data, shape, by rw [Content.addUnknown, shape]; rfl⟩, holds⟩
  count := by
    have count := (reading.numbers_perm complete partway).length_eq
    rwa [length_map, length_map] at count
  distinct := ⟨partway.known.distinct, reading.fits.distinct⟩
  here := fun x member => by
    obtain ⟨-, v, set, echo⟩ := partway.here x member
    exact ⟨v, set, echo.same (.inl numeric)⟩
  there := fun x set => by
    obtain ⟨v', member, echo⟩ := reading.exists_extension complete partway set
    exact ⟨v', member, (echo.same (.inl numeric)).symm⟩

/-- What was read back is new. -/
lemma Rereading.restored_new : (m'.addUnknown m.head.unknown).value.Every (Value.IsNew p) := by
  have plain : (m'.addUnknown m.head.unknown).loose = [] := partway.known.plain
  rw [Content.value, plain]
  refine Value.every_message.2 ⟨⟨by rw [Content.addUnknown, partway.head], fun c' isPlan isAny => ?_⟩,
    fun v member => ?_, fun x member => ?_⟩
  · obtain rfl : c = c' := Option.some.inj ((partway.known.type ▸ reading.found).symm.trans isPlan)
    obtain ⟨url, data, -, shape, -⟩ := reading.exists_any complete partway isAny
    rw [Content.addUnknown, shape]
    rfl
  · cases isAny : c.isAny with
    | false =>
      obtain ⟨i, room, rfl⟩ := getElem_of_mem member
      have there : i < c.slots.length := partway.known.length isAny ▸ room
      obtain ⟨v, v', -, read, restored⟩ := reading.exists_restored complete partway (getElem?_eq_getElem there)
      rw [Content.read, place_plain isAny] at read
      cases read
      have here : i < m'.slots.length := room
      simpa [Content.slot, Content.addUnknown, here, getD_eq_getElem?_getD] using restored.new
    | true =>
      obtain ⟨url, data, -, shape, -⟩ := reading.exists_any complete partway isAny
      rw [Content.addUnknown, shape] at member
      simp only [mem_cons, not_mem_nil, or_false] at member
      rcases member with rfl | rfl | rfl <;> exact Value.isNew_scalar _
  · obtain ⟨-, v, -, echo⟩ := partway.here x member
    exact echo.new

omit reading complete partway in
/-- What a restored slot sends is what it had sent. -/
lemma Plan.SlotPlan.Restored.sends_iff {a : Schema.Arena} {s : Schema.Message} (planned : Planned a s c)
    {d : Declared} (declared : d ∈ c.declared) (restored : d.content.Restored p R I t i v v')
    {result : Except Fault Bytes} : d.Sends p v' result ↔ d.Sends p v result := by
  cases d with
  | field =>
    obtain ⟨-, -, alike, encoded, -⟩ := restored
    constructor
    · rintro ⟨present⟩
      rw [alike] at present
      rw [encoded present]
      exact .field present
    · rintro ⟨present⟩
      rw [← encoded present]
      exact .field (alike.trans present)
  | member slot o member =>
    rcases restored with ⟨rfl, rfl⟩ | ⟨n, member', origin, x, x', rfl, rfl, found, echo⟩
    · exact Iff.rfl
    · obtain ⟨-, -, -, -, found'⟩ := planned.oneof_of_member declared
      have encoded : n = member.number →
          member.kind.encoding p member.number x' = member.kind.encoding p member.number x := by
        rintro rfl
        cases found.symm.trans found'
        exact echo.encoded
      constructor
      · rintro ⟨⟩
        rw [encoded (by simp_all)]
        exact .member ‹_›
      · rintro ⟨⟩
        rw [← encoded (by simp_all)]
        exact .member ‹_›

/-- What was read back carries what the message carries. -/
lemma Rereading.carries_iff {number : Int} {result : Except Fault Bytes} :
    Carries p c (m'.addUnknown m.head.unknown) number result ↔ Carries p c m number result := by
  rw [carries_iff_sends, carries_iff_sends]
  refine or_congr (exists_congr fun d => and_congr_right fun declared => and_congr_right fun _ => ?_) ⟨?_, ?_⟩
  · obtain ⟨v, v', read, read', restored⟩ := reading.exists_restored complete partway
      (reading.planned.slot_of_declared reading.resolved declared)
    have read' : (m'.addUnknown m.head.unknown).read p c d.slot = .ok v' := read'
    simp only [read, read', Except.ok.injEq, exists_eq_left']
    exact restored.sends_iff reading.planned declared
  · rintro ⟨⟨e, w⟩, set, rfl, rfl⟩
    obtain ⟨-, v, set', echo⟩ := partway.here _ set
    exact ⟨_, set', rfl, echo.encoded.symm⟩
  · rintro ⟨⟨e, w⟩, set, rfl, rfl⟩
    obtain ⟨v', inside, echo⟩ := reading.exists_extension complete partway set
    exact ⟨_, inside, rfl, echo.encoded⟩

/-- **An echo.**  What was read back is equal to the message, of its class and written as it is. -/
lemma Rereading.restored_echo (comparable : R.Numeric → p.Comparable) :
    Echo R p (Typed p R content levels t) p.serialize m.value (m'.addUnknown m.head.unknown).value where
  same := fun tells => by
    have numeric := tells.numeric (by simp [Content.value])
    refine same_message (comparable numeric) ?_ reading.planned.shared
      (reading.restored_matches complete partway numeric)
    rw [reading.fits.type, reading.found]
  fits := by
    rw [typed_eq]
    exact ⟨c, _, reading.found, rfl, reading.restored_fits complete partway⟩
  encoded := by
    have fits := reading.restored_fits complete partway
    obtain ⟨one, ascending, carried, spells⟩ := reading.fits.exists_encodings reading.found reading.planned
      reading.resolved reading.ready.regular reading.legible.encodable reading.spelled
    obtain ⟨two, ascending', carried', spells'⟩ := fits.exists_encodings reading.found reading.planned
      reading.resolved reading.ready.regular reading.legible.encodable reading.spelled
    have members : ∀ x, x ∈ two ↔ x ∈ one := by
      intro x
      have here := carried x.1 (.ok x.2)
      have there := carried' x.1 (.ok x.2)
      rw [reading.carries_iff complete partway, here] at there
      simpa using there.symm
    have same : two = one := eq_of_ascending ascending' ascending members
    rw [spells.serialize, spells'.serialize, same]
    simp [Content.addUnknown, partway.head]
  present := rfl
  truthy := rfl
  list := rfl
  extended := fun _ => (reading.numbers_perm complete partway).mem_iff
  new := reading.restored_new complete partway

end complete

end partway

/-! ## Levels -/

section levels

variable (legible : R.Legible p table) (valid : p.Valid) (comparable : R.Numeric → p.Comparable)

include legible valid comparable

/-- **One level.**  Messages are restored if those on the levels below are. -/
lemma decodeInto_restores (reads : NestedReader p table decode depth) (shallow : depth + levels ≤ maxDepth)
    (nested : ∀ n below, depth < below → below + n ≤ depth + levels → Restores p R content n decode below)
    (spelled : (inside p R content levels).Spelled p R) :
    Restores p R content levels (decodeInto p table decode) depth := by
  intro t v bytes start group typed serialized fresh cur tail rest before closes
  have ready := reads.ready
  rw [typed_eq] at typed
  obtain ⟨c, m, found, rfl, fits⟩ := typed
  obtain ⟨-, s, resolved, planned⟩ := ready.planned found
  have walking : Walking p table R content decode t c depth levels :=
    ⟨reads, legible, found, valid.of_plan found, nested, spelled, shallow⟩
  have reading : Rereading p table R content decode t c s depth levels m := ⟨walking, resolved, planned, fits⟩
  obtain ⟨encodings, ascending, carried, spells⟩ := fits.exists_encodings found planned resolved ready.regular
    legible.encodable spelled
  cases spells.serialize.symm.trans serialized
  have complete : ∀ number result, Carries p c m number result → number ∈ (encodings.map (·.1)).reverse ++ [] := by
    intro number result carries
    obtain ⟨bytes, -, inside⟩ := (carried number result).1 carries
    simpa using ⟨bytes, inside⟩
  -- The encodings are read one after the other, then the unknown fields.
  have absorbs : Absorbs p table decode c depth group
      { head := { type := t, merged := true }, slots := c.freshSlots, extensions := [] }
      (encodings.flatMap (·.2) ++ m.head.unknown)
      fun m' => Echo R p (Typed p R content levels t) p.serialize m.value m'.value := by
    refine (absorbs_encodings ascending (by simp) (refilled_fresh ready found) fun x inside done m' new partway =>
      reading.step partway ((carried _ _).2 ⟨x.2, rfl, inside⟩) new).trans ?_
    intro m' partway
    obtain ⟨numbers, fields, unheard⟩ := legible.unknown fits.unknown
    refine (absorbs_unknown fields shallow partway.known.plain fun n member data => ?_).mono ?_
    · have plain : (m'.addUnknown data).loose = [] := partway.known.plain
      have whole : (m'.addUnknown data).head.bare = false := partway.known.whole
      exact keepsNumber_of_unheard ready found plain whole (unheard n member)
    · rintro m'' rfl
      exact reading.restored_echo complete partway comparable
  have fresh' := fresh_eq ready found
  cases fresh.symm.trans fresh'
  rw [Succeeds, ends_decodeInto found rfl (ready.clear.of_plan found).owners]
  refine absorbs.succeeds closes before ?_ {}
  rw [before.rest]
  exact Nat.lt_succ_self _

/-- **All levels.** -/
lemma decodeMessage_restores (ready : p.Ready table) (spelled : ∀ n, (inside p R content n).Spelled p R)
    {allowed : Nat} (enough : maxDepth + 1 < allowed + depth) (shallow : depth + levels ≤ maxDepth) :
    Restores p R content levels (decodeMessage p table allowed) depth := by
  induction allowed generalizing depth levels with
  | zero => omega
  | succ allowed ih =>
    exact decodeInto_restores legible valid comparable (nestedReader ready (by omega) (by omega)) shallow
      (fun n below deeper less => ih (by omega) (by omega)) (spelled levels)

end levels

/-! ## Reading what was written -/

section roundtrip

variable {files : List FileDecl} {options : Plan.Options}

/-- What a message may hold as any other one, if its bytes are to be read back: a message that can be
written, with bytes whose number can be. -/
def Packable (p : Program) (depth : Nat) (v : Value) : Prop :=
  Contents p .writable depth v ∧ ∀ bytes, p.serialize v = .ok bytes → bytes.length < word64

lemma Packable.exists_spells (built : Program.build files options = .ok p) (regular : p.arena.Regular)
    {depth : Nat} (packable : Packable p depth v) :
    ∃ bytes, p.Spells v bytes ∧ (Rules.readable p table).scalar .bytes (.bytes bytes) := by
  obtain ⟨bytes, spells, -⟩ := packable.1.exists_spells built regular
  exact ⟨bytes, spells, rfl, rfl, packable.2 bytes spells.serialize⟩

/-- A message that can be read back is: as an equal one, which is written as it is. -/
lemma Typed.exists_parse (built : Program.build files options = .ok p) (ready : p.Ready table)
    (legible : R.Legible p table) (valid : p.Valid) (comparable : R.Numeric → p.Comparable)
    (contents : ∀ v, content v → ∃ bytes, p.Spells v bytes ∧ R.scalar .bytes (.bytes bytes))
    (shallow : levels ≤ maxDepth) (typed : Typed p R content levels t v) :
    ∃ bytes m, p.serialize v = .ok bytes ∧ parse p table t bytes = .ok m
      ∧ Echo R p (Typed p R content levels t) p.serialize v m.value := by
  have spelt : ∀ {n t v}, Typed p R content n t v → ∃ bytes, p.Spells v bytes :=
    fun below => below.exists_spells built ready.regular legible.encodable contents
  obtain ⟨bytes, spells⟩ := spelt typed
  obtain ⟨c, -, found, -, -⟩ := typed_eq p _ content levels ▸ typed
  have fresh := fresh_eq ready found
  have restores : Restores p R content levels (decodeWith p table) 0 :=
    decodeMessage_restores legible valid comparable ready
      (fun _ => spelled_inside (fun _ _ _ _ below => spelt below) contents) (Nat.lt_succ_self _) (by omega)
  have run := restores typed spells.serialize fresh (by simpa using Cursor.before_ofBytes bytes) .message
  obtain ⟨_, ⟨m, cur⟩, run, echo, -⟩ := run.exists_run
  exact ⟨bytes, m, spells.serialize, (parse_eq_ok_iff fresh).2 ⟨cur, run⟩, echo⟩

end roundtrip

lemma evaluated_sample :
    (sampleProgram.arena.Regular ∧ sampleProgram.Clear ∧ sampleProgram.Comparable ∧ sampleProgram.Valid
      ∧ (∀ known ∈ some [sampleExtension], ExtensionTable.Clear sampleProgram known)
      ∧ (∀ d ∈ samplePlan.declared, d.number ≠ 15) ∧ sampleProgram.serialize sampleInner.value = .ok [])
      ∧ Varint.encode (makeTag 15 .varint) = [0x78] ∧ Varint.encode 1 = [1] := by
  decide +kernel

lemma readable_sample : Typed sampleProgram (.readable sampleProgram (some [sampleExtension]))
    (Packable sampleProgram 0) 1 0 sampleMessage.value := by
  obtain ⟨⟨-, -, -, -, -, undeclared, empty⟩, tag, one⟩ := evaluated_sample
  have unclaimed : sampleProgram.Unclaimed (some [sampleExtension]) 0 15 := by
    refine ⟨fun c found => ?_, by simp [ExtensionTable.find?, sampleExtension]⟩
    cases plan_sample.symm.trans found
    exact undeclared
  have unknown : WireFields 1 [15] [0x78, 1] := by
    have tagged : SpellsTag [0x78] 15 .varint := tag ▸ spellsTag_makeTag (by decide) (by decide) .varint
    have payload : Varint.Spells [1] 1 := one ▸ Varint.spells_encode (by decide)
    exact .flat tagged ⟨1, payload⟩ .nil
  refine typed_sample 0 ⟨⟨_, _, rfl, by decide, by decide⟩, rfl, by decide⟩ ?_ ?_ ⟨[], .nil, by simp⟩
    ⟨[15], unknown, by simpa using unclaimed⟩
  · intro bytes serialized
    cases empty.symm.trans serialized
    decide
  · exact ⟨⟨_, rfl, rfl⟩, by simp⟩

def hiddenProgram : Program := .ofFiles hiddenFiles

/-- A message with its only field set. -/
def hiddenMessage : Content where
  head := { type := 1 }
  slots := [.message { type := 0 } [] [] []]
  extensions := []

/-- What is found out about hidden names by evaluation. -/
lemma evaluated_hidden :
    ((Program.build hiddenFiles {}).isOk = true ∧ hiddenProgram.arena.Regular ∧ hiddenProgram.Comparable
      ∧ hiddenProgram.Valid)
      ∧ ((hiddenProgram.plan? 0).map (fun c => (c.isAny, c.slots)) = some (false, [])
        ∧ (hiddenProgram.plan? 1).map (fun c => (c.isAny, c.slots)) = some (false,
          [.field ⟨"f", "_f", 1, .message false ⟨0, "decoder", ["decoder"], .type 0, .type 1⟩⟩]))
      ∧ hiddenProgram.serialize (.message { type := 0 } [] [] []) = .ok []
      ∧ hiddenProgram.serialize hiddenMessage.value = .ok [0x0a, 0]
      ∧ faultOf? (parse hiddenProgram none 1 [0x0a, 0]) = some .wrongType := by
  decide +kernel

lemma readable_hidden : Typed hiddenProgram (.readable hiddenProgram none) (Packable hiddenProgram 0) 1 1
    hiddenMessage.value := by
  obtain ⟨-, ⟨bare, single⟩, empty, -⟩ := evaluated_hidden
  have inner : Typed hiddenProgram (.readable hiddenProgram none) (Packable hiddenProgram 0) 0 0
      (.message { type := 0 } [] [] []) := by
    obtain ⟨c, found, plan⟩ := Option.map_eq_some_iff.1 bare
    obtain ⟨plain, slots⟩ := Prod.mk.inj plan
    rw [typed_eq]
    refine ⟨c, ⟨{ type := 0 }, [], [], []⟩, found, rfl, rfl, rfl, rfl, ⟨[], .nil, by simp⟩, ?_, ?_, ?_,
      nodup_nil, by simp⟩
    · simp [slots]
    · intro _ i plan slot
      simp [slots] at slot
    · simp [plain]
  obtain ⟨c, found, plan⟩ := Option.map_eq_some_iff.1 single
  obtain ⟨plain, slots⟩ := Prod.mk.inj plan
  rw [typed_eq]
  refine ⟨c, hiddenMessage, found, rfl, rfl, rfl, rfl, ⟨[], .nil, by simp⟩, ?_, ?_, ?_, nodup_nil,
    by simp [hiddenMessage]⟩
  · simp [slots, hiddenMessage]
  · intro _ i plan slot
    rw [slots] at slot
    rcases i with _ | i
    · cases slot
      refine .inr ⟨⟨0, rfl, inner⟩, fun _ bytes serialized => ?_⟩
      cases empty.symm.trans serialized
      decide
    · simp at slot
  · simp [plain]

end Missive
