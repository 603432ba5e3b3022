import Missive.Proofs.Message.Spots

/-!
# Reading what was written

A message is filled while the encodings of another one are read.

**One field.**  Some bytes are absorbed if they are taken as a field in the spot of their number.  A spot that
keeps the fields of one kind (`Keeps`), in a slot or as an extension, fills up with what they are taken for:
with a single value, or in a row (`absorbs_row`), or with scalars, packed or not (`absorbs_runs`).

**All fields.**  Once certain numbers were read, the slots that they lead to are as they should be, and the
others are as in a new message (`Refilled`).
-/

namespace Missive

open Plan List

variable {p : Program} {table : Option ExtensionTable} {R : Rules} {I : Inside} {decode : Decoding Unit}
  {t : TypeId} {c : ClassPlan} {m : Content} {depth slot : Nat} {group : Option Nat} {d : Declared} {bytes : Bytes}

/-! ## Slots of a class -/

section slots

variable {a : Schema.Arena} {s : Schema.Message} {f : FieldPlan}

section

variable (planned : Planned a s c) (resolved : s.Resolved)

include planned resolved

/-- A field that is in no oneof has its slot for itself. -/
lemma Plan.Planned.declared_of_slot (declared : Declared.field slot f ∈ c.declared) (other : d ∈ c.declared)
    (same : d.slot = slot) : d = .field slot f := by
  have here : c.slots[slot]? = some (.field f) := planned.slot_of_declared resolved declared
  have there := planned.slot_of_declared resolved other
  rw [same, here] at there
  cases d with
  | field slot' g =>
    obtain rfl : slot' = slot := same
    obtain rfl : f = g := SlotPlan.field.inj (Option.some.inj there)
    rfl
  | member => cases there

lemma spotOf_declared {number : Nat} (declared : d ∈ c.declared) (named : d.number = number) :
    c.spotOf table number = .slot d.slot := by
  rcases planned.route_eq resolved number with ⟨d', declared', same, route⟩ | ⟨undeclared, -⟩
  · obtain rfl := planned.declared_ext resolved declared' declared (same.trans named.symm)
    rw [ClassPlan.spotOf, route]
  · exact absurd named (undeclared d declared)

lemma Plan.Planned.number_ne_ranged {number : Int} (declared : d ∈ c.declared)
    (ranged : c.ranges.contains number = true) :
    d.number ≠ number := by
  rintro rfl
  cases (planned.route_ranged resolved ranged).symm.trans (planned.route_declared resolved declared)

end

/-- There is a slot for each declared field. -/
lemma Content.Fits.room (ready : p.Ready table) (found : p.plan? t = some c) (fits : m.Fits R I t c)
    (declared : d ∈ c.declared) : d.slot < m.slots.length := by
  obtain ⟨-, s, resolved, planned⟩ := ready.planned found
  cases isAny : c.isAny with
  | false =>
    rw [fits.length isAny]
    exact (List.getElem?_eq_some_iff.1 (planned.slot_of_declared resolved declared)).1
  | true =>
    obtain ⟨url, value, whole, -⟩ := planned.any_declared ready.regular isAny
    obtain ⟨name, data, content, three, -⟩ := fits.any isAny
    rw [whole] at declared
    rw [three]
    rcases mem_cons.1 declared with rfl | later
    · exact Nat.succ_pos _
    · obtain rfl := mem_singleton.1 later
      exact Nat.succ_lt_succ (Nat.succ_pos _)

/-- A message that holds any other one holds bytes, if it has no content. -/
lemma Content.Fits.exists_bytes (fits : m.Fits R I t c) (empty : ∀ v, ¬I.content v) (isAny : c.isAny = true) :
    ∃ url data, m.slots = [.text url, .bytes data, .none] := by
  obtain ⟨url, data, content, slots, -, ⟨b, rfl, -, rfl | inner⟩ | ⟨-, inner⟩⟩ := fits.any isAny
  · exact ⟨url, b, slots⟩
  · exact absurd inner (empty _)
  · exact absurd inner (empty _)

/-- A message without a content has what it holds in its slots, even if it holds any other one. -/
lemma Content.Fits.read_slot (ready : p.Ready table) (found : p.plan? t = some c) (fits : m.Fits R I t c)
    (empty : ∀ v, ¬I.content v) (declared : d ∈ c.declared) : m.read p c d.slot = .ok (m.slot d.slot) := by
  obtain ⟨-, s, resolved, planned⟩ := ready.planned found
  cases isAny : c.isAny with
  | false => rw [Content.read, place_plain isAny]
  | true =>
    obtain ⟨url, value, whole, -⟩ := planned.any_declared ready.regular isAny
    obtain ⟨first, second, -⟩ := planned.place_any ready.regular isAny
    obtain ⟨name, data, slots⟩ := fits.exists_bytes empty isAny
    rw [whole] at declared
    rcases mem_cons.1 declared with rfl | later
    · rw [Content.read, Declared.slot, first]
    · obtain rfl := mem_singleton.1 later
      rw [Content.read, Declared.slot, second, Content.slot, slots]
      rfl

/-- What a slot of a new message holds. -/
def Plan.ClassPlan.freshSlot (c : ClassPlan) (i : Nat) : Value := c.freshSlots.getD i .none

/-- Nothing is set in the oneofs of a new message. -/
lemma freshSlot_member (ready : p.Ready table) (found : p.plan? t = some c) {o : OneofPlan}
    {member : MemberPlan} {first : Bool} (declared : Declared.member slot o member first ∈ c.declared) :
    c.freshSlot slot = .none := by
  obtain ⟨-, s, resolved, planned⟩ := ready.planned found
  have plain : c.isAny = false := by
    by_contra isAny
    obtain ⟨url, value, whole, -⟩ := planned.any_declared ready.regular (by simpa using isAny)
    simp [whole] at declared
  have slotIs : c.slots[slot]? = some (.oneof o) := planned.slot_of_declared resolved declared
  simp [ClassPlan.freshSlot, ClassPlan.freshSlots, plain, getD_eq_getElem?_getD, slotIs, SlotPlan.initial]

/-- What an unset field holds in a new message. -/
lemma freshSlot_field (ready : p.Ready table) (found : p.plan? t = some c)
    (declared : Declared.field slot f ∈ c.declared) :
    c.freshSlot slot = f.kind.initial := by
  obtain ⟨-, s, resolved, planned⟩ := ready.planned found
  cases isAny : c.isAny with
  | false =>
    have slotIs : c.slots[slot]? = some (.field f) := planned.slot_of_declared resolved declared
    simp [ClassPlan.freshSlot, ClassPlan.freshSlots, isAny, getD_eq_getElem?_getD, slotIs, SlotPlan.initial]
  | true =>
    obtain ⟨url, value, whole, -, -, -, urlKind, -, -, valueKind⟩ := planned.any_declared ready.regular isAny
    have slots : c.freshSlots = [.text "", .bytes [], .none] := by
      rw [ClassPlan.freshSlots, if_pos isAny, planned.anyNames_eq ready.regular isAny]
      rfl
    rw [whole] at declared
    rcases mem_cons.1 declared with same | later
    · obtain ⟨rfl, rfl⟩ := Declared.field.inj same
      simp [ClassPlan.freshSlot, slots, urlKind, FieldKind.initial]
    · obtain ⟨rfl, rfl⟩ := Declared.field.inj (mem_singleton.1 later)
      simp [ClassPlan.freshSlot, slots, valueKind, FieldKind.initial]

lemma extension?_withExtension (m : Content) (e : Extension) (v : Value) :
    (m.withExtension e v).extension? e.number = some v :=
  congrArg (Option.map Prod.snd) (Content.find?_putExtension e v m.extensions)

end slots

/-! ## Extensions -/

section extensions

variable {e : Extension} {v : Value}

/-- What an extension may be set to is what a field of its kind may hold, if there is something. -/
lemma Extension.fits_iff (e : Extension) (typed : e.type.isScalar = false → ∃ t, e.messageType = some t)
    (present : v.isPresent = true) : e.Fits R I v ↔ (e.kind p).Fits R I v := by
  have some : v ≠ .none := by
    rintro rfl
    cases present
  unfold Extension.Fits Extension.kind
  cases scalar : e.type.isScalar with
  | true => cases e.repeated <;> simp [FieldKind.Fits, some]
  | false =>
    obtain ⟨t, isType⟩ := typed scalar
    cases e.repeated <;> simp [FieldKind.Fits, some, isType, ClassRef.direct]

/-- An extension that is set is there, if it is not an empty list. -/
lemma Extension.isPresent_kind {content : Value → Prop} {n : Nat} (e : Extension) (encodable : R.Encodable)
    (fits : e.Fits R (inside p R content n) v) (nonempty : v ≠ .list []) :
    v.isPresent = true ∧ (e.kind p).isPresent v = true := by
  have nested : ∀ {t x}, (inside p R content n).nested t x → x.isPresent = true := by
    rintro t x ⟨k, -, typed⟩
    rw [typed_eq] at typed
    obtain ⟨_, m, -, rfl, -⟩ := typed
    rfl
  have truthy : ∀ {items : List Value}, v = .list items → v.truthy = true := by
    rintro (_ | _) rfl
    · exact absurd rfl nonempty
    · rfl
  unfold Extension.Fits at fits
  unfold Extension.kind
  cases scalar : e.type.isScalar <;> cases many : e.repeated <;>
    simp only [scalar, many, if_true, Bool.false_eq_true, if_false] at fits ⊢
  · obtain ⟨_, -, fits, -⟩ := fits
    exact ⟨nested fits, nested fits⟩
  · obtain ⟨_, -, items, rfl, -⟩ := fits
    exact ⟨rfl, truthy rfl⟩
  · exact ⟨encodable.isPresent fits, encodable.isPresent fits⟩
  · obtain ⟨items, rfl, -⟩ := fits
    exact ⟨rfl, truthy rfl⟩

end extensions

/-! ## Readers -/

/-- A message that was decoded at a depth, given the extensions that are known. -/
def Content.Known (p : Program) (table : Option ExtensionTable) (depth : Nat) (t : TypeId) (c : ClassPlan)
    (m : Content) : Prop :=
  m.Fits (.known table) (inside p (.known table) (fun _ => False) (maxDepth + 1 - depth)) t c

/-- What holds of a decoder of nested data below a depth. -/
structure NestedReader (p : Program) (table : Option ExtensionTable) (decode : Decoding Unit) (depth : Nat) :
    Prop where
  ready : p.Ready table
  below : DecodesBelow p (.known table) (fun _ => False) (maxDepth + 1 - depth) decode
  nests : Nests decode
  deep : depth ≤ maxDepth + 1

lemma nestedReader (ready : p.Ready table) {levels : Nat} (enough : maxDepth + 1 ≤ levels + depth)
    (deep : depth ≤ maxDepth + 1) : NestedReader p table (decodeMessage p table levels) depth where
  ready := ready
  below := fun n _ less => decodeMessage_decodes ready (Rules.decoded_known ready) (by omega)
  nests := nests_decodeMessage p table levels
  deep := deep

lemma Cursor.Stands.standing {cur : Cursor} {number : Nat} {wire : WireType} {tag rest : Bytes}
    (stands : cur.Stands depth group number wire (tag ++ rest) rest)
    (tagged : SpellsTag tag number wire) (opens : wire ≠ .endGroup) : cur.Standing number where
  wire := stands.wire ▸ opens
  ended := by simp [stands.goes]
  field := stands.field
  waiting := stands.waiting
  marked := ⟨tag, stands.wire ▸ tagged, by rw [stands.mark, stands.rest]⟩

/-- Fields of a number are kept in a spot, each for itself, as fields of a kind. -/
inductive Plan.ClassPlan.Keeps (p : Program) (table : Option ExtensionTable) (c : ClassPlan) :
    Int → Spot → FieldKind → Prop
  | field {slot : Nat} {f : FieldPlan} (declared : Declared.field slot f ∈ c.declared) :
      Keeps p table c f.number (.slot slot) f.kind
  | extension {e : Extension} (ranged : c.ranges.contains e.number = true)
      (known : ∃ known ∈ table, known.find? c.id e.number = some e) :
      Keeps p table c e.number (.extension e) (e.kind p)

section reader

variable {cur cur' : Cursor} {m' : Content} {wire : WireType} {tag rest : Bytes} {assigned last : OneofLocals}
  (reads : NestedReader p table decode depth) (found : p.plan? t = some c)

include reads found

section number

variable {number : Nat} (known : m.Known p table depth t c)
  (stands : cur.Stands depth group number wire (tag ++ rest) rest) (tagged : SpellsTag tag number wire)
  (opens : wire ≠ .endGroup)

include known stands tagged opens

lemma Content.Known.atField : AtField p (.known table) (fun _ => False) (maxDepth + 1 - depth) t c number m cur := by
  refine ⟨found, known, stands.standing tagged opens, ?_⟩
  have := reads.deep
  rw [stands.depth]
  omega

lemma Content.Known.step (run : decodeNumber p table decode c assigned number (m, cur) = .ok last (m', cur')) :
    m'.Known p table depth t c :=
  ((ends_of_ok run).1 (decodeNumber_spec reads.ready (Rules.decoded_known reads.ready)
    (known.atField reads found stands tagged opens) reads.below assigned)).1

end number

variable {number : Int} {spot : Spot} {kind : FieldKind} {P : Value → Prop} (valid : c.Valid)

/-! ## One field -/

include valid in
omit reads found in
lemma Plan.ClassPlan.Keeps.number_valid (keeps : c.Keeps p table number spot kind) :
    0 < number ∧ number ≤ maxFieldNumber := by
  cases keeps with
  | field declared => exact valid.numbers _ declared
  | extension ranged => exact valid.number_of_ranged ranged

/-- A field is absorbed where it can be taken. -/
lemma Content.Known.absorbs_taken (known : m.Known p table depth t c) (positive : 0 < number)
    (bounded : number ≤ maxFieldNumber) (isSpot : c.spotOf table number.toNat = spot)
    (taken : IsTaken depth group number bytes fun cur cur' =>
      ∃ u, spot.Takes p decode c number.toNat cur cur' (m.held p spot) u ∧ P u) :
    Absorbs p table decode c depth group m bytes
      fun m' => m'.Known p table depth t c ∧ ∃ u, P u ∧ m' = m.keep spot u := by
  obtain ⟨wire, payload, opens, rfl, taken⟩ := taken
  have tagged := spellsTag_tag positive bounded wire
  refine absorbs_number tagged opens fun {cur rest assigned} stands => ?_
  obtain ⟨cur', ⟨u, takes, holds⟩, before⟩ := taken stands
  have here := known.atField reads found stands tagged opens
  rw [← isSpot] at takes ⊢
  obtain ⟨last, run⟩ := (here.decodeNumber_spot_iff reads.ready (Rules.decoded_known reads.ready) assigned).2
    ⟨u, takes, rfl⟩
  exact succeeds_iff.2 ⟨last, _, run, ⟨known.step reads found stands tagged opens run, u, holds, rfl⟩, before⟩

include valid

/-- **One field.**  A field is absorbed by the spot that keeps those of its kind. -/
lemma Plan.ClassPlan.Keeps.absorbs (keeps : c.Keeps p table number spot kind) (known : m.Known p table depth t c)
    (taken : IsTaken depth group number bytes fun cur cur' =>
      ∃ u, kind.Takes p decode cur cur' (m.held p spot) u ∧ P u) :
    Absorbs p table decode c depth group m bytes
      fun m' => m'.Known p table depth t c ∧ ∃ u, P u ∧ m' = m.keep spot u := by
  obtain ⟨positive, bounded⟩ := keeps.number_valid valid
  obtain ⟨isId, s, resolved, planned⟩ := reads.ready.planned found
  have isNat : (number.toNat : Int) = number := Int.toNat_of_nonneg (Int.le_of_lt positive)
  cases keeps with
  | @field slot f declared =>
    refine known.absorbs_taken reads found positive bounded (spotOf_declared planned resolved declared isNat.symm)
      (taken.mono ?_)
    rintro cur cur' ⟨u, takes, holds⟩
    exact ⟨u, .declared declared isNat.symm (.field takes), holds⟩
  | @extension e ranged isKnown =>
    obtain ⟨extensions, rfl, isKnown⟩ := isKnown
    refine known.absorbs_taken reads found positive bounded ?_ (taken.mono ?_)
    · rw [ClassPlan.spotOf, isNat, planned.route_ranged resolved ranged]
      simp [isKnown]
    · rintro cur cur' ⟨u, takes, holds⟩
      exact ⟨u, .extension takes, holds⟩

omit valid in
lemma Plan.ClassPlan.Keeps.held_keep (keeps : c.Keeps p table number spot kind) (known : m.Known p table depth t c)
    (v w : Value) : (m.keep spot v).held p spot = v ∧ (m.keep spot v).keep spot w = m.keep spot w := by
  cases keeps with
  | field declared =>
    exact ⟨Content.slot_setSlot (known.room reads.ready found declared), Content.setSlot_setSlot⟩
  | extension =>
    refine ⟨?_, Content.withExtension_withExtension _ _ _ _⟩
    rw [Content.held, Content.keep, Content.extended, extension?_withExtension, Option.getD_some]

omit valid in
/-- **Members.**  A member of a oneof of which nothing is set is absorbed by a new case. -/
lemma NestedReader.absorbs_member {o : OneofPlan} {member : MemberPlan} {first : Bool} {Q : Value → Prop}
    (declared : Declared.member slot o member first ∈ c.declared) (known : m.Known p table depth t c)
    (unset : m.slot slot = .none) (positive : 0 < member.number) (bounded : member.number ≤ maxFieldNumber)
    (isCase : ∀ u, Q u → P (.case { owner := t, slot, number := .int member.number } u []))
    (taken : IsTaken depth group member.number bytes fun cur cur' =>
      ∃ u, member.kind.Takes p decode cur cur' .none u ∧ Q u) :
    Absorbs p table decode c depth group m bytes
      fun m' => m'.Known p table depth t c ∧ ∃ u, P u ∧ m' = m.setSlot slot u := by
  obtain ⟨rfl, s, resolved, planned⟩ := reads.ready.planned found
  have isNat : member.number = member.number.toNat := (Int.toNat_of_nonneg (Int.le_of_lt positive)).symm
  refine known.absorbs_taken reads found positive bounded (spotOf_declared planned resolved declared isNat)
    (taken.mono ?_)
  rintro cur cur' ⟨u, takes, holds⟩
  refine ⟨_, .declared declared isNat ?_, isCase u holds⟩
  rw [Content.held, Declared.slot, unset]
  exact .opens takes

/-- **A row.**  Of several fields, each one is taken after those before it. -/
lemma Plan.ClassPlan.Keeps.absorbs_row {α β : Type} (keeps : c.Keeps p table number spot kind)
    (wrap : List β → Value) (rel : β → α → Prop) {encode : α → Except Fault Bytes} {items : List α}
    (nonempty : items ≠ []) (known : m.Known p table depth t c) (empty : m.held p spot = wrap [])
    (encoded : Encoding.all encode items = .ok bytes)
    (each : ∀ {front x later done bytes}, items = front ++ x :: later → Forall₂ rel done front →
      encode x = .ok bytes → IsTaken depth group number bytes fun cur cur' =>
        ∃ u, kind.Takes p decode cur cur' (wrap done) (wrap (done ++ [u])) ∧ rel u x) :
    Absorbs p table decode c depth group m bytes fun m' => m'.Known p table depth t c
      ∧ ∃ us, Forall₂ rel us items ∧ m' = m.keep spot (wrap us) := by
  refine (absorbs_all rel (fun us m' => m'.Known p table depth t c ∧ m'.held p spot = wrap us
    ∧ (us = [] ∧ m' = m ∨ m' = m.keep spot (wrap us))) ⟨known, empty, .inl ⟨rfl, rfl⟩⟩ encoded ?_).mono ?_
  · rintro front x later done m₁ bytes whole related ⟨known₁, held, same⟩ encoded
    refine (keeps.absorbs (P := fun v => ∃ u, v = wrap (done ++ [u]) ∧ rel u x) reads found valid known₁
      ((each whole related encoded).mono ?_)).mono ?_
    · rintro cur cur' ⟨u, takes, holds⟩
      exact ⟨_, held ▸ takes, u, rfl, holds⟩
    · rintro _ ⟨known₂, _, ⟨u, rfl, holds⟩, rfl⟩
      refine ⟨u, holds, known₂, (keeps.held_keep reads found known₁ _ .none).1, .inr ?_⟩
      rcases same with ⟨-, rfl⟩ | rfl
      · rfl
      · exact (keeps.held_keep reads found known _ _).2
  · rintro m' ⟨us, related, known', -, same⟩
    refine ⟨known', us, related, same.resolve_left fun none => nonempty ?_⟩
    rw [none.1] at related
    exact forall₂_nil_left_iff.1 related

/-- **Scalars** of a repeated field are absorbed, packed or one by one. -/
lemma Plan.ClassPlan.Keeps.absorbs_runs {type : FieldType} {packed : Bool} {items : List Value}
    (keeps : c.Keeps p table number spot (.repeated type packed)) (nonempty : items ≠ [])
    (known : m.Known p table depth t c) (empty : m.held p spot = .list [])
    (all : ∀ x ∈ items, ∃ s, x = .scalar s ∧ type.Holds s ∧ s.size < word64)
    (size : packed = true → ∀ payload, Encoding.all type.encode items = .ok payload → payload.length < word64)
    (encoded : Encoding.repeated number type packed items = .ok bytes) :
    Absorbs p table decode c depth group m bytes
      fun m' => m'.Known p table depth t c ∧ m' = m.keep spot (.list items) := by
  unfold Encoding.repeated at encoded
  split at encoded
  · rename_i packs
    simp only [Bool.and_eq_true] at packs
    obtain ⟨payload, payloadIs, joined⟩ := bind_ok encoded
    obtain ⟨scalars, rfl, writes⟩ := FieldType.exists_writesAll all payloadIs
    cases joined
    refine (keeps.absorbs (P := (· = .list (scalars.map .scalar))) reads found valid known
      ((isTaken_packed packs.1.2 (size packs.1.1 payload payloadIs) number).mono ?_)).mono ?_
    · intro cur cur' run
      rw [writes.readPacked le_rfl] at run
      exact ⟨_, empty ▸ .repeated run, rfl⟩
    · rintro m' ⟨known', _, rfl, same⟩
      exact ⟨known', same⟩
  · refine (keeps.absorbs_row reads found valid Value.list Eq nonempty known empty encoded ?_).mono ?_
    · rintro front x later done bytes rfl - encoded
      obtain ⟨s, rfl, holds, small⟩ := all x (by simp)
      exact (isTaken_single holds small encoded).mono fun cur cur' run => ⟨_, .repeated run, rfl⟩
    · rintro m' ⟨known', us, same, rfl⟩
      rw [forall₂_eq_eq_eq] at same
      exact ⟨known', by rw [same]⟩

end reader

/-! ## All fields -/

/-- What is written of a declared field whose slot holds a value. -/
inductive Plan.Declared.Sends (p : Program) : Declared → Value → Except Fault Bytes → Prop
  | field {slot : Nat} {f : FieldPlan} {v : Value} (present : f.kind.isPresent v = true) :
      Sends p (.field slot f) v (f.kind.encoding p f.number v)
  | member {slot : Nat} {o : OneofPlan} {x : MemberPlan} {first : Bool} {tag : CaseTag} {v : Value}
      {loose : List (String × Value)} (active : tag.number = .int x.number) :
      Sends p (.member slot o x first) (.case tag v loose) (x.kind.encoding p x.number v)

/-- What a message carries is written of its declared fields and of its extensions. -/
lemma carries_iff_sends {number : Int} {result : Except Fault Bytes} :
    Carries p c m number result
      ↔ (∃ d ∈ c.declared, d.number = number ∧ ∃ v, m.read p c d.slot = .ok v ∧ d.Sends p v result)
        ∨ ∃ x ∈ m.extensions, x.1.number = number ∧ x.1.encoding p x.2 = result := by
  constructor
  · intro carries
    cases carries with
    | field declared value present => exact .inl ⟨_, declared, rfl, _, value, .field present⟩
    | member declared value active => exact .inl ⟨_, declared, rfl, _, value, .member active⟩
    | extension set => exact .inr ⟨_, set, rfl, rfl⟩
  · rintro (⟨d, declared, rfl, v, value, sends⟩ | ⟨x, set, rfl, rfl⟩)
    · cases sends with
      | field present => exact .field declared value present
      | member active => exact .member declared value active
    · exact .extension set

/-- Of a slot one number is written at most. -/
lemma Plan.Planned.sends_number {a : Schema.Arena} {s : Schema.Message} (planned : Planned a s c)
    (resolved : s.Resolved) {d e : Declared} (declared : d ∈ c.declared) (other : e ∈ c.declared)
    (same : d.slot = e.slot) {v : Value} {result result' : Except Fault Bytes} (sends : d.Sends p v result)
    (sends' : e.Sends p v result') : d.number = e.number := by
  cases sends with
  | field => rw [planned.declared_of_slot resolved declared other same.symm]
  | member active =>
    cases sends' with
    | field => rw [← planned.declared_of_slot resolved other declared same]
    | member active' => exact Scalar.int.inj (active.symm.trans active')

/-- Has a slot been written of, if certain numbers were? -/
def Plan.ClassPlan.Filled (c : ClassPlan) (done : List Int) (i : Nat) : Prop :=
  ∃ d ∈ c.declared, d.slot = i ∧ d.number ∈ done

/-- A message into which some numbers of another one were read: `echoed` says what stands in the slots that they
lead to, and `extended` which extensions are set. -/
structure Refilled (p : Program) (table : Option ExtensionTable) (depth : Nat) (t : TypeId) (c : ClassPlan)
    (carries : Int → Prop) (echoed : Nat → Value → Prop) (extended : Extension → Value → Prop)
    (extensions : List (Extension × Value)) (done : List Int) (m : Content) : Prop where
  known : m.Known p table depth t c
  head : m.head = { type := t, merged := true }
  carried : ∀ n ∈ done, carries n
  filled : ∀ i, c.Filled done i → echoed i (m.slot i)
  unfilled : ∀ i, ¬c.Filled done i → m.slot i = c.freshSlot i
  here : ∀ x ∈ m.extensions, x.1.number ∈ done ∧ extended x.1 x.2
  there : ∀ x ∈ extensions, x.1.number ∈ done → ∃ v, (x.1, v) ∈ m.extensions

section refilled

variable {carries : Int → Prop} {echoed : Nat → Value → Prop} {extended : Extension → Value → Prop}
  {extensions : List (Extension × Value)} {done : List Int}

lemma refilled_fresh (ready : p.Ready table) (found : p.plan? t = some c) :
    Refilled p table depth t c carries echoed extended extensions []
      { head := { type := t, merged := true }, slots := c.freshSlots, extensions := [] } := by
  obtain ⟨_, made, known⟩ := fresh_fits ready (Rules.decoded_known ready) found
    (inside p (.known table) (fun _ => False) (maxDepth + 1 - depth))
  obtain rfl := Except.ok.inj ((fresh_eq ready found).symm.trans made)
  exact ⟨known.merged, rfl, by simp, by simp [ClassPlan.Filled], fun i _ => rfl, by simp, by simp⟩

/-- **One number.**  A slot of which nothing was read is filled. -/
lemma Refilled.set (ready : p.Ready table) (found : p.plan? t = some c)
    (refilled : Refilled p table depth t c carries echoed extended extensions done m) (declared : d ∈ c.declared)
    (unset : ¬c.Filled done d.slot) (apart : ∀ x ∈ extensions, d.number ≠ x.1.number) (isCarried : carries d.number)
    {u : Value} (known : (m.setSlot d.slot u).Known p table depth t c) (isEcho : echoed d.slot u) :
    Refilled p table depth t c carries echoed extended extensions (d.number :: done) (m.setSlot d.slot u) := by
  obtain ⟨-, s, resolved, planned⟩ := ready.planned found
  have filled_iff : ∀ i, c.Filled (d.number :: done) i ↔ d.slot = i ∨ c.Filled done i := by
    intro i
    constructor
    · rintro ⟨e, other, rfl, inside⟩
      rcases mem_cons.1 inside with same | isDone
      · exact .inl (by rw [planned.declared_ext resolved other declared same])
      · exact .inr ⟨e, other, rfl, isDone⟩
    · rintro (same | ⟨e, other, same, isDone⟩)
      · exact ⟨d, declared, same, .head _⟩
      · exact ⟨e, other, same, .tail _ isDone⟩
  have room := refilled.known.room ready found declared
  refine ⟨known, refilled.head, forall_mem_cons.2 ⟨isCarried, refilled.carried⟩,
    fun i filled => ?_, fun i unfilled => ?_, fun x member => ?_, fun x set isDone => ?_⟩
  · rcases (filled_iff i).1 filled with rfl | before
    · rwa [Content.slot_setSlot room]
    · have other : d.slot ≠ i := fun same => unset (same ▸ before)
      rw [Content.slot_setSlot_ne other]
      exact refilled.filled i before
  · rw [filled_iff, not_or] at unfilled
    rw [Content.slot_setSlot_ne unfilled.1]
    exact refilled.unfilled i unfilled.2
  · obtain ⟨isDone, isExtended⟩ := refilled.here x member
    exact ⟨.tail _ isDone, isExtended⟩
  · exact refilled.there x set ((mem_cons.1 isDone).resolve_left fun same => apart x set same.symm)

end refilled

end Missive
