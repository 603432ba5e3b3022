import Missive.Proofs.Message.Older
import Missive.Proofs.Message.Stable

/-!
# What an older reader preserves

An older reader knows fewer fields than a newer one, and writes what it has read.  The newer one reads that as
the message it would have read in the first place.

**Fields that both know** come first in what the older reader has written.  Each of them leads to a slot of
its own, which gets a value equal to the one that the newer reader had (`Resending.run`).  No slot that the
unknown fields lead to is among them.

**Unknown fields** come behind, byte for byte, and bring back the rest: that is what `Replays` says.

Both hold on every level if they hold on those below (`older_rebuilds`).  The main result is `parse_without`.
-/

namespace Missive

open Plan Schema List Program

variable {p : Program} {v : Value} {levels : Nat}

/-! ## Messages without contents -/

section message

variable {R R' : Rules} {I I' : Inside} {t : TypeId} {c : ClassPlan} {w m : Content}

/-- Messages without contents and extensions are equal if their slots are and their unknown fields are the
same. -/
lemma Content.Fits.same (ready : p.Ready none) (comparable : p.Comparable) (found : p.plan? t = some c)
    (here : w.Fits R I t c) (there : m.Fits R' I' t c) (empty : ∀ v, ¬I.content v) (empty' : ∀ v, ¬I'.content v)
    (none : w.extensions = []) (none' : m.extensions = []) (unknown : w.head.unknown = m.head.unknown)
    (slots : ∀ d ∈ c.declared, Same p (w.slot d.slot) (m.slot d.slot)) : Same p w.value m.value := by
  obtain ⟨-, s, resolved, planned⟩ := ready.planned found
  refine same_message comparable (by rw [there.type, found]) planned.shared
    ⟨here.type.trans there.type.symm, ⟨here.plain, there.plain⟩, ⟨here.whole, there.whole⟩, unknown, ?_, ?_,
      by rw [none, none'], ⟨here.distinct, there.distinct⟩, by simp [none], by simp [none']⟩
  · intro plain
    refine forall₂_iff_get.2 ⟨(here.length plain).trans (there.length plain).symm, fun i inside inside' => ?_⟩
    have room : i < c.slots.length := by rwa [← here.length plain]
    obtain ⟨d, declared, rfl, -⟩ := planned.exists_declared resolved (getElem?_eq_getElem room)
    simpa [Content.slot, getD_eq_getElem?_getD, inside, inside'] using slots d declared
  · intro isAny
    obtain ⟨url, value, whole, -⟩ := planned.any_declared ready.regular isAny
    obtain ⟨name, data, three⟩ := here.exists_bytes empty isAny
    obtain ⟨name', data', three'⟩ := there.exists_bytes empty' isAny
    have first := slots (.field 0 url) (by simp [whole])
    have second := slots (.field 1 value) (by simp [whole])
    simp only [Content.slot, three, three', Declared.slot] at first second
    obtain rfl : name = name' := by simpa [Same, equal, Scalar.equal] using first.1
    obtain rfl : data = data' := by simpa [Same, equal, Scalar.equal] using second.1
    exact ⟨name, data, .none, ⟨_, three, by rw [three]; rfl⟩, _, three', by rw [three']; rfl⟩

section

variable (ready : p.Ready none) (found : p.plan? t = some c) (fits : m.Fits R I t c) (empty : ∀ v, ¬I.content v)

include ready found fits empty

/-- What is in the slot of a declared field fits there. -/
lemma Content.Fits.slot_fits {d : Declared} (declared : d ∈ c.declared) :
    d.content.Fits R I t d.slot (m.slot d.slot) := by
  obtain ⟨-, s, resolved, planned⟩ := ready.planned found
  cases isAny : c.isAny with
  | false => exact fits.slots isAny _ _ (planned.slot_of_declared resolved declared)
  | true =>
    obtain ⟨url, value, whole, -, -, -, urlKind, -, -, valueKind⟩ := planned.any_declared ready.regular isAny
    obtain ⟨name, data, content, slots, nameFits, ⟨b, rfl, dataFits, -⟩ | ⟨-, inner⟩⟩ := fits.any isAny
    · rw [whole] at declared
      rcases mem_cons.1 declared with rfl | later
      · simp only [Declared.content, SlotPlan.Fits, urlKind, Content.slot, slots, Declared.slot]
        exact .inr ⟨_, rfl, nameFits⟩
      · obtain rfl := mem_singleton.1 later
        simp only [Declared.content, SlotPlan.Fits, valueKind, Content.slot, slots, Declared.slot]
        exact .inr ⟨_, rfl, dataFits⟩
    · exact absurd inner (empty _)

/-- What the case of a member holds fits there. -/
lemma Content.Fits.member_fits {slot : Nat} {o : OneofPlan} {x : MemberPlan} {first : Bool}
    (declared : Declared.member slot o x first ∈ c.declared) {tag : CaseTag} {loose : List (String × Value)}
    (isCase : m.slot slot = .case tag v loose) (active : tag.number = .int x.number) : x.kind.Fits R I v := by
  obtain ⟨-, s, resolved, planned⟩ := ready.planned found
  obtain ⟨-, -, -, -, isMember⟩ := planned.oneof_of_member declared
  have slotFits := fits.slot_fits ready found empty declared
  simp only [Declared.slot, isCase] at slotFits
  rcases slotFits with unset | ⟨number, y, origin, _, isValue, isMember', memberFits⟩
  · cases unset
  cases isValue
  obtain rfl : number = x.number := by simpa using active
  cases isMember.symm.trans isMember'
  exact memberFits

end

lemma Content.Fits.extensions_nil (fits : m.Fits R I t c)
    (rule : ∀ t e v, R.extension t e v → ∃ known ∈ (none : Option ExtensionTable), known.find? t e.number = some e) :
    m.extensions = [] := by
  refine eq_nil_iff_forall_not_mem.2 fun x member => ?_
  obtain ⟨-, -, allowed, -⟩ := fits.extensions x member
  obtain ⟨_, ⟨⟩, -⟩ := rule _ _ _ allowed

lemma Typed.same_readable (ready : p.Ready none) (comparable : p.Comparable) {n : Nat}
    (typed : Typed p (.readable p none) (fun _ => False) n t v) : Same p v v := by
  refine typed.same_self Rules.numeric_readable comparable (fun found => ?_) nofun
  obtain ⟨-, s, -, planned⟩ := ready.planned found
  exact planned.shared

end message

/-! ## Writing again -/

/-- What is asked of the payloads of a message that is written: their lengths can be, too. -/
def Rules.short (p : Program) : Rules where
  scalar := fun _ _ => True
  message := fun v => ∀ bytes, p.serialize v = .ok bytes → bytes.length < word64
  entry := fun key value messages e =>
    ∀ bytes, Encoding.keyValue p key value messages e = .ok bytes → bytes.length < word64

/-- A message that was read without extensions and can be written. -/
def Rules.sendable (p : Program) : Rules := { Rules.short p with
  scalar := FieldType.Holds
  extension := fun t e _ => ∃ known ∈ (none : Option ExtensionTable), known.find? t e.number = some e }

lemma Rules.join_short : (Rules.parsed p none).Join (.short p) 0 (.sendable p) where
  scalar := fun _ _ holds _ => holds
  packed := fun _ _ _ _ => trivial
  message := fun _ _ short => short
  entry := fun _ _ _ _ _ short => short
  extension := fun _ _ _ known _ => known
  unknown := fun _ _ _ _ _ => trivial

lemma Rules.encodable_sendable : (Rules.sendable p).Encodable := encodable_of_holds id

/-- What holds while the newer reader reads what the older one has written. -/
structure Resending (p p' : Program) (decode : Decoding Unit) (N : Relation) (depth : Nat) (group : Option Nat)
    (t : TypeId) (c c' : ClassPlan) (touched : List Nat) (m m' : Content) (levels levels' : Nat) : Prop
    extends Level p p' decode N depth group t c c' touched m m' where
  newer : NestedReader p none decode depth
  older : p'.Ready none
  valid : c.Valid
  fits : m.Fits (.readable p none) (inside p (.readable p none) (fun _ => False) levels) t c
  fits' : m'.Fits (.sendable p') (inside p' (.sendable p') (fun _ => False) levels') t c'
  shallow : depth + levels ≤ maxDepth
  rebuilds : ∀ ⦃below g t x x' data start k k'⦄, N below g t x x' → depth < below → below + k ≤ maxDepth →
    Typed p (.readable p none) (fun _ => False) k t x → Typed p' (.sendable p') (fun _ => False) k' t x' →
    p'.serialize x' = .ok data → Content.fresh p t = .ok start → Rebuilds decode start below g data (Same p · x)
  spelled : ∀ ⦃k t x⦄, Typed p' (.sendable p') (fun _ => False) k t x → ∃ bytes, p'.Spells x bytes
  messages : ∀ ⦃below g t x x'⦄, N below g t x x' → x.isPresent = true ∧ x'.isPresent = true

lemma Encoding.all_map {α β : Type} (encode : β → Except Fault Bytes) (f : α → β) (items : List α) :
    all encode (items.map f) = all (fun x => encode (f x)) items := by
  rw [all, all, mapM_map]
  rfl

lemma exists_pairs {α β : Type} {rel : α → β → Prop} {xs : List α} {ys : List β} (each : Forall₂ rel xs ys) :
    ∃ pairs : List (α × β), (∀ x ∈ pairs, rel x.1 x.2) ∧ xs = pairs.map Prod.fst ∧ ys = pairs.map Prod.snd := by
  induction each with
  | nil => exact ⟨[], by simp, rfl, rfl⟩
  | @cons x y _ _ first _ ih =>
    obtain ⟨pairs, both, rfl, rfl⟩ := ih
    exact ⟨(x, y) :: pairs, forall_mem_cons.2 ⟨first, both⟩, rfl, rfl⟩

section resending

variable {p' : Program} {decode : Decoding Unit} {N : Relation} {t t' : TypeId} {c c' : ClassPlan}
  {depth levels' : Nat} {group : Option Nat} {touched : List Nat} {m m' w : Content} {v' : Value} {bytes : Bytes}
  {number : Int} (resending : Resending p p' decode N depth group t c c' touched m m' levels levels')

include resending

variable {key value : FieldType} {ref ref' : Option ClassRef} {e e' : Key × Value} {slot : Nat}

/-- **Messages and groups** that the older reader has written are rebuilt. -/
lemma Resending.isTaken_message {isGroup : Bool} (related : N (depth + 1) (groupOf isGroup number.toNat) t' v v')
    (fits : MessageFits (.readable p none) (inside p (.readable p none) (fun _ => False) levels) isGroup t' v)
    (fits' : MessageFits (.sendable p') (inside p' (.sendable p') (fun _ => False) levels') isGroup t' v')
    (encoded : Encoding.message p' isGroup number v' = .ok bytes) (positive : 0 < number)
    (bounded : number ≤ maxFieldNumber) :
    IsTaken depth group number bytes fun cur cur' =>
      ∃ u, decodeNested p decode isGroup (.type t') .none cur = .ok ⟨u, none⟩ cur' ∧ Same p u v := by
  obtain ⟨⟨k, rfl, typed⟩, -⟩ := fits
  obtain ⟨⟨k', rfl, typed'⟩, small⟩ := fits'
  obtain ⟨data, spells⟩ := resending.spelled typed'
  obtain ⟨c₁, -, found, -, -⟩ := typed_eq p _ _ k ▸ typed
  have fresh := fresh_eq resending.newer.ready found
  have shallow := resending.shallow
  exact isTaken_nested (resending.rebuilds related (by omega) (by omega) typed typed' spells.serialize fresh) fresh
    (by omega) spells.serialize (fun isMessage => small isMessage data spells.serialize) positive bounded encoded

section

variable (target : ref'.map (·.target) = ref.map (·.target)) (related : EntryRelates N depth ref e e')
  (fits : EntryFits (.readable p none) (inside p (.readable p none) (fun _ => False) levels) key value ref e)
  (fits' : EntryFits (.sendable p') (inside p' (.sendable p') (fun _ => False) levels') key value ref' e')

include target related fits fits'

/-- The value of an entry that the older reader has written is rebuilt. -/
lemma Resending.restoresValue (encoded : Encoding.entryValue p' value ref'.isSome e'.2 = .ok bytes) :
    RestoresValue p decode key (MapValue.of value ref) (depth + 1) bytes (Same p · e.2) := by
  obtain ⟨-, valueFits, -⟩ := fits
  obtain ⟨-, valueFits', -⟩ := fits'
  cases ref with
  | none =>
    obtain rfl : ref' = none := by simpa using target
    obtain ⟨s, valueIs, holds, number, small⟩ := valueFits
    have same : e'.2 = e.2 := related.2
    rw [same, valueIs] at encoded
    refine (restoresValue_scalar holds small encoded).mono ?_
    rintro _ rfl
    rw [valueIs]
    exact same_self number
  | some r =>
    obtain ⟨r', rfl, sameTarget⟩ : ∃ r', ref' = some r' ∧ r'.target = r.target := by
      cases ref' <;> simp_all
    obtain ⟨⟨k, rfl, typed⟩, -⟩ := valueFits
    obtain ⟨⟨k', rfl, typed'⟩, small⟩ := valueFits'
    rw [sameTarget] at typed'
    obtain ⟨data, spells⟩ := resending.spelled typed'
    obtain ⟨c₁, -, found, -, -⟩ := typed_eq p _ _ k ▸ typed
    have fresh := fresh_eq resending.newer.ready found
    have shallow := resending.shallow
    exact restoresValue_message (resending.rebuilds related.2 (by omega) (by omega) typed typed' spells.serialize fresh)
      fresh (by omega) (small data spells.serialize) spells.serialize encoded

/-- **Entries of maps** that the older reader has written are rebuilt. -/
lemma Resending.isTaken_entry (room : 1 ≤ levels)
    (encoded : Encoding.entry p' number key value ref'.isSome e' = .ok bytes) :
    IsTaken depth group number bytes fun cur cur' =>
      ∃ u, decodeMapField p decode key (MapValue.of value ref) cur = .ok u cur' ∧ u.1 = e.1 ∧ Same p u.2 e.2 := by
  obtain ⟨⟨s, isKey, holds, -, small⟩, -, -⟩ := id fits
  have shallow := resending.shallow
  rw [← related.1]
  exact Missive.isTaken_entry (related.1.trans isKey) holds small (by omega) fits'.2.2
    (fun _ valueIs => resending.restoresValue target related fits fits' valueIs) encoded

end

/-! ## Fields -/

/-- **Fields.**  What the older reader has written of a field is read as what the newer one had. -/
lemma Resending.absorbs_field {f f' : FieldPlan} (declared : Declared.field slot f ∈ c.declared)
    (known : w.Known p none depth t c) (same : f'.number = f.number) (alike : f.kind.Alike f'.kind)
    (unset : w.slot slot = f.kind.initial) (related : f.kind.Relates N depth f.number.toNat v v')
    (fits : f.kind.Fits (.readable p none) (inside p (.readable p none) (fun _ => False) levels) v)
    (fits' : f'.kind.Fits (.sendable p') (inside p' (.sendable p') (fun _ => False) levels') v')
    (present : f'.kind.isPresent v' = true) (encoded : f'.kind.encoding p' f'.number v' = .ok bytes) :
    Absorbs p none decode c depth group w bytes
      fun w' => w'.Known p none depth t c ∧ ∃ u, Same p u v ∧ w' = w.setSlot slot u := by
  have reads := resending.newer
  have found := resending.found
  have valid := resending.valid
  have keeps : c.Keeps p none f.number (.slot slot) f.kind := .field declared
  obtain ⟨positive, bounded⟩ := keeps.number_valid valid
  rw [same] at encoded
  generalize f.kind = kind at alike related fits unset keeps
  generalize f'.kind = kind' at alike fits' present encoded
  cases alike with
  | scalar =>
    obtain rfl : v' = v := related
    rcases fits with ⟨rfl, rfl⟩ | ⟨s, rfl, holds, number, small⟩
    · simp [FieldKind.isPresent, Value.isPresent] at present
    · exact keeps.absorbs reads found valid known
        ((isTaken_scalar holds small encoded).mono fun cur cur' read => ⟨_, .scalar read, same_self number⟩)
  | repeated =>
    obtain rfl : v' = v := related
    obtain ⟨items, rfl, all, size⟩ := fits
    have nonempty : items ≠ [] := by
      rintro rfl
      cases present
    refine (keeps.absorbs_runs reads found valid nonempty known unset (fun x member => ?_) size encoded).mono ?_
    · obtain ⟨s, rfl, holds, -, small⟩ := all x member
      exact ⟨s, rfl, holds, small⟩
    · rintro w' ⟨known', rfl⟩
      exact ⟨known', _, same_list_self fun x member => (all x member).same_self Rules.numeric_readable, rfl⟩
  | @message isGroup ref ref' target =>
    rcases related with ⟨rfl, rfl⟩ | related
    · simp [FieldKind.isPresent, Value.isPresent] at present
    · obtain ⟨here, there⟩ := resending.messages related
      rcases fits with rfl | fits
      · cases here
      rcases fits' with rfl | fits'
      · cases there
      rw [target] at fits'
      refine keeps.absorbs reads found valid known
        ((resending.isTaken_message related fits fits' encoded positive bounded).mono ?_)
      rintro cur cur' ⟨u, run, same⟩
      refine ⟨u, ?_, same⟩
      rw [Content.held, unset]
      exact .message run
  | @repeatedMessage isGroup ref ref' target =>
    obtain ⟨xs, xs', rfl, rfl, each⟩ := related
    obtain ⟨_, ⟨rfl⟩, fits⟩ := fits
    obtain ⟨_, ⟨rfl⟩, fits'⟩ := fits'
    obtain ⟨pairs, both, rfl, rfl⟩ := exists_pairs each
    have encoded : Encoding.all (Encoding.message p' isGroup f.number) (pairs.map Prod.snd) = .ok bytes := encoded
    rw [Encoding.all_map] at encoded
    have nonempty : pairs ≠ [] := by
      rintro rfl
      cases present
    rw [target] at fits'
    refine (keeps.absorbs_row reads found valid Value.list (fun u pair => Same p u pair.1) nonempty known unset
      encoded ?_).mono ?_
    · rintro front ⟨x, x'⟩ later done bytes whole - encoded
      have inside : (x, x') ∈ pairs := by simp [whole]
      refine (resending.isTaken_message (both _ inside) (fits x (mem_map_of_mem inside))
        (fits' x' (mem_map_of_mem inside)) encoded positive bounded).mono ?_
      rintro cur cur' ⟨u, run, same⟩
      exact ⟨u, .repeatedMessage run, same⟩
    · rintro w' ⟨known', us, all, rfl⟩
      exact ⟨known', _, same_list (forall₂_map_right_iff.2 all), rfl⟩
  | @map key value ref ref' target =>
    obtain ⟨es, es', rfl, rfl, each⟩ := related
    obtain ⟨_, ⟨rfl⟩, room, distinct, fits⟩ := fits
    obtain ⟨_, ⟨rfl⟩, -, -, fits'⟩ := fits'
    obtain ⟨pairs, both, rfl, rfl⟩ := exists_pairs each
    have encoded : Encoding.all (Encoding.entry p' f.number key value ref'.isSome) (pairs.map Prod.snd) = .ok bytes :=
      encoded
    rw [Encoding.all_map] at encoded
    have nonempty : pairs ≠ [] := by
      rintro rfl
      cases present
    refine (keeps.absorbs_row reads found valid (Value.map false) (fun u pair => u.1 = pair.1.1 ∧ Same p u.2 pair.1.2)
      nonempty known unset encoded ?_).mono ?_
    · rintro front ⟨e, e'⟩ later done bytes whole earlier encoded
      have inside : (e, e') ∈ pairs := by simp [whole]
      have absent : ∀ x ∈ done, x.1.equal e.1 = false := by
        intro x member
        obtain ⟨old, isOld, key, -⟩ := exists_right_of_mem earlier member
        rw [key]
        rw [whole, map_append, pairwise_append] at distinct
        exact distinct.2.2 _ (mem_map_of_mem isOld) e (by simp)
      refine (resending.isTaken_entry target (both _ inside) (fits e (mem_map_of_mem inside))
        (fits' e' (mem_map_of_mem inside)) (room (by simpa using nonempty)) encoded).mono ?_
      rintro cur cur' ⟨u, run, key, same⟩
      refine ⟨u, ?_, key, same⟩
      rw [← putEntry_append (k := u.1) (v := u.2) (key ▸ absent)]
      exact .map run
    · rintro w' ⟨known', us, all, rfl⟩
      refine ⟨known', _, same_map (forall₂_map_right_iff.2 all) distinct fun e inside => ?_, rfl⟩
      obtain ⟨⟨s, isKey, -, number, -⟩, -, -⟩ := fits e inside
      rw [isKey, Key.equal]
      exact Scalar.equal_self number

/-- **Members.**  The same for a member of a oneof of which nothing is set. -/
lemma Resending.absorbs_member {o : OneofPlan} {x x' : MemberPlan} {first : Bool}
    (declared : Declared.member slot o x first ∈ c.declared) (known : w.Known p none depth t c)
    (same : x'.number = x.number) (alike : x.kind.Alike x'.kind) (unset : w.slot slot = .none)
    (related : x.kind.Relates N depth x.number.toNat v v')
    (fits : x.kind.Fits (.readable p none) (inside p (.readable p none) (fun _ => False) levels) v)
    (fits' : x'.kind.Fits (.sendable p') (inside p' (.sendable p') (fun _ => False) levels') v')
    (encoded : x'.kind.encoding p' x'.number v' = .ok bytes) :
    Absorbs p none decode c depth group w bytes fun w' => w'.Known p none depth t c
      ∧ ∃ u, Same p u (.case { owner := t, slot, number := .int x.number } v []) ∧ w' = w.setSlot slot u := by
  obtain ⟨positive, bounded⟩ : 0 < x.number ∧ x.number ≤ maxFieldNumber := resending.valid.numbers _ declared
  rw [same] at encoded
  refine resending.newer.absorbs_member resending.found declared known unset positive bounded
    (fun u same => same_case same) ?_
  obtain ⟨-, s, resolved, planned⟩ := resending.newer.ready.planned resending.found
  obtain ⟨plan, isOneof, -, oneof, isMember⟩ := planned.oneof_of_member declared
  have coded := planned.member_isCoded resending.newer.ready.regular isOneof oneof (member?_eq_some isMember).1
  generalize x.kind = kind at alike related fits coded
  generalize x'.kind = kind' at alike fits' encoded
  cases alike with
  | @scalar type default default' =>
    obtain rfl : v' = v := related
    obtain ⟨s, rfl, holds, number, small⟩ := fits
    exact (isTaken_scalar holds small encoded).mono fun cur cur' read => ⟨_, .scalar read, same_self number⟩
  | @message isGroup ref decodeRef ref' decodeRef' target decoded =>
    have target' : ref.target = decodeRef.target := coded
    have fits' : MessageFits (.sendable p') (inside p' (.sendable p') (fun _ => False) levels') isGroup
        ref'.target v' := fits'
    rw [target, target'] at fits'
    refine (resending.isTaken_message related (target' ▸ fits) fits' encoded positive bounded).mono ?_
    rintro cur cur' ⟨u, run, same⟩
    exact ⟨u, .message run, same⟩

/-! ## All fields -/

omit resending in
/-- A message without extensions carries what is written of its declared fields. -/
lemma Content.Fits.carries_iff_sends {R : Rules} {I : Inside} (ready : p.Ready none) (found : p.plan? t = some c)
    (fits : m.Fits R I t c) (empty : ∀ v, ¬I.content v) (none : m.extensions = []) {result : Except Fault Bytes} :
    Carries p c m number result ↔ ∃ d ∈ c.declared, d.number = number ∧ d.Sends p (m.slot d.slot) result := by
  have read : ∀ {d : Declared}, d ∈ c.declared → m.read p c d.slot = .ok (m.slot d.slot) :=
    fun declared => fits.read_slot ready found empty declared
  rw [Missive.carries_iff_sends]
  constructor
  · rintro (⟨d, declared, rfl, v, value, sends⟩ | ⟨x, set, -⟩)
    · obtain rfl := Except.ok.inj ((read declared).symm.trans value)
      exact ⟨d, declared, rfl, sends⟩
    · rw [none] at set
      cases set
  · rintro ⟨d, declared, rfl, sends⟩
    exact .inl ⟨d, declared, rfl, _, read declared, sends⟩

omit resending in
/-- What the newer reader has after some numbers of what the older one has written. -/
abbrev Resent (p p' : Program) (depth : Nat) (t : TypeId) (c c' : ClassPlan) (m m' : Content) :
    List Int → Content → Prop :=
  Refilled p none depth t c (fun n => ∃ bytes, Carries p' c' m' n (.ok bytes)) (fun i u => Same p u (m.slot i))
    (fun _ _ => False) []

lemma Resending.exists_sends (carries : Carries p' c' m' number (.ok bytes)) :
    ∃ d ∈ c.declared, ∃ d' ∈ c'.declared, d.Alike d' ∧ d.number = number
      ∧ d'.Sends p' (m'.slot d'.slot) (.ok bytes) := by
  have none' := resending.fits'.extensions_nil fun _ _ _ allowed => allowed
  obtain ⟨d', declared', named, sends⟩ := (resending.fits'.carries_iff_sends resending.older resending.found'
    (fun _ => id) none').1 carries
  obtain ⟨d, declared, alike⟩ := resending.narrow.kept d' declared'
  exact ⟨d, declared, d', declared', alike, alike.number_eq.symm.trans named, sends⟩

section kept

variable {d d' : Declared} (declared : d ∈ c.declared) (declared' : d' ∈ c'.declared) (alike : d.Alike d')
  (sends : d'.Sends p' (m'.slot d'.slot) (.ok bytes))

include declared declared' alike sends

/-- The unknown fields do not lead to what is written of a field that both know. -/
lemma Resending.untouched : d.slot ∉ touched := by
  have related := resending.kept d declared d' declared' alike
  generalize m'.slot d'.slot = v' at related sends
  generalize m.slot d.slot = v at related
  cases related with
  | field untouched | unset untouched | set untouched => exact untouched
  | lost => cases sends

/-- **One field.**  What is written of a field that both know is absorbed by its slot. -/
lemma Resending.absorbs_sends (known : w.Known p none depth t c) (unset : w.slot d.slot = c.freshSlot d.slot) :
    Absorbs p none decode c depth group w bytes
      fun w' => w'.Known p none depth t c ∧ ∃ u, Same p u (m.slot d.slot) ∧ w' = w.setSlot d.slot u := by
  have ready := resending.newer.ready
  have related := resending.kept d declared d' declared' alike
  generalize isResult : Except.ok bytes = result at sends
  cases alike with
  | @field slot slot' f f' same kind =>
    have unset : w.slot slot = f.kind.initial := unset.trans (freshSlot_field ready resending.found declared)
    have fits := resending.fits.slot_fits ready resending.found (fun _ => id) declared
    have fits' := resending.fits'.slot_fits resending.older resending.found' (fun _ => id) declared'
    cases related with
    | field _ related =>
      cases sends with
      | field present =>
        exact resending.absorbs_field declared known same kind unset related fits fits' present isResult.symm
  | @member slot slot' o o' x x' first first' same kind =>
    have unset : w.slot slot = .none := unset.trans (freshSlot_member ready resending.found declared)
    simp only [Declared.slot] at related sends ⊢
    generalize isNew : m.slot slot = v at related ⊢
    generalize isOld : m'.slot slot' = v' at related sends
    cases sends with
    | @member _ _ _ _ tag u loose active =>
      generalize isCase : Value.case tag u loose = v' at related
      cases related with
      | unset | lost => cases isCase
      | @set _ _ _ _ _ _ _ _ e e' y y' one one' z z' untouched declaredSet declaredSet' sameSet kindSet related =>
        cases isCase
        -- The member that is set is the one that is written.
        have isMember : x'.number = y.number := (Scalar.int.inj active).symm
        obtain ⟨-, s, resolved, planned⟩ := ready.planned resending.found
        obtain ⟨-, -, rfl, -⟩ := Declared.member.inj
          (planned.declared_ext resolved declared declaredSet (same.symm.trans isMember))
        exact resending.absorbs_member declared known same kind unset related
          (resending.fits.member_fits ready resending.found (fun _ => id) declared isNew rfl)
          (resending.fits'.member_fits resending.older resending.found' (fun _ => id) declared' isOld active)
          isResult.symm

end kept

/-- **One encoding.** -/
lemma Resending.step {done : List Int} (resent : Resent p p' depth t c c' m m' done w)
    (carries : Carries p' c' m' number (.ok bytes)) (new : number ∉ done) :
    Absorbs p none decode c depth group w bytes (Resent p p' depth t c c' m m' (number :: done)) := by
  obtain ⟨-, s, resolved, planned⟩ := resending.newer.ready.planned resending.found
  obtain ⟨-, s', resolved', planned'⟩ := resending.older.planned resending.found'
  obtain ⟨d, declared, d', declared', alike, rfl, sends⟩ := resending.exists_sends carries
  -- Nothing else that was written is in the slot.
  have unset : ¬c.Filled done d.slot := by
    rintro ⟨e, other, same, isDone⟩
    obtain ⟨bytes', carries'⟩ := resent.carried _ isDone
    obtain ⟨e₁, other₁, e', other', alike', named, sends'⟩ := resending.exists_sends carries'
    obtain rfl := planned.declared_ext resolved other₁ other named
    have same' := (resending.narrow.slots e₁ other d declared e' other' d' declared' alike' alike).2 same
    rw [same'] at sends'
    have isNumber := planned'.sends_number resolved' other' declared' same' sends' sends
    rw [alike'.number_eq, alike.number_eq] at isNumber
    exact new (isNumber ▸ isDone)
  refine (resending.absorbs_sends declared declared' alike sends resent.known (resent.unfilled _ unset)).mono ?_
  rintro w' ⟨known, u, same, rfl⟩
  exact resent.set resending.newer.ready resending.found declared unset (by simp) ⟨bytes, carries⟩ known same

/-! ## Behind the last field -/

omit resending in
/-- Related values are there for both readers or for neither. -/
lemma isPresent_of_relates {kind kind' : FieldKind} (alike : kind.Alike kind') {number : Nat}
    (messages : ∀ ⦃below g t x x'⦄, N below g t x x' → x.isPresent = true ∧ x'.isPresent = true)
    (related : kind.Relates N depth number v v') : kind'.isPresent v' = kind.isPresent v := by
  cases alike with
  | scalar | repeated =>
    obtain rfl : v' = v := related
    rfl
  | message =>
    rcases related with ⟨rfl, rfl⟩ | related
    · rfl
    · obtain ⟨here, there⟩ := messages related
      exact there.trans here.symm
  | repeatedMessage =>
    obtain ⟨xs, xs', rfl, rfl, each⟩ := related
    cases each <;> rfl
  | map =>
    obtain ⟨es, es', rfl, rfl, each⟩ := related
    cases each <;> rfl

/-- A slot of which nothing was written is as in a new message, if the unknown fields do not lead to it. -/
lemma Resending.same_unfilled {done : List Int}
    (complete : ∀ number result, Carries p' c' m' number result → number ∈ done) {e : Declared}
    (untouched : e.slot ∉ touched) (unfilled : ¬c.Filled done e.slot)
    (itself : Same p (m.slot e.slot) (m.slot e.slot)) : Same p (c.freshSlot e.slot) (m.slot e.slot) := by
  have ready := resending.newer.ready
  have none' := resending.fits'.extensions_nil fun _ _ _ allowed => allowed
  -- What the older reader writes of a kept field fills its slot.
  have silent : ∀ {d d' : Declared}, d ∈ c.declared → d' ∈ c'.declared → d.Alike d' → d.slot = e.slot →
      ∀ result, ¬d'.Sends p' (m'.slot d'.slot) result := by
    intro d d' declared declared' alike same result sends
    have carries := (resending.fits'.carries_iff_sends resending.older resending.found' (fun _ => id) none').2
      ⟨d', declared', rfl, sends⟩
    exact unfilled ⟨d, declared, same, alike.number_eq ▸ complete _ _ carries⟩
  by_cases shared : ∃ d ∈ c.declared, ∃ d' ∈ c'.declared, d.Alike d' ∧ d.slot = e.slot
  · obtain ⟨d, declared, d', declared', alike, same⟩ := shared
    have nothing := silent declared declared' alike same
    have related := resending.kept d declared d' declared' alike
    rw [← same] at untouched ⊢
    cases alike with
    | @field slot slot' f f' sameNumber kind =>
      have fits := resending.fits.slot_fits ready resending.found (fun _ => id) declared
      cases related with
      | field _ related =>
        have absent' : f'.kind.isPresent (m'.slot slot') = false := by
          refine Bool.eq_false_iff.2 fun present => ?_
          exact nothing _ (.field present)
        have absent : f.kind.isPresent (m.slot slot) = false :=
          (isPresent_of_relates kind resending.messages related).symm.trans absent'
        have initial : c.freshSlot slot = f.kind.initial := freshSlot_field ready resending.found declared
        rw [Declared.slot, initial]
        exact same_initial Rules.legible_readable (resending.valid.zero _ declared) fits absent
    | @member slot slot' o o' x x' first first' sameNumber kind =>
      have initial : c.freshSlot slot = .none := freshSlot_member ready resending.found declared
      simp only [Declared.slot] at related untouched ⊢
      rw [initial]
      generalize m.slot slot = v at related ⊢
      generalize isOld : m'.slot slot' = v' at related
      cases related with
      | unset => exact same_self rfl
      | lost inside => exact absurd inside untouched
      | @set _ _ _ _ _ _ _ _ e e' y y' one one' z z' _ declaredSet declaredSet' sameSet kindSet =>
        have sends : (Declared.member slot' e' y' one').Sends p'
            (.case { owner := t, slot := slot', number := .int y.number } z' []) _ :=
          Declared.Sends.member (by rw [sameSet])
        rw [← isOld] at sends
        exact absurd sends (silent declaredSet declaredSet' (.member sameSet kindSet) same _)
  · have free := resending.free e.slot untouched fun d declared d' declared' alike same =>
      shared ⟨d, declared, d', declared', alike, same⟩
    rwa [← free]

/-- **Messages.**  What the older reader has written is read as a message that is equal to that of the newer
one. -/
lemma Resending.rebuilt (comparable : p.Comparable) {start : Content} (fresh : Content.fresh p t = .ok start)
    (serialized : p'.serialize m'.value = .ok bytes) :
    Rebuilds (decodeInto p none decode) start depth group bytes (Same p · m.value) := by
  have ready := resending.newer.ready
  have none := resending.fits.extensions_nil fun _ _ _ allowed => allowed.1
  obtain ⟨-, s, resolved, planned⟩ := ready.planned resending.found
  obtain ⟨-, s', resolved', planned'⟩ := resending.older.planned resending.found'
  obtain ⟨encodings, ascending, carried, spells⟩ := resending.fits'.exists_encodings resending.found' planned'
    resolved' resending.older.regular Rules.encodable_sendable
    (spelled_inside (fun _ _ _ _ typed => resending.spelled typed) fun _ => False.elim)
  cases spells.serialize.symm.trans serialized
  have complete : ∀ number result, Carries p' c' m' number result → number ∈ (encodings.map (·.1)).reverse ++ [] := by
    intro number result carries
    obtain ⟨bytes, -, inside⟩ := (carried number result).1 carries
    simpa using ⟨bytes, inside⟩
  have itself : ∀ {e : Declared}, e ∈ c.declared → Same p (m.slot e.slot) (m.slot e.slot) := by
    intro e other
    refine fits_slot_same_self Rules.numeric_readable (reflexive_inside ?_ nofun)
      (resending.fits.slot_fits ready resending.found (fun _ => id) other)
    exact fun k _ t v typed => typed.same_readable ready comparable
  -- The fields that both know come first, then those that only the newer reader knows.
  have absorbs : Absorbs p Option.none decode c depth group
      { head := { type := t, merged := true }, slots := c.freshSlots, extensions := [] }
      (encodings.flatMap (·.2) ++ m'.head.unknown) fun w => Same p w.value m.value := by
    have step : ∀ x ∈ encodings, ∀ done w, x.1 ∉ done → Resent p p' depth t c c' m m' done w →
        Absorbs p Option.none decode c depth group w x.2 (Resent p p' depth t c c' m m' (x.1 :: done)) :=
      fun x inside done w new resent => resending.step resent ((carried _ _).2 ⟨x.2, rfl, inside⟩) new
    refine (absorbs_encodings ascending (by simp) (refilled_fresh ready resending.found) step).trans ?_
    intro w resent
    refine (resending.replays resent.known fun i inside => resent.unfilled i ?_).mono ?_
    · rintro ⟨d, declared, rfl, isDone⟩
      obtain ⟨bytes, carries⟩ := resent.carried _ isDone
      obtain ⟨e, other, d', declared', alike, named, sends⟩ := resending.exists_sends carries
      obtain rfl := planned.declared_ext resolved other declared named
      exact resending.untouched other declared' alike sends inside
    · rintro w' ⟨known', unknown, slots⟩
      rw [resent.head, nil_append] at unknown
      have none' := known'.extensions_nil fun _ _ _ allowed => allowed
      refine known'.same ready comparable resending.found resending.fits (fun _ => id) (fun _ => id) none' none
        unknown fun e other => ?_
      rw [slots]
      split
      · exact itself other
      · rename_i untouched
        by_cases filled : c.Filled ((encodings.map (·.1)).reverse ++ []) e.slot
        · exact resent.filled _ filled
        · rw [resent.unfilled _ filled]
          exact resending.same_unfilled complete untouched filled (itself other)
  intro cur tail rest before closes
  cases fresh.symm.trans (fresh_eq ready resending.found)
  rw [Succeeds, ends_decodeInto resending.found rfl (ready.clear.of_plan resending.found).owners]
  refine absorbs.succeeds closes before ?_ {}
  rw [before.rest]
  exact Nat.lt_succ_self _

end resending

/-! ## All levels -/

section levels

variable {p p' : Program} (ready : p.Ready none) (ready' : p'.Ready none) (valid : p.Valid) (comparable : p.Comparable)
  (spelled : ∀ ⦃k t x⦄, Typed p' (.sendable p') (fun _ => False) k t x → ∃ bytes, p'.Spells x bytes)

include ready ready' valid comparable spelled

/-- **All levels.** -/
lemma older_rebuilds {levels : Nat} ⦃depth : Nat⦄ ⦃group : Option Nat⦄ ⦃t : TypeId⦄ ⦃x x' : Value⦄
    ⦃data : Bytes⦄ ⦃start : Content⦄ ⦃k k' : Nat⦄ (older : Older p p' levels depth group t x x')
    (enough : maxDepth + 1 < levels + depth) (shallow : depth + k ≤ maxDepth)
    (typed : Typed p (.readable p none) (fun _ => False) k t x)
    (typed' : Typed p' (.sendable p') (fun _ => False) k' t x') (serialized : p'.serialize x' = .ok data)
    (fresh : Content.fresh p t = .ok start) :
    Rebuilds (decodeMessage p none levels) start depth group data (Same p · x) := by
  induction levels generalizing depth group t x x' data start k k' with
  | zero => exact older.elim
  | succ levels ih =>
    obtain ⟨m, m', c, c', touched, rfl, rfl, level⟩ := older
    have resending : Resending p p' (decodeMessage p none levels) (Older p p' levels) depth group t c c' touched m m'
        k k' := by
      refine ⟨level, nestedReader ready (by omega) level.deep, ready', valid.of_plan level.found,
        typed.fits level.found, typed'.fits level.found', shallow, ?_, spelled, ?_⟩
      · intro below g t x x' data start k k' older deeper shallow typed typed' serialized fresh
        exact ih older (by omega) shallow typed typed' serialized fresh
      · intro below g t x x' older
        cases levels with
        | zero => exact older.elim
        | succ =>
          obtain ⟨m, m', -, -, -, rfl, rfl, -⟩ := older
          exact ⟨rfl, rfl⟩
    exact resending.rebuilt comparable fresh serialized

end levels

/-! ## Older readers -/

/-- A class that fields were taken away from is valid if it was before. -/
lemma Plan.ClassPlan.Narrowed.valid {c c' : ClassPlan} (narrow : c.Narrowed c') (valid : c.Valid) : c'.Valid where
  numbers := by
    intro d' declared'
    obtain ⟨d, declared, alike⟩ := narrow.kept d' declared'
    rw [alike.number_eq]
    exact valid.numbers d declared
  ranges := by
    rw [narrow.ranges]
    exact valid.ranges
  zero := by
    intro d' declared'
    obtain ⟨d, declared, alike⟩ := narrow.kept d' declared'
    have zero := valid.zero d declared
    cases alike with
    | member => trivial
    | field _ kind =>
      simp only [Declared.content, SlotPlan.StartsAtZero] at zero ⊢
      generalize FieldPlan.kind _ = k at kind zero
      generalize FieldPlan.kind _ = k' at kind ⊢
      cases kind with
      | @scalar type presence default default' stored =>
        cases presence with
        | true => trivial
        | false => exact (stored rfl).trans zero
      | _ => trivial

lemma Program.valid_of_build {files : List FileDecl} {options options' : Plan.Options} {p' : Program}
    {drop : String → Int → Bool} (built : Program.build files options = .ok p)
    (built' : Program.build (files.map (·.without drop)) options' = .ok p') (regular : p.arena.Regular)
    (uniform : p.arena.Uniform) (valid : p.Valid) : p'.Valid := by
  rintro ⟨t, c'⟩ member'
  have narrow := Schema.narrowed_of_build drop (arena_of_build built) (arena_of_build built')
  have there : t ∈ p.classes.map (·.1) := by
    rw [← classes_ids_eq built built' (names_without files) narrow.fewer.shaped]
    exact mem_map_of_mem member'
  obtain ⟨⟨t, c⟩, member, rfl⟩ := mem_map.1 there
  exact (exists_narrowed built built' regular uniform member member').valid (valid _ member)

/-- **Older readers preserve what they do not know.**  Some fields are taken away from the messages of a
schema.  What a reader of the whole schema accepts is accepted by a reader of what is left of it, and what
that one writes is read, by a reader of the whole schema, as a message that is equal to the first one. -/
theorem parse_without {files : List FileDecl} {options options' : Plan.Options} {p p' : Program}
    {drop : String → Int → Bool} (built : Program.build files options = .ok p)
    (built' : Program.build (files.map (·.without drop)) options' = .ok p') (regular : p.arena.Regular)
    (uniform : p.arena.Uniform) (clear : p.Clear) (clear' : p'.Clear) (comparable : p.Comparable) (valid : p.Valid)
    {t : TypeId} {data : Bytes} {m : Content} (parsed : parse p none t data = .ok m)
    (bounded : Typed p (.bounded p) (fun _ => False) maxDepth t m.value)
    (short : ∀ m', parse p' none t data = .ok m' → Typed p' (.short p') (fun _ => False) (maxDepth + 1) t m'.value) :
    ∃ m' bytes w, parse p' none t data = .ok m' ∧ p'.serialize m'.value = .ok bytes ∧ parse p none t bytes = .ok w
      ∧ equal p w.value m.value = .ok true ∧ equal p m.value w.value = .ok true := by
  have regular' := regular_of_build built built' regular uniform
  have ready : p.Ready none := ready_of_build built regular clear (by simp)
  have ready' : p'.Ready none := ready_of_build built' regular' clear' (by simp)
  have valid' := valid_of_build built built' regular uniform valid
  have isClass : (p.plan? t).isSome = true := by
    rw [typed_eq] at bounded
    obtain ⟨c, -, found, -⟩ := bounded
    rw [found]
    rfl
  obtain ⟨m', c, c', touched, parsed', level⟩ := exists_older ready ready'
    (narrowed_of_build built built' regular uniform) isClass parsed
  have typed : Typed p (.readable p none) (fun _ => False) maxDepth t m.value :=
    (typed_of_parse ready valid isClass parsed).join Rules.join_parsed (fun _ impossible _ => impossible) bounded
  have isClass' : (p'.plan? t).isSome = true := by
    rw [level.found']
    rfl
  have typed' : Typed p' (.sendable p') (fun _ => False) (maxDepth + 1) t m'.value :=
    (typed_of_parse ready' valid' isClass' parsed').join Rules.join_short (fun _ impossible _ => impossible)
      (short m' parsed')
  have spelled : ∀ ⦃k t x⦄, Typed p' (.sendable p') (fun _ => False) k t x → ∃ bytes, p'.Spells x bytes :=
    fun _ _ _ typed => typed.exists_spells built' regular' Rules.encodable_sendable fun _ => False.elim
  obtain ⟨bytes, spells⟩ := spelled typed'
  have fresh := fresh_eq ready level.found
  have older : Older p p' (maxDepth + 2) 0 none t m.value m'.value := ⟨m, m', c, c', touched, rfl, rfl, level⟩
  have rebuilds : Rebuilds (decodeWith p none) _ 0 none bytes (Same p · m.value) :=
    older_rebuilds ready ready' valid comparable spelled older (show maxDepth + 1 < maxDepth + 2 + 0 by omega)
      (by omega) typed typed' spells.serialize fresh
  obtain ⟨_, ⟨w, cur⟩, run, same, -⟩ :=
    (rebuilds (by simpa using Cursor.before_ofBytes bytes) .message).exists_run
  exact ⟨m', bytes, w, parsed', spells.serialize, (parse_eq_ok_iff fresh).2 ⟨cur, run⟩, same.1, same.2⟩

/-- Everything is taken away from the message with a single number. -/
def olderProgram : Program := .ofFiles (countFiles.map (·.without fun _ _ => true))

lemma evaluated_older :
    ((Program.build (countFiles.map (·.without fun _ _ => true)) {}).isOk = true ∧ countProgram.arena.Uniform
      ∧ olderProgram.Clear ∧ olderProgram.arena.Regular ∧ olderProgram.Valid)
      ∧ (olderProgram.plan? 0).map (fun c => (c.isAny, c.slots)) = some (false, [])
      ∧ (parse olderProgram none 0 [0x08, 0x81, 0x80, 0, 0x78, 1, 0x08, 0x85, 0]
        >>= fun m => olderProgram.serialize m.value) = .ok [0x08, 0x81, 0x80, 0, 0x78, 1, 0x08, 0x85, 0] := by
  decide +kernel

/-- The number that is spelled with bytes to spare is unknown to the older reader, which keeps it so. -/
theorem parse_without_count :
    ∃ m m' w, parse countProgram none 0 [0x08, 0x81, 0x80, 0, 0x78, 1, 0x08, 0x85, 0] = .ok m
      ∧ Typed countProgram (.bounded countProgram) (fun _ => False) maxDepth 0 m.value
      ∧ parse olderProgram none 0 [0x08, 0x81, 0x80, 0, 0x78, 1, 0x08, 0x85, 0] = .ok m'
      ∧ Typed olderProgram (.short olderProgram) (fun _ => False) (maxDepth + 1) 0 m'.value
      ∧ olderProgram.serialize m'.value = .ok [0x08, 0x81, 0x80, 0, 0x78, 1, 0x08, 0x85, 0]
      ∧ parse countProgram none 0 [0x08, 0x81, 0x80, 0, 0x78, 1, 0x08, 0x85, 0] = .ok w
      ∧ equal countProgram w.value m.value = .ok true ∧ equal countProgram m.value w.value = .ok true := by
  obtain ⟨⟨able, regular, clear, comparable, valid⟩, -, written⟩ := evaluated_count
  obtain ⟨⟨able', uniform, clear', regular', valid'⟩, isPlan', written'⟩ := evaluated_older
  have built : Program.build countFiles {} = .ok countProgram := build_ofFiles able
  have built' : Program.build (countFiles.map (·.without fun _ _ => true)) {} = .ok olderProgram :=
    build_ofFiles able'
  have ready' : olderProgram.Ready none := ready_of_build built' regular' clear' (by simp)
  obtain ⟨m, parsed, -⟩ := bind_ok written
  have short : ∀ m', parse olderProgram none 0 [0x08, 0x81, 0x80, 0, 0x78, 1, 0x08, 0x85, 0] = .ok m' →
      Typed olderProgram (.short olderProgram) (fun _ => False) (maxDepth + 1) 0 m'.value :=
    fun _ parsed' => typed_of_scalars ready' valid' isPlan' (by simp) (fun _ _ _ => trivial) parsed'
  obtain ⟨m', bytes, w, parsed', serialized, reparsed, same⟩ :=
    parse_without built built' regular uniform clear clear' comparable valid parsed (bounded_count parsed) short
  rw [parsed'] at written'
  cases serialized.symm.trans written'
  exact ⟨m, m', w, parsed, bounded_count parsed, parsed', short m' parsed', serialized, reparsed, same⟩

/-- In a message there is a nested one that is called like a field, and another message refers to it. -/
def shadedFiles : List FileDecl :=
  [{ name := "a.proto", messages := [
    { name := "M", fields := [{ name := "__x_", number := 1, type := .int32 }], messages := [{ name := "__x_" }] },
    { name := "N", fields := [{ name := "f", number := 1, type := .message, typeName := ".M.__x_" }] }] }]

/-- Without the field, the nested message gets a private name, and is not found any more. -/
theorem parse_without_shaded :
    ∃ p p' m, Program.build shadedFiles {} = .ok p
      ∧ Program.build (shadedFiles.map (·.without fun path _ => path == "M")) {} = .ok p'
      ∧ p.arena.Regular ∧ p.arena.Uniform ∧ p.Clear ∧ p.Comparable ∧ p.Valid
      ∧ parse p none 2 [0x0a, 0] = .ok m ∧ parse p' none 2 [0x0a, 0] = .error .noAttribute := by
  obtain ⟨able, able', regular, uniform, clear, comparable, valid, reads, fault⟩ :
      (Program.build shadedFiles {}).isOk = true
        ∧ (Program.build (shadedFiles.map (·.without fun path _ => path == "M")) {}).isOk = true
        ∧ (Program.ofFiles shadedFiles).arena.Regular ∧ (Program.ofFiles shadedFiles).arena.Uniform
        ∧ (Program.ofFiles shadedFiles).Clear ∧ (Program.ofFiles shadedFiles).Comparable
        ∧ (Program.ofFiles shadedFiles).Valid ∧ (parse (.ofFiles shadedFiles) none 2 [0x0a, 0]).isOk = true
        ∧ (parse (.ofFiles (shadedFiles.map (·.without fun path _ => path == "M"))) none 2 [0x0a, 0]
          >>= fun _ => .ok ()) = .error .noAttribute := by decide +kernel
  obtain ⟨m, parsed⟩ := exists_of_isOk reads
  refine ⟨_, _, m, build_ofFiles able, build_ofFiles able', regular, uniform, clear, comparable, valid, parsed, ?_⟩
  cases run : parse (.ofFiles (shadedFiles.map (·.without fun path _ => path == "M"))) none 2 [0x0a, 0] with
  | ok =>
    rw [run] at fault
    cases fault
  | error =>
    rw [run] at fault
    cases fault
    rfl

end Missive
