import Missive.Proofs.Message.Serialize
import Missive.Proofs.Plan.Clear
import Missive.Proofs.Wire.Cursor

/-!
# Decoding anything

What decoding does with bytes that nobody wrote, by the plan of a class and whatever extensions are
known.

**Documented faults.**  Decoding ends with a message or finds the data malformed, or in conflict with
the member of a oneof that is set.  The message is typed as its class asks, so that nested data can be
merged into it, and nested data is decoded on allowed levels only: each step is proved for any decoder
of nested data that is fine on those levels, whatever it does elsewhere.

**Enough turns.**  A run of `decodeFields` has a turn for each byte.  It ends because the data does.
-/

namespace Missive

open Plan Schema List Decoding

variable {p : Program} {i slot : Nat} {v existing : Value} {type : FieldType} {e : Extension}

/-! ## Actions on a message and a cursor -/

section rules

variable {α : Type} {m : Content} {c : Cursor} {s : Content × Cursor} {Q : α → Content × Cursor → Prop}
  {U : PUnit → Content × Cursor → Prop} {E : Fault → Content × Cursor → Prop}

namespace Decoding

@[simp] lemma ends_reading {r : Reading α} :
    Ends (reading r) (m, c) Q E ↔ Ends r c (fun a c' => Q a (m, c')) (fun e c' => E e (m, c')) := by
  cases run : r c <;> simp [Ends, reading, run]

@[simp] lemma ends_content {Q : Content → Content × Cursor → Prop} :
    Ends content s Q E ↔ Q s.1 s := Iff.rfl

@[simp] lemma ends_update (f : Content → Content) : Ends (update f) s U E ↔ U ⟨⟩ (f s.1, s.2) := Iff.rfl

@[simp] lemma ends_raise_none : Ends (raise none) s U E ↔ U ⟨⟩ s := Iff.rfl

@[simp] lemma ends_raise_some (f : Fault) : Ends (raise (some f)) s U E ↔ E f s := Iff.rfl

@[simp] lemma ends_needList (items : List Value) : Ends (needList (.list items)) s U E ↔ U ⟨⟩ s := Iff.rfl

lemma ends_current {plan : ClassPlan} {Q : Value → Content × Cursor → Prop} (read : m.read p plan i = .ok v) :
    Ends (current p plan i) (m, c) Q E ↔ Q v (m, c) := by
  simp only [current, ends_bind, ends_content, read]
  rfl

lemma ends_store {plan : ClassPlan} {m' : Content} (written : m.write plan i v = .ok m') :
    Ends (store plan i v) (m, c) U E ↔ U ⟨⟩ (m', c) := by
  simp only [store, ends_bind, ends_content, written]
  rfl

end Decoding

@[simp] lemma Cursor.ends_ofExcept_ok {a : α} {Q : α → Cursor → Prop} {E : Fault → Cursor → Prop} :
    Ends (Cursor.ofExcept (.ok a)) c Q E ↔ Q a c := Iff.rfl

end rules

/-- The faults that decoding may end with: the data is malformed, or it sets a member of a oneof while
another one is set. -/
def Fault.isDecoding : Fault → Bool
  | malformed _ _ => true
  | conflictingOneof _ _ _ => true
  | _ => false

lemma Fault.isDecoding_of_isMalformed {f : Fault} (h : f.isMalformed = true) : f.isDecoding = true := by
  cases f <;> simp_all [isMalformed, isDecoding]

/-! ## What decoding asks for and keeps -/

/-- Does the decoder of a class keep fields of a number as unknown: is the number neither declared nor, if
it is in a range, that of a known extension? -/
def Program.Unheard (p : Program) (table : Option ExtensionTable) (t : TypeId) (number : Nat) : Prop :=
  ∀ c ∈ p.plan? t, (∀ d ∈ c.declared, d.number ≠ number)
    ∧ (c.ranges.contains number = true → ∀ known ∈ table, known.find? t number = none)

lemma Program.unheard {table : Option ExtensionTable} {t : TypeId} {c : ClassPlan} {number : Nat}
    (found : p.plan? t = some c) (undeclared : ∀ d ∈ c.declared, d.number ≠ number)
    (free : c.ranges.contains number = true → ∀ known ∈ table, known.find? t number = none) :
    p.Unheard table t number := by
  intro c' found'
  cases found.symm.trans found'
  exact ⟨undeclared, free⟩

/-- Rules that decoding keeps: they allow what can be read, what a new message holds and fields that
are not declared behind other unknown ones, and ask for nothing where data decides. -/
structure Rules.Decoded (p : Program) (table : Option ExtensionTable) (R : Rules) : Prop where
  sorts : ∀ type s, R.scalar type s → type.Sorts s
  gives : ∀ type s, type.isScalar = true → type.Gives s → R.scalar type s
  default : ∀ type, type.isScalar = true → R.scalar type type.default
  initial : ∀ t c slot f type s, p.plan? t = some c → Declared.field slot f ∈ c.declared →
    f.kind = .scalar type false s → R.scalar type s
  packed : ∀ type items, R.packed type items
  message : ∀ v, R.message v
  entry : ∀ key value messages e, R.entry key value messages e
  extension : ∀ t e v, R.extension t e v ↔ ∃ known ∈ table, known.find? t e.number = some e
  nothing : ∀ levels t, R.unknown levels t []
  unknown : ∀ levels t data (number : Nat) field, p.Unheard table t number →
    WireFields (levels - 1) [number] field → R.unknown levels t data → R.unknown levels t (data ++ field)

/-- A fault that decoding may end with, at a cursor that has only moved on. -/
def Faulty (c : Cursor) (e : Fault) (s : Content × Cursor) : Prop :=
  e.isDecoding = true ∧ c.Onward s.2

/-- Decoding of data with so many levels below it ends with a typed message, with nothing left unless
it was in a group, or with a fault that it may end with. -/
def Decodes (p : Program) (R : Rules) (content : Value → Prop) (levels : Nat) (decode : Decoding Unit) : Prop :=
  ∀ (t : TypeId) (m : Content) (c : Cursor), Typed p R content levels t m.value → c.Sound →
    c.depth + levels = maxDepth + 1 → Ends decode (m, c) (fun _ s => Typed p R content levels t s.1.value ∧ c.Onward s.2
          ∧ (c.group = none → s.2.rest = []))
        (Faulty c)

/-- Nested data is decoded well on the levels that a cursor allows below so many, whatever the decoder
does elsewhere. -/
def DecodesBelow (p : Program) (R : Rules) (content : Value → Prop) (levels : Nat) (decode : Decoding Unit) : Prop :=
  ∀ n, 0 < n → n < levels → Decodes p R content n decode

section total

variable {table : Option ExtensionTable} {R : Rules} {I : Inside} {content : Value → Prop} {t : TypeId}
  {c : ClassPlan} {m : Content} (ready : p.Ready table) (rules : R.Decoded p table)

/-! ## New messages -/

include rules in
/-- An unset field holds what its kind allows. -/
lemma fits_initial (found : p.plan? t = some c) {f : FieldPlan}
    (declared : Declared.field slot f ∈ c.declared) : f.kind.Fits R I f.kind.initial := by
  cases kind : f.kind with
  | scalar type presence default =>
    cases presence with
    | true => exact .inl ⟨rfl, rfl⟩
    | false => exact .inr ⟨default, rfl, rules.initial t c slot f type default found declared kind⟩
  | repeated type packed => exact ⟨[], rfl, by simp, fun _ => rules.packed _ _⟩
  | message => exact .inl rfl
  | repeatedMessage => exact ⟨[], rfl, by simp⟩
  | map => exact ⟨[], rfl, by simp, List.Pairwise.nil, by simp⟩

lemma fresh_of_born (found : p.plan? t = some c) (born : c.birthFault? = none) :
    Content.fresh p t = .ok { head := { type := t }, slots := c.freshSlots, extensions := [] } := by
  simp only [Content.fresh, Program.fresh, Program.freshSlots, found, Option.bind_some, born,
    Option.map_some, Option.getD_some]
  rfl

include ready in
lemma fresh_eq (found : p.plan? t = some c) :
    Content.fresh p t = .ok { head := { type := t }, slots := c.freshSlots, extensions := [] } :=
  fresh_of_born found (ready.clear.of_plan found).born

include ready rules in
/-- **New messages are typed.** -/
lemma fresh_fits (found : p.plan? t = some c) (I : Inside) : ∃ m, Content.fresh p t = .ok m ∧ m.Fits R I t c := by
  obtain ⟨-, s, resolved, planned⟩ := ready.planned found
  refine ⟨_, fresh_eq ready found, rfl, rfl, rfl, rules.nothing _ _, ?_, ?_, ?_, nodup_nil, by simp⟩
  · intro plain
    simp [ClassPlan.freshSlots, plain]
  · intro plain i plan slot
    have : (c.slots.map (·.initial)).getD i .none = plan.initial := by
      simp [getD_eq_getElem?_getD, slot]
    simp only [Content.slot, ClassPlan.freshSlots, plain, Bool.false_eq_true, if_false, this]
    obtain ⟨d, declared, rfl, rfl⟩ := planned.exists_declared resolved slot
    cases d with
    | field => exact fits_initial rules found declared
    | member => exact .inl rfl
  · intro isAny
    have slots : c.freshSlots = [.text "", .bytes [], .none] := by
      rw [ClassPlan.freshSlots, if_pos isAny, planned.anyNames_eq ready.regular isAny]
      rfl
    exact ⟨"", .bytes [], .none, slots, rules.default .string rfl, .inl ⟨[], rfl, rules.default .bytes rfl, .inl rfl⟩⟩

include ready rules in
lemma fresh_typed (found : p.plan? t = some c) (n : Nat) :
    ∃ m, Content.fresh p t = .ok m ∧ Typed p R content n t m.value := by
  obtain ⟨m, made, fits⟩ := fresh_fits ready rules found (inside p R content n)
  exact ⟨m, made, by rw [typed_eq]; exact ⟨c, m, found, rfl, fits⟩⟩

/-! ## Slots -/

namespace Content

variable {j : Nat} {w : Value}

lemma slot_setSlot (room : i < m.slots.length) : (m.setSlot i v).slot i = v := by
  simp [slot, setSlot, getD_eq_getElem?_getD, room]

lemma slot_setSlot_ne (other : i ≠ j) : (m.setSlot i v).slot j = m.slot j := by
  simp [slot, setSlot, getD_eq_getElem?_getD, other]

lemma setSlot_setSlot : (m.setSlot i v).setSlot i w = m.setSlot i w := by
  simp [setSlot]

end Content

variable {d : Declared} {k : Key} {entries : List (Key × Value)}

include ready in
/-- Only plain scalars are kept elsewhere than in a slot of their own. -/
lemma Content.Fits.read_eq (fits : m.Fits R I t c) (found : p.plan? t = some c) (declared : d ∈ c.declared)
    (parts : ∀ slot f type presence default, d = .field slot f → f.kind ≠ .scalar type presence default) :
    c.isAny = false ∧ m.read p c d.slot = .ok (m.slot d.slot) ∧ d.content.Fits R I t d.slot (m.slot d.slot) := by
  obtain ⟨-, s, resolved, planned⟩ := ready.planned found
  have plain : c.isAny = false := by
    by_contra isAny
    obtain ⟨url, value, whole, -, -, -, urlKind, -, -, valueKind⟩ :=
      planned.any_declared ready.regular (by simpa using isAny)
    rw [whole] at declared
    rcases mem_cons.1 declared with rfl | later
    · exact parts _ _ _ _ _ rfl urlKind
    · obtain rfl := mem_singleton.1 later
      exact parts _ _ _ _ _ rfl valueKind
  exact ⟨plain, by rw [Content.read, place_plain plain],
    fits.slots plain _ _ (planned.slot_of_declared resolved declared)⟩

lemma Content.Fits.setSlot (fits : m.Fits R I t c) (plain : c.isAny = false) {plan : SlotPlan}
    (slot : c.slots[i]? = some plan) (valueFits : plan.Fits R I t i v) :
    (m.setSlot i v).Fits R I t c where
  __ := fits
  length := fun plain => by rw [Content.setSlot, length_set, fits.length plain]
  slots := fun plain j other found => by
    have inside : j < m.slots.length := by
      rw [fits.length plain]
      exact (List.getElem?_eq_some_iff.1 found).1
    by_cases same : i = j
    · subst same
      cases slot.symm.trans found
      rwa [Content.slot_setSlot inside]
    · rw [Content.slot_setSlot_ne same]
      exact fits.slots plain j other found
  any := fun isAny => absurd (plain.symm.trans isAny) (by simp)

include ready rules in
/-- Storing what a field allows gives a message of the class. -/
lemma Content.Fits.exists_write (fits : m.Fits R I t c) (found : p.plan? t = some c)
    (declared : d ∈ c.declared) (valueFits : d.content.Fits R I t d.slot v) :
    ∃ m', m.write c d.slot v = .ok m' ∧ m'.Fits R I t c := by
  obtain ⟨-, s, resolved, planned⟩ := ready.planned found
  cases isAny : c.isAny with
  | false =>
    refine ⟨m.setSlot d.slot v, by rw [Content.write, place_plain isAny], ?_⟩
    exact fits.setSlot isAny (planned.slot_of_declared resolved declared) valueFits
  | true =>
    obtain ⟨url, value, whole, -, -, -, urlKind, -, -, valueKind⟩ :=
      planned.any_declared ready.regular isAny
    obtain ⟨first, second, -⟩ := planned.place_any ready.regular isAny
    obtain ⟨name, data, inner, slots, nameFits, rest⟩ := fits.any isAny
    have changed : ∀ {slots'}, AnyFits R I slots' → ({ m with slots := slots' } : Content).Fits R I t c :=
      fun anyFits => { fits with
        length := fun plain => absurd (isAny.symm.trans plain) (by simp)
        slots := fun plain => absurd (isAny.symm.trans plain) (by simp)
        any := fun _ => anyFits }
    rw [whole] at declared
    rcases mem_cons.1 declared with rfl | later
    · simp only [Declared.content, SlotPlan.Fits, urlKind, FieldKind.Fits] at valueFits
      obtain ⟨s, rfl, scalar⟩ := valueFits.resolve_left (by simp)
      obtain ⟨name', rfl⟩ := rules.sorts _ _ scalar
      refine ⟨m.setSlot 0 (.text name'), by rw [Content.write, Declared.slot, first], changed ?_⟩
      exact ⟨name', data, inner, by rw [slots]; rfl, scalar, rest⟩
    · obtain rfl := mem_singleton.1 later
      simp only [Declared.content, SlotPlan.Fits, valueKind, FieldKind.Fits] at valueFits
      obtain ⟨s, rfl, scalar⟩ := valueFits.resolve_left (by simp)
      obtain ⟨data', rfl⟩ := rules.sorts _ _ scalar
      refine ⟨(m.setSlot 1 (.bytes data')).setSlot 2 .none, ?_, changed ?_⟩
      · rw [Content.write, Declared.slot, second]
        rfl
      · exact ⟨name, .bytes data', .none, by simp [Content.setSlot, slots], nameFits,
          .inl ⟨data', rfl, scalar, .inl rfl⟩⟩

/-! ## Nested data -/

/-- What stands in its place after nested data was decoded. -/
structure Placed.Fine (fits : Value → Prop) (placed : Placed) : Prop where
  value : placed.fault = none → fits placed.value
  fault : ∀ e, placed.fault = some e → e.isDecoding = true

variable {decode : Decoding Unit} {levels number : Nat} {cur : Cursor}

include ready rules in
/-- There is a message to decode nested data into. -/
lemma exists_nestedTarget (known : (p.plan? t).isSome = true)
    (there : existing = .none ∨ (inside p R content levels).nested t existing) :
    ∃ start, nestedTarget p (.type t) existing = .ok start ∧ Typed p R content (levels - 1) t start.value := by
  rcases there with rfl | ⟨n, rfl, typed⟩
  · obtain ⟨c, found⟩ := Option.isSome_iff_exists.1 known
    exact fresh_typed ready rules found _
  · rw [Nat.add_sub_cancel]
    rw [typed_eq] at typed ⊢
    obtain ⟨c, m, found, rfl, fits⟩ := typed
    exact ⟨m, rfl, c, m, found, rfl, fits⟩

lemma runNested_spec (decodes : Decodes p R content levels decode) {start : Content}
    (typed : Typed p R content levels t start.value) (existing : Value) (sound : cur.Sound)
    (deep : cur.depth + levels = maxDepth + 1) :
    (runNested decode existing start cur).1.Fine (Typed p R content levels t)
      ∧ cur.Onward (runNested decode existing start cur).2 := by
  have ends := decodes t start cur typed sound deep
  unfold Ends at ends
  unfold runNested
  cases run : decode (start, cur) with
  | ok =>
    rw [run] at ends
    exact ⟨⟨fun _ => ends.1, by simp⟩, ends.2.1⟩
  | error =>
    rw [run] at ends
    exact ⟨⟨by simp, by simpa using ends.1⟩, ends.2⟩

lemma Cursor.sound_entered (rest : Bytes) (depth : Nat) (group : Option Nat) :
    Cursor.Sound { rest, depth, group } := ⟨by simp, by simp⟩

section

variable (standing : cur.Standing number)
  (deep : cur.depth + levels = maxDepth + 1) (nested : DecodesBelow p R content levels decode)
  (known : (p.plan? t).isSome = true) (there : existing = .none ∨ (inside p R content levels).nested t existing)

include ready rules standing deep nested known there

lemma decodeMessageField_spec :
    Ends (decodeMessageField p decode (.type t) existing) cur
      (fun placed cur' => placed.Fine ((inside p R content levels).nested t) ∧ cur.Moved cur')
      cur.Failed := by
  simp only [decodeMessageField, ends_bind, ends_pure]
  refine (Cursor.take_spec standing _).mono ?_ (fun _ _ failed => failed)
  rintro - cur' ⟨-, -, rfl⟩
  have claimed := standing.claimed
  refine (Cursor.payload_spec claimed.toSound).mono ?_ fun _ _ failed => failed.trans claimed.toOnward
  rintro payload cur' moved
  replace moved := moved.trans claimed.toOnward
  obtain ⟨start, target, typed⟩ := exists_nestedTarget ready rules known there
  simp only [target, Cursor.ends_ofExcept_ok]
  refine (Cursor.enter_spec _ _ _).mono ?_ fun _ _ failed => failed.trans moved.toOnward
  rintro inner cur'' ⟨rfl, allowed, rfl⟩
  have depth := moved.depth
  obtain ⟨fine, -⟩ := runNested_spec (nested (levels - 1) (by omega) (by omega)) typed existing
    (Cursor.sound_entered payload (cur''.depth + 1) none) (by simp only; omega)
  exact ⟨⟨fun ok => ⟨levels - 1, by omega, fine.value ok⟩, fine.fault⟩, moved⟩

/-- A group shares the bytes of the message around it. -/
lemma decodeGroupField_spec :
    Ends (decodeGroupField p decode (.type t) existing) cur
      (fun placed cur' => placed.Fine ((inside p R content levels).nested t) ∧ cur.Moved cur')
      cur.Failed := by
  simp only [decodeGroupField, ends_bind, ends_get]
  refine (Cursor.take_spec standing _).mono ?_ (fun _ _ failed => failed)
  rintro - cur' ⟨-, -, rfl⟩
  have claimed := standing.claimed
  refine (Cursor.enter_spec _ _ _).mono ?_ fun _ _ failed => failed.trans claimed.toOnward
  rintro inner cur'' ⟨rfl, allowed, rfl⟩
  obtain ⟨start, target, typed⟩ := exists_nestedTarget ready rules known there
  simp only [target, Cursor.ends_ofExcept_ok]
  simp only at allowed
  obtain ⟨fine, onward⟩ := runNested_spec (nested (levels - 1) (by omega) (by omega)) typed existing
    (Cursor.sound_entered cur.rest (cur.depth + 1) cur.field) (by simp only; omega)
  have placed : (runNested decode existing start
      { rest := cur.rest, depth := cur.depth + 1, group := cur.field }).1.Fine ((inside p R content levels).nested t) :=
    ⟨fun ok => ⟨levels - 1, by omega, fine.value ok⟩, fine.fault⟩
  simp only [ends_ite, ends_set, ends_pure, ends_bind]
  split
  · exact ⟨placed, ⟨onward.rest, rfl, rfl⟩, standing.wire, standing.ended⟩
  · exact ⟨placed, claimed⟩

lemma decodeNested_spec (group : Bool) :
    Ends (decodeNested p decode group (.type t) existing) cur
      (fun placed cur' => placed.Fine ((inside p R content levels).nested t) ∧ cur.Moved cur')
      cur.Failed := by
  simp only [decodeNested, Meaning.evaluated, ends_bind, Cursor.ends_ofExcept_ok, ends_ite]
  split
  · exact decodeGroupField_spec ready rules standing deep nested known there
  · exact decodeMessageField_spec ready rules standing deep nested known there

end

/-! ## Maps -/

/-- What decoding the values of a map gives, in entries with so many levels below them. -/
inductive MapValue.Gives (p : Program) (R : Rules) (content : Value → Prop) (levels : Nat) :
    MapValue → (Value → Prop) → Prop
  | scalar {type : FieldType} (scalar : type.isScalar = true) :
      MapValue.Gives p R content levels (.scalar type) (R.Holds type)
  | message {t : TypeId} (known : (p.plan? t).isSome = true) :
      MapValue.Gives p R content levels (.message (.type t)) ((inside p R content levels).nested t)

variable {key : FieldType} {value : MapValue} {fits : Value → Prop}

include ready rules in
/-- The key and value of an entry stay what they may be, whatever fields it has. -/
lemma decodeEntry_spec (sound : cur.Sound) (deep : cur.depth + levels = maxDepth + 1)
    (nested : DecodesBelow p R content levels decode)
    (scalarKey : key.isScalar = true) (gives : value.Gives p R content levels fits) (turns : Nat)
    {s : EntryState} (keyFits : R.scalar key s.key) (valueFits : s.value = .none ∨ fits s.value) :
    Ends (decodeEntry p decode key value turns s) cur
      (fun s' _ => R.scalar key s'.key ∧ (s'.value = .none ∨ fits s'.value))
      (fun e _ => e.isDecoding = true) := by
  induction turns generalizing cur s with
  | zero => exact ⟨keyFits, valueFits⟩
  | succ turns ih =>
    have malformed : ∀ {cur : Cursor} e cur', cur.Failed e cur' → e.isDecoding = true :=
      fun e cur' failed => Fault.isDecoding_of_isMalformed failed.malformed
    simp only [decodeEntry, ends_bind]
    refine (Cursor.next_spec sound).mono (fun found cur' advanced => ?_) malformed
    cases found with
    | none => exact ⟨keyFits, valueFits⟩
    | some =>
      obtain ⟨-, -, standing, onward, -⟩ := advanced
      have deep' : cur'.depth + levels = maxDepth + 1 := by
        rw [onward.depth]
        exact deep
      have later : ∀ {cur'' : Cursor} {s' : EntryState}, cur'.Moved cur'' → R.scalar key s'.key →
          (s'.value = .none ∨ fits s'.value) →
          Ends (decodeEntry p decode key value turns s') cur''
            (fun s' _ => R.scalar key s'.key ∧ (s'.value = .none ∨ fits s'.value))
            (fun e _ => e.isDecoding = true) :=
        fun moved => ih moved.toSound (by rw [moved.depth]; exact deep')
      split
      · simp at *
      · simp only [ends_bind]
        refine (Cursor.singular_spec standing scalarKey).mono (fun k cur'' h => ?_) malformed
        exact later h.2 (rules.gives _ _ scalarKey h.1) valueFits
      · cases gives with
        | scalar scalar =>
          simp only [ends_bind]
          refine (Cursor.singular_spec standing scalar).mono (fun v cur'' h => ?_) malformed
          exact later h.2 keyFits (.inr ⟨v, rfl, rules.gives _ _ scalar h.1⟩)
        | message known =>
          simp only [ends_bind]
          refine (decodeMessageField_spec ready rules standing deep' nested known valueFits).mono
            (fun placed cur'' h => ?_) malformed
          cases fault : placed.fault with
          | some f => exact h.1.fault f fault
          | none => exact later h.2 keyFits (.inr (h.1.value fault))
      · exact later ⟨.refl _, standing.toSound⟩ keyFits valueFits

lemma fresh_eq_value (made : Content.fresh p t = .ok m) : p.fresh t = .ok m.value := by
  obtain ⟨v, fresh, is⟩ := bind_ok made
  rw [fresh]
  unfold Content.ofValue at is
  cases v <;> simp only [Content.ofValue?, Option.map_none, Option.getD_none, reduceCtorEq] at is
  cases is
  rfl

include ready rules in
lemma decodeMapField_spec (standing : cur.Standing number) (deep : cur.depth + levels = maxDepth + 1)
    (nested : DecodesBelow p R content levels decode) (scalarKey : key.isScalar = true)
    (gives : value.Gives p R content (levels - 1) fits) :
    Ends (decodeMapField p decode key value) cur
      (fun e cur' => (∃ s, e.1 = .scalar s ∧ R.scalar key s) ∧ fits e.2 ∧ 1 ≤ levels ∧ cur.Moved cur')
      (fun e cur' => e.isDecoding = true ∧ cur.Onward cur') := by
  have malformed : ∀ {cur' : Cursor}, cur.Onward cur' → ∀ e cur'', cur'.Failed e cur'' →
      e.isDecoding = true ∧ cur.Onward cur'' := fun onward e cur'' failed =>
    ⟨Fault.isDecoding_of_isMalformed failed.malformed, onward.trans failed.toOnward⟩
  simp only [decodeMapField, ends_bind]
  refine (Cursor.take_spec standing _).mono ?_ (malformed (.refl _))
  rintro - cur' ⟨-, -, rfl⟩
  have claimed := standing.claimed
  refine (Cursor.payload_spec claimed.toSound).mono ?_ (malformed claimed.toOnward)
  rintro payload cur' moved
  replace moved := moved.trans claimed.toOnward
  refine (Cursor.enter_spec _ _ _).mono ?_ (malformed moved.toOnward)
  rintro inner cur'' ⟨rfl, allowed, rfl⟩
  have depth := moved.depth
  have ends := decodeEntry_spec ready rules (Cursor.sound_entered payload (cur''.depth + 1) none)
    (show cur''.depth + 1 + (levels - 1) = maxDepth + 1 by omega)
    (fun n positive less => nested n positive (by omega)) scalarKey gives (payload.length + 1)
    (s := { key := key.default }) (rules.default key scalarKey) (.inl rfl)
  unfold Ends at ends
  split
  · rename_i e _ run
    rw [run] at ends
    exact ⟨ends, moved.toOnward⟩
  · rename_i s _ run
    rw [run] at ends
    obtain ⟨keyFits, valueFits⟩ := ends
    simp only [ends_ite, ends_pure]
    split
    · rename_i present
      refine ⟨⟨_, rfl, keyFits⟩, valueFits.resolve_left ?_, by omega, moved⟩
      rintro absent
      rw [absent] at present
      exact absurd present (by decide)
    · cases gives with
      | scalar scalar =>
        exact ⟨⟨_, rfl, keyFits⟩, ⟨_, rfl, rules.default _ scalar⟩, by omega, moved⟩
      | @message t known =>
        obtain ⟨c, found⟩ := Option.isSome_iff_exists.1 known
        obtain ⟨m, made, typed⟩ : ∃ m, Content.fresh p t = .ok m
            ∧ Typed p R content (levels - 2) t m.value := fresh_typed ready rules found _
        have fresh : (do p.fresh (← Meaning.toClass (.type t))) = .ok m.value := fresh_eq_value made
        simp only [fresh, ends_bind, Cursor.ends_ofExcept_ok, ends_pure]
        exact ⟨⟨_, rfl, keyFits⟩, ⟨levels - 2, by omega, typed⟩, by omega, moved⟩

/-! ## Fields -/

lemma mem_putEntry {e : Key × Value} (member : e ∈ putEntry k v entries) :
    e ∈ entries ∨ e.2 = v ∧ (e.1 = k ∨ ∃ old ∈ entries, e.1 = old.1) := by
  induction entries with
  | nil =>
    obtain rfl := mem_singleton.1 member
    exact .inr ⟨rfl, .inl rfl⟩
  | cons first rest ih =>
    simp only [putEntry] at member
    split at member
    · rcases mem_cons.1 member with rfl | later
      · exact .inr ⟨rfl, .inr ⟨_, .head _, rfl⟩⟩
      · exact .inl (.tail _ later)
    · rcases mem_cons.1 member with rfl | later
      · exact .inl (.head _)
      · rcases ih later with old | ⟨value, rfl | ⟨old, inside, key⟩⟩
        · exact .inl (.tail _ old)
        · exact .inr ⟨value, .inl rfl⟩
        · exact .inr ⟨value, .inr ⟨old, .tail _ inside, key⟩⟩

/-- Keys stay distinct when a value is stored under one. -/
lemma pairwise_putEntry (distinct : entries.Pairwise fun a b => a.1.equal b.1 = false) :
    (putEntry k v entries).Pairwise fun a b => a.1.equal b.1 = false := by
  induction entries with
  | nil => exact pairwise_singleton _ _
  | cons first rest ih =>
    obtain ⟨others, distinct⟩ := pairwise_cons.1 distinct
    simp only [putEntry]
    split
    · exact pairwise_cons.2 ⟨others, distinct⟩
    · rename_i differs
      refine pairwise_cons.2 ⟨fun e member => ?_, ih distinct⟩
      rcases mem_putEntry member with old | ⟨-, key | ⟨old, inside, key⟩⟩
      · exact others e old
      · rw [key]
        simpa using differs
      · rw [key]
        exact others old inside

/-- Scalars are added only to a list, which is there. -/
lemma decodeScalars_spec (scalar : type.isScalar = true) (standing : cur.Standing number) (items : List Value) :
    Ends (decodeScalars type (.list items)) (m, cur)
      (fun taken s => s.1 = m ∧ taken.Sound type ∧ cur.Moved s.2) (Faulty cur) := by
  have taken : Ends (Cursor.repeated type) cur (fun taken cur' => taken.Sound type ∧ cur.Moved cur')
      (fun e cur' => Faulty cur e (m, cur')) :=
    (Cursor.repeated_spec standing scalar).mono (fun _ _ h => h) fun _ _ failed =>
      ⟨Fault.isDecoding_of_isMalformed failed.malformed, failed.toOnward⟩
  simp only [decodeScalars, ends_bind, ends_ite, ends_needList, ends_reading, ends_pure, ite_self]
  exact taken.mono (fun _ _ h => ⟨trivial, h⟩) fun _ _ h => h

include rules in
lemma scalarsFit_append (scalar : type.isScalar = true) {taken : Taken} (sound : taken.Sound type)
    {items : List Value} (all : ∀ x ∈ items, R.Holds type x) (packed : Bool) :
    ScalarsFit R type packed (.list (items ++ taken.values.map Value.scalar)) := by
  refine ⟨_, rfl, fun x member => ?_, fun _ => rules.packed _ _⟩
  rcases mem_append.1 member with old | new
  · exact all x old
  · obtain ⟨s, inside, rfl⟩ := mem_map.1 new
    exact ⟨s, rfl, rules.gives _ _ scalar (sound.values s inside)⟩

include rules in
lemma messagesFit_append {group : Bool} {items : List Value} (all : ∀ x ∈ items, MessageFits R I group t x)
    (fits : I.nested t v) : MessagesFit R I group t (.list (items ++ [v])) := by
  refine ⟨_, rfl, fun x member => ?_⟩
  rcases mem_append.1 member with old | new
  · exact all x old
  · obtain rfl := mem_singleton.1 new
    exact ⟨fits, fun _ => rules.message _⟩

/-- A typed message and a cursor at one of its fields. -/
structure AtField (p : Program) (R : Rules) (content : Value → Prop) (levels : Nat) (t : TypeId)
    (c : ClassPlan) (number : Nat) (m : Content) (cur : Cursor) : Prop where
  found : p.plan? t = some c
  fits : m.Fits R (inside p R content levels) t c
  standing : cur.Standing number
  deep : cur.depth + levels = maxDepth + 1

/-- A typed message and a cursor that has moved on. -/
def Decoded (p : Program) (R : Rules) (content : Value → Prop) (levels : Nat) (t : TypeId)
    (c : ClassPlan) (cur : Cursor) (s : Content × Cursor) : Prop :=
  s.1.Fits R (inside p R content levels) t c ∧ cur.Moved s.2

/-- From a field, an action leaves a typed message, unless it ends with a fault that decoding may end with. -/
abbrev AtField.Leaves {α : Type} (_ : AtField p R content levels t c number m cur) (x : Decoding α) : Prop :=
  Ends x (m, cur) (fun _ => Decoded p R content levels t c cur) (Faulty cur)

lemma Cursor.Failed.faulty {e : Fault} {cur' : Cursor} (failed : cur.Failed e cur') (m : Content) :
    Faulty cur e (m, cur') :=
  ⟨Fault.isDecoding_of_isMalformed failed.malformed, failed.toOnward⟩

section field

variable {f : FieldPlan} {locals : Locals}
  (here : AtField p R content levels t c number m cur) (declared : Declared.field slot f ∈ c.declared)
  (leads : f.kind.Leads p (locals.map (·.1))) (nested : DecodesBelow p R content levels decode)

include ready here declared

include rules in
lemma decodeField_scalar {presence : Bool} {default : Scalar} (kind : f.kind = .scalar type presence default)
    (scalar : type.isScalar = true) :
    here.Leaves (decodeField p decode locals c f slot) := by
  simp only [decodeField, kind, ends_bind, ends_reading]
  refine (Cursor.singular_spec here.standing scalar).mono ?_ fun e cur' failed => failed.faulty m
  rintro v cur' ⟨gives, moved⟩
  have valueFits : f.kind.Fits R (inside p R content levels) (.scalar v) := by
    rw [kind]
    exact .inr ⟨v, rfl, rules.gives _ _ scalar gives⟩
  obtain ⟨m', written, fits'⟩ := here.fits.exists_write ready rules here.found declared valueFits
  exact (ends_store written).2 ⟨fits', moved⟩

/-- The slot of a field with parts, and storing another value in it. -/
lemma AtField.readWrite (parts : ∀ type presence default, f.kind ≠ .scalar type presence default) :
    m.read p c slot = .ok (m.slot slot) ∧ f.kind.Fits R (inside p R content levels) (m.slot slot)
      ∧ ∀ v, m.write c slot v = .ok (m.setSlot slot v) ∧ (f.kind.Fits R (inside p R content levels) v →
          (m.setSlot slot v).Fits R (inside p R content levels) t c) := by
  obtain ⟨-, s, resolved, planned⟩ := ready.planned here.found
  obtain ⟨plain, read, valueFits⟩ := here.fits.read_eq ready here.found declared
    (by rintro _ _ _ _ _ ⟨⟩; exact parts _ _ _)
  refine ⟨read, valueFits, fun v => ⟨by rw [Content.write, place_plain plain], fun fits => ?_⟩⟩
  exact here.fits.setSlot plain (planned.slot_of_declared resolved declared) fits

include rules in
lemma decodeField_repeated {packed : Bool} (kind : f.kind = .repeated type packed) (scalar : type.isScalar = true) :
    here.Leaves (decodeField p decode locals c f slot) := by
  obtain ⟨read, current, write⟩ := here.readWrite ready declared (by simp [kind])
  rw [kind] at current write
  obtain ⟨items, is, all, -⟩ := current
  rw [is] at read
  simp only [decodeField, kind, ends_bind, ends_current read]
  refine (decodeScalars_spec scalar here.standing items).mono ?_ fun _ _ faulty => faulty
  rintro taken ⟨m', cur'⟩ ⟨rfl, sound, moved⟩
  simp only [Value.isList, if_true, Value.extend, ends_bind, ends_store (write _).1]
  cases fault : taken.fault with
  | none => exact ⟨(write _).2 (scalarsFit_append rules scalar sound all packed), moved⟩
  | some e => exact ⟨Fault.isDecoding_of_isMalformed (sound.fault e fault), moved.toOnward⟩

include rules leads nested in
lemma decodeField_message {group : Bool} {ref : ClassRef} (kind : f.kind = .message group ref) :
    here.Leaves (decodeField p decode locals c f slot) := by
  obtain ⟨read, current, write⟩ := here.readWrite ready declared (by simp [kind])
  rw [kind] at current write leads
  simp only [decodeField, kind, ends_bind, ends_reading, ends_current read, leads.meaning]
  have there : m.slot slot = .none ∨ (inside p R content levels).nested ref.target (m.slot slot) :=
    current.imp id (·.1)
  refine (decodeNested_spec ready rules here.standing here.deep nested leads.2.2 there group).mono ?_
    fun e cur' failed => failed.faulty m
  rintro placed cur' ⟨fine, moved⟩
  simp only [ends_ite, ends_bind, ends_store (write _).1]
  cases fault : placed.fault with
  | none =>
    simp only [Option.isNone_none, Bool.true_or, if_true]
    exact ⟨(write _).2 (.inr ⟨fine.value fault, fun _ => rules.message _⟩), moved⟩
  | some e =>
    have faulty : ∀ m', Faulty cur e (m', cur') := fun m' => ⟨fine.fault e fault, moved.toOnward⟩
    split
    · exact faulty _
    · exact faulty _

include rules leads nested in
lemma decodeField_repeatedMessage {group : Bool} {ref : ClassRef} (kind : f.kind = .repeatedMessage group ref) :
    here.Leaves (decodeField p decode locals c f slot) := by
  obtain ⟨read, current, write⟩ := here.readWrite ready declared (by simp [kind])
  rw [kind] at current write leads
  obtain ⟨items, is, all⟩ := current
  rw [is] at read
  simp only [decodeField, kind, ends_bind, ends_reading, ends_current read,
    Cursor.ends_ofExcept_ok, leads.meaning, Meaning.evaluated, ends_needList]
  refine (decodeNested_spec ready rules here.standing here.deep nested leads.2.2 (.inl rfl) group).mono
    ?_ fun e cur' failed => failed.faulty m
  rintro placed cur' ⟨fine, moved⟩
  cases fault : placed.fault with
  | none =>
    simp only [ends_raise_none, Value.extend, ends_store (write _).1]
    exact ⟨(write _).2 (messagesFit_append rules all (fine.value fault)), moved⟩
  | some e => exact ⟨fine.fault e fault, moved.toOnward⟩

include rules leads nested in
lemma decodeField_map {key value : FieldType} {ref : Option ClassRef}
    (kind : f.kind = .map key value ref) (coded : (FieldKind.map key value ref).IsCoded) :
    here.Leaves (decodeField p decode locals c f slot) := by
  obtain ⟨read, current, write⟩ := here.readWrite ready declared (by simp [kind])
  rw [kind] at current write leads
  obtain ⟨entries, is, -, distinct, all⟩ := current
  -- What an entry that was read does to the map.
  have put : ∀ {k v cur'}, EntryFits R (inside p R content levels) key value ref (k, v) → 1 ≤ levels → cur.Moved cur' →
      Decoded p R content levels t c cur (m.setSlot slot (.map false (putEntry k v entries)), cur') := by
    rintro k v cur' ⟨keyFits, valueFits, -⟩ room moved
    refine ⟨(write _).2 ⟨_, rfl, fun _ => room, pairwise_putEntry distinct, fun e member => ?_⟩, moved⟩
    rcases mem_putEntry member with old | ⟨rfl, rfl | ⟨old, inside, same⟩⟩
    · exact all e old
    · exact ⟨keyFits, valueFits, rules.entry _ _ _ _⟩
    · exact ⟨same ▸ (all old inside).1, valueFits, rules.entry _ _ _ _⟩
  rw [is] at read
  simp only [decodeField, kind, ends_bind, ends_current read]
  cases ref with
  | none =>
    have gives : MapValue.Gives p R content (levels - 1) (.scalar value) (R.Holds value) :=
      .scalar coded.2
    simp only [ends_bind, ends_pure, ends_reading]
    refine (decodeMapField_spec ready rules here.standing here.deep nested coded.1 gives).mono ?_
      fun _ _ faulty => faulty
    rintro ⟨k, v⟩ cur' ⟨keyFits, valueFits, room, moved⟩
    simp only [Value.putKey, Cursor.ends_ofExcept_ok, ends_store (write _).1]
    exact put ⟨keyFits, valueFits, rules.entry _ _ _ _⟩ room moved
  | some r =>
    have leads : r.Leads p (locals.map (·.1)) := leads r rfl
    have gives : MapValue.Gives p R content (levels - 1) (.message (.type r.target))
        ((inside p R content (levels - 1)).nested r.target) := .message leads.2.2
    simp only [leads.meaning, Meaning.evaluated, ends_bind, ends_reading,
      Cursor.ends_ofExcept_ok, ends_pure, MapValue.ofMeaning]
    refine (decodeMapField_spec ready rules here.standing here.deep nested coded.1 gives).mono ?_
      fun _ _ faulty => faulty
    rintro ⟨k, v⟩ cur' ⟨keyFits, ⟨n, level, typed⟩, room, moved⟩
    simp only [Value.putKey, Cursor.ends_ofExcept_ok, ends_store (write _).1]
    exact put ⟨keyFits, ⟨⟨n, by omega, typed⟩, rules.message _⟩, rules.entry _ _ _ _⟩ room moved

include rules leads nested in
/-- **Fields.**  Decoding a field that is in no oneof leaves a typed message. -/
lemma decodeField_spec (coded : f.kind.IsCoded) :
    here.Leaves (decodeField p decode locals c f slot) := by
  cases kind : f.kind with
  | scalar =>
    exact decodeField_scalar ready rules here declared kind (by rw [kind] at coded; exact coded)
  | repeated =>
    exact decodeField_repeated ready rules here declared kind (by rw [kind] at coded; exact coded)
  | message => exact decodeField_message ready rules here declared leads nested kind
  | repeatedMessage =>
    exact decodeField_repeatedMessage ready rules here declared leads nested kind
  | map =>
    exact decodeField_map ready rules here declared leads nested kind (kind ▸ coded)

end field

/-! ## Oneofs -/

/-- A case can be made for every member of a oneof. -/
lemma checkMember_of_member (members : p.members = []) (found : p.plan? t = some c) {o : OneofPlan}
    (isOneof : c.slots[slot]? = some (.oneof o)) {number : Int} {member : MemberPlan}
    (isMember : o.member? number = some member) :
    p.checkMember { owner := t, slot, number := .int number } = .ok () := by
  obtain ⟨inside, rfl⟩ := member?_eq_some isMember
  have names : p.memberNames { owner := t, slot, number := .int member.number } = o.memberNames := by
    simp [Program.memberNames, Program.oneof?, members, found, isOneof]
  have known : (atKey? (.scalar (.int member.number)) o.memberNames).isSome = true := by
    rw [atKey?, Option.isSome_map, find?_isSome]
    refine ⟨(.scalar (.int member.number), .text member.name), ?_, by simp [Key.equal, Scalar.equal, Scalar.int?]⟩
    exact mem_map.2 ⟨member, (mem_sortBy _).2 inside, rfl⟩
  rw [Program.checkMember, names, if_pos known]

section oneof

variable {o : OneofPlan} {member : MemberPlan} {first : Bool} (here : AtField p R content levels t c number m cur)
  (declared : Declared.member slot o member first ∈ c.declared)
  (nested : DecodesBelow p R content levels decode)

omit here in
include ready declared in
lemma checkMember_declared (found : p.plan? t = some c) :
    p.checkMember { owner := t, slot, number := .int member.number } = .ok () := by
  obtain ⟨-, s, resolved, planned⟩ := ready.planned found
  obtain ⟨-, -, -, -, isMember⟩ := planned.oneof_of_member declared
  exact checkMember_of_member ready.members found (planned.slot_of_declared resolved declared) isMember

include ready here declared

/-- The slot of a oneof, and the plan of a member of it. -/
lemma AtField.readOneof :
    c.isAny = false ∧ m.read p c slot = .ok (m.slot slot)
      ∧ (SlotPlan.oneof o).Fits R (inside p R content levels) t slot (m.slot slot)
      ∧ c.slots[slot]? = some (.oneof o) ∧ o.member? member.number = some member := by
  obtain ⟨-, s, resolved, planned⟩ := ready.planned here.found
  obtain ⟨plain, read, current⟩ := here.fits.read_eq ready here.found declared (by rintro _ _ _ _ _ ⟨⟩)
  obtain ⟨-, -, -, -, found⟩ := planned.oneof_of_member declared
  exact ⟨plain, read, current, planned.slot_of_declared resolved declared, found⟩

include rules nested in
/-- The value of a member is decoded into what is there under its number. -/
lemma decodeMember_spec {current : Value} (coded : member.kind.IsCoded)
    (there : existing = .none ∨ member.kind.Fits R (inside p R content levels) existing) :
    Ends (decodeMember p decode (o.decoderLocals current.caseLocal) member existing) cur
      (fun placed cur' => placed.Fine (member.kind.Fits R (inside p R content levels))
        ∧ cur.Moved cur') cur.Failed := by
  have leads : member.kind.Leads p ((o.decoderLocals current.caseLocal).map (·.1)) :=
    o.map_decoderLocals _ ▸ (ready.clear.of_plan here.found).declared _ declared
  unfold decodeMember
  cases kind : member.kind with
  | scalar =>
    rw [kind] at coded
    simp only [ends_bind, ends_pure]
    refine (Cursor.singular_spec here.standing coded).mono (fun v cur' h => ?_) fun _ _ failed => failed
    exact ⟨⟨fun _ => ⟨v, rfl, rules.gives _ _ coded h.1⟩, by simp⟩, h.2⟩
  | message group ref decodeRef =>
    rw [kind] at coded there leads
    have target : ref.target = decodeRef.target := coded
    simp only [leads.meaning]
    refine (decodeNested_spec ready rules here.standing here.deep nested leads.2.2
      (there.imp id fun h => target ▸ h.1) group).mono ?_ fun _ _ failed => failed
    rintro placed cur' ⟨fine, moved⟩
    exact ⟨⟨fun ok => ⟨target ▸ fine.value ok, fun _ => rules.message _⟩, fine.fault⟩, moved⟩
  | entry =>
    rw [kind] at coded
    exact coded.elim

/-- What is there under the number of a member. -/
lemma AtField.exists_existing :
    ∃ existing, member.existing (m.slot slot) = .ok existing
      ∧ (existing = .none ∨ member.kind.Fits R (inside p R content levels) existing) := by
  obtain ⟨-, -, current, -, found⟩ := here.readOneof ready declared
  unfold MemberPlan.existing
  split
  · rcases current with is | ⟨active, member', origin, x, is, found', fits'⟩
    · exact ⟨.none, by rw [is]; rfl, .inl rfl⟩
    · by_cases same : active = member.number
      · subst same
        cases found'.symm.trans found
        exact ⟨x, by simp [is, Value.caseValue, Scalar.equal, Scalar.int?], .inr fits'⟩
      · exact ⟨.none, by simp [is, Value.caseValue, Scalar.equal, Scalar.int?, same], .inl rfl⟩
  · exact ⟨.none, rfl, .inl rfl⟩

/-- What was decoded becomes the case, unless another member is set. -/
lemma placeCase_spec {cur' : Cursor} (moved : cur.Moved cur') {placed : Placed}
    (fine : placed.Fine (member.kind.Fits R (inside p R content levels))) :
    Ends (placeCase p c o slot { owner := t, slot, number := .int member.number } member.number
        (m.slot slot) existing placed) (m, cur')
      (fun _ => Decoded p R content levels t c cur) (Faulty cur) := by
  obtain ⟨plain, -, current, there, found⟩ := here.readOneof ready declared
  have write : ∀ v, m.write c slot v = .ok (m.setSlot slot v) := fun v => by
    rw [Content.write, place_plain plain]
  have checked : faultOf? (p.checkMember { owner := t, slot, number := .int member.number }) = none := by
    rw [checkMember_declared ready declared here.found]
    rfl
  unfold placeCase
  rw [checked]
  cases fault : placed.fault with
  | some e =>
    have faulty : ∀ m', Faulty cur e (m', cur') := fun m' => ⟨fine.fault e fault, moved.toOnward⟩
    simp only [Option.orElse_eq_orElse, Option.orElse_some]
    split
    · simp only [ends_bind, ends_ite, ends_store (write _), ends_throw]
      split
      · exact faulty _
      · exact faulty _
    · exact faulty _
  | none =>
    have set : Decoded p R content levels t c cur (m.setSlot slot
        (.case { owner := t, slot, number := .int member.number } placed.value []), cur') := by
      refine ⟨here.fits.setSlot plain there (.inr ?_), moved⟩
      exact ⟨member.number, member, none, placed.value, rfl, found, fine.value fault⟩
    simp only [Option.orElse_eq_orElse, Option.orElse_none, ends_bind, ends_reading]
    rcases current with is | ⟨active, member', origin, x, is, -, -⟩
    · simp only [is, Value.caseNumber?, Cursor.ends_ofExcept_ok, ends_store (write _)]
      exact set
    · simp only [is, Value.caseNumber?, Cursor.ends_ofExcept_ok, ends_ite, ends_bind, ends_throw, ends_store (write _)]
      split
      · exact ⟨rfl, moved.toOnward⟩
      · exact set

include rules nested in
/-- **Oneofs.**  Decoding a member leaves a typed message, unless another member is set. -/
lemma decodeOneof_spec (coded : member.kind.IsCoded) :
    here.Leaves (decodeOneof p decode c o slot member.number) := by
  obtain ⟨-, read, -, -, found⟩ := here.readOneof ready declared
  have decoder : caseDecoder p c o slot member.number m
      = .ok ({ owner := t, slot, number := .int member.number }, o) := by
    rw [caseDecoder, here.fits.plain, here.fits.type]
    rfl
  obtain ⟨existing, existingIs, there⟩ := here.exists_existing ready declared
  simp only [decodeOneof, ends_bind, ends_content, ends_current read,
    ends_reading, Cursor.ends_ofExcept_ok, decoder, found, existingIs]
  refine (decodeMember_spec ready rules here declared nested coded there).mono ?_ fun e cur' failed => failed.faulty m
  rintro placed cur' ⟨fine, moved⟩
  exact placeCase_spec ready here declared moved fine

end oneof

variable {extensions : List (Extension × Value)}

/-! ## Extensions -/

lemma Content.putExtension_cons (first : Extension × Value) (rest : List (Extension × Value)) :
    putExtension e v (first :: rest)
      = if first.1.number == e.number then (e, v) :: rest else first :: putExtension e v rest := rfl

lemma mem_putExtension {x : Extension × Value} (member : x ∈ Content.putExtension e v extensions) :
    x ∈ extensions ∨ x = (e, v) := by
  induction extensions with
  | nil => exact .inr (mem_singleton.1 member)
  | cons first rest ih =>
    rw [Content.putExtension_cons] at member
    split at member
    · rcases mem_cons.1 member with rfl | later
      · exact .inr rfl
      · exact .inl (.tail _ later)
    · rcases mem_cons.1 member with rfl | later
      · exact .inl (.head _)
      · exact (ih later).imp (mem_cons_of_mem _) id

lemma numbers_putExtension (e : Extension) (v : Value) (extensions : List (Extension × Value)) :
    (Content.putExtension e v extensions).map (·.1.number)
      = if e.number ∈ extensions.map (·.1.number) then extensions.map (·.1.number)
        else extensions.map (·.1.number) ++ [e.number] := by
  induction extensions with
  | nil => rfl
  | cons first rest ih =>
    simp only [Content.putExtension_cons, beq_iff_eq]
    by_cases same : first.1.number = e.number
    · simp [same]
    · rw [if_neg same, map_cons, ih]
      simp only [map_cons, mem_cons, Ne.symm same, false_or, cons_append]
      split <;> rfl

lemma Content.find?_putExtension (e : Extension) (v : Value) (extensions : List (Extension × Value)) :
    (Content.putExtension e v extensions).find? (fun x => x.1.number == e.number) = some (e, v) := by
  induction extensions with
  | nil => exact find?_cons_of_pos (beq_self_eq_true _)
  | cons first rest ih =>
    rw [putExtension_cons]
    split
    · simp
    · rename_i differs
      rw [find?_cons_of_neg (by simpa using differs), ih]

lemma Content.putExtension_putExtension (e : Extension) (v w : Value) (extensions : List (Extension × Value)) :
    putExtension e w (putExtension e v extensions) = putExtension e w extensions := by
  induction extensions with
  | nil => exact if_pos (beq_self_eq_true _)
  | cons first rest ih =>
    simp only [putExtension_cons]
    split
    · exact if_pos (beq_self_eq_true _)
    · rename_i differs
      rw [putExtension_cons, if_neg differs, ih]

lemma nodup_putExtension (distinct : (extensions.map (·.1.number)).Nodup) :
    ((Content.putExtension e v extensions).map (·.1.number)).Nodup := by
  rw [numbers_putExtension]
  split
  · exact distinct
  · rename_i absent
    exact nodup_append.2 ⟨distinct, nodup_singleton _, by
      rintro a inside b member rfl
      exact absent (mem_singleton.1 member ▸ inside)⟩

lemma ExtensionTable.keys_of_find {known : ExtensionTable} {number : Int} (found : known.find? t number = some e) :
    e.extended = t ∧ e.number = number := by
  simpa using find?_some found

section extension

variable (here : AtField p R content levels t c number m cur) (ranged : c.ranges.contains number = true)
  (known : ∃ known ∈ table, known.find? t number = some e) (nested : DecodesBelow p R content levels decode)

include rules here ranged known in
/-- Setting an extension that is known gives a message of the class. -/
lemma AtField.putExtension (valueFits : e.Fits R (inside p R content levels) v) :
    ({ m with extensions := Content.putExtension e v m.extensions } : Content).Fits R
      (inside p R content levels) t c := by
  obtain ⟨table', isTable, isKnown⟩ := known
  have keys := ExtensionTable.keys_of_find isKnown
  refine { here.fits with distinct := nodup_putExtension here.fits.distinct, extensions := fun x member => ?_ }
  rcases mem_putExtension member with old | rfl
  · exact here.fits.extensions x old
  · exact ⟨keys.1, keys.2 ▸ ranged, (rules.extension _ _ _).2 ⟨table', isTable, keys.2 ▸ isKnown⟩, valueFits⟩

include rules here known in
/-- What stands under the number of an extension that is known is a value of it. -/
lemma AtField.extension_some (there : m.extension? e.number = some v) :
    e.Fits R (inside p R content levels) v := by
  obtain ⟨table', isTable, isKnown⟩ := known
  have keys := ExtensionTable.keys_of_find isKnown
  obtain ⟨x, found, rfl⟩ := Option.map_eq_some_iff.1 there
  obtain ⟨-, -, isExtension, fits⟩ := here.fits.extensions x (mem_of_find?_eq_some found)
  obtain ⟨other, isOther, isKnown'⟩ := (rules.extension _ _ _).1 isExtension
  cases isTable.symm.trans isOther
  have same : x.1.number = e.number := by simpa using find?_some found
  rw [same, keys.2, isKnown] at isKnown'
  cases isKnown'
  exact fits

omit known in
include ready in
lemma exists_messageType {number : Int} (known : ∃ known ∈ table, known.find? t number = some e)
    (nonScalar : e.type.isScalar = false) :
    ∃ t', e.messageType = some t' ∧ (p.plan? t').isSome = true := by
  obtain ⟨table', isTable, isKnown⟩ := known
  exact ready.extensions table' isTable e (mem_of_find?_eq_some isKnown) nonScalar

include ready rules here ranged known nested in
lemma decodeSingularExtension_spec (single : e.repeated = false) {current : Value}
    (there : current = .none ∨ e.Fits R (inside p R content levels) current) :
    here.Leaves (decodeSingularExtension p decode e current) := by
  have put : ∀ {v}, e.Fits R (inside p R content levels) v → _ :=
    fun fits => here.putExtension rules ranged known fits
  unfold decodeSingularExtension
  cases scalar : e.type.isScalar with
  | true =>
    simp only [if_true, ends_bind, ends_reading, Decoding.storeExtension, ends_update]
    refine (Cursor.singular_spec here.standing scalar).mono ?_ fun e cur' failed => failed.faulty m
    rintro v cur' ⟨gives, moved⟩
    refine ⟨put ?_, moved⟩
    rw [Extension.Fits, if_pos scalar, if_neg (by simp [single])]
    exact ⟨v, rfl, rules.gives _ _ scalar gives⟩
  | false =>
    obtain ⟨t', type, isClass⟩ := exists_messageType ready known scalar
    have fits_iff : ∀ v, e.Fits R (inside p R content levels) v
        ↔ MessageFits R (inside p R content levels) (e.type == .group) t' v := by
      intro v
      rw [Extension.Fits, if_neg (by simp [scalar])]
      simp [type, single]
    have there' : current = .none ∨ (inside p R content levels).nested t' current :=
      there.imp id fun fits => ((fits_iff _).1 fits).1
    simp only [Bool.false_eq_true, if_false, decodeExtensionMessage, type, Option.getD_some, ends_bind, ends_reading]
    refine (decodeNested_spec ready rules here.standing here.deep nested isClass there' _).mono ?_
      fun e cur' failed => failed.faulty m
    rintro placed cur' ⟨fine, moved⟩
    cases fault : placed.fault with
    | none => exact ⟨put ((fits_iff _).2 ⟨fine.value fault, fun _ => rules.message _⟩), moved⟩
    | some f => exact ⟨fine.fault f fault, moved.toOnward⟩

include ready rules here ranged known nested in
lemma decodeRepeatedExtension_spec (many : e.repeated = true) {current : Value}
    (there : current = .none ∨ e.Fits R (inside p R content levels) current) :
    here.Leaves (decodeRepeatedExtension p decode e current) := by
  have put : ∀ {v}, e.Fits R (inside p R content levels) v → _ :=
    fun fits => here.putExtension rules ranged known fits
  unfold decodeRepeatedExtension
  cases scalar : e.type.isScalar with
  | true =>
    have fits_iff : ∀ v, e.Fits R (inside p R content levels) v
        ↔ ScalarsFit R e.type (e.packed && e.type.isPackable) v := by
      intro v
      rw [Extension.Fits, if_pos scalar, if_pos many]
    obtain ⟨items, is, all⟩ : ∃ items, (if current.isPresent then current else .list []) = .list items
        ∧ ∀ x ∈ items, R.Holds e.type x := by
      rcases there with rfl | fits
      · exact ⟨[], rfl, by simp⟩
      · obtain ⟨items, rfl, all, -⟩ := (fits_iff _).1 fits
        exact ⟨items, rfl, all⟩
    simp only [is, if_true, ends_bind]
    refine (decodeScalars_spec scalar here.standing items).mono ?_ fun _ _ faulty => faulty
    rintro taken ⟨m', cur'⟩ ⟨rfl, sound, moved⟩
    cases fault : taken.fault with
    | some f =>
      have faulty : ∀ m', Faulty cur f (m', cur') := fun m' =>
        ⟨Fault.isDecoding_of_isMalformed (sound.fault f fault), moved.toOnward⟩
      simp only [Option.isSome_some, Bool.true_and, ends_ite, ends_bind, ends_update, ends_raise_some]
      split
      · exact faulty _
      · exact faulty _
    | none =>
      exact ⟨put ((fits_iff _).2 (scalarsFit_append rules scalar sound all _)), moved⟩
  | false =>
    obtain ⟨t', type, isClass⟩ := exists_messageType ready known scalar
    have fits_iff : ∀ v, e.Fits R (inside p R content levels) v
        ↔ MessagesFit R (inside p R content levels) (e.type == .group) t' v := by
      intro v
      rw [Extension.Fits, if_neg (by simp [scalar])]
      simp [type, many]
    obtain ⟨items, is, all⟩ : ∃ items, (if current.isPresent then current else .list []) = .list items
        ∧ ∀ x ∈ items, MessageFits R (inside p R content levels) (e.type == .group) t' x := by
      rcases there with rfl | fits
      · exact ⟨[], rfl, by simp⟩
      · obtain ⟨items, rfl, all⟩ := (fits_iff _).1 fits
        exact ⟨items, rfl, all⟩
    simp only [is, Bool.false_eq_true, if_false, decodeExtensionMessage, type, Option.getD_some,
      ends_bind, ends_reading, ends_needList]
    refine (decodeNested_spec ready rules here.standing here.deep nested isClass (.inl rfl) _).mono ?_
      fun e cur' failed => failed.faulty m
    rintro placed cur' ⟨fine, moved⟩
    cases fault : placed.fault with
    | some f => exact ⟨fine.fault f fault, moved.toOnward⟩
    | none =>
      exact ⟨put ((fits_iff _).2 (messagesFit_append rules all (fine.value fault))), moved⟩

include ready rules here ranged known nested in
/-- **Extensions.**  Decoding an extension that is known leaves a typed message. -/
lemma decodeExtension_spec :
    here.Leaves (decodeExtension p decode e) := by
  have there : (m.extension? e.number).getD .none = .none
      ∨ e.Fits R (inside p R content levels) ((m.extension? e.number).getD .none) := by
    cases set : m.extension? e.number with
    | none => exact .inl rfl
    | some => exact .inr (here.extension_some rules known set)
  simp only [decodeExtension, ends_bind, ends_content, ends_ite]
  split
  · rename_i many
    exact decodeRepeatedExtension_spec ready rules here ranged known nested many there
  · rename_i single
    exact decodeSingularExtension_spec ready rules here ranged known nested (by simpa using single) there

end extension

/-! ## Messages -/

include rules in
/-- A field that is neither declared nor known is kept behind other unknown ones. -/
lemma keepUnknown_spec (here : AtField p R content levels t c number m cur) (unheard : p.Unheard table t number) :
    here.Leaves keepUnknown := by
  simp only [keepUnknown, ends_bind, ends_reading, ends_content]
  refine (Cursor.skipUnknown_spec here.standing).mono ?_ fun e cur' failed => failed.faulty m
  rintro data cur' ⟨moved, field⟩
  have level : maxDepth - cur.depth = levels - 1 := by
    have := here.deep
    omega
  have kept := rules.unknown levels t m.head.unknown number data unheard (level ▸ field) here.fits.unknown
  simp only [here.fits.plain, lookup_nil, ends_update]
  exact ⟨{ here.fits with plain := rfl, unknown := kept }, moved⟩

include ready rules

lemma decodeRanged_spec (here : AtField p R content levels t c number m cur)
    (ranged : c.ranges.contains number = true) (undeclared : ∀ d ∈ c.declared, d.number ≠ number)
    (nested : DecodesBelow p R content levels decode) {locals : Locals}
    (names : locals.map (·.1) = c.decoderVariables) :
    here.Leaves (decodeRanged p table decode (c.own.meaning locals) number) := by
  obtain ⟨rfl, s, -, planned⟩ := ready.planned here.found
  have own : c.own.meaning locals = .type c.id := by
    rw [(ready.clear.of_plan here.found).own_meaning ranged names, planned.own]
  have extended : Extended.ofLoose m.head.bare m.extensions m.loose = .usual m.extensions := by
    simp [Extended.ofLoose, here.fits.plain, here.fits.whole]
  simp only [decodeRanged, own, ends_bind, ends_content, extended, Meaning.evaluated,
    ends_reading, Cursor.ends_ofExcept_ok]
  cases table with
  | none => exact keepUnknown_spec rules here (Program.unheard here.found undeclared (by simp))
  | some known =>
    simp only
    cases isKnown : known.find? c.id number with
    | none =>
      refine keepUnknown_spec rules here (Program.unheard here.found undeclared fun _ => ?_)
      rintro _ ⟨⟩
      exact isKnown
    | some => exact decodeExtension_spec ready rules here ranged ⟨known, rfl, isKnown⟩ nested

/-- **One field.**  Whatever number a field has, decoding it leaves a typed message. -/
lemma decodeNumber_spec (here : AtField p R content levels t c number m cur)
    (nested : DecodesBelow p R content levels decode) (assigned : OneofLocals) :
    here.Leaves (decodeNumber p table decode c assigned number) := by
  obtain ⟨-, s, resolved, planned⟩ := ready.planned here.found
  have names := c.map_decoderLocals assigned.current assigned.value
  unfold decodeNumber
  rcases planned.route_eq resolved number with ⟨d, declared, isNumber, route⟩ | ⟨undeclared, route⟩
  · have slot := planned.slot_of_declared resolved declared
    rw [route]
    simp only [slot]
    cases d with
    | field slot =>
      have leads := (ready.clear.of_plan here.found).declared _ declared
      simp only [Declared.content, Declared.slot, ends_bind, ends_pure]
      exact decodeField_spec ready rules here declared (names ▸ leads) nested
        (planned.field_isCoded ready.regular declared)
    | member slot o member =>
      obtain ⟨-, read, -⟩ := here.readOneof ready declared
      obtain ⟨oneof, isOneof, -, plan, found⟩ := planned.oneof_of_member declared
      have coded := planned.member_isCoded ready.regular isOneof plan (member?_eq_some found).1
      simp only [Declared.content, Declared.slot, ends_bind, ends_current read, ends_pure]
      rw [← isNumber]
      exact decodeOneof_spec ready rules here declared nested coded
  · rw [route]
    cases ranged : c.ranges.contains number with
    | true =>
      simp only [if_true, ends_bind, ends_pure]
      exact decodeRanged_spec ready rules here ranged undeclared nested names
    | false =>
      simp only [Bool.false_eq_true, if_false, ends_bind, ends_pure]
      exact keepUnknown_spec rules here (Program.unheard here.found undeclared (by simp [ranged]))

/-- **All fields.**  Decoding goes on until the data ends, and leaves a typed message. -/
lemma decodeFields_spec (found : p.plan? t = some c) (nested : DecodesBelow p R content levels decode) {turns : Nat}
    (assigned : OneofLocals) (fits : m.Fits R (inside p R content levels) t c) (sound : cur.Sound)
    (deep : cur.depth + levels = maxDepth + 1) (enough : cur.rest.length < turns) :
    Ends (decodeFields p table decode c turns assigned) (m, cur)
      (fun _ s => s.1.Fits R (inside p R content levels) t c ∧ cur.Onward s.2 ∧ (cur.group = none → s.2.rest = []))
      (Faulty cur) := by
  induction turns generalizing assigned m cur with
  | zero => exact absurd enough (by omega)
  | succ turns ih =>
    simp only [decodeFields, ends_bind, ends_reading]
    refine (Cursor.next_spec sound).mono (fun next cur' advanced => ?_) fun e cur' failed => failed.faulty m
    cases next with
    | none =>
      obtain ⟨moved, ended⟩ := advanced
      exact ⟨fits, moved.toOnward, fun top => ended (moved.group.trans top)⟩
    | some =>
      obtain ⟨-, -, standing, onward, shorter⟩ := advanced
      simp only [ends_bind]
      refine (decodeNumber_spec ready rules ⟨found, fits, standing, onward.depth ▸ deep⟩ nested
        assigned).mono ?_ fun e s faulty => ⟨faulty.1, onward.trans faulty.2⟩
      rintro assigned' ⟨m', cur''⟩ ⟨fits', moved⟩
      have shrunk : cur''.rest.length ≤ cur'.rest.length := moved.rest.length_le
      have onward' := onward.trans moved.toOnward
      refine (ih assigned' fits' moved.toSound (onward'.depth ▸ deep) (show cur''.rest.length < turns by omega)).mono ?_
        fun e s faulty => ⟨faulty.1, onward'.trans faulty.2⟩
      rintro _ s ⟨fits'', later, ended⟩
      exact ⟨fits'', onward'.trans later, fun top => ended (onward'.group.trans top)⟩

omit ready rules in
/-- A message that data was merged into. -/
abbrev Content.merged (m : Content) : Content := { m with head := { m.head with merged := true } }

omit ready rules in
lemma Content.Fits.merged (fits : m.Fits R I t c) : m.merged.Fits R I t c := { fits with }

/-- **One level.**  Decoding by the plan of a class is fine, given a decoder of nested data that is fine
on the levels below. -/
lemma decodeInto_decodes (nested : DecodesBelow p R content levels decode) :
    Decodes p R content levels (decodeInto p table decode) := by
  intro t m cur typed sound deep
  rw [typed_eq] at typed ⊢
  obtain ⟨c, m', found, same, fits⟩ := typed
  obtain rfl : m = m' := Content.value_injective same
  have owners : checkOwners c m = .ok () := by
    simp [checkOwners, Content.replaces, fits.plain, (ready.clear.of_plan found).owners]
  have plain : m.replaces "decode_message" = false := by simp [Content.replaces, fits.plain]
  have plan : p.plan? m.head.type = some c := by rw [fits.type, found]
  simp only [decodeInto, ends_bind, ends_get, plain, Bool.false_eq_true, if_false, plan,
    ends_reading, owners, Cursor.ends_ofExcept_ok, ends_update]
  refine (decodeFields_spec ready rules found nested {} fits.merged sound deep (Nat.lt_succ_self _)).mono
    ?_ fun _ _ faulty => faulty
  rintro _ s ⟨fits'', onward, ended⟩
  exact ⟨⟨c, s.1, found, rfl, fits''⟩, onward, ended⟩

/-- **All levels.**  Levels that a cursor allows are enough. -/
lemma decodeMessage_decodes {allowed : Nat} (enough : levels < allowed) :
    Decodes p R content levels (decodeMessage p table allowed) := by
  induction allowed generalizing levels with
  | zero => exact absurd enough (by omega)
  | succ allowed ih => exact decodeInto_decodes ready rules fun n _ less => ih (by omega)

end total

/-! ## Reading a message -/

/-- What decoding gives: scalars of the sort that their field has, and extensions that are known. -/
def Rules.known (table : Option ExtensionTable) : Rules where
  scalar := FieldType.Sorts
  extension := fun t e _ => ∃ known ∈ table, known.find? t e.number = some e

lemma sorts_defaultOf {a : Arena} {f : Field} {s : Scalar} (h : a.defaultOf f = .ok s)
    (scalar : f.type.isScalar = true) : f.type.Sorts s := by
  unfold Forest.defaultOf at h
  split at h
  · rename_i enum
    rw [beq_iff_eq.1 enum]
    exact ⟨_, (Except.ok.inj h).symm⟩
  · split at h
    · cases h
      exact FieldType.sorts_default scalar
    · unfold readDefault at h
      cases type : f.type <;> simp only [type] at h scalar <;> try exact absurd scalar (by decide)
      case string => exact ⟨_, (Except.ok.inj h).symm⟩
      case bool => exact ⟨_, (Except.ok.inj h).symm⟩
      all_goals
        split at h <;> first | exact ⟨_, (Except.ok.inj h).symm⟩ | cases h

lemma kindOf_scalar {a : Arena} {m : Message} {f : Field} {presence : Bool} {s : Scalar}
    (h : KindOf a m f (.scalar type presence s)) :
    f.type = type ∧ f.hasPresence m = presence ∧ type.isScalar = true ∧ a.defaultOf f = .ok s := by
  generalize same : FieldKind.scalar type presence s = kind at h
  cases h <;> cases same
  exact ⟨rfl, rfl, ‹_›, ‹_›⟩

section parse

variable {files : List FileDecl} {options : Plan.Options} {table : Option ExtensionTable}

lemma Rules.decoded_known (ready : p.Ready table) : (Rules.known table).Decoded p table where
  sorts := fun _ _ sorts => sorts
  gives := fun _ _ _ gives => gives.holds.sorts
  default := fun _ scalar => FieldType.sorts_default scalar
  initial := by
    intro t c slot f type s found declared kind
    obtain ⟨-, m, -, planned⟩ := ready.planned found
    obtain ⟨g, -, -, kindOf⟩ := planned.exists_kindOf declared
    rw [kind] at kindOf
    obtain ⟨rfl, -, scalar, default⟩ := kindOf_scalar kindOf
    exact sorts_defaultOf default scalar
  packed := fun _ _ => trivial
  message := fun _ => trivial
  entry := fun _ _ _ _ => trivial
  extension := fun _ _ _ => Iff.rfl
  nothing := fun _ _ => trivial
  unknown := fun _ _ _ _ _ _ _ _ => trivial

/-- Decoding into a new message reads all the data or ends with a fault that it may end with. -/
lemma decodeWith_ends {R : Rules} {content : Value → Prop} (ready : p.Ready table)
    (rules : R.Decoded p table) {t : TypeId} {start : Content}
    (typed : Typed p R content (maxDepth + 1) t start.value) (data : Bytes) :
    Ends (decodeWith p table) (start, Cursor.ofBytes data)
      (fun _ s => Typed p R content (maxDepth + 1) t s.1.value ∧ s.2.rest = [])
      (fun e s => e.isDecoding = true ∧ s.2.rest <:+ data) := by
  have decodes : Decodes p R content (maxDepth + 1) (decodeWith p table) :=
    decodeMessage_decodes ready rules (Nat.lt_succ_self (maxDepth + 1))
  refine (decodes t start (Cursor.ofBytes data) typed ⟨by simp [Cursor.ofBytes], by simp [Cursor.ofBytes]⟩
    (by simp [Cursor.ofBytes])).mono ?_ ?_
  · rintro _ s ⟨typed', -, ended⟩
    exact ⟨typed', ended rfl⟩
  · rintro e s ⟨decoding, onward⟩
    exact ⟨decoding, onward.rest⟩

end parse

/-- A message that is called like a variable of the code that decodes it. -/
def hiddenFiles : List FileDecl :=
  [{ name := "a.proto"
     messages :=
      [{ name := "decoder" },
       { name := "M"
         fields := [{ name := "f", number := 1, type := .message, typeName := ".decoder" }] }] }]

end Missive
