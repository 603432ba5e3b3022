import Missive.Proofs.Message.Absorb
import Missive.Proofs.Message.Itself
import Missive.Proofs.Message.Parts

/-!
# Reading fields back

What decoding makes of the encoding of a value.

**Echoes.**  What is read back need not be the value itself: messages are new ones, and a message that
holds any other one knows the bytes of its content only.  It is an echo: equal to the value, of the same
type, and written as the value is.

**Fields.**  Some bytes are taken as a field (`IsTaken`) if a cursor at their tag gets behind them and gives
what is asked for.  So are scalars, messages and groups, and the entries of maps, if the decoder of nested
data rebuilds the messages on the levels below (`Rebuilds`).
-/

namespace Missive

open Plan Schema List Cursor

variable {p : Program} {v v' : Value} {number : Int} {s : Scalar} {items : List Value}
  {table : Option ExtensionTable} {R : Rules} {t : TypeId} {isGroup : Bool} {key type value : FieldType}
  {bytes payload : Bytes} {c : ClassPlan} {I : Inside} {ref : Option ClassRef}
variable {restored : Value → Prop} {entries : List (Key × Value)} {encode' : Value → Except Fault Bytes}
  {decode : Decoding Unit}

/-! ## Framing of nested data -/

namespace Encoding

def nestedWire (group : Bool) : WireType := if group then .startGroup else .lengthDelimited

/-- What stands behind the tag of a message or group. -/
def nestedPayload (group : Bool) (number : Int) (inside : Bytes) : Bytes :=
  if group then inside ++ tag number .endGroup else Varint.encode inside.length ++ inside

lemma nestedWire_ne_endGroup (group : Bool) : nestedWire group ≠ .endGroup := by
  cases group <;> simp [nestedWire]

lemma message_ok {inside : Bytes} (spelled : p.serialize v = .ok inside) (group : Bool) (number : Int) :
    message p group number v = .ok (tag number (nestedWire group) ++ nestedPayload group number inside) := by
  rw [message, spelled]
  cases group <;> rfl

end Encoding

lemma spellsTag_tag (positive : 0 < number) (bounded : number ≤ maxFieldNumber) (wire : WireType) :
    SpellsTag (Encoding.tag number wire) number.toNat wire := by
  have same : Encoding.tag number wire = Varint.encode (makeTag number.toNat wire) := by
    rw [Encoding.tag, Int.toNat_of_nonneg (by omega)]
  rw [same]
  exact spellsTag_makeTag (by omega) (by omega) wire

lemma FieldType.wire_ne_endGroup (t : FieldType) : t.wire ≠ .endGroup := by
  cases t <;> simp [FieldType.wire]

/-! ## Echoes -/

/-- Are values told apart from a value by what they are: do the rules allow no not-a-numbers, or is it a
scalar that is a number? -/
def Rules.Tells (R : Rules) (v : Value) : Prop := R.Numeric ∨ ∃ s : Scalar, v = .scalar s ∧ s.isNaN = false

/-- The numbers of the extensions that are set in a message. -/
def Value.extensionNumbers : Value → List Int
  | .message _ _ extensions _ => extensions.map (·.1.number)
  | _ => []

/-- What may stand for a value after it was read back: it is equal to it, unless there are not-a-numbers in
it, fits in its place, is written and taken for present as it is, has the same extensions, and is new. -/
structure Echo (R : Rules) (p : Program) (fits : Value → Prop) (encode : Value → Except Fault Bytes)
    (v v' : Value) : Prop where
  same : R.Tells v → Same p v' v
  fits : fits v'
  encoded : encode v' = encode v
  present : v'.isPresent = v.isPresent
  truthy : v'.truthy = v.truthy
  list : v'.isList = v.isList
  extended : ∀ n, n ∈ v'.extensionNumbers ↔ n ∈ v.extensionNumbers
  new : v'.Every (Value.IsNew p)

section echo

variable {fits fits' : Value → Prop} {encode : Value → Except Fault Bytes}

lemma Rules.Tells.numeric (tells : R.Tells v) (compound : ∀ s, v ≠ .scalar s) : R.Numeric :=
  tells.resolve_right fun scalar => scalar.elim fun s isScalar => compound s isScalar.1

lemma Echo.scalar (holds : R.scalar type s) (fit : fits (.scalar s)) :
    Echo R p fits encode (.scalar s) (.scalar s) := by
  refine ⟨fun tells => same_self ?_, fit, rfl, rfl, rfl, rfl, fun _ => Iff.rfl, Value.isNew_scalar s⟩
  rcases tells with numeric | ⟨_, ⟨⟩, number⟩
  · exact numeric type s holds
  · exact number

lemma Echo.scalars (all : ∀ x ∈ items, R.Holds type x) (fit : fits (.list items)) :
    Echo R p fits encode (.list items) (.list items) := by
  refine ⟨fun tells => same_list_self fun x member => ?_, fit, rfl, rfl, rfl, rfl, fun _ => Iff.rfl,
    Value.every_list.2 ⟨trivial, fun x member => ?_⟩⟩
  · exact (all x member).same_self (tells.numeric (by simp))
  · obtain ⟨s, rfl, -⟩ := all x member
    exact Value.isNew_scalar s

lemma Echo.imp (echo : Echo R p fits encode v v') (fit : fits v' → fits' v')
    (encoded : encode v' = encode v → encode' v' = encode' v) : Echo R p fits' encode' v v' :=
  ⟨echo.same, fit echo.fits, encoded echo.encoded, echo.present, echo.truthy, echo.list, echo.extended, echo.new⟩

lemma Echo.message (echo : Echo R p fits p.serialize v v') (group : Bool) (number : Int) :
    Echo R p fits (Encoding.message p group number) v v' :=
  echo.imp id fun again => by rw [Encoding.message, Encoding.message, again]

lemma Encoding.all_congr {α : Type} {encode : α → Except Fault Bytes} {xs ys : List α}
    (each : Forall₂ (fun x y => encode x = encode y) xs ys) : all encode xs = all encode ys := by
  suffices mapped : xs.mapM encode = ys.mapM encode by rw [all, all, mapped]
  induction each with
  | nil => rfl
  | cons first _ ih => rw [mapM_cons, mapM_cons, first, ih]

lemma echo_list {xs ys : List Value} (each : Forall₂ (fun y x => Echo R p fits encode x y) ys xs)
    {fits' : Value → Prop} (fit : (∀ y ∈ ys, fits y) → fits' (.list ys))
    (encoded : Encoding.all encode ys = Encoding.all encode xs → encode' (.list ys) = encode' (.list xs)) :
    Echo R p fits' encode' (.list xs) (.list ys) where
  same := fun tells => same_list (each.imp fun _ _ echo => echo.same (.inl (tells.numeric (by simp))))
  fits := fit fun y member => by
    obtain ⟨x, -, echo⟩ := exists_right_of_mem each member
    exact echo.fits
  encoded := encoded (Encoding.all_congr (each.imp fun _ _ echo => echo.encoded))
  present := rfl
  truthy := by
    cases each with
    | nil => rfl
    | cons => rfl
  list := rfl
  extended := fun _ => Iff.rfl
  new := Value.every_list.2 ⟨trivial, fun y member => by
    obtain ⟨x, -, echo⟩ := exists_right_of_mem each member
    exact echo.new⟩

end echo

/-- Decoding some bytes into a message gives one that is as `Q` says, up to the end of the data or group. -/
def Rebuilds (decode : Decoding Unit) (start : Content) (depth : Nat) (group : Option Nat) (inside : Bytes)
    (Q : Value → Prop) : Prop :=
  ∀ ⦃cur : Cursor⦄ ⦃tail rest : Bytes⦄, cur.Before depth group (inside ++ tail) → Cursor.Closes group tail rest →
    Succeeds decode (start, cur) fun _ s => Q s.1.value ∧ s.2.rest = rest

/-- Decoding at a depth gives an echo of messages with so many levels below them, if it is given what was
written of them. -/
def Restores (p : Program) (R : Rules) (content : Value → Prop) (levels : Nat) (decode : Decoding Unit)
    (depth : Nat) : Prop :=
  ∀ ⦃t : TypeId⦄ ⦃v : Value⦄ ⦃bytes : Bytes⦄ ⦃start : Content⦄ ⦃group : Option Nat⦄,
    Typed p R content levels t v → p.serialize v = .ok bytes → Content.fresh p t = .ok start →
    Rebuilds decode start depth group bytes (Echo R p (Typed p R content levels t) p.serialize v)

/-- A message that is as `Q` says stands in its place. -/
def Placed.Rebuilt (Q : Value → Prop) (placed : Placed) : Prop :=
  ∃ m : Content, placed = ⟨m.value, none⟩ ∧ Q m.value

/-- The group that nested data is in. -/
def groupOf (isGroup : Bool) (number : Nat) : Option Nat := if isGroup then some number else none

/-- Some bytes are the tag and the payload of a field.  From behind the tag a cursor gets behind the payload,
as `P` says of the two cursors. -/
def IsTaken (depth : Nat) (group : Option Nat) (number : Int) (bytes : Bytes) (P : Cursor → Cursor → Prop) :
    Prop :=
  ∃ wire payload, wire ≠ .endGroup ∧ bytes = Encoding.tag number wire ++ payload
    ∧ ∀ ⦃cur : Cursor⦄ ⦃mark rest : Bytes⦄, cur.Stands depth group number.toNat wire mark (payload ++ rest) →
      ∃ cur', P cur cur' ∧ cur'.Before depth group rest

lemma FieldType.writes_of_encode (holds : type.Holds s) (encoded : type.encode (.scalar s) = .ok bytes) :
    type.Writes s bytes := by
  obtain ⟨bytes', writes⟩ := FieldType.exists_encode holds
  cases writes.1.symm.trans encoded
  exact writes

section taken

variable {p' : Program} {inside rest mark : Bytes} {start : Content} {cur : Cursor} {depth number : Nat}
  {group : Option Nat} {Q : Value → Prop}

lemma IsTaken.mono {number : Int} {P P' : Cursor → Cursor → Prop} (taken : IsTaken depth group number bytes P)
    (weaker : ∀ cur cur', P cur cur' → P' cur cur') : IsTaken depth group number bytes P' := by
  obtain ⟨wire, payload, opens, whole, taken⟩ := taken
  refine ⟨wire, payload, opens, whole, fun cur mark rest stands => ?_⟩
  obtain ⟨cur', holds, before⟩ := taken stands
  exact ⟨cur', weaker _ _ holds, before⟩

lemma isTaken_scalar {number : Int} (holds : type.Holds s) (small : s.size < word64)
    (encoded : Encoding.scalar number type (.scalar s) = .ok bytes) :
    IsTaken depth group number bytes fun cur cur' => Cursor.singular type cur = .ok s cur' := by
  obtain ⟨payload, payloadIs, rfl⟩ := Encoding.exists_of_scalar encoded
  refine ⟨type.wire, payload, type.wire_ne_endGroup, rfl, fun cur mark rest stands => ?_⟩
  obtain ⟨_, cur', run, rfl, before⟩ :=
    (singular_stands stands (FieldType.writes_of_encode holds payloadIs) small).exists_run
  exact ⟨cur', run, before⟩

lemma isTaken_single {number : Int} (holds : type.Holds s) (small : s.size < word64)
    (encoded : Encoding.scalar number type (.scalar s) = .ok bytes) :
    IsTaken depth group number bytes fun cur cur' => Cursor.repeated type cur = .ok ⟨[s], none⟩ cur' := by
  obtain ⟨payload, payloadIs, rfl⟩ := Encoding.exists_of_scalar encoded
  refine ⟨type.wire, payload, type.wire_ne_endGroup, rfl, fun cur mark rest stands => ?_⟩
  obtain ⟨_, cur', run, rfl, before⟩ :=
    (repeated_single stands (FieldType.writes_of_encode holds payloadIs) small).exists_run
  exact ⟨cur', run, before⟩

lemma isTaken_packed (packable : type.isPackable = true) (small : payload.length < word64) (number : Int) :
    IsTaken depth group number (Encoding.delimited number payload)
      fun cur cur' => Cursor.repeated type cur = .ok (type.readPacked payload.length payload) cur' := by
  refine ⟨_, _, by simp, rfl, fun cur mark rest stands => ?_⟩
  obtain ⟨_, cur', run, rfl, before⟩ :=
    (repeated_packed packable (append_assoc .. ▸ stands) small).exists_run
  exact ⟨cur', run, before⟩

/-! ## Nested data -/

lemma runNested_rebuilt (rebuilds : Rebuilds decode start depth group inside Q) {tail : Bytes}
    (before : cur.Before depth group (inside ++ tail)) (closes : Cursor.Closes group tail rest) :
    (runNested decode .none start cur).1.Rebuilt Q ∧ (runNested decode .none start cur).2.rest = rest := by
  obtain ⟨_, ⟨m, cur'⟩, run, holds, left⟩ := (rebuilds before closes).exists_run
  rw [runNested, run]
  exact ⟨⟨m, rfl, holds⟩, left⟩

lemma nestedTarget_fresh (fresh : Content.fresh p t = .ok start) :
    nestedTarget p (.type t) .none = .ok start := fresh

lemma decodeMessageField_rebuilt (rebuilds : Rebuilds decode start (depth + 1) none inside Q)
    (fresh : Content.fresh p t = .ok start) (shallow : depth < maxDepth) (small : inside.length < word64)
    (stands : cur.Stands depth group number .lengthDelimited mark (Varint.encode inside.length ++ (inside ++ rest))) :
    Succeeds (decodeMessageField p decode (.type t) .none) cur
      fun placed cur' => placed.Rebuilt Q ∧ cur'.Before depth group rest := by
  simp only [decodeMessageField, ends_bind, ends_pure]
  refine (take_stands stands (mem_singleton_self _)).ends ?_
  rintro - cur' ⟨-, rfl⟩
  refine (payload_before stands.claimed small).ends ?_
  rintro data cur' ⟨rfl, before⟩
  simp only [nestedTarget_fresh fresh, ends_ofExcept_ok]
  refine (enter_before (show cur'.depth < maxDepth by rw [before.depth]; exact shallow) _ _).ends ?_
  rintro inner cur' ⟨rfl, entered⟩
  rw [before.depth, ← append_nil data] at entered
  exact ⟨(runNested_rebuilt rebuilds entered .message).1, before⟩

lemma decodeGroupField_rebuilt (rebuilds : Rebuilds decode start (depth + 1) (some number) inside Q)
    (fresh : Content.fresh p t = .ok start) (shallow : depth < maxDepth) {closing : Bytes}
    (closes : SpellsTag closing number .endGroup)
    (stands : cur.Stands depth group number .startGroup mark (inside ++ (closing ++ rest))) :
    Succeeds (decodeGroupField p decode (.type t) .none) cur
      fun placed cur' => placed.Rebuilt Q ∧ cur'.Before depth group rest := by
  simp only [decodeGroupField, ends_bind, ends_get]
  refine (take_stands stands (mem_singleton_self _)).ends ?_
  rintro - cur' ⟨-, rfl⟩
  have claimed := stands.claimed
  have allowed : ({ cur with consumed := true } : Cursor).depth < maxDepth := stands.depth ▸ shallow
  refine (enter_before allowed _ _).ends ?_
  rintro inner cur' ⟨rfl, entered⟩
  simp only [stands.depth, stands.rest, stands.field] at entered
  simp only [nestedTarget_fresh fresh, ends_ofExcept_ok]
  obtain ⟨⟨m, placed, holds⟩, left⟩ := runNested_rebuilt rebuilds entered (.group closes)
  simp only [placed, Option.isNone_none, if_true, ends_bind, ends_set, ends_pure]
  exact ⟨⟨m, rfl, holds⟩, left, claimed.depth, claimed.group, claimed.goes, claimed.free⟩

/-- **Nested data.**  What can be rebuilt is taken, as a message or as a group. -/
lemma isTaken_nested {number : Int}
    (rebuilds : Rebuilds decode start (depth + 1) (groupOf isGroup number.toNat) inside Q)
    (fresh : Content.fresh p t = .ok start) (shallow : depth < maxDepth) (spelled : p'.serialize v = .ok inside)
    (small : isGroup = false → inside.length < word64) (positive : 0 < number)
    (bounded : number ≤ maxFieldNumber) (encoded : Encoding.message p' isGroup number v = .ok bytes) :
    IsTaken depth group number bytes fun cur cur' =>
      ∃ u, decodeNested p decode isGroup (.type t) .none cur = .ok ⟨u, none⟩ cur' ∧ Q u := by
  rw [Encoding.message_ok spelled] at encoded
  refine ⟨_, _, Encoding.nestedWire_ne_endGroup isGroup, (Except.ok.inj encoded).symm, fun cur mark rest stands => ?_⟩
  have rebuilt : Succeeds (decodeNested p decode isGroup (.type t) .none) cur
      fun placed cur' => placed.Rebuilt Q ∧ cur'.Before depth group rest := by
    simp only [decodeNested, Meaning.evaluated, ends_bind, ends_ofExcept_ok]
    cases isGroup with
    | true =>
      simp only [Encoding.nestedPayload, if_true, append_assoc] at stands
      exact decodeGroupField_rebuilt rebuilds fresh shallow (spellsTag_tag positive bounded .endGroup) stands
    | false =>
      simp only [Encoding.nestedPayload, Bool.false_eq_true, if_false, append_assoc] at stands
      exact decodeMessageField_rebuilt rebuilds fresh shallow (small rfl) stands
  obtain ⟨_, cur', run, ⟨m, rfl, holds⟩, before⟩ := rebuilt.exists_run
  exact ⟨cur', ⟨m.value, run, holds⟩, before⟩

/-! ## Entries of maps -/

variable {kind : MapValue}

/-- How the values of a map are decoded, by the class they are of, if they are messages. -/
def MapValue.of (value : FieldType) : Option ClassRef → MapValue
  | none => .scalar value
  | some ref => .message (.type ref.target)

def Encoding.entryValue (p : Program) (value : FieldType) (messages : Bool) (v : Value) :
    Except Fault Bytes :=
  if messages then message p false 2 v else scalar 2 value v

/-- What decoding gives of the value of an entry, if that is all that is left of it. -/
def RestoresValue (p : Program) (decode : Decoding Unit) (key : FieldType) (kind : MapValue)
    (depth : Nat) (bytes : Bytes) (restored : Value → Prop) : Prop :=
  bytes ≠ [] ∧ ∀ ⦃cur : Cursor⦄ ⦃turns : Nat⦄ ⦃k : Scalar⦄, cur.Before depth none bytes →
    Succeeds (decodeEntry p decode key kind (turns + 2) { key := k }) cur
      fun s _ => s.key = k ∧ restored s.value ∧ s.value.isPresent = true

lemma decodeEntry_end (before : cur.Before depth none []) (turns : Nat) (s : EntryState) :
    Succeeds (decodeEntry p decode key kind (turns + 1) s) cur fun s' _ => s' = s := by
  simp only [decodeEntry, ends_bind]
  refine (next_end before).ends ?_
  rintro found cur' ⟨rfl, -⟩
  rfl

lemma RestoresValue.mono {restored' : Value → Prop} (restores : RestoresValue p decode key kind depth bytes restored)
    (weaker : ∀ v, restored v → restored' v) : RestoresValue p decode key kind depth bytes restored' := by
  refine ⟨restores.1, fun cur turns k before => (restores.2 before).ends ?_⟩
  rintro s - ⟨sameKey, holds, present⟩
  exact ⟨sameKey, weaker _ holds, present⟩

lemma restoresValue_scalar (holds : type.Holds s) (small : s.size < word64)
    (encoded : Encoding.entryValue p' type false (.scalar s) = .ok bytes) :
    RestoresValue p decode key (.scalar type) depth bytes (· = .scalar s) := by
  have tagged : SpellsTag (Encoding.tag 2 type.wire) 2 type.wire :=
    spellsTag_tag (by decide) (by decide) type.wire
  obtain ⟨payload, payloadIs, rfl⟩ := Encoding.exists_of_scalar encoded
  refine ⟨by simp [tagged.ne_nil], fun cur turns k before => ?_⟩
  rw [decodeEntry]
  simp only [ends_bind]
  refine (next_field before tagged type.wire_ne_endGroup).ends ?_
  rintro found cur' ⟨rfl, stands⟩
  simp only [ends_bind]
  rw [← append_nil payload] at stands
  refine (singular_stands stands (FieldType.writes_of_encode holds payloadIs) small).ends ?_
  rintro found cur'' ⟨rfl, atEnd⟩
  refine (decodeEntry_end atEnd turns _).ends ?_
  rintro s' - rfl
  refine ⟨rfl, rfl, ?_⟩
  cases found <;> first | exact holds.elim | rfl

lemma restoresValue_message (rebuilds : Rebuilds decode start (depth + 1) none inside Q)
    (fresh : Content.fresh p t = .ok start) (shallow : depth < maxDepth) (small : inside.length < word64)
    (spelled : p'.serialize v = .ok inside) (encoded : Encoding.entryValue p' value true v = .ok bytes) :
    RestoresValue p decode key (.message (.type t)) depth bytes Q := by
  have tagged : SpellsTag (Encoding.tag 2 .lengthDelimited) 2 .lengthDelimited :=
    spellsTag_tag (by decide) (by decide) _
  obtain rfl : Encoding.delimited 2 inside = bytes := by
    simp only [Encoding.entryValue, if_true, Encoding.message, spelled] at encoded
    exact Except.ok.inj encoded
  refine ⟨by simp [Encoding.delimited, tagged.ne_nil], fun cur turns k before => ?_⟩
  rw [decodeEntry]
  simp only [ends_bind]
  refine (next_field before tagged (by simp)).ends ?_
  rintro found cur' ⟨rfl, stands⟩
  simp only [ends_bind]
  rw [← append_nil (Varint.encode _ ++ inside), append_assoc] at stands
  refine (decodeMessageField_rebuilt rebuilds fresh shallow small stands).ends ?_
  rintro placed cur'' ⟨⟨m, rfl, holds⟩, atEnd⟩
  refine (decodeEntry_end atEnd turns _).ends ?_
  rintro s' - rfl
  exact ⟨rfl, holds, rfl⟩

/-- **Entries.**  An entry that was written is taken, with its key and what is restored of its value. -/
lemma isTaken_entry {number : Int} {messages : Bool} {e : Key × Value} (isKey : e.1 = .scalar s) (holds : key.Holds s)
    (small : s.size < word64) (shallow : depth < maxDepth)
    (size : ∀ both, Encoding.keyValue p' key value messages e = .ok both → both.length < word64)
    (restores : ∀ field, Encoding.entryValue p' value messages e.2 = .ok field →
      RestoresValue p decode key kind (depth + 1) field restored)
    (encoded : Encoding.entry p' number key value messages e = .ok bytes) :
    IsTaken depth group number bytes fun cur cur' =>
      ∃ e', decodeMapField p decode key kind cur = .ok e' cur' ∧ e'.1 = e.1 ∧ restored e'.2 := by
  obtain ⟨both, bothIs, joined⟩ := bind_ok encoded
  have size := size both bothIs
  obtain ⟨keyField, valueField, keyIs, valueIs, rfl⟩ := Encoding.exists_of_keyValue bothIs
  obtain ⟨nonempty, restores⟩ := restores valueField valueIs
  rw [isKey, Key.value] at keyIs
  obtain ⟨payload, payloadIs, rfl⟩ := Encoding.exists_of_scalar keyIs
  have writes := FieldType.writes_of_encode holds payloadIs
  have tagged : SpellsTag (Encoding.tag 1 key.wire) 1 key.wire :=
    spellsTag_tag (by decide) (by decide) _
  refine ⟨_, _, by simp, (Except.ok.inj joined).symm, fun cur mark rest stands => ?_⟩
  rw [append_assoc] at stands
  suffices taken : Succeeds (decodeMapField p decode key kind) cur
      fun e' cur' => (e'.1 = e.1 ∧ restored e'.2) ∧ cur'.Before depth group rest by
    obtain ⟨e', cur', run, holds, before⟩ := taken.exists_run
    exact ⟨cur', ⟨e', run, holds⟩, before⟩
  simp only [decodeMapField, ends_bind]
  refine (take_stands stands (mem_singleton_self _)).ends ?_
  rintro - cur' ⟨-, rfl⟩
  refine (payload_before stands.claimed size).ends ?_
  rintro data cur' ⟨isData, before⟩
  refine (enter_before (show cur'.depth < maxDepth by rw [before.depth]; exact shallow) _ _).ends ?_
  rintro inner cur' ⟨rfl, entered⟩
  have turns : ∃ k, data.length + 1 = k + 3 := by
    have := length_pos_iff.2 tagged.ne_nil
    have := length_pos_iff.2 nonempty
    refine ⟨data.length - 2, ?_⟩
    simp only [isData, length_append]
    omega
  obtain ⟨k, turns⟩ := turns
  have entry : Succeeds (decodeEntry p decode key kind (data.length + 1) { key := key.default }) inner
      fun s' _ => s'.key = s ∧ restored s'.value ∧ s'.value.isPresent = true := by
    rw [before.depth, isData, append_assoc] at entered
    rw [turns, decodeEntry.eq_def]
    simp only [ends_bind]
    refine (next_field entered tagged key.wire_ne_endGroup).ends ?_
    rintro found inner' ⟨rfl, stands'⟩
    simp only [ends_bind]
    refine (singular_stands stands' writes small).ends ?_
    rintro found inner'' ⟨rfl, atEnd⟩
    exact restores atEnd
  obtain ⟨s', inner', run, rfl, isRestored, present⟩ := entry.exists_run
  simp only [run, present, if_true, ends_pure]
  exact ⟨⟨isKey.symm, isRestored⟩, before⟩

end taken

/-! ## Valid schemas -/

namespace Plan

/-- Does an unset field hold the zero of its type, if it holds anything? -/
def FieldKind.StartsAtZero : FieldKind → Prop
  | scalar type false s => s = type.default
  | _ => True

instance : (kind : FieldKind) → Decidable kind.StartsAtZero
  | .scalar type false s => inferInstanceAs (Decidable (s = type.default))
  | .scalar _ true _ | .repeated _ _ | .message _ _ | .repeatedMessage _ _ | .map _ _ _ =>
    inferInstanceAs (Decidable True)

def SlotPlan.StartsAtZero : SlotPlan → Prop
  | field f => f.kind.StartsAtZero
  | oneof _ => True

instance : (plan : SlotPlan) → Decidable plan.StartsAtZero
  | .field f => inferInstanceAs (Decidable f.kind.StartsAtZero)
  | .oneof _ => inferInstanceAs (Decidable True)

/-- A class whose numbers can stand in tags, and whose fields start at zero. -/
structure ClassPlan.Valid (c : ClassPlan) : Prop where
  numbers : ∀ d ∈ c.declared, 0 < d.number ∧ d.number ≤ maxFieldNumber
  ranges : ∀ r ∈ c.ranges.list, 0 < r.1 ∧ r.2 ≤ maxFieldNumber + 1
  zero : ∀ d ∈ c.declared, d.content.StartsAtZero

instance (c : ClassPlan) : Decidable c.Valid :=
  decidable_of_iff ((∀ d ∈ c.declared, 0 < d.number ∧ d.number ≤ maxFieldNumber)
      ∧ (∀ r ∈ c.ranges.list, 0 < r.1 ∧ r.2 ≤ maxFieldNumber + 1)
      ∧ ∀ d ∈ c.declared, d.content.StartsAtZero)
    ⟨fun ⟨numbers, ranges, zero⟩ => ⟨numbers, ranges, zero⟩, fun ⟨numbers, ranges, zero⟩ => ⟨numbers, ranges, zero⟩⟩

lemma ClassPlan.Valid.number_of_ranged (valid : c.Valid) (ranged : c.ranges.contains number = true) :
    0 < number ∧ number ≤ maxFieldNumber := by
  obtain ⟨⟨start, stop⟩, inside, between⟩ := any_eq_true.1 ranged
  have := valid.ranges _ inside
  simp only [Bool.and_eq_true, decide_eq_true_eq] at between
  omega

end Plan

def Program.Valid (p : Program) : Prop := ∀ entry ∈ p.classes, entry.2.Valid

instance (p : Program) : Decidable p.Valid :=
  inferInstanceAs (Decidable (∀ entry ∈ p.classes, entry.2.Valid))

lemma Program.Valid.of_plan (valid : p.Valid) (found : p.plan? t = some c) : c.Valid := by
  obtain ⟨front, back, whole, -⟩ := lookup_eq_some_iff.1 found
  exact valid (t, c) (by simp [whole])

/-! ## What reading back asks for -/

/-- Is a number neither declared in a class nor that of a known extension of it? -/
def Program.Unclaimed (p : Program) (table : Option ExtensionTable) (t : TypeId) (number : Nat) : Prop :=
  (∀ c ∈ p.plan? t, ∀ d ∈ c.declared, d.number ≠ number) ∧ ∀ known ∈ table, known.find? t number = none

lemma Program.Unclaimed.unheard {number : Nat} (unclaimed : p.Unclaimed table t number) :
    p.Unheard table t number :=
  fun c found => ⟨unclaimed.1 c found, fun _ => unclaimed.2⟩

/-- What reading back asks for: scalars in the range of their type that are numbers, payloads whose
length can be written, extensions that are known and, if repeated, not empty, and unknown fields that are
well formed and whose numbers nobody claims. -/
def Rules.readable (p : Program) (table : Option ExtensionTable) : Rules where
  scalar := fun type s => type.Holds s ∧ s.isNaN = false ∧ s.size < word64
  packed := fun type items => ∀ bytes, Encoding.all type.encode items = .ok bytes → bytes.length < word64
  message := fun v => ∀ bytes, p.serialize v = .ok bytes → bytes.length < word64
  entry := fun key value messages e =>
    ∀ bytes, Encoding.keyValue p key value messages e = .ok bytes → bytes.length < word64
  extension := fun t e v => (∃ known ∈ table, known.find? t e.number = some e) ∧ v ≠ .list []
  unknown := fun levels t data =>
    ∃ numbers, WireFields levels numbers data ∧ ∀ n ∈ numbers, p.Unclaimed table t n

/-- Rules whose messages can be read back, whether or not they allow not-a-numbers. -/
structure Rules.Legible (R : Rules) (p : Program) (table : Option ExtensionTable) : Prop where
  scalar : ∀ {type s}, R.scalar type s → type.Holds s ∧ s.size < word64
  default : ∀ {type : FieldType}, type.isScalar = true → R.scalar type type.default
  packed : ∀ {type items}, R.packed type items
    ↔ ∀ bytes, Encoding.all type.encode items = .ok bytes → bytes.length < word64
  message : ∀ {v}, R.message v ↔ ∀ bytes, p.serialize v = .ok bytes → bytes.length < word64
  entry : ∀ {key value messages e}, R.entry key value messages e
    ↔ ∀ bytes, Encoding.keyValue p key value messages e = .ok bytes → bytes.length < word64
  extension : ∀ {t e v}, R.extension t e v ↔ (∃ known ∈ table, known.find? t e.number = some e) ∧ v ≠ .list []
  unknown : ∀ {levels t data}, R.unknown levels t data →
    ∃ numbers, WireFields levels numbers data ∧ ∀ n ∈ numbers, p.Unheard table t n

lemma FieldType.default_isNaN (type : FieldType) : type.default.isNaN = false := by
  cases type <;> rfl

lemma FieldType.size_default (type : FieldType) : type.default.size = 0 := by
  cases type <;> rfl

lemma Rules.legible_readable : (Rules.readable p table).Legible p table where
  scalar := fun holds => ⟨holds.1, holds.2.2⟩
  default := fun {type} scalar =>
    ⟨FieldType.holds_default scalar, type.default_isNaN, by rw [type.size_default]; decide⟩
  packed := Iff.rfl
  message := Iff.rfl
  entry := Iff.rfl
  extension := Iff.rfl
  unknown := by
    rintro levels t data ⟨numbers, fields, unclaimed⟩
    exact ⟨numbers, fields, fun n member => (unclaimed n member).unheard⟩

lemma Rules.numeric_readable : (Rules.readable p table).Numeric := fun _ _ holds => holds.2.1

lemma Rules.Legible.encodable (legible : R.Legible p table) : R.Encodable :=
  encodable_of_holds fun scalar => (legible.scalar scalar).1

lemma Rules.encodable_readable : (Rules.readable p table).Encodable := Rules.legible_readable.encodable

/-- Scalars of the range of a type are written in a row. -/
lemma FieldType.exists_writesAll (all : ∀ x ∈ items, ∃ s, x = .scalar s ∧ type.Holds s ∧ s.size < word64)
    (encoded : Encoding.all type.encode items = .ok bytes) :
    ∃ scalars, items = scalars.map .scalar ∧ type.WritesAll scalars bytes := by
  induction items generalizing bytes with
  | nil =>
    cases encoded
    exact ⟨[], rfl, .nil⟩
  | cons x rest ih =>
    obtain ⟨first, others, encodedFirst, encodedOthers, rfl⟩ := Encoding.all_cons_ok encoded
    obtain ⟨s, rfl, holds, small⟩ := all x (.head _)
    obtain ⟨scalars, rfl, writes⟩ := ih (fun y member => all y (.tail _ member)) encodedOthers
    exact ⟨s :: scalars, rfl, .cons (FieldType.writes_of_encode holds encodedFirst) small writes⟩

lemma putEntry_append {k : Key} (absent : ∀ e ∈ entries, e.1.equal k = false) :
    putEntry k v entries = entries ++ [(k, v)] := by
  induction entries with
  | nil => rfl
  | cons e rest ih =>
    rw [putEntry, absent e (.head _), ih fun e' later => absent e' (.tail _ later)]
    rfl

lemma MessageFits.echo (legible : R.Legible p table) (fits : MessageFits R I isGroup t v)
    (echo : Echo R p (I.nested t) p.serialize v v') :
    Echo R p (MessageFits R I isGroup t) p.serialize v v' :=
  echo.imp (fun nested => ⟨nested, fun isMessage => legible.message.2 fun bytes spelled =>
    legible.message.1 (fits.2 isMessage) bytes (echo.encoded ▸ spelled)⟩) id

/-- Entries whose values are encoded alike are. -/
lemma Encoding.keyValue_congr {messages : Bool} {k : Key}
    (alike : entryValue p value messages v' = entryValue p value messages v) :
    keyValue p key value messages (k, v') = keyValue p key value messages (k, v) := by
  cases messages with
  | false =>
    have alike : scalar 2 value v' = scalar 2 value v := alike
    simp only [keyValue, Bool.false_eq_true, if_false, alike]
  | true =>
    have alike : message p false 2 v' = message p false 2 v := alike
    simp only [keyValue, if_true, alike]

/-- What an entry that is read back has in the place of another one: its key, and an echo of its value. -/
def EntryEcho (p : Program) (R : Rules) (I : Inside) (key value : FieldType) (ref : Option ClassRef)
    (e' e : Key × Value) : Prop :=
  e'.1 = e.1 ∧ Echo R p (fun v => EntryFits R I key value ref (e.1, v))
    (Encoding.entryValue p value ref.isSome) e.2 e'.2

lemma echo_map {xs : List (Key × Value)} (fits : (FieldKind.map key value ref).Fits R I (.map false entries))
    (echoes : Forall₂ (EntryEcho p R I key value ref) xs entries) :
    Echo R p ((FieldKind.map key value ref).Fits R I)
      ((FieldKind.map key value ref).encoding p number) (.map false entries) (.map false xs) := by
  obtain ⟨_, ⟨rfl⟩, levels, distinct, all⟩ := fits
  constructor
  · intro tells
    have numeric := tells.numeric (by simp)
    refine same_map (echoes.imp fun _ _ h => ⟨h.1, h.2.same (.inl numeric)⟩) distinct fun e member => ?_
    obtain ⟨⟨s, isKey, scalar⟩, -, -⟩ := all e member
    rw [isKey, Key.equal]
    exact Scalar.equal_self (numeric key s scalar)
  · refine ⟨xs, rfl, fun some => levels ?_, ?_, fun x member => ?_⟩
    · rintro rfl
      exact some (forall₂_nil_right_iff.1 echoes)
    · exact pairwise_of_keys (r := (·.equal · = false)) (echoes.imp fun _ _ h => h.1) distinct
    · obtain ⟨e, -, sameKey, echo⟩ := exists_right_of_mem echoes member
      have fits : EntryFits R I key value ref (e.1, x.2) := echo.fits
      rwa [← sameKey] at fits
  · refine Encoding.all_congr (echoes.imp ?_)
    rintro ⟨k, v'⟩ ⟨k', v⟩ ⟨sameKey, echo⟩
    obtain rfl : k = k' := sameKey
    rw [Encoding.entry, Encoding.entry, Encoding.keyValue_congr echo.encoded]
  · rfl
  · cases echoes with
    | nil => rfl
    | cons => rfl
  · rfl
  · exact fun _ => Iff.rfl
  · refine Value.every_map.2 ⟨trivial, fun x member => ?_⟩
    obtain ⟨e, -, -, echo⟩ := exists_right_of_mem echoes member
    exact echo.new

/-! ## Extensions and unknown fields -/

/-- The message with the value of an extension set. -/
def Content.withExtension (e : Extension) (v : Value) (m : Content) : Content :=
  { m with extensions := Content.putExtension e v m.extensions }

@[simp] lemma Content.withExtension_withExtension (e : Extension) (v w : Value) (m : Content) :
    (m.withExtension e v).withExtension e w = m.withExtension e w := by
  simp [withExtension, putExtension_putExtension]

/-- Fields of a number that is kept as unknown are kept. -/
lemma keepsNumber_of_unheard {m : Content} (ready : p.Ready table) (found : p.plan? t = some c) (loose : m.loose = [])
    (whole : m.head.bare = false) {number : Nat} (unheard : p.Unheard table t number) :
    KeepsNumber p table decode c m number := by
  intro assigned cur
  obtain ⟨rfl, s, resolved, planned⟩ := ready.planned found
  have extended : Extended.ofLoose m.head.bare m.extensions m.loose = .usual m.extensions := by
    simp [Extended.ofLoose, loose, whole]
  obtain ⟨undeclared, unknown⟩ := unheard c found
  rcases planned.route_eq resolved number with ⟨d, declared, same, -⟩ | ⟨-, route⟩
  · exact absurd same (undeclared d declared)
  · unfold decodeNumber
    rw [route]
    split
    · rename_i ranged
      have own := (ready.clear.of_plan found).own_meaning ranged (c.map_decoderLocals assigned.current assigned.value)
      have kept : decodeRanged p table decode (.type c.id) number (m, cur) = keepUnknown (m, cur) := by
        have content : ∀ f : Content → Decoding Unit, (Decoding.content >>= f) (m, cur) = f m (m, cur) :=
          fun _ => rfl
        have evaluated : ∀ f : Meaning → Decoding Unit,
            (Decoding.reading (Cursor.ofExcept (Meaning.type c.id).evaluated) >>= f) (m, cur)
              = f (.type c.id) (m, cur) := fun _ => rfl
        rw [decodeRanged, content, extended]
        simp only [evaluated]
        cases table with
        | none => rfl
        | some known => simp only [unknown ranged known rfl]
      simp only [own, planned.own]
      show EStateM.bind _ _ (m, cur) = EStateM.bind _ _ (m, cur)
      simp only [EStateM.bind, kept]
    · rfl

end Missive
