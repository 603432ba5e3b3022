import Missive.Proofs.Message.Slots

/-!
# Fields and their spots

Whatever number a field has, a message keeps it in one spot: in a slot, which the members of a oneof
share, among its extensions, or among its unknown fields.  Decoding the field reads what is held in that
spot and the current field of the cursor, and stores what comes of the two
(`AtField.decodeNumber_spot_iff`).

**Extensions.**  An extension is taken as a field of its kind is.  Only where it is kept is different.
-/

namespace Missive

open Plan Decoding

/-! ## Extensions as fields -/

/-- What a message holds of an extension, whether it is set or not. -/
def Content.extended (p : Program) (m : Content) (e : Extension) : Value :=
  (m.extension? e.number).getD (e.kind p).initial

section extensions

variable {p : Program} {table : Option ExtensionTable} {R : Rules} {content : Value → Prop}
  {decode : Decoding Unit} {t : TypeId} {c : ClassPlan} {m m' : Content} {cur cur' : Cursor}
  {levels number : Nat} {e : Extension}

section

variable (rules : R.Decoded p table) (here : AtField p R content levels t c number m cur)
  (known : ∃ known ∈ table, known.find? t number = some e)

include rules here known

/-- A repeated extension holds a list, which is empty if it is not set. -/
lemma AtField.exists_items (many : e.repeated = true) :
    ∃ items, m.extended p e = .list items
      ∧ (if ((m.extension? e.number).getD .none).isPresent then (m.extension? e.number).getD .none
        else .list []) = .list items := by
  have initial : (e.kind p).initial = .list [] := by
    unfold Extension.kind
    rw [if_pos many, if_pos many]
    split <;> rfl
  unfold Content.extended
  rw [initial]
  cases there : m.extension? e.number with
  | none => exact ⟨[], rfl, rfl⟩
  | some v =>
    have fits := here.extension_some rules known there
    obtain ⟨items, rfl⟩ : ∃ items, v = .list items := by
      unfold Extension.Fits at fits
      rw [if_pos many] at fits
      split at fits
      · obtain ⟨items, rfl, -⟩ := fits
        exact ⟨items, rfl⟩
      · obtain ⟨_, -, items, rfl, -⟩ := fits
        exact ⟨items, rfl⟩
    exact ⟨items, rfl, rfl⟩

/-- **Extensions.**  An extension that is known is decoded if a field of its kind could be taken. -/
lemma AtField.decodeExtension_iff :
    decodeExtension p decode e (m, cur) = .ok () (m', cur')
      ↔ ∃ v, (e.kind p).Takes p decode cur cur' (m.extended p e) v ∧ m' = m.withExtension e v := by
  rw [run_eq_done_iff]
  simp only [decodeExtension, ends_bind, ends_content, ends_ite]
  cases many : e.repeated with
  | true =>
    obtain ⟨items, held, is⟩ := here.exists_items rules known many
    simp only [decodeRepeatedExtension, is, held, Extension.kind, many, if_true]
    cases scalar : e.type.isScalar with
    | true =>
      simp only [if_true, ends_bind, ends_decodeScalars, ends_ite, ends_update, Value.extend, Decoding.storeExtension]
      refine succeeds_iff.trans ⟨?_, ?_⟩
      · rintro ⟨⟨scalars, fault⟩, cur₁, taken, raised⟩
        cases fault with
        | some => simp at raised
        | none =>
          cases raised
          exact ⟨_, .repeated taken, rfl⟩
      · rintro ⟨_, takes, rfl⟩
        cases takes with
        | repeated taken => exact ⟨_, _, taken, rfl⟩
    | false =>
      simp only [Bool.false_eq_true, if_false, ends_bind, ends_needList, decodeExtensionMessage,
        ends_reading, Decoding.storeExtension, ends_update, Value.extend]
      refine succeeds_iff.trans ⟨?_, ?_⟩
      · rintro ⟨⟨v, fault⟩, cur₁, taken, raised⟩
        cases fault with
        | some => exact raised.elim
        | none =>
          cases raised
          exact ⟨_, .repeatedMessage taken, rfl⟩
      · rintro ⟨_, takes, rfl⟩
        cases takes with
        | repeatedMessage taken => exact ⟨_, _, taken, rfl⟩
  | false =>
    simp only [decodeSingularExtension, Extension.kind, Content.extended, many, Bool.false_eq_true, if_false]
    cases scalar : e.type.isScalar with
    | true =>
      simp only [if_true, ends_bind, ends_reading, Decoding.storeExtension, ends_update]
      refine succeeds_iff.trans ⟨?_, ?_⟩
      · rintro ⟨s, cur₁, taken, same⟩
        cases same
        exact ⟨_, .scalar taken, rfl⟩
      · rintro ⟨_, takes, rfl⟩
        cases takes with
        | scalar taken => exact ⟨_, _, taken, rfl⟩
    | false =>
      simp only [Bool.false_eq_true, if_false, ends_bind, decodeExtensionMessage, ends_reading,
        ends_ite, ends_update, Decoding.storeExtension, FieldKind.initial]
      refine succeeds_iff.trans ⟨?_, ?_⟩
      · rintro ⟨⟨v, fault⟩, cur₁, taken, raised⟩
        cases fault with
        | some => simp at raised
        | none =>
          cases raised
          exact ⟨_, .message taken, rfl⟩
      · rintro ⟨_, takes, rfl⟩
        cases takes with
        | message taken => exact ⟨_, _, taken, rfl⟩

end

end extensions

/-! ## Spots -/

/-- Where a message keeps what is decoded under a number. -/
inductive Spot where
  /-- A slot, of a field or of a oneof. -/
  | slot (i : Nat)
  | extension (e : Extension)
  /-- The unknown fields, all of them together. -/
  | unknown
  deriving DecidableEq

/-- The spot of a number in the messages of a class, given the extensions that are known. -/
def Plan.ClassPlan.spotOf (table : Option ExtensionTable) (c : ClassPlan) (number : Nat) : Spot :=
  match c.route number with
  | .slot i => .slot i
  | .extension => ((table.bind (·.find? c.id number)).map .extension).getD .unknown
  | .unknown => .unknown

def Value.data : Value → Bytes
  | .scalar (.bytes data) => data
  | _ => []

namespace Content

/-- What a message holds in a spot. -/
def held (p : Program) (m : Content) : Spot → Value
  | .slot i => m.slot i
  | .extension e => m.extended p e
  | .unknown => .bytes m.head.unknown

/-- The message with something else in a spot. -/
def keep (m : Content) : Spot → Value → Content
  | .slot i, v => m.setSlot i v
  | .extension e, v => m.withExtension e v
  | .unknown, v => { m with head := { m.head with unknown := v.data } }

end Content

/-- Between two cursors stands a field of a number, which turns what is held in a spot into something
else. -/
inductive Spot.Takes (p : Program) (decode : Decoding Unit) (c : ClassPlan) (number : Nat)
    (cur cur' : Cursor) : Spot → Value → Value → Prop
  | declared {d : Declared} {old new : Value} (declared : d ∈ c.declared) (named : d.number = number)
      (takes : d.Takes p decode c.id cur cur' old new) : Takes p decode c number cur cur' (.slot d.slot) old new
  | extension {e : Extension} {old new : Value} (takes : (e.kind p).Takes p decode cur cur' old new) :
      Takes p decode c number cur cur' (.extension e) old new
  | unknown {data field : Bytes} (skipped : Cursor.skipUnknown cur = .ok field cur') :
      Takes p decode c number cur cur' .unknown (.bytes data) (.bytes (data ++ field))

section spots

variable {p : Program} {table : Option ExtensionTable} {R : Rules} {decode : Decoding Unit} {t : TypeId}
  {c : ClassPlan} {m m' : Content} {cur cur' : Cursor} {levels number : Nat}

/-- The spot of a number that is not declared: that of a known extension, or among the unknown fields. -/
lemma spotOf_undeclared {a : Schema.Arena} {s : Schema.Message} (planned : Planned a s c)
    (resolved : s.Resolved) (undeclared : ∀ d ∈ c.declared, d.number ≠ number) :
    c.spotOf table number
      = if c.ranges.contains number then ((table.bind (·.find? c.id number)).map .extension).getD .unknown
        else .unknown := by
  rcases planned.route_eq resolved number with ⟨d, declared, same, -⟩ | ⟨-, route⟩
  · exact absurd same (undeclared d declared)
  · rw [ClassPlan.spotOf, route]
    cases c.ranges.contains number <;> rfl

/-- In the slot of a declared number, a field is taken as what is declared. -/
lemma takes_slot_iff {a : Schema.Arena} {s : Schema.Message} (planned : Planned a s c) (resolved : s.Resolved)
    {d : Declared} (declared : d ∈ c.declared) (named : d.number = number) {old new : Value} :
    (Spot.slot d.slot).Takes p decode c number cur cur' old new ↔ d.Takes p decode c.id cur cur' old new := by
  refine ⟨fun takes => ?_, .declared declared named⟩
  generalize isSpot : Spot.slot d.slot = spot at takes
  cases takes with
  | declared declared' named' takes =>
    obtain rfl := planned.declared_ext resolved declared' declared (named'.trans named.symm)
    exact takes
  | extension | unknown => cases isSpot

/-- A field that is kept as an unknown one is skipped, and its bytes are added to the others. -/
lemma keepUnknown_iff (plain : m.loose = []) :
    keepUnknown (m, cur) = .ok () (m', cur')
      ↔ ∃ v, Spot.unknown.Takes p decode c number cur cur' (m.held p .unknown) v ∧ m' = m.keep .unknown v := by
  rw [run_eq_done_iff, Succeeds, ends_keepUnknown plain]
  refine succeeds_iff.trans ⟨?_, ?_⟩
  · rintro ⟨data, cur₁, skipped, same⟩
    cases same
    exact ⟨_, .unknown skipped, rfl⟩
  · rintro ⟨_, takes, rfl⟩
    generalize held : m.held p .unknown = old at takes
    cases takes with
    | unknown skipped =>
      cases held
      exact ⟨_, _, skipped, rfl⟩

/-- **One field.**  Whatever number a field has, it is decoded if it can be taken in the spot of the number,
and nothing else changes. -/
lemma AtField.decodeNumber_spot_iff (ready : p.Ready table) (rules : R.Decoded p table)
    (here : AtField p R (fun _ => False) levels t c number m cur) (assigned : OneofLocals) :
    (∃ last, decodeNumber p table decode c assigned number (m, cur) = .ok last (m', cur'))
      ↔ ∃ v, (c.spotOf table number).Takes p decode c number cur cur' (m.held p (c.spotOf table number)) v
        ∧ m' = m.keep (c.spotOf table number) v := by
  obtain ⟨rfl, s, resolved, planned⟩ := ready.planned here.found
  rcases planned.route_eq resolved number with ⟨d, declared, named, route⟩ | ⟨undeclared, route⟩
  · have spot : c.spotOf table number = .slot d.slot := by rw [ClassPlan.spotOf, route]
    simp only [here.decodeNumber_iff ready rules declared named, spot, takes_slot_iff planned resolved declared named]
    rfl
  · have last : ∀ x : Decoding Unit, (∃ last, (do x; return assigned : Decoding OneofLocals) (m, cur)
        = .ok last (m', cur')) ↔ x (m, cur) = .ok () (m', cur') := by
      intro x
      constructor
      · rintro ⟨_, run⟩
        obtain ⟨_, _, run, ⟨⟩⟩ := run_bind_ok run
        exact run
      · exact fun run => ⟨_, bind_run_ok run rfl⟩
    rw [spotOf_undeclared planned resolved undeclared]
    unfold decodeNumber
    rw [route]
    cases ranged : c.ranges.contains number with
    | false =>
      simp only [Bool.false_eq_true, if_false, last]
      exact keepUnknown_iff here.fits.plain
    | true =>
      have own : c.own.meaning (c.decoderLocals assigned.current assigned.value) = .type c.id := by
        rw [(ready.clear.of_plan here.found).own_meaning ranged (c.map_decoderLocals _ _), planned.own]
      have extended : Extended.ofLoose m.head.bare m.extensions m.loose = .usual m.extensions := by
        simp [Extended.ofLoose, here.fits.plain, here.fits.whole]
      simp only [if_true, last, own, run_eq_done_iff, decodeRanged, ends_bind, ends_content, extended,
        Meaning.evaluated, ends_reading, Cursor.ends_ofExcept_ok]
      cases isTable : table with
      | none => exact run_eq_done_iff.symm.trans (keepUnknown_iff here.fits.plain)
      | some known =>
        cases isKnown : known.find? c.id number with
        | none =>
          simp only [Option.bind_some, isKnown, Option.map_none, Option.getD_none]
          exact run_eq_done_iff.symm.trans (keepUnknown_iff here.fits.plain)
        | some =>
          simp only [Option.bind_some, isKnown, Option.map_some, Option.getD_some]
          refine run_eq_done_iff.symm.trans ((here.decodeExtension_iff rules ⟨known, isTable, isKnown⟩).trans ?_)
          constructor
          · rintro ⟨v, takes, rfl⟩
            exact ⟨v, .extension takes, rfl⟩
          · rintro ⟨v, takes, rfl⟩
            cases takes with
            | extension takes => exact ⟨v, takes, rfl⟩

end spots

end Missive
