import Missive.Proofs.Message.Concat
import Missive.Proofs.Message.Preserve

/-!
# Independent fields

Two adjacent fields of numbers with different spots can change places.  Each of them is taken in its own
spot, where the other one changes nothing, so both orders are accepted or none is.

**Extensions.**  The messages may still differ, in the order of their extensions: it is the order in which
they were set first.  `Reorders` allows for that.  Decoding does not see the order (`Reorders.run`), and
neither do equality and writing.

The main result is `parse_swap`.
-/

namespace Missive

open Plan List

variable {p : Program} {m m' : Content} {c : ClassPlan} {table : Option ExtensionTable}
  {number number' levels : Nat} {t : TypeId} {numbers : List Nat}

/-! ## Extensions in another order -/

/-- Two messages that differ in the order of their extensions at most. -/
structure Content.Reorders (m m' : Content) : Prop where
  head : m.head = m'.head
  slots : m.slots = m'.slots
  loose : m.loose = m'.loose
  extensions : m.extensions.Perm m'.extensions

/-- No two extensions of a message have one number. -/
abbrev Content.Distinct (m : Content) : Prop := (m.extensions.map (·.1.number)).Nodup

section reorders

variable {e e' : Extension} {v w : Value} {extensions others : List (Extension × Value)}

lemma Content.Reorders.refl (m : Content) : m.Reorders m := ⟨rfl, rfl, rfl, .refl _⟩

lemma Content.Reorders.distinct (reorders : m.Reorders m') (distinct : m.Distinct) : m'.Distinct :=
  (reorders.extensions.map _).nodup_iff.1 distinct

/-- Setting an extension is leaving its number out and putting the value first, but for the order. -/
lemma putExtension_perm (distinct : (extensions.map (·.1.number)).Nodup) :
    (Content.putExtension e v extensions).Perm ((e, v) :: extensions.filter fun x => x.1.number != e.number) := by
  induction extensions with
  | nil => simp [Content.putExtension]
  | cons first rest ih =>
    obtain ⟨new, distinct⟩ := nodup_cons.1 distinct
    rw [Content.putExtension_cons, filter_cons]
    by_cases same : first.1.number = e.number
    · have others : rest.filter (fun x => x.1.number != e.number) = rest := by
        refine filter_eq_self.2 fun x member => ?_
        simp only [bne_iff_ne, ne_eq, ← same]
        exact fun equal => new (mem_map.2 ⟨x, member, equal⟩)
      simp [same, others]
    · simp only [beq_iff_eq, same, if_false, bne_iff_ne, ne_eq, not_false_eq_true, if_true]
      exact ((ih distinct).cons first).trans (.swap _ _ _)

lemma Content.Reorders.withExtension (reorders : m.Reorders m') (distinct : m.Distinct) (e : Extension)
    (v : Value) : (m.withExtension e v).Reorders (m'.withExtension e v) := by
  refine ⟨reorders.head, reorders.slots, reorders.loose, ?_⟩
  refine (putExtension_perm distinct).trans (.trans ?_ (putExtension_perm (reorders.distinct distinct)).symm)
  exact (reorders.extensions.filter _).cons _

/-- It does not matter which of two extensions is set first. -/
lemma withExtension_comm (distinct : m.Distinct) (apart : e.number ≠ e'.number) :
    ((m.withExtension e v).withExtension e' w).Reorders ((m.withExtension e' w).withExtension e v) := by
  refine ⟨rfl, rfl, rfl, ?_⟩
  have both : ∀ {e e' : Extension} {v w : Value}, e.number ≠ e'.number →
      (Content.putExtension e' w (Content.putExtension e v m.extensions)).Perm
        ((e', w) :: (e, v) :: (m.extensions.filter fun x => x.1.number != e.number).filter
          fun x => x.1.number != e'.number) := by
    intro e e' v w apart
    refine (putExtension_perm (nodup_putExtension distinct)).trans (.cons _ ?_)
    refine ((putExtension_perm distinct).filter _).trans ?_
    simp [apart]
  refine (both apart).trans (.trans ?_ (both apart.symm).symm)
  rw [filter_comm]
  exact .swap _ _ _

lemma extension?_eq_some_iff {number : Int} (distinct : m.Distinct) :
    m.extension? number = some v ↔ ∃ e, (e, v) ∈ m.extensions ∧ e.number = number := by
  constructor
  · intro there
    obtain ⟨x, found, rfl⟩ := Option.map_eq_some_iff.1 there
    exact ⟨x.1, mem_of_find?_eq_some found, by simpa using find?_some found⟩
  · rintro ⟨e, member, rfl⟩
    rw [Content.extension?, find?_number distinct member]
    rfl

lemma Content.Reorders.extension?_eq (reorders : m.Reorders m') (distinct : m.Distinct) (number : Int) :
    m.extension? number = m'.extension? number := by
  refine Option.ext fun v => ?_
  rw [extension?_eq_some_iff distinct, extension?_eq_some_iff (reorders.distinct distinct)]
  simp only [reorders.extensions.mem_iff]

lemma extension?_withExtension_ne (apart : e.number ≠ e'.number) :
    (m.withExtension e v).extension? e'.number = m.extension? e'.number := by
  unfold Content.extension? Content.withExtension
  dsimp only
  congr 1
  induction m.extensions with
  | nil => simp [Content.putExtension, apart]
  | cons first rest ih =>
    rw [Content.putExtension_cons]
    split
    · rename_i same
      have other : first.1.number ≠ e'.number := by simpa [beq_iff_eq.1 same] using apart
      simp [apart, other]
    · rw [find?_cons, find?_cons, ih]

end reorders

/-! ## Spots that are apart -/

/-- Different spots, where those of extensions have different numbers. -/
def Spot.Apart : Spot → Spot → Prop
  | .slot i, .slot j => i ≠ j
  | .extension e, .extension e' => e.number ≠ e'.number
  | .unknown, .unknown => False
  | _, _ => True

section apart

variable {s s' : Spot} {v w : Value}

lemma Spot.Apart.symm (apart : s.Apart s') : s'.Apart s := by
  cases s <;> cases s' <;> simp_all [Spot.Apart, eq_comm]

lemma apart_spotOf (differ : c.spotOf table number ≠ c.spotOf table number') :
    (c.spotOf table number).Apart (c.spotOf table number') := by
  have extension : ∀ {n : Nat} {e : Extension}, c.spotOf table n = .extension e → e.number = n := by
    intro n e is
    unfold ClassPlan.spotOf at is
    split at is
    · cases is
    · cases found : table.bind (·.find? c.id n) with
      | none => simp [found] at is
      | some e' =>
        obtain rfl : e' = e := by simpa [found] using is
        obtain ⟨known, -, isKnown⟩ := Option.bind_eq_some_iff.1 found
        exact (ExtensionTable.keys_of_find isKnown).2
    · cases is
  cases is : c.spotOf table number with
  | slot =>
    cases is' : c.spotOf table number' with
    | slot => simpa [is, is', Spot.Apart] using differ
    | extension | unknown => trivial
  | extension =>
    cases is' : c.spotOf table number' with
    | slot | unknown => trivial
    | extension =>
      intro same
      rw [extension is, extension is'] at same
      exact differ (by rw [Int.ofNat_inj.1 same])
  | unknown =>
    cases is' : c.spotOf table number' with
    | slot | extension => trivial
    | unknown => exact differ (is.trans is'.symm)

/-- What is kept in a spot changes nothing in others. -/
lemma held_keep (apart : s.Apart s') : (m.keep s v).held p s' = m.held p s' := by
  cases s with
  | slot =>
    cases s' with
    | slot => exact Content.slot_setSlot_ne apart
    | extension | unknown => rfl
  | extension =>
    cases s' with
    | extension =>
      simp only [Content.held, Content.keep, Content.extended]
      rw [extension?_withExtension_ne apart]
    | slot | unknown => rfl
  | unknown =>
    cases s' with
    | unknown => exact apart.elim
    | slot | extension => rfl

lemma held_reorders (reorders : m.Reorders m') (distinct : m.Distinct) : m.held p s = m'.held p s := by
  cases s with
  | slot => rw [Content.held, Content.held, Content.slot, Content.slot, reorders.slots]
  | extension =>
    simp only [Content.held, Content.extended]
    rw [reorders.extension?_eq distinct]
  | unknown => rw [Content.held, Content.held, reorders.head]

lemma keep_reorders (reorders : m.Reorders m') (distinct : m.Distinct) :
    (m.keep s v).Reorders (m'.keep s v) := by
  obtain ⟨head, slots, loose, extensions⟩ := reorders
  cases s with
  | slot i => exact ⟨head, congrArg (List.set · i v) slots, loose, extensions⟩
  | extension e => exact Content.Reorders.withExtension ⟨head, slots, loose, extensions⟩ distinct e v
  | unknown => exact ⟨congrArg (fun h : Head => { h with unknown := v.data }) head, slots, loose, extensions⟩

/-- **Two spots.**  It does not matter in which of them something is kept first. -/
lemma keep_comm (apart : s.Apart s') (distinct : m.Distinct) :
    ((m.keep s v).keep s' w).Reorders ((m.keep s' w).keep s v) := by
  cases s with
  | slot =>
    cases s' with
    | slot => exact ⟨rfl, set_comm _ _ apart, rfl, .refl _⟩
    | extension | unknown => exact .refl _
  | extension =>
    cases s' with
    | extension => exact withExtension_comm distinct apart
    | slot | unknown => exact .refl _
  | unknown =>
    cases s' with
    | unknown => exact apart.elim
    | slot | extension => exact .refl _

end apart

/-! ## Runs -/

/-- What decoding the fields of a class at a depth relies on. -/
structure FieldReader (p : Program) (table : Option ExtensionTable) (decode : Decoding Unit) (t : TypeId)
    (c : ClassPlan) (depth : Nat) : Prop extends NestedReader p table decode depth where
  found : p.plan? t = some c

section runs

variable {decode : Decoding Unit} {depth turns : Nat} {group : Option Nat} {m₁ m₂ : Content}
  {cur cur' : Cursor} {wire : WireType} {tag payload bytes rest : Bytes} {assigned last : OneofLocals}
  {s : Content × Cursor}

lemma Content.Reorders.sound (reorders : m.Reorders m') (sound : m.Known p table depth t c) :
    m'.Known p table depth t c := by
  obtain ⟨head, slots, loose, extensions⟩ := reorders
  obtain ⟨type, whole, plain, unknown, length, slotsFit, any, distinct, extensionsFit⟩ := sound
  refine ⟨head ▸ type, head ▸ whole, loose ▸ plain, head ▸ unknown, slots ▸ length, ?_, slots ▸ any,
    (extensions.map _).nodup_iff.1 distinct, fun x member => extensionsFit x (extensions.mem_iff.2 member)⟩
  unfold Content.slot at slotsFit ⊢
  exact slots ▸ slotsFit

section reader

variable (reader : FieldReader p table decode t c depth)

include reader

section

variable (sound : m.Known p table depth t c) (standing : cur.Standing number) (isDepth : cur.depth = depth)

include sound standing isDepth

lemma FieldReader.atField :
    AtField p (.known table) (fun _ => False) (maxDepth + 1 - depth) t c number m cur := by
  refine ⟨reader.found, sound, standing, ?_⟩
  have := reader.deep
  omega

lemma FieldReader.decodeNumber_iff (assigned : OneofLocals) :
    (∃ last, decodeNumber p table decode c assigned number (m, cur) = .ok last (m', cur'))
      ↔ ∃ v, (c.spotOf table number).Takes p decode c number cur cur' (m.held p (c.spotOf table number)) v
        ∧ m' = m.keep (c.spotOf table number) v :=
  (reader.atField sound standing isDepth).decodeNumber_spot_iff reader.ready (Rules.decoded_known reader.ready) assigned

lemma FieldReader.sound_step (run : decodeNumber p table decode c assigned number (m, cur) = .ok last (m', cur')) :
    m'.Known p table depth t c ∧ cur.Moved cur' :=
  (ends_of_ok run).1 (decodeNumber_spec reader.ready (Rules.decoded_known reader.ready)
    (reader.atField sound standing isDepth) reader.below assigned)

end

/-- **One field.**  The order of extensions makes no difference for decoding a field. -/
lemma Content.Reorders.step (reorders : m.Reorders m') (sound : m.Known p table depth t c)
    (standing : cur.Standing number) (isDepth : cur.depth = depth)
    (run : decodeNumber p table decode c assigned number (m, cur) = .ok last (m₁, cur'))
    (assigned' : OneofLocals) :
    ∃ last' m₁', decodeNumber p table decode c assigned' number (m', cur) = .ok last' (m₁', cur')
      ∧ m₁.Reorders m₁' := by
  obtain ⟨v, takes, rfl⟩ := (reader.decodeNumber_iff sound standing isDepth _).1 ⟨_, run⟩
  rw [held_reorders reorders sound.distinct] at takes
  obtain ⟨last', run'⟩ := (reader.decodeNumber_iff (reorders.sound sound) standing isDepth assigned').2 ⟨v, takes, rfl⟩
  exact ⟨last', _, run', keep_reorders reorders sound.distinct⟩

/-- **All fields.** -/
lemma Content.Reorders.run (reorders : m.Reorders m') (sound : m.Known p table depth t c)
    (before : cur.Before depth group bytes) (enough : bytes.length < turns)
    (run : decodeFields p table decode c turns assigned (m, cur) = .ok () (m₁, cur'))
    (assigned' : OneofLocals) :
    ∃ m₁', decodeFields p table decode c turns assigned' (m', cur) = .ok () (m₁', cur') ∧ m₁.Reorders m₁' := by
  refine (decodeFields_follows reader.nests (S := fun m m' => m.Reorders m' ∧ m.Known p table depth t c) ?_ before
    enough run _ _ ⟨reorders, sound⟩).imp fun _ => And.imp_right And.left
  rintro _ _ _ _ _ _ _ _ _ _ _ _ _ ⟨reorders, sound⟩ tagged stands opens step
  have standing := stands.standing tagged opens
  obtain ⟨last', m₁', step', reorders'⟩ := reorders.step reader sound standing stands.depth step _
  exact ⟨last', m₁', step', reorders', (reader.sound_step sound standing stands.depth step).1⟩

/-! ## Fields one by one -/

section

variable (tagged : SpellsTag tag number wire) (framed : WirePayload levels number wire payload)

include tagged framed

/-- A field that could be decoded is absorbed, whatever follows it and whatever the variables hold. -/
lemma FieldReader.absorbs_of_run
    (stands : cur.Stands depth group number wire (tag ++ (payload ++ rest)) (payload ++ rest))
    (run : decodeNumber p table decode c assigned number (m, cur) = .ok last (m', cur')) :
    Absorbs p table decode c depth group m (tag ++ payload) (· = m') ∧ cur'.Before depth group rest := by
  obtain ⟨payload', rest', whole, framed', before, -, again⟩ :=
    (takes_decodeNumber reader.nests c assigned number).at_field stands run
  obtain ⟨rfl, rfl⟩ := framed.append_inj framed' whole
  refine ⟨absorbs_number tagged framed.ne_endGroup fun {cur₁ rest₁ assigned₁} stands₁ => ?_, before⟩
  obtain ⟨_, ⟨_, cur₂⟩, run₁, -, rfl, before₁⟩ := (again stands₁).exists_run
  rcases alike_decodeNumber (reader.ready.planned reader.found).2 (reader.ready.clear.of_plan reader.found)
    assigned assigned₁ number (m, cur₁) with ⟨_, last₁, _, one, other⟩ | ⟨_, _, one, -⟩
  · cases run₁.symm.trans one
    exact succeeds_iff.2 ⟨last₁, _, other, rfl, before₁⟩
  · cases run₁.symm.trans one

/-- **Cutting off a field.**  A run over a field and more data decodes the field first. -/
lemma FieldReader.cut (before : cur.Before depth group (tag ++ (payload ++ rest)))
    (enough : (tag ++ (payload ++ rest)).length < turns)
    (run : decodeFields p table decode c turns assigned (m, cur) = .ok () s) :
    ∃ cur₁ last m₁ cur₂ turns', cur₁.Stands depth group number wire (tag ++ (payload ++ rest)) (payload ++ rest)
      ∧ decodeNumber p table decode c assigned number (m, cur₁) = .ok last (m₁, cur₂)
      ∧ cur₂.Before depth group rest ∧ rest.length < turns'
      ∧ decodeFields p table decode c turns' last (m₁, cur₂) = .ok () s := by
  obtain ⟨turns, rfl⟩ : ∃ k, turns = k + 1 := ⟨turns - 1, by omega⟩
  obtain ⟨found, ⟨_, cur₁⟩, read, later⟩ := run_bind_ok run
  obtain ⟨rfl, next⟩ := Decoding.reading_eq_ok_iff.1 read
  obtain ⟨rfl, stands⟩ := (ends_of_ok next).1 (Cursor.next_field before tagged framed.ne_endGroup)
  obtain ⟨last, ⟨m₁, cur₂⟩, step, later⟩ := run_bind_ok later
  obtain ⟨-, before'⟩ := reader.absorbs_of_run tagged framed stands step
  have := length_pos_iff.2 tagged.ne_nil
  simp only [length_append] at enough
  exact ⟨cur₁, last, m₁, cur₂, turns, stands, step, before', by omega, later⟩

end

/-- **Cutting off fields.**  A run over fields and more data absorbs the fields first. -/
lemma FieldReader.cut_fields (fields : WireFields levels numbers bytes) (sound : m.Known p table depth t c)
    (before : cur.Before depth group (bytes ++ rest)) (enough : (bytes ++ rest).length < turns)
    (run : decodeFields p table decode c turns assigned (m, cur) = .ok () s) :
    ∃ m₁ cur₁ turns' last, m₁.Known p table depth t c
      ∧ Absorbs p table decode c depth group m bytes (· = m₁) ∧ cur₁.Before depth group rest
      ∧ rest.length < turns' ∧ decodeFields p table decode c turns' last (m₁, cur₁) = .ok () s := by
  induction fields using WireFields.fieldwise generalizing m cur turns assigned with
  | nil => exact ⟨m, cur, turns, assigned, sound, absorbs_nil rfl, before, enough, run⟩
  | cons tagged framed _ ih =>
    rw [append_assoc, append_assoc] at before enough
    obtain ⟨cur₁, last, m₁, cur₂, turns₁, stands, step, before₁, enough₁, run₁⟩ :=
      reader.cut tagged framed before enough run
    obtain ⟨absorbs, -⟩ := reader.absorbs_of_run tagged framed stands step
    obtain ⟨sound₁, -⟩ := reader.sound_step sound (stands.standing tagged framed.ne_endGroup) stands.depth step
    obtain ⟨m₂, cur₃, turns₂, last₂, sound₂, absorbs₂, rest₂⟩ := ih sound₁ before₁ enough₁ run₁
    refine ⟨m₂, cur₃, turns₂, last₂, sound₂, ?_, rest₂⟩
    rw [← append_assoc]
    refine absorbs.trans ?_
    rintro _ rfl
    exact absorbs₂

/-! ## Two fields -/

/-- **Two fields.**  Where a field can be decoded and then one with another spot, they can be in the other
order, and the message is the same but for the order of its extensions. -/
lemma FieldReader.swap {wire' : WireType} {tag' payload' other : Bytes} {cur₁ cur₂ cur₃ : Cursor}
    {last' : OneofLocals} (apart : c.spotOf table number ≠ c.spotOf table number')
    (sound : m.Known p table depth t c) (tagged : SpellsTag tag number wire)
    (framed : WirePayload levels number wire payload) (tagged' : SpellsTag tag' number' wire')
    (framed' : WirePayload levels number' wire' payload')
    (stands : cur.Stands depth group number wire (tag ++ (payload ++ rest)) (payload ++ rest))
    (step : decodeNumber p table decode c assigned number (m, cur) = .ok last (m₁, cur₁))
    (stands' : cur₂.Stands depth group number' wire' (tag' ++ (payload' ++ other)) (payload' ++ other))
    (step' : decodeNumber p table decode c last number' (m₁, cur₂) = .ok last' (m₂, cur₃)) :
    ∃ m₂', Absorbs p table decode c depth group m (tag' ++ payload' ++ (tag ++ payload)) (· = m₂')
      ∧ m₂.Reorders m₂' := by
  have isApart := apart_spotOf apart
  have standing := stands.standing tagged framed.ne_endGroup
  have standing' := stands'.standing tagged' framed'.ne_endGroup
  have sound₁ := (reader.sound_step sound standing stands.depth step).1
  obtain ⟨v, takes, rfl⟩ := (reader.decodeNumber_iff sound standing stands.depth _).1 ⟨_, step⟩
  obtain ⟨w, takes', rfl⟩ := (reader.decodeNumber_iff sound₁ standing' stands'.depth _).1 ⟨_, step'⟩
  -- The second field finds what was there before the first one.
  rw [held_keep isApart] at takes'
  obtain ⟨lastOther, stepOther⟩ :=
    (reader.decodeNumber_iff sound standing' stands'.depth {}).2 ⟨w, takes', rfl⟩
  have soundOther := (reader.sound_step sound standing' stands'.depth stepOther).1
  rw [← held_keep (v := w) isApart.symm] at takes
  obtain ⟨_, stepBoth⟩ :=
    (reader.decodeNumber_iff soundOther standing stands.depth {}).2 ⟨v, takes, rfl⟩
  refine ⟨_, ?_, keep_comm isApart sound.distinct⟩
  refine (reader.absorbs_of_run tagged' framed' stands' stepOther).1.trans ?_
  rintro _ rfl
  exact (reader.absorbs_of_run tagged framed stands stepBoth).1

/-- **A swap inside a run.**  Where data can be decoded, so can data with two adjacent fields swapped that
have different spots. -/
lemma FieldReader.swap_run {turns' : Nat} {front a b back : Bytes} {other : Cursor}
    (ahead : WireFields levels numbers front) (one : WireFields levels [number] a)
    (second : WireFields levels [number'] b) (apart : c.spotOf table number ≠ c.spotOf table number')
    (sound : m.Known p table depth t c) (before : cur.Before depth group (front ++ (a ++ (b ++ back))))
    (enough : (front ++ (a ++ (b ++ back))).length < turns)
    (before' : other.Before depth group (front ++ (b ++ (a ++ back))))
    (enough' : (front ++ (b ++ (a ++ back))).length < turns') (assigned' : OneofLocals)
    (run : outcome (decodeFields p table decode c turns assigned (m, cur)) = .ok m₁) :
    ∃ m₁', outcome (decodeFields p table decode c turns' assigned' (m, other)) = .ok m₁' ∧ m₁.Reorders m₁' := by
  obtain ⟨_, cur', run⟩ := outcome_eq_ok_iff.1 run
  obtain ⟨tag, payload, wire, tagged, framed, rfl⟩ := one.exists_single
  obtain ⟨tag', payload', wire', tagged', framed', rfl⟩ := second.exists_single
  -- The run up to the two fields, over the first of them, over the second, and behind them.
  obtain ⟨m₂, cur₂, turns₂, last₂, sound₂, absorbs, before₂, enough₂, run₂⟩ :=
    reader.cut_fields ahead sound before enough run
  rw [append_assoc] at before₂ enough₂
  obtain ⟨cur₃, last₃, m₃, cur₄, turns₃, stands₃, step₃, before₃, enough₃, run₃⟩ :=
    reader.cut tagged framed before₂ enough₂ run₂
  rw [append_assoc] at before₃ enough₃
  obtain ⟨cur₅, last₅, m₅, cur₆, turns₅, stands₅, step₅, before₅, enough₅, run₅⟩ :=
    reader.cut tagged' framed' before₃ enough₃ run₃
  have sound₃ := (reader.sound_step sound₂ (stands₃.standing tagged framed.ne_endGroup) stands₃.depth step₃).1
  have sound₅ := (reader.sound_step sound₃ (stands₅.standing tagged' framed'.ne_endGroup) stands₅.depth step₅).1
  obtain ⟨m₅', absorbs', reorders⟩ :=
    reader.swap apart sound₂ tagged framed tagged' framed' stands₃ step₃ stands₅ step₅
  obtain ⟨m₁', run', reorders'⟩ := reorders.run reader sound₅ before₅ enough₅ run₅ {}
  refine ⟨m₁', ?_, reorders'⟩
  have whole : Absorbs p table decode c depth group m (front ++ (tag' ++ payload' ++ (tag ++ payload))) (· = m₅') := by
    refine absorbs.trans ?_
    rintro _ rfl
    exact absorbs'
  rw [outcome_eq_iff]
  have data : front ++ (tag' ++ payload' ++ (tag ++ payload ++ back))
      = front ++ (tag' ++ payload' ++ (tag ++ payload)) ++ back := by simp
  rw [data] at before' enough'
  refine whole assigned' before' enough' ?_
  rintro last _ cur₇ turns₇ rfl before₇ enough₇
  rw [← outcome_eq_iff, outcome_decodeFields reader.nests (reader.ready.planned reader.found).2
    (reader.ready.clear.of_plan reader.found) before₇ before₅ enough₇ enough₅ last {}, run']
  rfl

end reader

end runs

/-! ## Writing and comparing -/

section shown

/-- The extensions in a range are visited by number, whatever order they are in. -/
lemma rangeItems_perm {xs ys : List (Extension × Walked)} (perm : xs.Perm ys)
    (distinct : (xs.map (·.1.number)).Nodup) (start stop : Int) :
    rangeItems p start stop xs = rangeItems p start stop ys := by
  have distinct' : (ys.map (·.1.number)).Nodup := (perm.map _).nodup_iff.1 distinct
  unfold rangeItems
  dsimp only
  refine congrArg _ (congrArg _ ?_)
  refine Perm.eq_of_pairwise
    (fun a b _ _ (less : a.1.number < b.1.number) more => absurd (less.trans more) (lt_irrefl _)) ?_ ?_
    ((sortBy_perm _ _).trans ((perm.filter _).trans (sortBy_perm _ _).symm))
  · exact pairwise_lt_sortBy _ (distinct.sublist (filter_sublist.map _))
  · exact pairwise_lt_sortBy _ (distinct'.sublist (filter_sublist.map _))

lemma visitAll_congr {x y : Extended Walked}
    (same : ∀ start stop, extendedItems p start stop x = extendedItems p start stop y) (slots : List Walked)
    (visits : List Visit) : visitAll p c x slots visits = visitAll p c y slots visits := by
  induction visits generalizing slots with
  | nil => rfl
  | cons visit rest ih =>
    have first : visitItems p c slots x visit = visitItems p c slots y visit := by
      cases visit with
      | extensions start stop => exact same start stop
      | field | oneof => rfl
    rw [visitAll, visitAll, ih, first]

/-- **Writing** does not see the order of extensions. -/
lemma Content.Reorders.serialize_eq (reorders : m.Reorders m') (distinct : m.Distinct) (plain : m.loose = []) :
    p.serialize m.value = p.serialize m'.value := by
  obtain ⟨head, slots, extensions, loose⟩ := m
  obtain ⟨head', slots', extensions', loose'⟩ := m'
  obtain ⟨rfl, rfl, rfl, perm⟩ := reorders
  obtain rfl : loose = [] := plain
  have ranges : ∀ start stop, extendedItems p start stop
      (.ofLoose head.bare (extensions.map fun x => (x.1, p.walk x.2)) []) = extendedItems p start stop
          (.ofLoose head.bare (extensions'.map fun x => (x.1, p.walk x.2)) []) := by
    intro start stop
    have numbers : ((extensions.map fun x => (x.1, p.walk x.2)).map (·.1.number)).Nodup := by
      simpa [Function.comp_def] using distinct
    cases bare : head.bare with
    | true => rfl
    | false => exact rangeItems_perm (perm.map _) numbers start stop
  have items : p.content (p.walk (Content.value ⟨head, slots, extensions, []⟩))
      = p.content (p.walk (Content.value ⟨head, slots, extensions', []⟩)) := by
    show p.summarizeItems head (partList _ _) (partExtensions _ _) (partLoose _ [])
      = p.summarizeItems head (partList _ _) (partExtensions _ _) (partLoose _ [])
    rw [partExtensions_eq_map, partExtensions_eq_map]
    unfold Program.summarizeItems partLoose
    cases found : p.plan? head.type with
    | none => rfl
    | some =>
      simp only [lookup_nil, Option.isSome_none, Bool.false_eq_true, if_false]
      congr 1
      exact visitAll_congr ranges _ _
  have marks : wireMarks (p.walk (Content.value ⟨head, slots, extensions, []⟩))
      = wireMarks (p.walk (Content.value ⟨head, slots, extensions', []⟩)) := rfl
  rw [Program.serialize, Program.serialize, Program.wireContent, Program.wireContent, items, marks]

/-- Rules that ask for nothing but numbers that are numbers. -/
def Rules.numeric : Rules where
  scalar := fun _ s => s.isNaN = false

/-- **Comparing** does not see the order of extensions. -/
lemma Content.Reorders.same {depth : Nat} (ready : p.Ready table) (comparable : p.Comparable)
    (found : p.plan? t = some c) (sound : m.Known p table depth t c) (reorders : m.Reorders m')
    (typed : Typed p .numeric (fun _ => False) levels t m.value) : Same p m.value m'.value := by
  have sound' := reorders.sound sound
  have shared : ∀ {t c}, p.plan? t = some c → c.isAny = true → c.isIndirected = true := by
    intro t c found
    obtain ⟨-, s, -, planned⟩ := ready.planned found
    exact planned.shared
  have numeric : Rules.numeric.Numeric := fun _ _ number => number
  have inner : (inside p .numeric (fun _ => False) levels).Reflexive p := by
    refine reflexive_inside (fun k _ t v typed => ?_) nofun
    exact typed.same_self numeric comparable shared nofun
  have fits := typed.fits found
  refine same_message comparable (sound'.type ▸ found) (shared found)
    ⟨congrArg Head.type reorders.head, ⟨sound.plain, sound'.plain⟩, ⟨sound.whole, sound'.whole⟩,
      congrArg Head.unknown reorders.head, fun plain => ?_, fun isAny => ?_, reorders.extensions.length_eq,
      ⟨sound.distinct, sound'.distinct⟩, fun x member => ?_, fun x member => ?_⟩
  · rw [← reorders.slots]
    refine forall₂_same.2 fun v member => ?_
    obtain ⟨i, inside, rfl⟩ := getElem_of_mem member
    have room : i < c.slots.length := fits.length plain ▸ inside
    have slot := fits.slots plain i _ (getElem?_eq_getElem room)
    simpa [Content.slot, inside] using fits_slot_same_self numeric inner slot
  · rw [← reorders.slots]
    obtain ⟨url, data, slots⟩ := sound.exists_bytes (fun _ => id) isAny
    exact ⟨url, data, .none, ⟨_, slots, by rw [slots]; rfl⟩, _, slots, by rw [slots]; rfl⟩
  · obtain ⟨-, -, -, extensionFits⟩ := fits.extensions x member
    exact ⟨x.2, reorders.extensions.mem_iff.1 member, fits_extension_same_self numeric inner extensionFits⟩
  · have member' := reorders.extensions.mem_iff.2 member
    obtain ⟨-, -, -, extensionFits⟩ := fits.extensions x member'
    exact ⟨x.2, member', fits_extension_same_self numeric inner extensionFits⟩

end shown

/-! ## Reading a message -/

section parse

/-- What reading gives: scalars in the range of their type, and extensions that are known. -/
def Rules.ranged (table : Option ExtensionTable) : Rules where
  scalar := FieldType.Holds
  extension := fun t e _ => ∃ known ∈ table, known.find? t e.number = some e

lemma Rules.decoded_ranged (ready : p.Ready table) (valid : p.Valid) : (Rules.ranged table).Decoded p table where
  sorts := fun _ _ holds => holds.sorts
  gives := fun _ _ _ gives => gives.holds
  default := fun _ scalar => FieldType.holds_default scalar
  initial := fun _ _ _ _ _ _ found declared kind => valid.initial_holds ready found declared kind
  packed := fun _ _ => trivial
  message := fun _ => trivial
  entry := fun _ _ _ _ => trivial
  extension := fun _ _ _ => Iff.rfl
  nothing := fun _ _ => trivial
  unknown := fun _ _ _ _ _ _ _ _ => trivial

lemma Rules.encodable_ranged : (Rules.ranged table).Encodable := encodable_of_holds id

/-- What was read can be written. -/
lemma exists_serialize {files : List Schema.FileDecl} {options : Plan.Options}
    (built : Program.build files options = .ok p) (ready : p.Ready table) (valid : p.Valid)
    (found : p.plan? t = some c) {data : Bytes} (parsed : parse p table t data = .ok m) :
    ∃ bytes, p.serialize m.value = .ok bytes := by
  have typed := (Rules.decoded_ranged ready valid).typed ready found parsed
  obtain ⟨bytes, spells⟩ := typed.exists_spells built ready.regular Rules.encodable_ranged nofun
  exact ⟨bytes, spells.serialize⟩

section

variable (ready : p.Ready table) (found : p.plan? t = some c)

include ready found

/-- Reading a message goes over the fields of the data, from a new message on. -/
lemma parse_eq_outcome :
    ∃ start, start.Known p table 0 t c ∧ ∀ data, parse p table t data
      = outcome (decodeFields p table (decodeMessage p table (maxDepth + 1)) c (data.length + 1) {}
          (start, Cursor.ofBytes data)) := by
  obtain ⟨start, made, fits⟩ := fresh_fits ready (Rules.decoded_known ready) found
    (inside p (.known table) (fun _ => False) (maxDepth + 1))
  refine ⟨start.merged, fits.merged, fun data => ?_⟩
  · have into : outcome (decodeInto p table (decodeMessage p table (maxDepth + 1)) (start, Cursor.ofBytes data)) = _ :=
      outcome_decodeInto (fits.type ▸ found) (by simp [Content.replaces, fits.plain])
        (by simp [checkOwners, Content.replaces, fits.plain, (ready.clear.of_plan found).owners])
    rw [parse, made]
    exact merging_eq_outcome.trans into

lemma sound_of_parse {data : Bytes} (parsed : parse p table t data = .ok m) : m.Known p table 0 t c :=
  ((Rules.decoded_known ready).typed ready found parsed).fits found

lemma fieldReader_parse :
    FieldReader p table (decodeMessage p table (maxDepth + 1)) t c 0 where
  toNestedReader := nestedReader ready (by omega) (by omega)
  found := found

/-- Data with two adjacent fields swapped is read, if the fields have different spots. -/
lemma exists_parse_swap {front a b : Bytes} (ahead : WireFields levels numbers front)
    (one : WireFields levels [number] a) (other : WireFields levels [number'] b)
    (apart : c.spotOf table number ≠ c.spotOf table number') (back : Bytes)
    (parsed : parse p table t (front ++ (a ++ (b ++ back))) = .ok m) :
    ∃ m', parse p table t (front ++ (b ++ (a ++ back))) = .ok m' ∧ m.Reorders m' := by
  obtain ⟨start, sound, outcomes⟩ := parse_eq_outcome ready found
  rw [outcomes] at parsed
  obtain ⟨m', run, reorders⟩ := (fieldReader_parse ready found).swap_run ahead one other apart sound
    (Cursor.before_ofBytes _) (Nat.lt_succ_self _) (Cursor.before_ofBytes _) (Nat.lt_succ_self _) {} parsed
  exact ⟨m', (outcomes _).trans run, reorders⟩

end

end parse

/-- **Independent fields commute.**  Two adjacent fields whose numbers have different spots can be swapped:
either both data are rejected, or both are read, as messages that are written in the same way and that are
equal if there are no not-a-numbers in them. -/
theorem parse_swap {files : List Schema.FileDecl} {options : Plan.Options} {p : Program}
    (built : Program.build files options = .ok p) (regular : p.arena.Regular) (clear : p.Clear)
    (comparable : p.Comparable) (valid : p.Valid) {table : Option ExtensionTable}
    (extensions : ∀ known ∈ table, known.Clear p) {t : TypeId} {c : ClassPlan} (found : p.plan? t = some c)
    {levels number number' : Nat} {numbers : List Nat} {front a b : Bytes}
    (ahead : WireFields levels numbers front) (one : WireFields levels [number] a)
    (other : WireFields levels [number'] b) (apart : c.spotOf table number ≠ c.spotOf table number')
    (back : Bytes) :
    (∃ f f', parse p table t (front ++ (a ++ (b ++ back))) = .error f
        ∧ parse p table t (front ++ (b ++ (a ++ back))) = .error f')
      ∨ ∃ m m' bytes, parse p table t (front ++ (a ++ (b ++ back))) = .ok m
        ∧ parse p table t (front ++ (b ++ (a ++ back))) = .ok m'
        ∧ p.serialize m.value = .ok bytes ∧ p.serialize m'.value = .ok bytes
        ∧ (Typed p .numeric (fun _ => False) (maxDepth + 1) t m.value → Same p m.value m'.value) := by
  have ready : p.Ready table := Program.ready_of_build built regular clear extensions
  cases parsed : parse p table t (front ++ (a ++ (b ++ back))) with
  | error f =>
    cases parsed' : parse p table t (front ++ (b ++ (a ++ back))) with
    | error f' => exact .inl ⟨f, f', rfl, rfl⟩
    | ok =>
      obtain ⟨m, accepted, -⟩ := exists_parse_swap ready found ahead other one apart.symm back parsed'
      cases parsed.symm.trans accepted
  | ok m =>
    obtain ⟨m', parsed', reorders⟩ := exists_parse_swap ready found ahead one other apart back parsed
    obtain ⟨bytes, serialized⟩ := exists_serialize built ready valid found parsed
    have sound := sound_of_parse ready found parsed
    refine .inr ⟨m, m', bytes, rfl, parsed', serialized, ?_, fun numeric => ?_⟩
    · rw [← reorders.serialize_eq sound.distinct sound.plain, serialized]
    · exact reorders.same ready comparable found sound numeric

/-- Fields of three spots: a oneof, an extension and the unknown fields. -/
lemma sampleFields : WireFields 0 [4] [0x22, 0] ∧ WireFields 0 [10] [0x50, 5] ∧ WireFields 0 [15] [0x78, 1] := by
  have spells : ∀ n : Nat, n < word64 → ∀ bytes, Varint.encode n = bytes → Varint.Spells bytes n :=
    fun n small bytes encoded => encoded ▸ Varint.spells_encode small
  have tag : ∀ (number : Nat) (wire : WireType) (b : UInt8), 1 ≤ number → number ≤ maxFieldNumber →
      number * 8 + wire.number < word64 → Varint.encode (number * 8 + wire.number : Nat) = [b] →
      SpellsTag [b] number wire :=
    fun _ _ _ positive bounded small encoded => ⟨spells _ small _ encoded, positive, bounded⟩
  have empty : WirePayload 0 4 .lengthDelimited [0] := .flat ⟨[0], [], rfl, spells _ (by decide) _ (by decide +kernel)⟩
  have five : WirePayload 0 10 .varint [5] := .flat ⟨5, spells _ (by decide) _ (by decide +kernel)⟩
  have one : WirePayload 0 15 .varint [1] := .flat ⟨1, spells _ (by decide) _ (by decide +kernel)⟩
  exact ⟨empty.single (tag 4 .lengthDelimited 0x22 (by decide) (by decide) (by decide) (by decide +kernel)),
    five.single (tag 10 .varint 0x50 (by decide) (by decide) (by decide) (by decide +kernel)),
    one.single (tag 15 .varint 0x78 (by decide) (by decide) (by decide) (by decide +kernel))⟩

theorem parse_swap_sample :
    (sampleProgram.arena.Regular ∧ sampleProgram.Clear ∧ sampleProgram.Comparable ∧ sampleProgram.Valid
        ∧ samplePlan.spotOf (some [sampleExtension]) 10 ≠ samplePlan.spotOf (some [sampleExtension]) 15)
      ∧ ∃ m m', parse sampleProgram (some [sampleExtension]) 0 [0x22, 0, 0x50, 5, 0x78, 1, 0x22, 0] = .ok m
        ∧ parse sampleProgram (some [sampleExtension]) 0 [0x22, 0, 0x78, 1, 0x50, 5, 0x22, 0] = .ok m'
        ∧ sampleProgram.serialize m.value = .ok [0x22, 0, 0x50, 5, 0x78, 1]
        ∧ sampleProgram.serialize m'.value = .ok [0x22, 0, 0x50, 5, 0x78, 1] := by
  obtain ⟨regular, clear, comparable, valid, extensions, apart, written⟩ : sampleProgram.arena.Regular
      ∧ sampleProgram.Clear ∧ sampleProgram.Comparable ∧ sampleProgram.Valid
      ∧ (∀ known ∈ some [sampleExtension], ExtensionTable.Clear sampleProgram known)
      ∧ samplePlan.spotOf (some [sampleExtension]) 10 ≠ samplePlan.spotOf (some [sampleExtension]) 15
      ∧ (parse sampleProgram (some [sampleExtension]) 0 [0x22, 0, 0x50, 5, 0x78, 1, 0x22, 0] >>=
        fun m => sampleProgram.serialize m.value) = .ok [0x22, 0, 0x50, 5, 0x78, 1] := by decide +kernel
  obtain ⟨oneof, extension, unknown⟩ := sampleFields
  refine ⟨⟨regular, clear, comparable, valid, apart⟩, ?_⟩
  obtain ⟨m₁, accepted, serialized⟩ := bind_ok written
  rcases parse_swap build_sample regular clear comparable valid extensions plan_sample oneof extension unknown
    apart [0x22, 0] with ⟨f, -, rejected, -⟩ | ⟨m, m', bytes, parsed, parsed', same, same', -⟩
  · cases accepted.symm.trans rejected
  · cases accepted.symm.trans parsed
    cases serialized.symm.trans same
    exact ⟨m₁, m', parsed, parsed', serialized, same'⟩

/-- Where a variable of a decoder hides the class, a field of an extension range cannot be read before a
member of the oneof. -/
theorem parse_swap_hidden :
    ∃ p c, Program.build currentFiles {} = .ok p ∧ p.arena.Regular ∧ p.Comparable ∧ p.Valid
      ∧ p.plan? 0 = some c ∧ c.spotOf none 1 ≠ c.spotOf none 10
      ∧ (∃ m, parse p none 0 ([8, 1] ++ [0x50, 5]) = .ok m)
      ∧ parse p none 0 ([0x50, 5] ++ [8, 1]) = .error .unassigned := by
  obtain ⟨able, regular, comparable, valid, isClass, apart, reads, fault⟩ :
      (Program.build currentFiles {}).isOk = true ∧ (Program.ofFiles currentFiles).arena.Regular
      ∧ (Program.ofFiles currentFiles).Comparable ∧ (Program.ofFiles currentFiles).Valid
      ∧ ((Program.ofFiles currentFiles).plan? 0).isSome = true
      ∧ (∀ c ∈ (Program.ofFiles currentFiles).plan? 0, c.spotOf none 1 ≠ c.spotOf none 10)
      ∧ (parse (.ofFiles currentFiles) none 0 ([8, 1] ++ [0x50, 5])).isOk = true
      ∧ faultOf? (parse (.ofFiles currentFiles) none 0 ([0x50, 5] ++ [8, 1])) = some .unassigned := by
    decide +kernel
  obtain ⟨c, found⟩ := Option.isSome_iff_exists.1 isClass
  exact ⟨.ofFiles currentFiles, c, Program.build_ofFiles able, regular, comparable, valid, found, apart c found,
    exists_of_isOk reads, eq_error_of_faultOf? fault⟩

end Missive
