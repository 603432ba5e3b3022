import Missive.Proofs.Message.Total
import Missive.Proofs.Wire.Fields

/-!
# Absorbing fields

A message absorbs some bytes if decoding goes on from behind them with another message, whatever follows
them.  Absorbing is transitive, so a message absorbs fields in a row if it absorbs each of them.

**Unknown fields.**  A message absorbs well-formed fields that it does not know, and is then the same
message with their bytes behind its other unknown ones.  Of a message that knows no fields at all, data
that can be decoded is nothing else.
-/

namespace Missive

open Plan List Decoding

variable {turns : Nat} {assigned : OneofLocals}

lemma eq_error_of_faultOf? {α : Type} {x : Except Fault α} {f : Fault} (fault : faultOf? x = some f) :
    x = .error f := by
  cases x with
  | ok => cases fault
  | error => exact congrArg _ (Option.some.inj fault)

section absorb

variable {p : Program} {table : Option ExtensionTable} {decode : Decoding Unit} {c : ClassPlan}
  {cur : Cursor} {depth levels number : Nat} {group : Option Nat} {m : Content} {a b bytes : Bytes}
  {P P' : Content → Prop}

/-! ## Starting -/

lemma parse_eq_ok_iff {t : TypeId} {start : Content} (made : Content.fresh p t = .ok start) {data : Bytes} :
    parse p table t data = .ok m ↔ ∃ cur, decodeWith p table (start, Cursor.ofBytes data) = .ok () (m, cur) := by
  unfold parse mergeBytes
  rw [made]
  cases run : decodeWith p table (start, Cursor.ofBytes data) with
  | ok => simp [run, Prod.ext_iff]
  | error => simp [run]

lemma ends_decodeInto_of (found : p.plan? m.head.type = some c)
    (reachable : m.replaces "decode_message" = false) (counted : checkOwners c m = .ok ()) {Q E} :
    Ends (decodeInto p table decode) (m, cur) Q E ↔ Ends (decodeFields p table decode c (cur.rest.length + 1) {})
          (m.merged, cur) Q E := by
  simp only [decodeInto, ends_bind, ends_get, reachable, Bool.false_eq_true, if_false, found,
    ends_reading, counted, Cursor.ends_ofExcept_ok, ends_update]

lemma ends_decodeInto (found : p.plan? m.head.type = some c) (plain : m.loose = [])
    (owners : c.ownersSlot? = none) {Q E} :
    Ends (decodeInto p table decode) (m, cur) Q E ↔ Ends (decodeFields p table decode c (cur.rest.length + 1) {})
          (m.merged, cur) Q E := by
  refine ends_decodeInto_of found ?_ ?_
  · simp [Content.replaces, plain]
  · simp [checkOwners, Content.replaces, plain, owners]

lemma Content.Fits.decodeInto_eq_ok_iff {R : Rules} {I : Inside} {t : TypeId} (fits : m.Fits R I t c)
    (ready : p.Ready table) (found : p.plan? t = some c) {s : Content × Cursor} :
    decodeInto p table decode (m, cur) = .ok () s
      ↔ decodeFields p table decode c (cur.rest.length + 1) {} (m.merged, cur) = .ok () s := by
  rw [run_eq_ok_iff, run_eq_ok_iff, Succeeds, Succeeds,
    ends_decodeInto (fits.type ▸ found) fits.plain (ready.clear.of_plan found).owners]

/-! ## Absorbing -/

/-- Decoding goes on from behind some bytes, with variables and a message that are as `P` says, whatever
follows the bytes. -/
def Passes (p : Program) (table : Option ExtensionTable) (decode : Decoding Unit) (c : ClassPlan)
    (depth : Nat) (group : Option Nat) (assigned : OneofLocals) (m : Content) (bytes : Bytes)
    (P : OneofLocals → Content → Prop) : Prop :=
  ∀ ⦃Q E⦄ ⦃rest : Bytes⦄ ⦃cur : Cursor⦄ ⦃turns : Nat⦄,
    cur.Before depth group (bytes ++ rest) → (bytes ++ rest).length < turns →
    (∀ ⦃last : OneofLocals⦄ ⦃m' : Content⦄ ⦃cur : Cursor⦄ ⦃turns : Nat⦄, P last m' →
      cur.Before depth group rest → rest.length < turns →
      Ends (decodeFields p table decode c turns last) (m', cur) Q E) →
    Ends (decodeFields p table decode c turns assigned) (m, cur) Q E

section passes

variable {P P' : OneofLocals → Content → Prop}

lemma passes_nil (h : P assigned m) : Passes p table decode c depth group assigned m [] P := by
  intro Q E rest cur turns before enough later
  exact later h before enough

lemma Passes.trans (first : Passes p table decode c depth group assigned m a P)
    (second : ∀ last m', P last m' → Passes p table decode c depth group last m' b P') :
    Passes p table decode c depth group assigned m (a ++ b) P' := by
  intro Q E rest cur turns before enough later
  rw [append_assoc] at before enough
  exact first before enough fun last m' _ _ h before enough => second last m' h before enough later

/-- A field is passed by decoding its number. -/
lemma passes_number {tag payload : Bytes} {wire : WireType} (tagged : SpellsTag tag number wire)
    (opens : wire ≠ .endGroup)
    (step : ∀ {cur : Cursor} {rest : Bytes},
      cur.Stands depth group number wire (tag ++ (payload ++ rest)) (payload ++ rest) →
      Succeeds (decodeNumber p table decode c assigned number) (m, cur)
        fun last s => P last s.1 ∧ s.2.Before depth group rest) :
    Passes p table decode c depth group assigned m (tag ++ payload) P := by
  intro Q E rest cur turns before enough later
  have front := length_pos_iff.2 tagged.ne_nil
  rw [append_assoc] at before enough
  simp only [length_append] at enough
  obtain ⟨turns, rfl⟩ : ∃ k, turns = k + 1 := ⟨turns - 1, by omega⟩
  simp only [decodeFields, ends_bind, ends_reading]
  refine (Cursor.next_field before tagged opens).ends ?_
  rintro found cur' ⟨rfl, stands⟩
  simp only [ends_bind]
  refine (step stands).ends ?_
  rintro last ⟨m', cur''⟩ ⟨holds, before'⟩
  exact later holds before' (by omega)

/-- Decoding ends behind what was passed, if nothing else follows. -/
lemma Passes.succeeds (passes : Passes p table decode c depth group assigned m bytes P) {tail rest : Bytes}
    (closes : Cursor.Closes group tail rest) (before : cur.Before depth group (bytes ++ tail))
    (enough : (bytes ++ tail).length < turns) :
    Succeeds (decodeFields p table decode c turns assigned) (m, cur)
      fun _ s => (∃ last, P last s.1) ∧ s.2.rest = rest := by
  refine passes before enough fun last m' cur turns holds before enough => ?_
  obtain ⟨turns, rfl⟩ : ∃ k, turns = k + 1 := ⟨turns - 1, by omega⟩
  simp only [decodeFields, ends_bind, ends_reading]
  cases closes with
  | message =>
    refine (Cursor.next_end before).ends ?_
    rintro - cur' ⟨rfl, left⟩
    exact ⟨⟨last, holds⟩, left⟩
  | group closes =>
    refine (Cursor.next_close before closes).ends ?_
    rintro - cur' ⟨rfl, left⟩
    exact ⟨⟨last, holds⟩, left⟩

end passes

/-- Decoding goes on from behind some bytes, with a message that is as `P` says, whatever the variables
hold. -/
def Absorbs (p : Program) (table : Option ExtensionTable) (decode : Decoding Unit) (c : ClassPlan)
    (depth : Nat) (group : Option Nat) (m : Content) (bytes : Bytes) (P : Content → Prop) : Prop :=
  ∀ assigned, Passes p table decode c depth group assigned m bytes fun _ => P

lemma absorbs_nil (h : P m) : Absorbs p table decode c depth group m [] P :=
  fun _ => passes_nil h

lemma Absorbs.trans (first : Absorbs p table decode c depth group m a P)
    (second : ∀ m', P m' → Absorbs p table decode c depth group m' b P') :
    Absorbs p table decode c depth group m (a ++ b) P' :=
  fun assigned => (first assigned).trans fun last m' h => second m' h last

lemma Absorbs.mono (h : Absorbs p table decode c depth group m a P) (weaker : ∀ m', P m' → P' m') :
    Absorbs p table decode c depth group m a P' := by
  intro assigned Q E rest cur turns before enough later
  exact h assigned before enough fun _ m' _ _ holds => later (weaker m' holds)

lemma absorbs_number {tag payload : Bytes} {wire : WireType} (tagged : SpellsTag tag number wire)
    (opens : wire ≠ .endGroup)
    (step : ∀ {cur : Cursor} {rest : Bytes} {assigned : OneofLocals},
      cur.Stands depth group number wire (tag ++ (payload ++ rest)) (payload ++ rest) →
      Succeeds (decodeNumber p table decode c assigned number) (m, cur)
        fun _ s => P s.1 ∧ s.2.Before depth group rest) :
    Absorbs p table decode c depth group m (tag ++ payload) P :=
  fun _ => passes_number tagged opens step

lemma Absorbs.succeeds (absorbs : Absorbs p table decode c depth group m bytes P) {tail rest : Bytes}
    (closes : Cursor.Closes group tail rest) (before : cur.Before depth group (bytes ++ tail))
    (enough : (bytes ++ tail).length < turns) (assigned : OneofLocals) :
    Succeeds (decodeFields p table decode c turns assigned) (m, cur) fun _ s => P s.1 ∧ s.2.rest = rest := by
  refine ((absorbs assigned).succeeds closes before enough).ends ?_
  rintro - s ⟨⟨-, holds⟩, left⟩
  exact ⟨holds, left⟩

/-- Items are absorbed one by one, if each of them is after those before it. -/
lemma absorbs_all {α β : Type} {encode : α → Except Fault Bytes} (rel : β → α → Prop)
    (State : List β → Content → Prop) {items : List α} (start : State [] m)
    (encoded : Encoding.all encode items = .ok bytes)
    (each : ∀ {done x later xs m bytes}, items = done ++ x :: later → Forall₂ rel xs done → State xs m →
      encode x = .ok bytes → Absorbs p table decode c depth group m bytes
        fun m' => ∃ x', rel x' x ∧ State (xs ++ [x']) m') :
    Absorbs p table decode c depth group m bytes fun m' => ∃ xs, Forall₂ rel xs items ∧ State xs m' := by
  suffices suffix : ∀ later done xs m bytes, items = done ++ later → Forall₂ rel xs done → State xs m →
      Encoding.all encode later = .ok bytes → Absorbs p table decode c depth group m bytes
        fun m' => ∃ xs, Forall₂ rel xs items ∧ State xs m' from
    suffix items [] [] m bytes rfl .nil start encoded
  intro later
  induction later with
  | nil =>
    rintro done xs m bytes whole related state ⟨⟩
    rw [append_nil] at whole
    exact absorbs_nil ⟨xs, whole ▸ related, state⟩
  | cons x later ih =>
    intro done xs m bytes whole related state encoded
    obtain ⟨first, others, encodedFirst, encodedOthers, rfl⟩ := Encoding.all_cons_ok encoded
    refine (each whole related state encodedFirst).trans ?_
    rintro m' ⟨x', same, state'⟩
    exact ih (done ++ [x]) (xs ++ [x']) m' others (by rw [whole, append_assoc]; rfl)
      (rel_append related (.cons same .nil)) state' encodedOthers

/-- The encodings of a message are absorbed, if each of them is after some of smaller numbers. -/
lemma absorbs_encodings {State : List Int → Content → Prop} {encodings : List (Int × Bytes)} {done : List Int}
    (ascending : encodings.Pairwise fun a b => a.1 < b.1) (new : ∀ x ∈ encodings, x.1 ∉ done) (start : State done m)
    (step : ∀ x ∈ encodings, ∀ ⦃done m⦄, x.1 ∉ done → State done m →
      Absorbs p table decode c depth group m x.2 (State (x.1 :: done))) :
    Absorbs p table decode c depth group m (encodings.flatMap (·.2))
      (State ((encodings.map (·.1)).reverse ++ done)) := by
  induction encodings generalizing done m with
  | nil => exact absorbs_nil start
  | cons x rest ih =>
    obtain ⟨above, ascending⟩ := pairwise_cons.1 ascending
    rw [flatMap_cons]
    refine (step x (.head _) (new x (.head _)) start).trans ?_
    intro m' state
    simp only [map_cons, reverse_cons, append_assoc, singleton_append]
    refine ih ascending (fun y later isDone => ?_) state fun y later => step y (.tail _ later)
    rcases mem_cons.1 isDone with same | before
    · exact absurd (above y later) (by omega)
    · exact new y (.tail _ later) before

/-! ## Unknown fields -/

/-- A message with bytes behind its unknown fields. -/
def Content.addUnknown (m : Content) (data : Bytes) : Content :=
  { m with head := { m.head with unknown := m.head.unknown ++ data } }

@[simp] lemma Content.addUnknown_nil : m.addUnknown [] = m := by simp [addUnknown]

@[simp] lemma Content.addUnknown_addUnknown :
    (m.addUnknown a).addUnknown b = m.addUnknown (a ++ b) := by simp [addUnknown]

/-- Fields of a number are kept as unknown ones by a message. -/
def KeepsNumber (p : Program) (table : Option ExtensionTable) (decode : Decoding Unit) (c : ClassPlan)
    (m : Content) (number : Nat) : Prop :=
  ∀ (assigned : OneofLocals) (cur : Cursor), decodeNumber p table decode c assigned number (m, cur)
    = (do keepUnknown; return assigned : Decoding OneofLocals) (m, cur)

lemma KeepsNumber.ends (keeps : KeepsNumber p table decode c m number) {Q E} :
    Ends (decodeNumber p table decode c assigned number) (m, cur) Q E
      ↔ Ends keepUnknown (m, cur) (fun _ s => Q assigned s) E := by
  rw [Ends, keeps assigned cur]
  exact ends_bind

lemma ends_keepUnknown (plain : m.loose = []) {Q E} :
    Ends keepUnknown (m, cur) Q E ↔ Ends Cursor.skipUnknown cur (fun data cur' => Q ⟨⟩ (m.addUnknown data, cur'))
          fun e cur' => E e (m, cur') := by
  obtain ⟨head, slots, extensions, loose⟩ := m
  obtain rfl : loose = [] := plain
  simp only [keepUnknown, ends_bind, ends_reading, ends_content, lookup_nil, ends_update]
  rfl

/-- **Unknown fields.**  Fields of numbers that a message keeps are absorbed, bytes and all. -/
lemma absorbs_unknown {numbers : List Nat} (fields : WireFields levels numbers bytes)
    (deep : depth + levels ≤ maxDepth) (plain : m.loose = [])
    (keeps : ∀ n ∈ numbers, ∀ data, KeepsNumber p table decode c (m.addUnknown data) n) :
    Absorbs p table decode c depth group m bytes (· = m.addUnknown bytes) := by
  suffices behind : ∀ data, Absorbs p table decode c depth group (m.addUnknown data) bytes
      (· = m.addUnknown (data ++ bytes)) by
    simpa using behind []
  induction fields using WireFields.fieldwise with
  | nil => exact fun _ => absorbs_nil (by rw [append_nil])
  | @cons number wire tag payload rest numbers tagged framed _ later =>
    intro data
    have first : Absorbs p table decode c depth group (m.addUnknown data) (tag ++ payload)
        (· = m.addUnknown (data ++ (tag ++ payload))) := by
      refine absorbs_number tagged framed.ne_endGroup fun {cur rest assigned} stands => ?_
      have plain' : (m.addUnknown data).loose = [] := plain
      rw [Succeeds, (keeps number (.head _) data).ends, ends_keepUnknown plain']
      refine (Cursor.skipUnknown_stands stands (framed.mono (by omega))).ends ?_
      rintro data' cur' ⟨rfl, before⟩
      exact ⟨Content.addUnknown_addUnknown, before⟩
    rw [← append_assoc]
    refine first.trans ?_
    rintro m' rfl
    have others := later (fun n member => keeps n (.tail _ member)) (data ++ (tag ++ payload))
    simpa using others

/-- **Nothing else.**  Data that can be decoded into a message that keeps all numbers are well-formed
fields. -/
lemma decodeFields_yields_unknown (before : cur.Before depth none bytes) (plain : m.loose = [])
    (keeps : ∀ n data, KeepsNumber p table decode c (m.addUnknown data) n) (enough : bytes.length < turns)
    (assigned : OneofLocals) :
    Yields (decodeFields p table decode c turns assigned) (m, cur)
      fun _ s => (∃ numbers, WireFields (maxDepth - depth) numbers bytes) ∧ s.1 = m.addUnknown bytes := by
  induction turns generalizing m cur bytes assigned with
  | zero => exact absurd enough (by omega)
  | succ turns ih =>
    simp only [decodeFields, ends_bind, ends_reading]
    refine (Cursor.next_yields before).imp ?_
    intro found cur' next
    cases found with
    | none =>
      obtain rfl := (Cursor.Closes.data_ends next).1
      exact ⟨⟨[], .nil⟩, Content.addUnknown_nil.symm⟩
    | some number =>
      obtain ⟨tag, wire, after, rfl, tagged, stands⟩ := next
      have here : KeepsNumber p table decode c m number := by simpa using keeps number []
      simp only [ends_bind, here.ends, ends_keepUnknown plain]
      refine (Cursor.skipUnknown_yields stands).imp ?_
      rintro data cur'' ⟨payload, rest, rfl, framed, rfl, before'⟩
      have shorter : rest.length < turns := by
        have := length_pos_iff.2 tagged.ne_nil
        simp only [length_append] at enough
        omega
      have keeps' : ∀ n data, KeepsNumber p table decode c ((m.addUnknown (tag ++ payload)).addUnknown data) n := by
        intro n data
        rw [Content.addUnknown_addUnknown]
        exact keeps n _
      refine (ih (m := m.addUnknown (tag ++ payload)) before' plain keeps' shorter assigned).imp ?_
      rintro - s ⟨⟨numbers, fields⟩, kept⟩
      exact ⟨⟨_, framed.cons tagged fields⟩, by simp [kept]⟩

end absorb

end Missive
