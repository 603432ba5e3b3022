import Missive.Proofs.Message.Reader
import Missive.Proofs.Plan.Narrow

/-!
# Older readers

An older reader knows fewer fields of a class than a newer one.  Both are given the same data.

**Following.**  While the newer one succeeds, so does the older one, with the same cursors.  The fields that
both know hold related values, and the others are behind the unknown fields of the older message, byte for
byte.

**Replaying.**  Those bytes bring back what the newer one has made of them.  For that it does not matter
that the fields which both know come first now, since a field changes its own slot only.  In a oneof the
fields that are known may be in the way of those that are not, but then the newer reader had refused the
data: `touched` are the slots that the bytes lead to.
-/

namespace Missive

open Plan List Cursor

variable {p p' : Program} {decode : Decoding Unit} {N : Relation} {depth number slot : Nat}
  {group : Option Nat} {t : TypeId} {v v' : Value} {cur : Cursor} {key : FieldType}
  {ref : Option ClassRef} {e : Key × Value} {c : ClassPlan} {m : Content} {d d' : Declared}
  {wire : WireType} {tag rest : Bytes}

/-- What relates the messages of a newer and an older reader: at a depth, in a group or not, of a class. -/
abbrev Relation := Nat → Option Nat → TypeId → Value → Value → Prop

section relates

variable (N : Relation) (depth : Nat)

/-- Entries of maps are related if they have the same key and related values. -/
def EntryRelates (ref : Option ClassRef) (e e' : Key × Value) : Prop :=
  e'.1 = e.1 ∧ match ref with
    | none => e'.2 = e.2
    | some r => N (depth + 2) none r.target e.2 e'.2

/-- The values of a field are related if the messages in them are. -/
def Plan.FieldKind.Relates (number : Nat) : FieldKind → Value → Value → Prop
  | .scalar _ _ _, v, v' | .repeated _ _, v, v' => v' = v
  | .message isGroup ref, v, v' =>
    (v = .none ∧ v' = .none) ∨ N (depth + 1) (groupOf isGroup number) ref.target v v'
  | .repeatedMessage isGroup ref, v, v' => ∃ xs xs', v = .list xs ∧ v' = .list xs'
    ∧ Forall₂ (N (depth + 1) (groupOf isGroup number) ref.target) xs xs'
  | .map _ _ ref, v, v' => ∃ es es', v = .map false es ∧ v' = .map false es' ∧ Forall₂ (EntryRelates N depth ref) es es'

/-- The same for the value of a member that is set. -/
def Plan.MemberKind.Relates (number : Nat) : MemberKind → Value → Value → Prop
  | .scalar _ _, v, v' => v' = v
  | .message isGroup _ decodeRef, v, v' => N (depth + 1) (groupOf isGroup number) decodeRef.target v v'
  | .entry _, _, _ => False

end relates

/-! ## Nested data -/

/-- An older decoder of nested data follows a newer one below a depth. -/
structure Follows (p p' : Program) (decode decode' : Decoding Unit) (N : Relation) (depth : Nat) : Prop where
  starts : depth < maxDepth → ∀ ⦃below group t⦄, depth < below → below ≤ depth + 2 →
    (p.plan? t).isSome = true → ∃ s s', Content.fresh p t = .ok s ∧ Content.fresh p' t = .ok s'
      ∧ N below group t s.value s'.value
  messages : ∀ ⦃below group t v v'⦄, N below group t v v' → ∃ m m' : Content, v = m.value ∧ v' = m'.value
  runs : ∀ ⦃below group t m m' cur bytes m₁ cur₁⦄, depth < below → N below group t m.value m'.value →
    cur.Before below group bytes → decode (m, cur) = .ok () (m₁, cur₁) →
    ∃ m₁', decode' (m', cur) = .ok () (m₁', cur₁) ∧ N below group t m₁.value m₁'.value

section nested

variable {decode' : Decoding Unit} {below : Nat} {old old' : Value} {cur' : Cursor}
  (follows : Follows p p' decode decode' N depth)

include follows

/-- What nested data is decoded into: nothing yet, or related messages. -/
lemma Follows.exists_target (shallow : depth < maxDepth) (deeper : depth < below) (near : below ≤ depth + 2)
    (known : (p.plan? t).isSome = true) (there : (old = .none ∧ old' = .none) ∨ N below group t old old')
    {start : Content} (made : nestedTarget p (.type t) old = .ok start) :
    ∃ start', nestedTarget p' (.type t) old' = .ok start' ∧ N below group t start.value start'.value := by
  rcases there with ⟨rfl, rfl⟩ | related
  · obtain ⟨s, s', fresh, fresh', related⟩ : ∃ s s', Content.fresh p t = .ok s ∧ Content.fresh p' t = .ok s'
        ∧ N below group t s.value s'.value := follows.starts shallow deeper near known
    cases fresh.symm.trans made
    exact ⟨s', fresh', related⟩
  · obtain ⟨m, m', rfl, rfl⟩ := follows.messages related
    cases made
    exact ⟨m', rfl, related⟩

lemma Follows.decodeMessageField (deep : depth ≤ cur.depth) (near : cur.depth ≤ depth + 1)
    (known : (p.plan? t).isSome = true)
    (there : (old = .none ∧ old' = .none) ∨ N (cur.depth + 1) none t old old')
    (run : decodeMessageField p decode (.type t) old cur = .ok ⟨v, none⟩ cur') :
    ∃ v', decodeMessageField p' decode' (.type t) old' cur = .ok ⟨v', none⟩ cur' ∧ N (cur.depth + 1) none t v v' := by
  obtain ⟨waiting, shallow, size, data, rest, start, m, inner, spells, whole, made, ran, rfl, rfl⟩ :=
    decodeMessageField_eq_ok_iff.1 run
  obtain ⟨start', made', related⟩ :=
    follows.exists_target (by omega) (by omega) (by omega) known there made
  obtain ⟨m', ran', related'⟩ := follows.runs (by omega) related ⟨rfl, rfl, rfl, rfl, rfl⟩ ran
  exact ⟨m'.value, decodeMessageField_eq_ok_iff.2
    ⟨waiting, shallow, size, data, rest, start', m', inner, spells, whole, made', ran', rfl, rfl⟩, related'⟩

/-- **Nested data** is decoded by both, up to the same place. -/
lemma Follows.decodeNested (isDepth : cur.depth = depth) (field : cur.field = some number)
    (known : (p.plan? t).isSome = true) {isGroup : Bool}
    (there : (old = .none ∧ old' = .none) ∨ N (depth + 1) (groupOf isGroup number) t old old')
    (run : decodeNested p decode isGroup (.type t) old cur = .ok ⟨v, none⟩ cur') :
    ∃ v', decodeNested p' decode' isGroup (.type t) old' cur = .ok ⟨v', none⟩ cur'
      ∧ N (depth + 1) (groupOf isGroup number) t v v' := by
  subst isDepth
  cases isGroup with
  | false => exact follows.decodeMessageField (by omega) (by omega) known there run
  | true =>
    have run : decodeGroupField p decode (.type t) old cur = .ok ⟨v, none⟩ cur' := run
    obtain ⟨waiting, shallow, start, m, inner, made, ran, rfl, rfl⟩ := decodeGroupField_eq_ok_iff.1 run
    obtain ⟨start', made', related⟩ :=
      follows.exists_target shallow (by omega) (by omega) known there made
    obtain ⟨m', ran', related'⟩ := follows.runs (by omega) related (inGroup_before field) ran
    exact ⟨m'.value, decodeGroupField_eq_ok_iff.2
      ⟨waiting, shallow, start', m', inner, made', ran', rfl, rfl⟩, related'⟩

/-! ## Entries of maps -/

omit follows in
/-- What was met of a map entry so far. -/
def EntryState.Relates (N : Relation) (depth : Nat) (ref : Option ClassRef) (s s' : EntryState) : Prop :=
  s'.key = s.key ∧ match ref with
    | none => s'.value = s.value
    | some r => (s.value = .none ∧ s'.value = .none) ∨ N (depth + 2) none r.target s.value s'.value

omit follows in
lemma Cursor.Sound.past (sound : cur.Sound) (rest : Bytes) : (cur.past rest).Sound := ⟨sound.wire, sound.ended⟩

lemma Follows.decodeEntry {value : FieldType} (known : ∀ r ∈ ref, (p.plan? r.target).isSome = true)
    {turns : Nat} {s s' last : EntryState} (related : s.Relates N depth ref s') (sound : cur.Sound)
    (isDepth : cur.depth = depth + 1)
    (run : decodeEntry p decode key (MapValue.of value ref) turns s cur = .ok last cur') :
    ∃ last', decodeEntry p' decode' key (MapValue.of value ref) turns s' cur = .ok last' cur'
      ∧ last.Relates N depth ref last' := by
  induction turns generalizing s s' cur with
  | zero =>
    cases run
    exact ⟨s', rfl, related⟩
  | succ turns ih =>
    rw [Missive.decodeEntry.eq_def] at run ⊢
    obtain ⟨found, cur₁, next, run⟩ := run_bind_ok run
    have advanced := (ends_of_ok next).1 (next_spec sound)
    simp only at run ⊢
    rcases found with _ | _ | _ | _ | number
    · cases run
      exact ⟨s', bind_run_ok next rfl, related⟩
    all_goals
      obtain ⟨-, -, standing, onward, -⟩ := advanced
      have isDepth₁ : cur₁.depth = depth + 1 := onward.depth.trans isDepth
    · obtain ⟨last', run', related'⟩ := ih related standing.toSound isDepth₁ run
      exact ⟨last', bind_run_ok next run', related'⟩
    · obtain ⟨k, cur₂, read, run⟩ := run_bind_ok run
      obtain ⟨payload, rest, -, rfl, -⟩ := takes_singular key (fun _ => True) read trivial
      have related₁ : EntryState.Relates N depth ref { s with key := k } { s' with key := k } := ⟨rfl, related.2⟩
      obtain ⟨last', run', related'⟩ := ih related₁ (standing.toSound.past rest) isDepth₁ run
      exact ⟨last', bind_run_ok next (bind_run_ok read run'), related'⟩
    · cases ref with
      | none =>
        obtain ⟨x, cur₂, read, run⟩ := run_bind_ok run
        obtain ⟨payload, rest, -, rfl, -⟩ := takes_singular value (fun _ => True) read trivial
        have related₁ : EntryState.Relates N depth none { s with value := .scalar x } { s' with value := .scalar x } :=
          ⟨related.1, rfl⟩
        obtain ⟨last', run', related'⟩ := ih related₁ (standing.toSound.past rest) isDepth₁ run
        exact ⟨last', bind_run_ok next (bind_run_ok read run'), related'⟩
      | some r =>
        obtain ⟨⟨x, fault⟩, cur₂, read, run⟩ := run_bind_ok run
        cases fault with
        | some => cases run
        | none =>
          have there := related.2
          rw [show depth + 2 = cur₁.depth + 1 by omega] at there
          obtain ⟨x', read', both⟩ :=
            follows.decodeMessageField (by omega) (by omega) (known r rfl) there read
          obtain ⟨payload, rest, -, rfl, -⟩ := takes_decodeMessageField _ _ (fun _ => True) read trivial
          rw [show cur₁.depth + 1 = depth + 2 by omega] at both
          have related₁ : EntryState.Relates N depth (some r) { s with value := x } { s' with value := x' } :=
            ⟨related.1, .inr both⟩
          obtain ⟨last', run', related'⟩ := ih related₁ (standing.toSound.past rest) isDepth₁ run
          exact ⟨last', bind_run_ok next (bind_run_ok read' run'), related'⟩
    · obtain ⟨last', run', related'⟩ := ih related standing.toSound isDepth₁ run
      exact ⟨last', bind_run_ok next run', related'⟩

omit follows in
/-- The entry that was met: what has no value gets a new one. -/
def EntryState.entry (p : Program) (kind : MapValue) (s : EntryState) : Except Fault (Key × Value) :=
  if s.value.isPresent then .ok (.scalar s.key, s.value)
  else
    match kind with
    | .scalar type => .ok (.scalar s.key, .scalar type.default)
    | .message target => do return (.scalar s.key, ← p.fresh (← target.toClass))

omit follows in
/-- An entry that was decoded. -/
lemma decodeMapField_eq_ok_iff {kind : MapValue} :
    decodeMapField p decode key kind cur = .ok e cur' ↔ cur.Awaits [.lengthDelimited] ∧ cur.depth < maxDepth
        ∧ ∃ size data rest s inner, Varint.Spells size data.length ∧ cur.rest = size ++ (data ++ rest)
          ∧ decodeEntry p decode key kind (data.length + 1) { key := key.default }
              { rest := data, depth := cur.depth + 1 } = .ok s inner
          ∧ s.entry p kind = .ok e ∧ cur.past rest = cur' := by
  -- What is made of the entry does not depend on the cursor.
  have finish : ∀ s : EntryState, (if s.value.isPresent then return (Key.scalar s.key, s.value)
        else match kind with
          | .scalar type => return (Key.scalar s.key, Value.scalar type.default)
          | .message target => return (Key.scalar s.key, ← Cursor.ofExcept do p.fresh (← target.toClass))
        : Reading (Key × Value)) = Cursor.ofExcept (s.entry p kind) := by
    intro s
    unfold EntryState.entry
    split
    · rfl
    · cases kind with
      | scalar => rfl
      | message target =>
        dsimp only
        cases target.toClass with
        | error => rfl
        | ok t =>
          dsimp only [bind, Except.bind]
          cases p.fresh t <;> rfl
  constructor
  · intro run
    obtain ⟨waiting, size, data, rest, spells, whole, run⟩ := delimited_eq_ok_iff.1 run
    obtain ⟨inner, _, entered, run⟩ := run_bind_ok run
    obtain ⟨shallow, rfl, rfl⟩ := enter_eq_ok_iff.1 entered
    cases ran : decodeEntry p decode key kind (data.length + 1) { key := key.default }
        { rest := data, depth := (cur.past rest).depth + 1 } with
    | error e inner =>
      simp only [ran] at run
      cases run
    | ok s inner =>
      simp only [ran] at run
      obtain ⟨finished, rfl⟩ := ofExcept_eq_ok_iff.1 ((congrFun (finish s) _).symm.trans run)
      exact ⟨waiting, shallow, size, data, rest, s, inner, spells, whole, ran, finished, rfl⟩
  · rintro ⟨waiting, shallow, size, data, rest, s, inner, spells, whole, ran, finished, rfl⟩
    refine delimited_eq_ok_iff.2 ⟨waiting, size, data, rest, spells, whole, ?_⟩
    refine bind_run_ok (enter_eq_ok_iff.2 ⟨shallow, rfl, rfl⟩) ?_
    simp only [Cursor.past, ran]
    exact (congrFun (finish s) _).trans (ofExcept_eq_ok_iff.2 ⟨finished, rfl⟩)

/-- **Entries** are read by both, with the same key. -/
lemma Follows.decodeMapField {value : FieldType} (known : ∀ r ∈ ref, (p.plan? r.target).isSome = true)
    (isDepth : cur.depth = depth) (run : decodeMapField p decode key (MapValue.of value ref) cur = .ok e cur') :
    ∃ e', decodeMapField p' decode' key (MapValue.of value ref) cur = .ok e' cur' ∧ EntryRelates N depth ref e e' := by
  subst isDepth
  obtain ⟨waiting, shallow, size, data, rest, s, inner, spells, whole, ran, finished, rfl⟩ :=
    decodeMapField_eq_ok_iff.1 run
  have unset : EntryState.Relates N cur.depth ref { key := key.default } { key := key.default } := by
    refine ⟨rfl, ?_⟩
    cases ref with
    | none => rfl
    | some => exact .inl ⟨rfl, rfl⟩
  obtain ⟨s', ran', sameKey, related⟩ :=
    follows.decodeEntry known unset (sound_entered data _ none) rfl ran
  have goOn : ∀ {e'}, s'.entry p' (MapValue.of value ref) = .ok e' →
      Missive.decodeMapField p' decode' key (MapValue.of value ref) cur = .ok e' (cur.past rest) :=
    fun finished => decodeMapField_eq_ok_iff.2
      ⟨waiting, shallow, size, data, rest, s', inner, spells, whole, ran', finished, rfl⟩
  cases ref with
  | none =>
    refine ⟨e, goOn ?_, rfl, rfl⟩
    have same : s'.value = s.value := related
    simpa only [EntryState.entry, MapValue.of, sameKey, same] using finished
  | some r =>
    rcases related with ⟨none, none'⟩ | related
    · obtain ⟨s₀, s₀', fresh, fresh', both⟩ : ∃ s s', Content.fresh p r.target = .ok s
          ∧ Content.fresh p' r.target = .ok s' ∧ N (cur.depth + 2) Option.none r.target s.value s'.value :=
        follows.starts shallow (by omega) (by omega) (known r rfl)
      have made := fresh_eq_value fresh
      have made' := fresh_eq_value fresh'
      obtain rfl : (Key.scalar s.key, s₀.value) = e := by
        simpa [EntryState.entry, MapValue.of, none, Value.isPresent, Meaning.toClass, made, bind, Except.bind,
          pure, Except.pure] using finished
      refine ⟨(.scalar s'.key, s₀'.value), goOn ?_, by rw [sameKey], both⟩
      simp [EntryState.entry, MapValue.of, none', Value.isPresent, Meaning.toClass, made', bind, Except.bind,
        pure, Except.pure]
    · obtain ⟨m, m', isMessage, isMessage'⟩ := follows.messages related
      obtain rfl : (Key.scalar s.key, s.value) = e := by
        simpa [EntryState.entry, isMessage, Content.value, Value.isPresent] using finished
      refine ⟨(.scalar s'.key, s'.value), goOn ?_, by rw [sameKey], related⟩
      simp [EntryState.entry, isMessage', Content.value, Value.isPresent]

/-! ## Fields -/

omit follows in
/-- Putting related entries into related maps keeps them related. -/
lemma forall₂_putEntry {e' : Key × Value} (entry : EntryRelates N depth ref e e')
    {es es' : List (Key × Value)} (related : Forall₂ (EntryRelates N depth ref) es es') :
    Forall₂ (EntryRelates N depth ref) (putEntry e.1 e.2 es) (putEntry e'.1 e'.2 es') := by
  obtain ⟨k, v⟩ := e
  obtain ⟨_, v'⟩ := e'
  obtain ⟨rfl, value⟩ := entry
  induction related with
  | nil => exact .cons ⟨rfl, value⟩ .nil
  | @cons x x' _ _ first rest ih =>
    obtain ⟨l, w⟩ := x
    obtain ⟨_, w'⟩ := x'
    obtain ⟨rfl, old⟩ := first
    unfold putEntry
    split
    · exact .cons ⟨rfl, value⟩ rest
    · exact .cons ⟨rfl, old⟩ ih

section

variable {names : List String} (isDepth : cur.depth = depth) (field : cur.field = some number)

include isDepth field

/-- **Fields.**  What the newer reader takes, the older one takes too. -/
lemma Follows.takes_field {kind kind' : FieldKind} (alike : kind.Alike kind') (leads : kind.Leads p names)
    (related : kind.Relates N depth number old old') (takes : kind.Takes p decode cur cur' old v) :
    ∃ v', kind'.Takes p' decode' cur cur' old' v' ∧ kind.Relates N depth number v v' := by
  cases takes with
  | scalar read =>
    cases alike
    exact ⟨_, .scalar read, rfl⟩
  | repeated read =>
    cases alike
    obtain rfl : old' = _ := related
    exact ⟨_, .repeated read, rfl⟩
  | message read =>
    cases alike with
    | message target =>
      obtain ⟨v', read', related'⟩ := follows.decodeNested isDepth field leads.2.2 related read
      exact ⟨v', .message (target ▸ read'), .inr related'⟩
  | repeatedMessage read =>
    cases alike with
    | repeatedMessage target =>
      obtain ⟨xs, xs', isList, rfl, each⟩ := related
      cases isList
      obtain ⟨v', read', related'⟩ := follows.decodeNested isDepth field leads.2.2 (.inl ⟨rfl, rfl⟩) read
      exact ⟨_, .repeatedMessage (target ▸ read'), _, _, rfl, rfl, rel_append each (.cons related' .nil)⟩
  | @map key value ref entries e read =>
    cases alike with
    | @map _ _ _ ref' target =>
      obtain ⟨es, es', isMap, rfl, each⟩ := related
      cases isMap
      have known : ∀ r ∈ ref, (p.plan? r.target).isSome = true := fun r inside => (leads r inside).2.2
      obtain ⟨e', read', entry⟩ := follows.decodeMapField known isDepth read
      have same : MapValue.of value ref' = MapValue.of value ref := by
        cases ref <;> cases ref' <;> simp_all [MapValue.of]
      exact ⟨_, .map (same ▸ read'), _, _, rfl, rfl, forall₂_putEntry entry each⟩

/-- **Members.** -/
lemma Follows.takes_member {kind kind' : MemberKind} (alike : kind.Alike kind') (leads : kind.Leads p names)
    (related : (old = .none ∧ old' = .none) ∨ kind.Relates N depth number old old')
    (takes : kind.Takes p decode cur cur' old v) :
    ∃ v', kind'.Takes p' decode' cur cur' old' v' ∧ kind.Relates N depth number v v' := by
  cases takes with
  | scalar read =>
    cases alike
    exact ⟨_, .scalar read, rfl⟩
  | message read =>
    cases alike with
    | message target decoded =>
      obtain ⟨v', read', related'⟩ := follows.decodeNested isDepth field leads.2.2 related read
      exact ⟨v', .message (decoded ▸ read'), related'⟩

end

end nested

/-! ## Replaying -/

/-- Some bytes bring back what a message has in certain slots and its unknown fields, wherever those slots
are as in a new message. -/
def Replays (p : Program) (decode : Decoding Unit) (t : TypeId) (c : ClassPlan) (depth : Nat)
    (group : Option Nat) (touched : List Nat) (m : Content) (bytes : Bytes) : Prop :=
  ∀ ⦃w : Content⦄, w.Known p none depth t c → (∀ i ∈ touched, w.slot i = c.freshSlot i) →
    Absorbs p none decode c depth group w bytes fun w' => w'.Known p none depth t c
      ∧ w'.head.unknown = w.head.unknown ++ m.head.unknown
      ∧ ∀ i, w'.slot i = if i ∈ touched then m.slot i else w.slot i

section replay

variable {touched : List Nat} {m' : Content} {cur' : Cursor} {raw payload : Bytes}
  {assigned last : OneofLocals} (reads : NestedReader p none decode depth) (found : p.plan? t = some c)

include reads found

omit reads found in
/-- Only the slots that were led to and the unknown fields count. -/
lemma Replays.congr (replays : Replays p decode t c depth group touched m raw)
    (slots : ∀ i ∈ touched, m'.slot i = m.slot i) (unknown : m'.head.unknown = m.head.unknown) :
    Replays p decode t c depth group touched m' raw := by
  intro w known clear
  refine (replays known clear).mono ?_
  rintro w' ⟨known', unknown', slots'⟩
  refine ⟨known', by rw [unknown', unknown], fun i => ?_⟩
  rw [slots' i]
  split
  · rename_i inside
    rw [slots i inside]
  · rfl

/-- **Replaying a field.**  A field behind some bytes that are replayed is replayed, if nothing else had led
to its slot. -/
lemma Replays.field (replays : Replays p decode t c depth group touched m raw) (known : m.Known p none depth t c)
    (declared : d ∈ c.declared) (named : d.number = number)
    (fresh : d.slot ∉ touched → m.slot d.slot = c.freshSlot d.slot) (tagged : SpellsTag tag number wire)
    (stands : cur.Stands depth group number wire (tag ++ (payload ++ rest)) (payload ++ rest))
    (opens : wire ≠ .endGroup)
    (run : decodeNumber p none decode c assigned number (m, cur) = .ok last (m', cur'))
    (again : ∀ {other : Cursor} {rest : Bytes},
      other.Stands depth group number wire (tag ++ (payload ++ rest)) (payload ++ rest) →
      Succeeds (decodeNumber p none decode c assigned number) (m, other)
        fun b s => b = last ∧ s.1 = m' ∧ s.2.Before depth group rest) :
    Replays p decode t c depth group (d.slot :: touched) m' (raw ++ (tag ++ payload)) := by
  have rules := Rules.decoded_known reads.ready
  obtain ⟨v, -, isNew⟩ := ((known.atField reads found stands tagged opens).decodeNumber_iff reads.ready rules
    declared named assigned).1 ⟨last, run⟩
  have room := known.room reads.ready found declared
  intro w knownW clear
  refine (replays knownW fun i inside => clear i (.tail _ inside)).trans ?_
  rintro w' ⟨knownW', unknown, slots⟩
  have there : w'.slot d.slot = m.slot d.slot := by
    rw [slots]
    split
    · rfl
    · rename_i untouched
      rw [fresh untouched, clear _ (.head _)]
  have room' := knownW'.room reads.ready found declared
  refine absorbs_number tagged opens fun {other rest' assigned'} stands' => ?_
  -- The field is taken where it was, and therefore also here.
  obtain ⟨_, ⟨_, other'⟩, run', rfl, rfl, before⟩ := (again stands').exists_run
  obtain ⟨v', takes, isNew'⟩ := ((known.atField reads found stands' tagged opens).decodeNumber_iff reads.ready
    rules declared named assigned).1 ⟨_, run'⟩
  obtain rfl : v' = v := by
    rw [← Content.slot_setSlot (v := v') room, ← Content.slot_setSlot (v := v) room, ← isNew, ← isNew']
  rw [← there] at takes
  obtain ⟨last', taken⟩ := ((knownW'.atField reads found stands' tagged opens).decodeNumber_iff reads.ready rules
    declared named assigned').2 ⟨v', takes, rfl⟩
  refine succeeds_iff.2 ⟨last', _, taken, ⟨knownW'.step reads found stands' tagged opens taken, ?_, fun i => ?_⟩,
    before⟩
  · rw [isNew]
    exact unknown
  · rw [isNew]
    by_cases same : d.slot = i
    · subst same
      rw [Content.slot_setSlot room', Content.slot_setSlot room, if_pos (.head _)]
    · rw [Content.slot_setSlot_ne same, Content.slot_setSlot_ne same, slots i]
      simp only [mem_cons, Ne.symm same, false_or]

/-- Fields that nobody claims are replayed as unknown ones. -/
lemma Replays.unknown (replays : Replays p decode t c depth group touched m raw)
    (unclaimed : p.Unclaimed none t number) (tagged : SpellsTag tag number wire)
    (framed : WirePayload (maxDepth - depth) number wire payload) :
    Replays p decode t c depth group touched (m.addUnknown (tag ++ payload)) (raw ++ (tag ++ payload)) := by
  intro w knownW clear
  refine (replays knownW clear).trans ?_
  rintro w' ⟨knownW', unknown, slots⟩
  refine absorbs_number tagged framed.ne_endGroup fun {cur rest assigned} stands => ?_
  have keeps : KeepsNumber p none decode c w' number :=
    keepsNumber_of_unheard reads.ready found knownW'.plain knownW'.whole unclaimed.unheard
  have spec := decodeNumber_spec reads.ready (Rules.decoded_known reads.ready)
    (knownW'.atField reads found stands tagged framed.ne_endGroup) reads.below assigned
  rw [AtField.Leaves, keeps.ends, ends_keepUnknown knownW'.plain] at spec
  rw [Succeeds, keeps.ends, ends_keepUnknown knownW'.plain]
  obtain ⟨_, cur', skipped, rfl, before⟩ := (skipUnknown_stands stands framed).exists_run
  rw [ends_of_ok skipped] at spec ⊢
  refine ⟨⟨spec.1, ?_, slots⟩, before⟩
  simp [Content.addUnknown, unknown]

end replay

/-! ## Following -/

/-- What is in the slots of a field that both readers know.  In a oneof, the newer reader may have set a
member that the older one does not know. -/
inductive Plan.Declared.Relates (N : Relation) (depth : Nat) (t : TypeId) (c c' : ClassPlan) (touched : List Nat) :
    Declared → Declared → Value → Value → Prop
  | field {slot slot' : Nat} {f f' : FieldPlan} {v v' : Value} (untouched : slot ∉ touched)
      (related : f.kind.Relates N depth f.number.toNat v v') :
      Relates N depth t c c' touched (.field slot f) (.field slot' f') v v'
  | unset {slot slot' : Nat} {o o' : OneofPlan} {m m' : MemberPlan} {first first' : Bool} (untouched : slot ∉ touched) :
      Relates N depth t c c' touched (.member slot o m first) (.member slot' o' m' first') .none .none
  | set {slot slot' : Nat} {o o' : OneofPlan} {m m' : MemberPlan} {first first' : Bool} {e e' : OneofPlan}
      {x x' : MemberPlan} {one one' : Bool} {v v' : Value} (untouched : slot ∉ touched)
      (declared : Declared.member slot e x one ∈ c.declared)
      (declared' : Declared.member slot' e' x' one' ∈ c'.declared) (number : x'.number = x.number)
      (kind : x.kind.Alike x'.kind) (related : x.kind.Relates N depth x.number.toNat v v') :
      Relates N depth t c c' touched (.member slot o m first) (.member slot' o' m' first')
        (.case { owner := t, slot, number := .int x.number } v [])
        (.case { owner := t, slot := slot', number := .int x.number } v' [])
  | lost {slot slot' : Nat} {o o' : OneofPlan} {m m' : MemberPlan} {first first' : Bool} {number : Int}
      {v : Value} (inside : slot ∈ touched) (gone : ∀ d ∈ c'.declared, d.number ≠ number) :
      Relates N depth t c c' touched (.member slot o m first) (.member slot' o' m' first')
        (.case { owner := t, slot, number := .int number } v []) .none

/-- A message of a newer reader and what an older one has made of the same data. -/
structure Level (p p' : Program) (decode : Decoding Unit) (N : Relation) (depth : Nat) (group : Option Nat)
    (t : TypeId) (c c' : ClassPlan) (touched : List Nat) (m m' : Content) : Prop where
  found : p.plan? t = some c
  found' : p'.plan? t = some c'
  narrow : c.Narrowed c'
  deep : depth ≤ maxDepth + 1
  known : m.Known p none depth t c
  known' : m'.Known p' none depth t c'
  replays : Replays p decode t c depth group touched m m'.head.unknown
  kept : ∀ d ∈ c.declared, ∀ d' ∈ c'.declared, d.Alike d' →
    d.Relates N depth t c c' touched d' (m.slot d.slot) (m'.slot d'.slot)
  free : ∀ i ∉ touched, (∀ d ∈ c.declared, ∀ d' ∈ c'.declared, d.Alike d' → d.slot ≠ i) → m.slot i = c.freshSlot i

/-- Two readers of nested data, the older of which follows the newer one. -/
structure Pursuit (p p' : Program) (decode decode' : Decoding Unit) (N : Relation) (depth : Nat) : Prop
    extends Follows p p' decode decode' N depth where
  newer : NestedReader p none decode depth
  older : NestedReader p' none decode' depth

section level

variable {decode' : Decoding Unit} {c' : ClassPlan} {touched : List Nat} {m₁ m' : Content} {cur₁ : Cursor}
  {payload : Bytes} {assigned assigned' last : OneofLocals} (pursuit : Pursuit p p' decode decode' N depth)
  (level : Level p p' decode N depth group t c c' touched m m')

include pursuit level

/-- A field that both know is taken by both. -/
lemma Level.takes_kept (declared : d ∈ c.declared) (declared' : d' ∈ c'.declared) (alike : d.Alike d')
    (named : d.number = number) (isDepth : cur.depth = depth) (field : cur.field = some number)
    {old old' : Value} (related : d.Relates N depth t c c' touched d' old old')
    (takes : d.Takes p decode t cur cur₁ old v) :
    d.slot ∉ touched ∧ ∃ v', d'.Takes p' decode' t cur cur₁ old' v' ∧ d.Relates N depth t c c' touched d' v v' := by
  have leads := (pursuit.newer.ready.clear.of_plan level.found).declared d declared
  obtain rfl : number = d.number.toNat := by omega
  cases takes with
  | @field slot f _ _ takes =>
    cases alike with
    | field _ kind =>
      cases related with
      | field untouched related =>
        obtain ⟨v', takes', related'⟩ := pursuit.takes_field isDepth field kind leads related takes
        exact ⟨untouched, v', .field takes', .field untouched related'⟩
  | @opens slot o member first x takes =>
    cases alike with
    | @member _ slot' _ o' _ member' _ first' same kind =>
      cases related with
      | unset untouched =>
        obtain ⟨x', takes', related'⟩ := pursuit.takes_member isDepth field kind leads (.inl ⟨rfl, rfl⟩) takes
        refine ⟨untouched, _, .opens takes', ?_⟩
        rw [same]
        exact .set untouched declared declared' same kind related'
  | @again slot o member first origin x y takes =>
    cases alike with
    | @member _ slot' _ o' _ member' _ first' same kind =>
      generalize isOld : Value.case _ x [] = old at related
      cases related with
      | unset => cases isOld
      | lost inside gone =>
        cases isOld
        exact absurd same (gone _ declared')
      | @set _ _ _ _ _ _ _ _ e e' z z' one one' w w' untouched declaredSet _ _ _ relatedSet =>
        obtain ⟨isTag, rfl, -⟩ := Value.case.inj isOld
        have isMember : member.number = z.number := by simpa using congrArg CaseTag.number isTag
        obtain ⟨-, s, resolved, planned⟩ := pursuit.newer.ready.planned level.found
        obtain ⟨-, -, rfl, -⟩ := Declared.member.inj (planned.declared_ext resolved declared declaredSet isMember)
        obtain ⟨x', takes', related'⟩ := pursuit.takes_member isDepth field kind leads (.inr relatedSet) takes
        rw [← same]
        refine ⟨untouched, _, .again takes', ?_⟩
        rw [same]
        exact .set untouched declared declared' same kind related'

omit pursuit level in
/-- What is in the slot of a oneof does not depend on the member that asks. -/
lemma Plan.Declared.Relates.member {slot' : Nat} {o o' e e' : OneofPlan} {x x' y y' : MemberPlan}
    {first first' one one' : Bool}
    (related : (Declared.member slot o x first).Relates N depth t c c' touched (.member slot' o' x' first') v v') :
    (Declared.member slot e y one).Relates N depth t c c' touched (.member slot' e' y' one') v v' := by
  cases related with
  | unset untouched => exact .unset untouched
  | set untouched declared declared' number kind related =>
    exact .set untouched declared declared' number kind related
  | lost inside gone => exact .lost inside gone

/-- What both know in the slots of two fields, one of which has changed in both. -/
lemma Level.kept_setSlot (declared : d ∈ c.declared) (declared' : d' ∈ c'.declared) (alike : d.Alike d')
    (related : d.Relates N depth t c c' touched d' v v') {e e' : Declared} (other : e ∈ c.declared)
    (other' : e' ∈ c'.declared) (alike' : e.Alike e') :
    e.Relates N depth t c c' touched e' ((m.setSlot d.slot v).slot e.slot) ((m'.setSlot d'.slot v').slot e'.slot) := by
  have slots := level.narrow.slots d declared e other d' declared' e' other' alike alike'
  by_cases same : d.slot = e.slot
  · have same' := slots.2 same
    rw [← same, ← same', Content.slot_setSlot (level.known.room pursuit.newer.ready level.found declared),
      Content.slot_setSlot (level.known'.room pursuit.older.ready level.found' declared')]
    obtain ⟨-, s, resolved, planned⟩ := pursuit.newer.ready.planned level.found
    obtain ⟨-, s', resolved', planned'⟩ := pursuit.older.ready.planned level.found'
    cases alike with
    | field =>
      obtain rfl := planned.declared_of_slot resolved declared other same.symm
      obtain rfl := planned'.declared_of_slot resolved' declared' other' same'.symm
      exact related
    | member =>
      cases alike' with
      | field =>
        cases planned.declared_of_slot resolved other declared same
      | member =>
        obtain rfl := same
        obtain rfl := same'
        exact related.member
  · have same' : d'.slot ≠ e'.slot := fun equal => same (slots.1 equal)
    rw [Content.slot_setSlot_ne same, Content.slot_setSlot_ne same']
    exact level.kept e other e' other' alike'

omit pursuit level in
/-- Slots that are led to do not matter for the others. -/
lemma Plan.Declared.Relates.touch (related : d.Relates N depth t c c' touched d' v v') {i : Nat} (other : d.slot ≠ i) :
    d.Relates N depth t c c' (i :: touched) d' v v' := by
  have aside : d.slot ∉ touched → d.slot ∉ i :: touched := fun untouched inside =>
    (mem_cons.1 inside).elim other untouched
  cases related with
  | field untouched related => exact .field (aside untouched) related
  | unset untouched => exact .unset (aside untouched)
  | set untouched declared declared' number kind related =>
    exact .set (aside untouched) declared declared' number kind related
  | lost inside gone => exact .lost (.tail _ inside) gone

/-- A field that only the newer reader knows shares its slot with one that both know, if both are members of
a oneof of which nothing is set for the older one. -/
lemma Level.lost_slot {e e' : Declared} (declared : d ∈ c.declared)
    (gone : ∀ d' ∈ c'.declared, d'.number ≠ d.number) (other : e ∈ c.declared) (other' : e' ∈ c'.declared)
    (alike : e.Alike e') (same : e.slot = d.slot) (takes : d.Takes p decode t cur cur₁ (m.slot d.slot) v) :
    m'.slot e'.slot = .none ∧ (d.slot ∉ touched → m.slot d.slot = c.freshSlot d.slot)
      ∧ e.Relates N depth t c c' (d.slot :: touched) e' v .none := by
  obtain ⟨-, s, resolved, planned⟩ := pursuit.newer.ready.planned level.found
  have differs : d ≠ e := by
    rintro rfl
    exact gone e' other' alike.number_eq
  cases alike with
  | field => exact absurd (planned.declared_of_slot resolved other declared same.symm) differs
  | @member slot slot' o o' x x' first first' number kind =>
    cases d with
    | field => exact absurd (planned.declared_of_slot resolved declared other same).symm differs
    | member i e y =>
      obtain rfl : slot = i := same
      have related := level.kept _ other _ other' (.member number kind)
      have fresh := freshSlot_member pursuit.newer.ready level.found declared
      simp only [Declared.slot] at related takes ⊢
      generalize m.slot slot = old at related takes ⊢
      generalize m'.slot slot' = old' at related ⊢
      have isCase : ∃ w, v = .case { owner := t, slot, number := .int y.number } w [] := by
        cases takes <;> exact ⟨_, rfl⟩
      obtain ⟨w, rfl⟩ := isCase
      have lost : (Declared.member slot o x first).Relates N depth t c c' (slot :: touched)
          (.member slot' o' x' first') (.case { owner := t, slot, number := .int y.number } w []) .none :=
        .lost (.head _) gone
      cases related with
      | unset => exact ⟨rfl, fun _ => fresh.symm, lost⟩
      | lost inside => exact ⟨rfl, fun untouched => absurd inside untouched, lost⟩
      | @set _ _ _ _ _ _ _ _ _ _ z z' _ _ _ _ _ _ declaredSet' sameSet =>
        -- The newer reader would have refused a second member.
        generalize isOld : Value.case _ _ [] = old at takes
        cases takes with
        | opens => cases isOld
        | again =>
          obtain ⟨isTag, -, -⟩ := Value.case.inj isOld
          have isMember : z.number = y.number := by simpa using congrArg CaseTag.number isTag
          exact absurd (sameSet.trans isMember) (gone _ declaredSet')

omit level in
/-- A field that was decoded has a payload, and is skipped by whom it is unknown to. -/
lemma Pursuit.exists_payload (stands : cur.Stands depth group number wire (tag ++ rest) rest)
    (run : decodeNumber p none decode c assigned number (m, cur) = .ok last (m₁, cur₁)) :
    ∃ payload behind, rest = payload ++ behind ∧ WirePayload (maxDepth - depth) number wire payload
      ∧ cur₁.Before depth group behind
      ∧ (∀ {other : Cursor} {rest : Bytes},
        other.Stands depth group number wire (tag ++ (payload ++ rest)) (payload ++ rest) →
        Succeeds (decodeNumber p none decode c assigned number) (m, other)
          fun b s => b = last ∧ s.1 = m₁ ∧ s.2.Before depth group rest)
      ∧ Cursor.skipUnknown cur = .ok (tag ++ payload) cur₁ := by
  have takes : Decoding.Takes Content.Kin (decodeNumber p none decode c assigned number) :=
    takes_decodeNumber pursuit.newer.nests c assigned number
  obtain ⟨payload, behind, rfl, framed, before, -, again⟩ := takes.at_field stands run
  obtain ⟨-, _, -, isCur, -, -⟩ := takes run
  obtain rfl : _ = behind := (congrArg Cursor.rest isCur).symm.trans before.rest
  refine ⟨payload, _, rfl, framed, before, again, ?_⟩
  rw [isCur]
  refine skipUnknown_eq_ok_iff.2 ⟨⟨by simp [stands.field], stands.waiting⟩,
    skipPayload_eq_ok_iff.2 ⟨payload, _, ⟨stands.rest, ?_⟩, rfl⟩, ?_⟩
  · rw [stands.depth, stands.field, stands.wire]
    exact framed
  · rw [stands.mark, ← append_assoc]
    exact (Bytes.consumed_append _ _).symm

omit pursuit level in
lemma unclaimed_of_undeclared (found : p.plan? t = some c) (undeclared : ∀ d ∈ c.declared, d.number ≠ number) :
    p.Unclaimed none t number := by
  refine ⟨fun c' found' => ?_, by simp⟩
  cases found.symm.trans found'
  exact undeclared

omit pursuit level in
/-- A field that nobody claims is kept, byte for byte. -/
lemma decodeNumber_unclaimed (ready : p.Ready none) (found : p.plan? t = some c) (known : m.Known p none depth t c)
    (unclaimed : ∀ d ∈ c.declared, d.number ≠ number) {data : Bytes}
    (skipped : Cursor.skipUnknown cur = .ok data cur₁) :
    decodeNumber p none decode c assigned number (m, cur) = .ok assigned (m.addUnknown data, cur₁) := by
  have keeps : KeepsNumber p none decode c m number :=
    keepsNumber_of_unheard ready found known.plain known.whole (unclaimed_of_undeclared found unclaimed).unheard
  rw [run_eq_ok_iff, Succeeds, keeps.ends, ends_keepUnknown known.plain, ends_of_ok skipped]
  exact ⟨rfl, rfl⟩

section step

variable (tagged : SpellsTag tag number wire) (stands : cur.Stands depth group number wire (tag ++ rest) rest)
  (run : decodeNumber p none decode c assigned number (m, cur) = .ok last (m₁, cur₁))

include tagged stands run

/-- **Fields that both know.** -/
lemma Level.step_kept (declared : d ∈ c.declared) (declared' : d' ∈ c'.declared) (alike : d.Alike d')
    (named : d.number = number) :
    ∃ last' m₁', decodeNumber p' none decode' c' assigned' number (m', cur) = .ok last' (m₁', cur₁)
      ∧ Level p p' decode N depth group t c c' touched m₁ m₁' := by
  obtain ⟨_, _, _, framed, _⟩ := pursuit.exists_payload stands run
  have opens := framed.ne_endGroup
  have here := level.known.atField pursuit.newer level.found stands tagged opens
  have here' := level.known'.atField pursuit.older level.found' stands tagged opens
  obtain ⟨v, takes, rfl⟩ := (here.decodeNumber_iff pursuit.newer.ready
    (Rules.decoded_known pursuit.newer.ready) declared named assigned).1 ⟨last, run⟩
  obtain ⟨untouched, v', takes', related⟩ := level.takes_kept pursuit declared declared' alike named stands.depth
    stands.field (level.kept d declared d' declared' alike) takes
  obtain ⟨last', run'⟩ := (here'.decodeNumber_iff pursuit.older.ready
    (Rules.decoded_known pursuit.older.ready) declared' (alike.number_eq.trans named) assigned').2
    ⟨v', takes', rfl⟩
  refine ⟨last', _, run', level.found, level.found', level.narrow, level.deep,
    level.known.step pursuit.newer level.found stands tagged opens run,
    level.known'.step pursuit.older level.found' stands tagged opens run', ?_, ?_, fun i other unkept => ?_⟩
  · refine level.replays.congr (fun i inside => ?_) rfl
    exact Content.slot_setSlot_ne fun same => untouched (same ▸ inside)
  · intro e other e' other' alike'
    exact level.kept_setSlot pursuit declared declared' alike related other other' alike'
  · rw [Content.slot_setSlot_ne (unkept d declared d' declared' alike)]
    exact level.free i other unkept

/-- **Fields that neither knows.** -/
lemma Level.step_unknown (undeclared : ∀ d ∈ c.declared, d.number ≠ number) :
    ∃ last' m₁', decodeNumber p' none decode' c' assigned' number (m', cur) = .ok last' (m₁', cur₁)
      ∧ Level p p' decode N depth group t c c' touched m₁ m₁' := by
  obtain ⟨payload, behind, rfl, framed, before, again, skipped⟩ := pursuit.exists_payload stands run
  have undeclared' : ∀ d' ∈ c'.declared, d'.number ≠ number := by
    intro d' declared'
    obtain ⟨d, declared, alike⟩ := level.narrow.kept d' declared'
    rw [alike.number_eq]
    exact undeclared d declared
  have kept : decodeNumber p none decode c assigned number (m, cur) = _ :=
    decodeNumber_unclaimed pursuit.newer.ready level.found level.known undeclared skipped
  have run' : decodeNumber p' none decode' c' assigned' number (m', cur) = _ :=
    decodeNumber_unclaimed pursuit.older.ready level.found' level.known' undeclared' skipped
  cases kept.symm.trans run
  refine ⟨_, _, run', level.found, level.found', level.narrow, level.deep,
    level.known.step pursuit.newer level.found stands tagged framed.ne_endGroup run,
    level.known'.step pursuit.older level.found' stands tagged framed.ne_endGroup run', ?_, level.kept, level.free⟩
  exact level.replays.unknown pursuit.newer level.found (unclaimed_of_undeclared level.found undeclared) tagged framed

/-- **Fields that only the newer reader knows.** -/
lemma Level.step_lost (declared : d ∈ c.declared) (named : d.number = number)
    (gone : ∀ d' ∈ c'.declared, d'.number ≠ d.number) :
    ∃ last' m₁', decodeNumber p' none decode' c' assigned' number (m', cur) = .ok last' (m₁', cur₁)
      ∧ Level p p' decode N depth group t c c' (d.slot :: touched) m₁ m₁' := by
  obtain ⟨payload, behind, rfl, framed, before, again, skipped⟩ := pursuit.exists_payload stands run
  have here := level.known.atField pursuit.newer level.found stands tagged framed.ne_endGroup
  obtain ⟨v, takes, isNew⟩ := (here.decodeNumber_iff pursuit.newer.ready
    (Rules.decoded_known pursuit.newer.ready) declared named assigned).1 ⟨last, run⟩
  have run' : decodeNumber p' none decode' c' assigned' number (m', cur) = _ :=
    decodeNumber_unclaimed pursuit.older.ready level.found' level.known' (named ▸ gone) skipped
  have fresh : d.slot ∉ touched → m.slot d.slot = c.freshSlot d.slot := by
    intro untouched
    by_cases shared : ∃ e ∈ c.declared, ∃ e' ∈ c'.declared, e.Alike e' ∧ e.slot = d.slot
    · obtain ⟨e, other, e', other', alike, same⟩ := shared
      exact (level.lost_slot pursuit declared gone other other' alike same takes).2.1 untouched
    · refine level.free _ untouched fun e other e' other' alike same => ?_
      exact shared ⟨e, other, e', other', alike, same⟩
  refine ⟨_, _, run', level.found, level.found', level.narrow, level.deep,
    level.known.step pursuit.newer level.found stands tagged framed.ne_endGroup run,
    level.known'.step pursuit.older level.found' stands tagged framed.ne_endGroup run', ?_, ?_, ?_⟩
  · exact level.replays.field pursuit.newer level.found level.known declared named fresh tagged stands
      framed.ne_endGroup run again
  · intro e other e' other' alike
    rw [isNew]
    by_cases same : e.slot = d.slot
    · obtain ⟨none, -, lost⟩ := level.lost_slot pursuit declared gone other other' alike same takes
      rw [same, Content.slot_setSlot (level.known.room pursuit.newer.ready level.found declared)]
      rw [← none] at lost
      exact lost
    · rw [Content.slot_setSlot_ne (Ne.symm same)]
      exact (level.kept e other e' other' alike).touch same
  · intro i untouched unkept
    simp only [mem_cons, not_or] at untouched
    rw [isNew, Content.slot_setSlot_ne (Ne.symm untouched.1)]
    exact level.free i untouched.2 unkept

/-- **One field.**  What the newer reader makes of a field, the older one follows. -/
lemma Level.step :
    ∃ last' m₁', decodeNumber p' none decode' c' assigned' number (m', cur) = .ok last' (m₁', cur₁)
      ∧ ∃ touched', Level p p' decode N depth group t c c' touched' m₁ m₁' := by
  by_cases isDeclared : ∃ d ∈ c.declared, d.number = number
  · obtain ⟨d, declared, named⟩ := isDeclared
    by_cases isKept : ∃ d' ∈ c'.declared, d'.number = number
    · obtain ⟨d', declared', named'⟩ := isKept
      obtain ⟨e, other, alike⟩ := level.narrow.kept d' declared'
      obtain ⟨-, s, resolved, planned⟩ := pursuit.newer.ready.planned level.found
      obtain rfl := planned.declared_ext resolved other declared (alike.number_eq.symm.trans (named'.trans named.symm))
      obtain ⟨last', m₁', run', level'⟩ := level.step_kept pursuit tagged stands run declared declared' alike named
      exact ⟨last', m₁', run', touched, level'⟩
    · have gone : ∀ d' ∈ c'.declared, d'.number ≠ d.number := fun d' declared' same =>
        isKept ⟨d', declared', same.trans named⟩
      obtain ⟨last', m₁', run', level'⟩ := level.step_lost pursuit tagged stands run declared named gone
      exact ⟨last', m₁', run', _, level'⟩
  · have undeclared : ∀ d ∈ c.declared, d.number ≠ number := fun d declared same =>
      isDeclared ⟨d, declared, same⟩
    obtain ⟨last', m₁', run', level'⟩ := level.step_unknown pursuit tagged stands run undeclared
    exact ⟨last', m₁', run', touched, level'⟩

end step

/-- **All fields.** -/
lemma Level.run {bytes : Bytes} (before : cur.Before depth group bytes) {turns : Nat} (enough : bytes.length < turns)
    (run : decodeFields p none decode c turns assigned (m, cur) = .ok () (m₁, cur₁)) :
    ∃ m₁', decodeFields p' none decode' c' turns assigned' (m', cur) = .ok () (m₁', cur₁)
      ∧ ∃ touched', Level p p' decode N depth group t c c' touched' m₁ m₁' := by
  refine decodeFields_follows pursuit.newer.nests (S := fun m m' => ∃ touched, Level p p' decode N depth group t c c'
    touched m m') ?_ before enough run _ _ ⟨touched, level⟩
  rintro _ _ _ _ _ _ _ _ _ _ _ _ _ ⟨_, level⟩ tagged stands - step
  exact level.step pursuit tagged stands step

omit pursuit in
/-- Messages that data was merged into are related as they were. -/
lemma Level.merged : Level p p' decode N depth group t c c' touched m.merged m'.merged where
  __ := level
  known := Content.Fits.merged level.known
  known' := Content.Fits.merged level.known'

/-- **Messages.** -/
lemma Level.decodeInto {bytes : Bytes} (before : cur.Before depth group bytes)
    (run : decodeInto p none decode (m, cur) = .ok () (m₁, cur₁)) :
    ∃ m₁' touched', decodeInto p' none decode' (m', cur) = .ok () (m₁', cur₁)
      ∧ Level p p' decode N depth group t c c' touched' m₁ m₁' := by
  rw [Content.Fits.decodeInto_eq_ok_iff level.known pursuit.newer.ready level.found] at run
  obtain ⟨m₁', run', touched', level'⟩ := level.merged.run pursuit before (by rw [before.rest]; omega) run
  refine ⟨m₁', touched', ?_, level'⟩
  exact (Content.Fits.decodeInto_eq_ok_iff level.known' pursuit.older.ready level.found').2 run'

end level

/-! ## New messages -/

lemma relates_initial {kind kind' : FieldKind} (alike : kind.Alike kind') :
    kind.Relates N depth number kind.initial kind'.initial := by
  cases alike with
  | @scalar type presence default default' stored =>
    cases presence with
    | true => rfl
    | false => exact congrArg Value.scalar (stored rfl)
  | repeated => rfl
  | message => exact .inl ⟨rfl, rfl⟩
  | repeatedMessage => exact ⟨[], [], rfl, rfl, .nil⟩
  | map => exact ⟨[], [], rfl, rfl, .nil⟩

/-- **New messages** of a class are related. -/
lemma level_fresh (ready : p.Ready none) (ready' : p'.Ready none) (narrowed : p.Narrowed p')
    (decode : Decoding Unit) (N : Relation) (group : Option Nat) (deep : depth ≤ maxDepth + 1)
    (found : p.plan? t = some c) :
    ∃ c' s s', Content.fresh p t = .ok s ∧ Content.fresh p' t = .ok s'
      ∧ Level p p' decode N depth group t c c' [] s s' := by
  obtain ⟨c', found', narrow⟩ := narrowed _ _ found
  obtain ⟨s, made, fits⟩ := fresh_fits ready (Rules.decoded_known ready) found
    (inside p (.known none) (fun _ => False) (maxDepth + 1 - depth))
  obtain ⟨s', made', fits'⟩ := fresh_fits ready' (Rules.decoded_known ready') found'
    (inside p' (.known none) (fun _ => False) (maxDepth + 1 - depth))
  obtain rfl := Except.ok.inj ((fresh_eq ready found).symm.trans made)
  obtain rfl := Except.ok.inj ((fresh_eq ready' found').symm.trans made')
  refine ⟨c', _, _, made, made', found, found', narrow, deep, fits, fits', ?_, ?_, fun i _ _ => rfl⟩
  · intro w known _
    exact absorbs_nil ⟨known, by simp, by simp⟩
  · intro d declared d' declared' alike
    change d.Relates N depth t c c' [] d' (c.freshSlot d.slot) (c'.freshSlot d'.slot)
    cases alike with
    | field _ kind =>
      simp only [Declared.slot, freshSlot_field ready found declared, freshSlot_field ready' found' declared']
      exact .field not_mem_nil (relates_initial kind)
    | member =>
      simp only [Declared.slot, freshSlot_member ready found declared, freshSlot_member ready' found' declared']
      exact .unset not_mem_nil

/-! ## All levels -/

/-- A message of a newer reader, and what an older one has made of the same data, decoded with so many levels
of nested data. -/
def Older (p p' : Program) : (levels : Nat) → Relation
  | 0 => fun _ _ _ _ _ => False
  | levels + 1 => fun depth group t v v' => ∃ m m' c c' touched, v = Content.value m ∧ v' = Content.value m'
    ∧ Level p p' (decodeMessage p none levels) (Older p p' levels) depth group t c c' touched m m'

section levels

variable (ready : p.Ready none) (ready' : p'.Ready none) (narrowed : p.Narrowed p')

include ready ready' narrowed

lemma pursuit_older {levels : Nat} (enough : maxDepth + 1 ≤ levels + depth) (deep : depth ≤ maxDepth + 1) :
    Pursuit p p' (decodeMessage p none levels) (decodeMessage p' none levels) (Older p p' levels) depth := by
  induction levels generalizing depth with
  | zero =>
    refine ⟨⟨fun shallow => ?_, ?_, ?_⟩, nestedReader ready enough deep, nestedReader ready' enough deep⟩
    · omega
    · rintro _ _ _ _ _ ⟨⟩
    · rintro _ _ _ _ _ _ _ _ _ _ ⟨⟩
  | succ levels ih =>
    refine ⟨⟨?_, ?_, ?_⟩, nestedReader ready enough deep, nestedReader ready' enough deep⟩
    · intro shallow below group t deeper near isClass
      obtain ⟨c, found⟩ := Option.isSome_iff_exists.1 isClass
      obtain ⟨c', s, s', made, made', level⟩ := level_fresh ready ready' narrowed
        (decodeMessage p none levels) (Older p p' levels) group (show below ≤ maxDepth + 1 by omega) found
      exact ⟨s, s', made, made', s, s', c, c', [], rfl, rfl, level⟩
    · rintro below group t v v' ⟨m, m', c, c', touched, rfl, rfl, -⟩
      exact ⟨m, m', rfl, rfl⟩
    · rintro below group t m m' cur bytes m₁ cur₁ deeper ⟨n, n', c, c', touched, same, same', level⟩ before run
      obtain rfl := Content.value_injective same
      obtain rfl := Content.value_injective same'
      obtain ⟨m₁', touched', run', level'⟩ :=
        level.decodeInto (ih (by omega) level.deep) before run
      exact ⟨m₁', run', m₁, m₁', c, c', touched', rfl, rfl, level'⟩

/-- **Older readers.**  Data that a newer reader accepts is accepted by an older one. -/
lemma exists_older {data : Bytes} (isClass : (p.plan? t).isSome = true) (parsed : parse p none t data = .ok m) :
    ∃ m' c c' touched, parse p' none t data = .ok m' ∧ Level p p' (decodeMessage p none (maxDepth + 1))
      (Older p p' (maxDepth + 1)) 0 none t c c' touched m m' := by
  obtain ⟨c, found⟩ := Option.isSome_iff_exists.1 isClass
  obtain ⟨c', s, s', made, made', level⟩ := level_fresh ready ready' narrowed
    (decodeMessage p none (maxDepth + 1)) (Older p p' (maxDepth + 1)) none (Nat.zero_le _) found
  obtain ⟨cur, run⟩ := (parse_eq_ok_iff made).1 parsed
  obtain ⟨m', touched, run', level'⟩ := level.decodeInto
    (pursuit_older ready ready' narrowed (Nat.le_add_right _ _) (Nat.zero_le _)) (before_ofBytes data) run
  exact ⟨m', c, c', touched, (parse_eq_ok_iff made').2 ⟨cur, run'⟩, level'⟩

end levels

end Missive
