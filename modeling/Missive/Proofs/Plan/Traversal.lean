import Missive.Proofs.Plan.Dispatch

/-!
# The walk meets every field once

The visits of a class are made in two steps: fields and extension ranges are put in order as marks,
and neighbouring members of a oneof are joined into runs.

**Marks ascend.**  Each mark ends before the next one starts, so whatever is met mark by mark is met
in ascending order of numbers.

**Joining changes nothing.**  A visit of a oneof meets the active member if its number lies within the
bounds of the run, and a visit without bounds meets it anyway.  Either way the member is met at its own
mark and nowhere else: a run holds all the numbers of its oneof between its ends, and a oneof that is
visited without bounds has a single run, which holds all its members.
-/

namespace Missive.Plan

open Schema List

variable {α : Type} {m : Message} {visit : Visit → List α} {own : Int → List α} {ranges : List (Int × Int)}

/-! ## Marks -/

namespace Mark

/-- The first number of a mark. -/
def start : Mark → Int
  | field f => f.number
  | range start _ => start

/-- The first number behind a mark. -/
def stop : Mark → Int
  | field f => f.number + 1
  | range _ stop => stop

end Mark

variable {fields : List Field} {x : Mark} {number : Int} {r : Int × Int}

def marks (m : Message) : List Mark := mergeMarks m.sorted m.ranges.list

lemma mem_mergeMarks :
    x ∈ mergeMarks fields ranges ↔ (∃ f ∈ fields, x = .field f) ∨ ∃ r ∈ ranges, x = .range r.1 r.2 := by
  induction fields generalizing ranges with
  | nil => simp [mergeMarks, eq_comm]
  | cons f rest ih =>
    have split : ∀ before r, r ∈ ranges ↔ r ∈ ranges.takeWhile before ∨ r ∈ ranges.dropWhile before := by
      intro before r
      rw [← mem_append, takeWhile_append_dropWhile]
    simp only [mergeMarks, mem_append, mem_map, mem_cons, ih]
    constructor
    · rintro (⟨r, before, rfl⟩ | rfl | ⟨g, later, rfl⟩ | ⟨r, after, rfl⟩)
      · exact .inr ⟨r, (split _ r).2 (.inl before), rfl⟩
      · exact .inl ⟨f, .inl rfl, rfl⟩
      · exact .inl ⟨g, .inr later, rfl⟩
      · exact .inr ⟨r, (split _ r).2 (.inr after), rfl⟩
    · rintro (⟨g, rfl | later, rfl⟩ | ⟨r, inside, rfl⟩)
      · exact .inr (.inl rfl)
      · exact .inr (.inr (.inl ⟨g, later, rfl⟩))
      · rcases (split _ r).1 inside with before | after
        · exact .inl ⟨r, before, rfl⟩
        · exact .inr (.inr (.inr ⟨r, after, rfl⟩))

/-- Ranges behind those that start before a number do not start before it. -/
lemma le_of_mem_dropWhile (nonempty : ∀ r ∈ ranges, r.1 < r.2) (ordered : ranges.Pairwise fun a b => a.2 ≤ b.1)
    (after : r ∈ ranges.dropWhile fun (start, _) => start < number) :
    number ≤ r.1 := by
  induction ranges with
  | nil => simp at after
  | cons first rest ih =>
    obtain ⟨before, later⟩ := pairwise_cons.1 ordered
    by_cases early : first.1 < number
    · rw [dropWhile_cons_of_pos (by simpa using early)] at after
      exact ih (fun r inside => nonempty r (.tail _ inside)) later after
    · rw [dropWhile_cons_of_neg (by simpa using early)] at after
      rcases mem_cons.1 after with rfl | inside
      · exact Int.not_lt.1 early
      · have room := nonempty first (.head _)
        have := before r inside
        omega

/-- Fields and ranges that are apart from each other are merged in order. -/
lemma mergeMarks_pairwise (sorted : fields.Pairwise fun f g => f.number < g.number)
    (nonempty : ∀ r ∈ ranges, r.1 < r.2) (ordered : ranges.Pairwise fun a b => a.2 ≤ b.1)
    (apart : ∀ f ∈ fields, ∀ r ∈ ranges, f.number < r.1 ∨ r.2 ≤ f.number) :
    (mergeMarks fields ranges).Pairwise fun a b => a.stop ≤ b.start := by
  induction fields generalizing ranges with
  | nil => exact pairwise_map.2 ordered
  | cons f rest ih =>
    obtain ⟨first, sorted⟩ := pairwise_cons.1 sorted
    have whole := takeWhile_append_dropWhile (p := fun (start, _) => start < f.number) (l := ranges)
    rw [mergeMarks]
    generalize front : (ranges.takeWhile fun (start, _) => start < f.number) = before at whole ⊢
    generalize back : (ranges.dropWhile fun (start, _) => start < f.number) = after at whole ⊢
    subst whole
    obtain ⟨orderedBefore, orderedAfter, across⟩ := pairwise_append.1 ordered
    have behind : ∀ r ∈ after, f.number + 1 ≤ r.1 := by
      intro r inside
      have reached := le_of_mem_dropWhile nonempty ordered (back ▸ inside)
      have room := nonempty r (mem_append_right _ inside)
      have := apart f (.head _) r (mem_append_right _ inside)
      omega
    have ahead : ∀ r ∈ before, r.2 ≤ f.number := by
      intro r inside
      rw [← front] at inside
      have reached : r.1 < f.number := by
        have hit := mem_takeWhile_imp inside
        exact of_decide_eq_true hit
      have := apart f (.head _) r (mem_append_left _ (front ▸ inside))
      omega
    refine pairwise_append.2 ⟨pairwise_map.2 orderedBefore, pairwise_cons.2 ⟨?_, ?_⟩, ?_⟩
    · intro x later
      rcases mem_mergeMarks.1 later with ⟨g, inside, rfl⟩ | ⟨r, inside, rfl⟩
      · exact first g inside
      · exact behind r inside
    · exact ih sorted (fun r inside => nonempty r (mem_append_right _ inside)) orderedAfter
        fun g inside r after => apart g (.tail _ inside) r (mem_append_right _ after)
    · intro x early y late
      obtain ⟨r, inside, rfl⟩ := mem_map.1 early
      have room := ahead r inside
      rcases mem_cons.1 late with rfl | late
      · exact room
      · rcases mem_mergeMarks.1 late with ⟨g, later, rfl⟩ | ⟨s, later, rfl⟩
        · have := first g later
          simp only [Mark.start, Mark.stop]
          omega
        · exact across r inside s later

lemma sorted_pairwise (resolved : m.Resolved) : m.sorted.Pairwise fun f g => f.number < g.number :=
  pairwise_lt_sortBy Field.number resolved.distinct

lemma apart_of_resolved (resolved : m.Resolved) {f : Field} (declared : f ∈ m.fields)
    (inside : r ∈ m.ranges.list) : f.number < r.1 ∨ r.2 ≤ f.number := by
  have outside := resolved.outside f declared
  unfold Ranges.contains at outside
  have := any_eq_false.1 outside r inside
  simp only [Bool.and_eq_true, decide_eq_true_eq] at this
  omega

/-- **Marks ascend.** -/
lemma marks_pairwise (resolved : m.Resolved) : (marks m).Pairwise fun a b => a.stop ≤ b.start :=
  mergeMarks_pairwise (sorted_pairwise resolved) (fun r inside => (resolved.nonempty r inside).2)
    resolved.ordered fun _ declared _ inside => apart_of_resolved resolved (mem_sorted.1 declared) inside

lemma mem_marks : x ∈ marks m ↔ (∃ f ∈ m.fields, x = .field f) ∨ ∃ r ∈ m.ranges.list, x = .range r.1 r.2 := by
  simp only [marks, mem_mergeMarks, mem_sorted]

/-! ## Runs -/

/-- Is a number within bounds, where there are any? -/
def inBounds (bounds : Option (Int × Int)) (number : Int) : Bool :=
  match bounds with
  | none => true
  | some (start, stop) => start ≤ number && number < stop

@[simp] lemma inBounds_none (number : Int) : inBounds none number = true := rfl

@[simp] lemma inBounds_some {start stop : Int} :
    inBounds (some (start, stop)) number = true ↔ start ≤ number ∧ number < stop := by
  simp [inBounds]

/-- What a walk meets at its visits, in terms of what it meets of each field: a visit of a oneof meets
the active member, if that is within bounds, and the other members are not met at all. -/
structure Faithful {α : Type} (m : Message) (fieldSlot : Int → Nat) (oneofSlot : Nat → Nat)
    (visit : Visit → List α) (own : Int → List α) : Prop where
  field : ∀ f ∈ m.fields, m.oneofOf f = none → visit (.field (fieldSlot f.number)) = own f.number
  oneof : ∀ o ∈ m.oneofs, ∃ active ∈ o.numbers, (∀ bounds, visit (.oneof (oneofSlot o.index) bounds)
      = if inBounds bounds active then own active else [])
    ∧ ∀ number ∈ o.numbers, number ≠ active → own number = []

/-- What a walk meets at a mark. -/
def Mark.met {α : Type} (visit : Visit → List α) (own : Int → List α) : Mark → List α
  | field f => own f.number
  | range start stop => visit (.extensions start stop)

/-- What a walk meets at a stretch, if it visits every run with bounds. -/
def Stretch.met {α : Type} (oneofSlot : Nat → Nat) (visit : Visit → List α) (own : Int → List α) :
    Stretch → List α
  | field f => own f.number
  | run o start stop => visit (.oneof (oneofSlot o.index) (some (start, stop)))
  | range start stop => visit (.extensions start stop)

section runs

variable {f : Field} {o o' : Oneof} {ms : List Mark} {start stop number : Int} {fieldSlot : Int → Nat}
  {oneofSlot : Nat → Nat} {following : List Stretch}

lemma mem_numbers_of_oneofOf (declared : f ∈ m.fields) (inside : m.oneofOf f = some o) : f.number ∈ o.numbers :=
  mem_numbers.2 ⟨f, mem_members declared inside, rfl⟩

/-- A member of a oneof starts a run, and takes in the run behind it if that is of its oneof. -/
lemma joinMark_member (inside : m.oneofOf f = some o) (following : List Stretch) :
    joinMark m (.field f) following = .run o f.number (f.number + 1) :: following
      ∨ ∃ o' start stop later, following = .run o' start stop :: later ∧ o'.index = o.index
        ∧ joinMark m (.field f) following = .run o f.number stop :: later := by
  simp only [joinMark, inside]
  split
  · split
    · rename_i same
      exact .inr ⟨_, _, _, _, rfl, (eq_of_beq same).symm, rfl⟩
    · exact .inl rfl
  · exact .inl rfl

/-- A run in front starts at the first mark, which is a member of its oneof. -/
lemma head_run (ascending : ms.Pairwise fun a b => a.stop ≤ b.start) {later : List Stretch}
    (front : ms.foldr (joinMark m) [] = .run o start stop :: later) :
    start < stop ∧ ∃ g rest, ms = .field g :: rest ∧ m.oneofOf g = some o ∧ g.number = start := by
  induction ms generalizing o start stop later with
  | nil => simp at front
  | cons x rest ih =>
    obtain ⟨first, others⟩ := pairwise_cons.1 ascending
    rw [foldr_cons] at front
    cases x with
    | range => simp [joinMark] at front
    | field f =>
      cases of : m.oneofOf f with
      | none => simp [joinMark, of] at front
      | some =>
        rcases joinMark_member of (rest.foldr (joinMark m) []) with alone | ⟨_, _, _, _, following, -, joined⟩
        · cases alone.symm.trans front
          exact ⟨by omega, f, rest, rfl, of, rfl⟩
        · cases joined.symm.trans front
          obtain ⟨room, g, rest', rfl, -, rfl⟩ := ih others following
          have := first (.field g) (.head _)
          simp only [Mark.start, Mark.stop] at this
          exact ⟨by omega, f, _, rfl, of, rfl⟩

/-- Joining a member to the run behind it changes nothing: no number of the oneof lies between. -/
lemma met_join (faithful : Faithful m fieldSlot oneofSlot visit own) {g : Field} (declared : f ∈ m.fields)
    (inside : m.oneofOf f = some o) (room : f.number < g.number) (more : g.number < stop)
    (between : ∀ h ∈ m.fields, h.number ≤ f.number ∨ g.number ≤ h.number) :
    visit (.oneof (oneofSlot o.index) (some (f.number, stop)))
      = own f.number ++ visit (.oneof (oneofSlot o.index) (some (g.number, stop))) := by
  have member := (oneofOf_some inside).1
  obtain ⟨active, isNumber, bounded, others⟩ := faithful.oneof o member
  obtain ⟨h, hMember, rfl⟩ := mem_numbers.1 isNumber
  simp only [bounded, inBounds_some]
  by_cases same : f.number = h.number
  · rw [if_pos (by omega), if_neg (by omega), same, append_nil]
  · rw [others f.number (mem_numbers_of_oneofOf declared inside) same, nil_append]
    have := between h ((mem_members_iff member).1 hMember).1
    exact if_congr (by omega) rfl rfl

lemma met_single (faithful : Faithful m fieldSlot oneofSlot visit own) (declared : f ∈ m.fields)
    (inside : m.oneofOf f = some o) :
    visit (.oneof (oneofSlot o.index) (some (f.number, f.number + 1))) = own f.number := by
  obtain ⟨active, -, bounded, others⟩ := faithful.oneof o (oneofOf_some inside).1
  rw [bounded]
  by_cases same : f.number = active
  · rw [if_pos (inBounds_some.2 (by omega)), same]
  · rw [if_neg fun inside => same (by have := inBounds_some.1 inside; omega)]
    exact (others f.number (mem_numbers_of_oneofOf declared inside) same).symm

/-- Stretches meet what their marks meet, if every run is visited with bounds. -/
lemma met_stretches (resolved : m.Resolved) (faithful : Faithful m fieldSlot oneofSlot visit own) :
    (stretches m).flatMap (Stretch.met oneofSlot visit own) = (marks m).flatMap (Mark.met visit own) := by
  have ascending := marks_pairwise resolved
  have fields : ∀ {g}, Mark.field g ∈ marks m ↔ g ∈ m.fields := by
    intro g
    simp [mem_marks]
  -- The marks behind some that are done, with all of them in view to tell what lies between.
  suffices step : ∀ rest done, marks m = done ++ rest →
      (rest.foldr (joinMark m) []).flatMap (Stretch.met oneofSlot visit own)
        = rest.flatMap (Mark.met visit own) from step (marks m) [] rfl
  intro rest
  induction rest with
  | nil => intros; rfl
  | cons x rest ih =>
    intro done whole
    have later := ih (done ++ [x]) (by simp [whole])
    rw [foldr_cons, flatMap_cons, ← later]
    cases x with
    | range => rfl
    | field f =>
      have declared : f ∈ m.fields := fields.1 (by simp [whole])
      cases of : m.oneofOf f with
      | none => simp [joinMark, of, Stretch.met, Mark.met]
      | some =>
        rcases joinMark_member of (rest.foldr (joinMark m) []) with alone | ⟨o', _, stop, _, following, same, joined⟩
        · rw [alone, flatMap_cons, Stretch.met, met_single faithful declared of, Mark.met]
        · rw [whole, pairwise_append, pairwise_cons] at ascending
          obtain ⟨-, ⟨behind, others⟩, before⟩ := ascending
          obtain ⟨more, g, tail', rfl, ofG, rfl⟩ := head_run others following
          have room : f.number + 1 ≤ g.number := behind _ (.head _)
          rw [joined, following, flatMap_cons, flatMap_cons, Stretch.met, Stretch.met, same,
            met_join faithful declared of (by omega) more, Mark.met, append_assoc]
          intro h inside
          have := fields.2 inside
          rw [whole] at this
          rcases mem_append.1 this with early | late
          · have : h.number + 1 ≤ f.number := before _ early _ (.head _)
            omega
          rcases mem_cons.1 late with here | late
          · cases here
            omega
          rcases mem_cons.1 late with here | late
          · cases here
            omega
          · have : g.number + 1 ≤ h.number := (pairwise_cons.1 others).1 _ late
            omega

/-! ## Runs without bounds -/

/-- What is true of an unbroken stretch of a list and false around it. -/
lemma exists_stretch (q : α → Bool) (l : List α)
    (unbroken : (((l.map q).dropWhile (!·)).reverse.dropWhile (!·)).all id = true) :
    ∃ before inside after, l = before ++ inside ++ after ∧ (∀ x ∈ before, q x = false)
      ∧ (∀ x ∈ inside, q x = true) ∧ ∀ x ∈ after, q x = false := by
  have reversed : (((l.map q).dropWhile (!·)).reverse.dropWhile (!·))
      = (((l.dropWhile fun x => !q x).reverse.dropWhile fun x => !q x).map q) := by
    rw [dropWhile_map, ← map_reverse, dropWhile_map]
    rfl
  rw [reversed] at unbroken
  refine ⟨l.takeWhile fun x => !q x, ((l.dropWhile fun x => !q x).reverse.dropWhile fun x => !q x).reverse,
    ((l.dropWhile fun x => !q x).reverse.takeWhile fun x => !q x).reverse, ?_, ?_, ?_, ?_⟩
  · rw [append_assoc, ← reverse_append, takeWhile_append_dropWhile, reverse_reverse, takeWhile_append_dropWhile]
  · intro x early
    simpa using mem_takeWhile_imp early
  · intro x inside
    simpa using all_eq_true.1 unbroken (q x) (mem_map_of_mem (mem_reverse.1 inside))
  · intro x late
    simpa using mem_takeWhile_imp (mem_reverse.1 late)

def isMember (m : Message) (o : Oneof) (f : Field) : Bool := (m.oneofOf f).map (·.index) == some o.index

lemma isMember_iff :
    isMember m o f = true ↔ ∃ o', m.oneofOf f = some o' ∧ o'.index = o.index := by
  simp [isMember]

/-- Marks of other fields leave the runs of a oneof as they are. -/
lemma mem_of_other_marks (other : ∀ f, Mark.field f ∈ ms → isMember m o f = false) (same : o'.index = o.index)
    (member : Stretch.run o' start stop ∈ ms.foldr (joinMark m) following) :
    Stretch.run o' start stop ∈ following := by
  induction ms with
  | nil => exact member
  | cons x rest ih =>
    have earlier : Stretch.run o' start stop ∈ rest.foldr (joinMark m) following →
        Stretch.run o' start stop ∈ following :=
      ih fun f inside => other f (.tail _ inside)
    rw [foldr_cons] at member
    generalize rest.foldr (joinMark m) following = later at member earlier
    cases x with
    | range => exact earlier (by simpa [joinMark] using member)
    | field f =>
      cases of : m.oneofOf f with
      | none => exact earlier (by simpa [joinMark, of] using member)
      | some o'' =>
        have different : o' ≠ o'' := by
          rintro rfl
          have := other f (.head _)
          rw [Bool.eq_false_iff, Ne, isMember_iff] at this
          exact this ⟨o', of, same⟩
        rcases joinMark_member of later with alone | ⟨_, _, _, _, rfl, -, joined⟩
        · exact earlier (by simpa [alone, different] using member)
        · exact earlier (mem_cons_of_mem _ (by simpa [joined, different] using member))

/-- Members in a row become one run. -/
lemma run_of_members (apart : ∀ o' start stop, Stretch.run o' start stop ∈ following → o'.index ≠ o.index)
    {first : Field} {rest : List Field} (members : ∀ f ∈ first :: rest, isMember m o f = true) :
    ∃ o', o'.index = o.index ∧ ((first :: rest).map Mark.field).foldr (joinMark m) following
      = .run o' first.number ((rest.getLastD first).number + 1) :: following := by
  induction rest generalizing first with
  | nil =>
    obtain ⟨o', of, same⟩ := isMember_iff.1 (members first (.head _))
    refine ⟨o', same, ?_⟩
    rcases joinMark_member of following with alone | ⟨o'', start, stop, later, rfl, same', -⟩
    · exact alone
    · exact absurd (same'.trans same) (apart o'' start stop (.head _))
  | cons next rest ih =>
    obtain ⟨o', of, same⟩ := isMember_iff.1 (members first (.head _))
    obtain ⟨o'', same', joined⟩ := ih fun f inside => members f (.tail _ inside)
    refine ⟨o', same, ?_⟩
    rw [map_cons, foldr_cons, joined]
    simp only [joinMark, of, getLastD_cons]
    rw [if_pos (by simp [same, same'])]

lemma mergeMarks_append (before later : List Field) (ranges : List (Int × Int)) :
    ∃ front rest, mergeMarks (before ++ later) ranges = front ++ mergeMarks later rest
      ∧ (∀ f, Mark.field f ∈ front → f ∈ before) ∧ rest.Sublist ranges := by
  induction before generalizing ranges with
  | nil => exact ⟨[], ranges, rfl, by simp, List.Sublist.refl _⟩
  | cons f before ih =>
    obtain ⟨front, rest, whole, fields, sub⟩ :=
      ih (ranges.dropWhile fun (start, _) => start < f.number)
    refine ⟨(ranges.takeWhile fun (start, _) => start < f.number).map
      (fun (start, stop) => .range start stop) ++ .field f :: front, rest, ?_, ?_, ?_⟩
    · rw [cons_append, mergeMarks, whole, append_assoc, cons_append]
    · intro g inside
      rcases mem_append.1 inside with inside | inside
      · simp at inside
      · rcases mem_cons.1 inside with here | inside
        · cases here
          exact .head _
        · exact .tail _ (fields g inside)
    · exact sub.trans (dropWhile_sublist _)

/-- Fields that no range comes before stay together. -/
lemma mergeMarks_together {fields later : List Field} (behind : ∀ f ∈ fields, ∀ r ∈ ranges, f.number ≤ r.1) :
    mergeMarks (fields ++ later) ranges = fields.map .field ++ mergeMarks later ranges := by
  induction fields with
  | nil => rfl
  | cons f rest ih =>
    have none : ∀ r ∈ ranges, ¬ (fun (r : Int × Int) => decide (r.1 < f.number)) r = true := by
      intro r inside
      have := behind f (.head _) r inside
      simp only [decide_eq_true_eq]
      omega
    have front : (ranges.takeWhile fun (start, _) => decide (start < f.number)) = [] := by
      cases ranges with
      | nil => rfl
      | cons r => exact takeWhile_cons_of_neg (none r (.head _))
    have back : (ranges.dropWhile fun (start, _) => decide (start < f.number)) = ranges := by
      cases ranges with
      | nil => rfl
      | cons r => exact dropWhile_cons_of_neg (none r (.head _))
    rw [cons_append, mergeMarks, front, back, ih fun g inside => behind g (.tail _ inside)]
    rfl

/-- A number of a oneof lies between its first and its last one. -/
lemma numbers_between (resolved : m.Resolved) (member : o ∈ m.oneofs) (inside : number ∈ o.numbers) :
    o.numbers.headD 0 ≤ number ∧ number ≤ o.numbers.getLastD 0 := by
  have ascending := numbers_pairwise resolved.distinct member
  cases numbers : o.numbers with
  | nil => simp [numbers] at inside
  | cons =>
    rw [numbers] at inside ascending
    exact ⟨Pattern.first_le ascending inside, by rw [getLastD_cons]; exact Pattern.le_last ascending inside⟩

lemma number_mem_of_isMember (member : o ∈ m.oneofs) (declared : f ∈ m.fields) (inside : isMember m o f = true) :
    f.number ∈ o.numbers := by
  obtain ⟨o', of, same⟩ := isMember_iff.1 inside
  obtain rfl := oneof_ext (mem_oneofs (oneofOf_some of).1).1 (mem_oneofs member).1 same
  exact mem_numbers_of_oneofOf declared of

/-- The members of a oneof that nothing interrupts are marks in a row. -/
lemma marks_of_unbroken (resolved : m.Resolved) (member : o ∈ m.oneofs) (unbroken : isUnbroken m o = true) :
    ∃ front first rest back, marks m = front ++ ((first :: rest).map Mark.field ++ back)
      ∧ (∀ f, Mark.field f ∈ front → isMember m o f = false)
      ∧ (∀ f, Mark.field f ∈ back → isMember m o f = false)
      ∧ (∀ f ∈ first :: rest, isMember m o f = true) ∧ (∀ f ∈ o.members, f ∈ first :: rest) := by
  unfold isUnbroken at unbroken
  rw [Bool.and_eq_true, Bool.not_eq_true'] at unbroken
  obtain ⟨continuous, clear⟩ := unbroken
  obtain ⟨before, inside, after, whole, notBefore, members, notAfter⟩ :=
    exists_stretch (isMember m o) m.sorted continuous
  have among : ∀ f ∈ o.members, f ∈ inside := by
    intro f found
    obtain ⟨declared, of⟩ := (mem_members_iff member).1 found
    have isMember := isMember_iff.2 ⟨o, of, rfl⟩
    have : f ∈ before ++ inside ++ after := whole ▸ mem_sorted.2 declared
    simp only [mem_append] at this
    rcases this with (early | here) | late
    · simp [notBefore f early] at isMember
    · exact here
    · simp [notAfter f late] at isMember
  have declared : ∀ g ∈ inside, g ∈ m.fields := fun g there =>
    mem_sorted.1 (whole ▸ mem_append_left _ (mem_append_right _ there))
  cases inside with
  | nil =>
    obtain ⟨f, found⟩ := exists_mem_of_ne_nil _ (resolved.inhabited o (mem_oneofs member).1)
    cases among f found
  | cons first rest =>
    obtain ⟨front, ranges, marksEq, fields, sub⟩ :=
      mergeMarks_append before (first :: rest ++ after) m.ranges.list
    -- A range behind the first member and before another one would interrupt the oneof.
    have behind : ∀ f ∈ rest, ∀ r ∈ ranges.dropWhile fun (start, _) => start < first.number, f.number ≤ r.1 := by
      intro f inside r late
      have isRange := sub.subset ((dropWhile_sublist _).subset late)
      have reached := le_of_mem_dropWhile (fun r inside => (resolved.nonempty r (sub.subset inside)).2)
        (resolved.ordered.sublist sub) late
      have room := (resolved.nonempty r isRange).2
      have apart := apart_of_resolved resolved (declared first (.head _)) isRange
      have low := (numbers_between resolved member (number_mem_of_isMember member
        (declared first (.head _)) (members first (.head _)))).1
      have high := (numbers_between resolved member (number_mem_of_isMember member
        (declared f (.tail _ inside)) (members f (.tail _ inside)))).2
      have := any_eq_false.1 clear r isRange
      simp only [Bool.and_eq_true, decide_eq_true_eq] at this
      omega
    refine ⟨front ++ (ranges.takeWhile fun (start, _) => start < first.number).map
      (fun (start, stop) => .range start stop), first, rest,
      mergeMarks after (ranges.dropWhile fun (start, _) => start < first.number),
      ?_, ?_, ?_, members, among⟩
    · rw [marks, whole, append_assoc, marksEq, cons_append, mergeMarks, mergeMarks_together behind]
      simp
    · intro f early
      refine notBefore f (fields f ?_)
      simpa using early
    · intro f late
      refine notAfter f ?_
      simpa [mem_mergeMarks] using late

/-- A oneof that nothing interrupts has one run, which holds all its numbers. -/
lemma unbroken_run (resolved : m.Resolved) (member : o ∈ m.oneofs) (unbroken : isUnbroken m o = true)
    (run : Stretch.run o' start stop ∈ stretches m) (same : o'.index = o.index) (isNumber : number ∈ o.numbers) :
    start ≤ number ∧ number < stop := by
  obtain ⟨front, first, rest, back, whole, notFront, notBack, members, among⟩ :=
    marks_of_unbroken resolved member unbroken
  have apart : ∀ o' start stop, Stretch.run o' start stop ∈ back.foldr (joinMark m) [] → o'.index ≠ o.index := by
    intro o' start stop inside same
    cases mem_of_other_marks notBack same inside
  obtain ⟨o'', -, joined⟩ := run_of_members apart members
  change _ ∈ (marks m).foldr (joinMark m) [] at run
  rw [whole, foldr_append, foldr_append, joined] at run
  rcases mem_cons.1 (mem_of_other_marks notFront same run) with here | later
  · cases here
    obtain ⟨f, found, rfl⟩ := mem_numbers.1 isNumber
    have ascending : ((first :: rest).map Field.number).Pairwise (· < ·) := by
      have := marks_pairwise resolved
      rw [whole] at this
      have := pairwise_map.1 (pairwise_append.1 (pairwise_append.1 this).2.1).1
      exact pairwise_map.2 (this.imp fun {a b} le => by
        simp only [Mark.start, Mark.stop] at le
        omega)
    have inside : f.number ∈ (first :: rest).map Field.number := mem_map_of_mem (among f found)
    have last := Pattern.le_last ascending inside
    have lastIs : (rest.map Field.number).getLastD first.number = (rest.getLastD first).number := by
      rw [getLastD_eq_getLast?, getLastD_eq_getLast?, getLast?_map]
      cases rest.getLast? <;> rfl
    exact ⟨Pattern.first_le ascending inside, by rw [lastIs] at last; omega⟩
  · exact absurd same (apart o' start stop later)

/-- What a stretch of the traversal says about the message. -/
def Stretch.Valid (m : Message) : Stretch → Prop
  | field f => f ∈ m.fields ∧ m.oneofOf f = none
  | run o _ _ => o ∈ m.oneofs
  | range _ _ => True

lemma valid_of_mem_stretches {x : Stretch} (member : x ∈ stretches m) : x.Valid m := by
  have fields : ∀ f, Mark.field f ∈ marks m → f ∈ m.fields := by
    intro f inside
    simpa [mem_marks] using inside
  change x ∈ (marks m).foldr (joinMark m) [] at member
  generalize marks m = ms at member fields
  induction ms with
  | nil => simp at member
  | cons mark rest ih =>
    have later := fun inside => ih inside fun f there => fields f (.tail _ there)
    rw [foldr_cons] at member
    generalize rest.foldr (joinMark m) [] = following at member later
    cases mark with
    | range =>
      rcases mem_cons.1 member with rfl | inside
      · trivial
      · exact later inside
    | field f =>
      have declared := fields f (.head _)
      cases of : m.oneofOf f with
      | none =>
        simp only [joinMark, of] at member
        rcases mem_cons.1 member with rfl | inside
        · exact ⟨declared, of⟩
        · exact later inside
      | some =>
        have isOneof := (oneofOf_some of).1
        rcases joinMark_member of following with alone | ⟨_, _, _, kept, rfl, -, joined⟩
        · rcases mem_cons.1 (alone ▸ member) with rfl | inside
          · exact isOneof
          · exact later inside
        · rcases mem_cons.1 (joined ▸ member) with rfl | inside
          · exact isOneof
          · exact later (.tail _ inside)

/-- **The walk meets every field once**, at its own mark. -/
lemma flatMap_visits (resolved : m.Resolved) (faithful : Faithful m fieldSlot oneofSlot visit own) :
    (visits m fieldSlot oneofSlot).flatMap visit = (marks m).flatMap (Mark.met visit own) := by
  rw [← met_stretches resolved faithful, visits, flatMap_map]
  refine flatMap_congr fun x member => ?_
  have valid := valid_of_mem_stretches member
  cases x with
  | field f => exact faithful.field f valid.1 valid.2
  | range => rfl
  | run o =>
    simp only [Stretch.met]
    split
    · rename_i unbroken
      obtain ⟨active, isNumber, bounded, -⟩ := faithful.oneof o valid
      have inside := unbroken_run resolved valid unbroken member rfl isNumber
      rw [bounded, bounded, if_pos (inBounds_none active), if_pos (inBounds_some.2 inside)]
    · rfl

end runs

end Missive.Plan
