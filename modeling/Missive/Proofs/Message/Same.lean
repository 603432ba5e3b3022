import Missive.Message.Decode
import Missive.Message.Equality
import Missive.Proofs.Ends

/-!
# Comparisons

A comparison tells whether something holds (`Tells`).  Comparing stops at the first difference, and skips
what was read from one place.  What a comparison of lists, maps and messages tells follows from what the
comparisons of their parts tell.

`Same` says that two values are equal, whichever of them is asked.  It is built up along the values.

Comparing can fail where a class has the name of the comparison for something else, so a program is
asked not to (`Program.Comparable`).  What two messages were read from does not matter for `Same`: it can
only make a comparison of equals shorter.
-/

namespace Missive

open Plan List

def Equals (p : Program) (a b : Value) : Prop := equal p a b = .ok true

/-- Two values that are equal from both sides. -/
def Same (p : Program) (a b : Value) : Prop := equal p a b = .ok true ∧ equal p b a = .ok true

/-- No class of a program has the names of the comparisons for something else. -/
def Program.Comparable (p : Program) : Prop :=
  ∀ entry ∈ p.classes, entry.2.takes "__eq__" = false ∧ entry.2.takes "__ne__" = false

instance (p : Program) : Decidable p.Comparable :=
  inferInstanceAs (Decidable (∀ entry ∈ p.classes, _ ∧ _))

/-- A comparison tells whether something holds.  One that has to be sure always answers. -/
structure Tells (sure : Prop) (x : Except Fault Bool) (P : Prop) : Prop where
  iff : x = .ok true ↔ P
  answers : sure → ∃ answer, x = .ok answer

/-- The same of a comparison that is skipped where this holds anyway. -/
def TellsUnless (sure : Prop) (skipped : Bool) (x : Except Fault Bool) (P : Prop) : Prop :=
  (skipped = true → P) ∧ (skipped = false → Tells sure x P)

section tells

variable {sure P Q : Prop} {x y : Except Fault Bool} {skipped : Bool}

lemma Tells.congr (h : Tells sure x P) (same : P ↔ Q) : Tells sure x Q := ⟨h.iff.trans same, h.answers⟩

lemma tells_false (h : ¬P) : Tells sure (.ok false) P := ⟨by simp [h], fun _ => ⟨_, rfl⟩⟩

lemma tells_true (h : P) : Tells sure (.ok true) P := ⟨by simp [h], fun _ => ⟨_, rfl⟩⟩

lemma Tells.unless (h : Tells sure x P) (sound : skipped = true → P) : TellsUnless sure skipped x P :=
  ⟨sound, fun _ => h⟩

lemma Tells.and (first : Tells sure x P) (rest : Tells sure y Q) :
    Tells sure (do if ← x then y else return false) (P ∧ Q) := by
  rcases x with fault | _ | _
  · refine ⟨⟨nofun, fun both => nomatch first.iff.2 both.1⟩, fun isSure => ?_⟩
    obtain ⟨answer, impossible⟩ := first.answers isSure
    cases impossible
  · exact tells_false fun both => nomatch first.iff.2 both.1
  · exact rest.congr (by simp [first.iff.1 rfl])

lemma TellsUnless.and (first : TellsUnless sure skipped x P) (rest : Tells sure y Q) :
    Tells sure (if skipped = true then y else do if ← x then y else return false) (P ∧ Q) := by
  cases skipped with
  | true => exact rest.congr (by simp [first.1])
  | false => exact (first.2 rfl).and rest

/-- The other way to stop at a difference. -/
lemma Tells.andThen (first : Tells sure x P) (rest : Tells sure y Q) :
    Tells sure (do if !(← x) then return false else y) (P ∧ Q) := by
  have same : (do if !(← x) then return false else y) = (do if ← x then y else return false) := by
    rcases x with fault | _ | _ <;> rfl
  rw [same]
  exact first.and rest

end tells

section values

variable {p : Program}

variable {a b : Value} {s : Scalar} {as bs : List Value} {extensions : List (Extension × Value)} {c : ClassPlan}
  {sure : Prop} {R : Value → Value → Prop}

lemma Same.symm (h : Same p a b) : Same p b a := ⟨h.2, h.1⟩

lemma Program.Comparable.takes (comparable : p.Comparable) (t : TypeId) :
    p.takes t "__eq__" = false ∧ p.takes t "__ne__" = false := by
  unfold Program.takes
  cases found : p.plan? t with
  | none => exact ⟨rfl, rfl⟩
  | some c =>
    obtain ⟨front, back, whole, -⟩ := lookup_eq_some_iff.1 found
    exact comparable (t, c) (by simp [whole])

lemma Program.Comparable.value (comparable : p.Comparable) (v : Value) : v.takes p "__ne__" = false := by
  unfold Value.takes
  cases v with
  | message head => exact (comparable.takes head.type).2
  | _ => rfl

lemma tells_equals : Tells False (equal p a b) (Equals p a b) := ⟨Iff.rfl, False.elim⟩

/-- Where nothing is known of what is skipped. -/
lemma tellsUnless_equals {skipped : Bool} :
    TellsUnless False skipped (equal p a b) (skipped = true ∨ Equals p a b) :=
  ⟨.inl, fun other => tells_equals.congr (by simp [other])⟩

/-! ## Scalars -/

lemma Scalar.equal_self (number : s.isNaN = false) : s.equal s = true := by
  cases s with
  | float x =>
    have : x.isNaN = false := number
    simp [Scalar.equal, Binary64.equal, this]
  | _ => simp [Scalar.equal, Scalar.int?]

lemma same_scalar {a b : Scalar} (one : a.equal b = true) (other : b.equal a = true) :
    Same p (.scalar a) (.scalar b) :=
  ⟨congrArg _ one, congrArg _ other⟩

lemma same_self (number : s.isNaN = false) : Same p (.scalar s) (.scalar s) :=
  same_scalar (Scalar.equal_self number) (Scalar.equal_self number)

/-! ## Lists and maps -/

/-- Comparing the items of containers tells whether they are related. -/
def TellsApart (p : Program) (sure : Prop) (R : Value → Value → Prop) (as bs : List Value) : Prop :=
  ∀ a ∈ as, ∀ b ∈ bs, TellsUnless sure (a.isSame b) (equal p a b) (R a b)

lemma tellsApart_equals : TellsApart p False (fun a b => a.isSame b = true ∨ Equals p a b) as bs :=
  fun _ _ _ _ => tellsUnless_equals

/-- **Lists** are compared item by item. -/
lemma TellsApart.list (apart : TellsApart p sure R as bs) :
    Tells sure (equal p (.list as) (.list bs)) (Forall₂ R as bs) := by
  have items : as.length = bs.length → Tells sure (equalItems p as bs) (Forall₂ R as bs) := by
    intro length
    induction as generalizing bs with
    | nil =>
      obtain rfl := length_eq_zero_iff.1 length.symm
      exact tells_true .nil
    | cons a as ih =>
      cases bs with
      | nil => cases length
      | cons b =>
        have rest := ih (fun a' later b' later' => apart a' (.tail _ later) b' (.tail _ later')) (Nat.succ.inj length)
        rw [equalItems]
        exact ((apart a (.head _) b (.head _)).and rest).congr forall₂_cons.symm
  show Tells sure (if as.length = bs.length then equalItems p as bs else .ok false) _
  split
  · exact items ‹_›
  · exact tells_false fun each => absurd each.length_eq ‹_›

lemma same_list (each : Forall₂ (Same p) as bs) :
    Same p (.list as) (.list bs) :=
  ⟨tellsApart_equals.list.iff.2 (each.imp fun _ _ same => .inr same.1),
    tellsApart_equals.list.iff.2 (each.flip.imp fun _ _ same => .inr same.2)⟩

/-- What stands under a key that stands there once. -/
lemma atKey?_of_mem {α : Type} {entries : List (Key × α)} {e : Key × α}
    (distinct : entries.Pairwise fun a b => a.1.equal b.1 = false) (member : e ∈ entries)
    (itself : e.1.equal e.1 = true) : atKey? e.1 entries = some e.2 := by
  induction entries with
  | nil => cases member
  | cons first rest ih =>
    obtain ⟨others, distinct⟩ := pairwise_cons.1 distinct
    rcases mem_cons.1 member with rfl | later
    · simp [atKey?, itself]
    · have differs : first.1.equal e.1 = false := others e later
      simp only [atKey?, find?_cons, differs]
      exact ih distinct later

/-- **Maps** are compared key by key. -/
lemma TellsApart.map {readOnly readOnly' : Bool} {as bs : List (Key × Value)}
    (apart : TellsApart p sure R (as.map (·.2)) (bs.map (·.2))) :
    Tells sure (equal p (.map readOnly as) (.map readOnly' bs))
      (as.length = bs.length ∧ ∀ a ∈ as, ∃ v, atKey? a.1 bs = some v ∧ R a.2 v) := by
  have entries : Tells sure (equalEntries p as bs) (∀ a ∈ as, ∃ v, atKey? a.1 bs = some v ∧ R a.2 v) := by
    induction as with
    | nil => exact tells_true (by simp)
    | cons a as ih =>
      obtain ⟨key, a⟩ := a
      have rest := ih fun a' later => apart a' (.tail _ later)
      rw [equalEntries]
      cases found : atKey? key bs with
      | none => exact tells_false (by simp [found])
      | some =>
        obtain ⟨e, inside, rfl⟩ := Option.map_eq_some_iff.1 found
        have first := apart a (.head _) e.2 (mem_map_of_mem (mem_of_find?_eq_some inside))
        exact (first.and rest).congr (by simp [found])
  show Tells sure (if as.length = bs.length then equalEntries p as bs else .ok false) _
  split
  · exact entries.congr (by simp [*])
  · exact tells_false (by simp [*])

lemma pairwise_of_keys {as bs : List (Key × Value)} {r : Key → Key → Prop}
    (keys : Forall₂ (fun a b => a.1 = b.1) as bs) (ordered : bs.Pairwise fun a b => r a.1 b.1) :
    as.Pairwise fun a b => r a.1 b.1 := by
  have alike : as.map (·.1) = bs.map (·.1) := by
    rw [← forall₂_eq_eq_eq, forall₂_map_left_iff, forall₂_map_right_iff]
    exact keys
  have mapped : (as.map (·.1)).Pairwise r := alike ▸ pairwise_map.2 ordered
  exact pairwise_map.1 mapped

/-- Maps are equal if they have equal values under the same keys. -/
lemma same_map {as bs : List (Key × Value)} (each : Forall₂ (fun a b => a.1 = b.1 ∧ Same p a.2 b.2) as bs)
    (distinct : bs.Pairwise fun a b => a.1.equal b.1 = false)
    (itself : ∀ b ∈ bs, b.1.equal b.1 = true) : Same p (.map false as) (.map false bs) := by
  have distinct' :=
    pairwise_of_keys (r := (·.equal · = false)) (each.imp fun _ _ h => h.1) distinct
  constructor
  · refine tellsApart_equals.map.iff.2 ⟨each.length_eq, fun a inside => ?_⟩
    obtain ⟨b, inside', key, same⟩ := exists_right_of_mem each inside
    exact ⟨b.2, key ▸ atKey?_of_mem distinct inside' (itself b inside'), .inr same.1⟩
  · refine tellsApart_equals.map.iff.2 ⟨each.length_eq.symm, fun b inside => ?_⟩
    obtain ⟨a, inside', key, same⟩ := exists_left_of_mem each inside
    exact ⟨a.2, key ▸ atKey?_of_mem distinct' inside' (key ▸ itself b inside), .inr same.2⟩

lemma same_case {owner slot : Nat} {number : Int} {origin origin' : Option Nat}
    {loose loose' : List (String × Value)} (same : Same p a b) :
    Same p (.case { owner, slot, number := .int number, origin } a loose)
      (.case { owner, slot, number := .int number, origin := origin' } b loose') := by
  simp [Same, equal, Scalar.equal, Scalar.int?, same.1, same.2]

/-! ## Messages -/

/-- **Slots** are compared one by one. -/
lemma tells_slots (comparable : p.Comparable) (length : as.length = bs.length)
    (each : ∀ a ∈ as, ∀ b ∈ bs, Tells sure (equal p a b) (R a b)) :
    Tells sure (allEqual (equalSlots p as bs)) (Forall₂ R as bs) := by
  induction as generalizing bs with
  | nil =>
    obtain rfl := length_eq_zero_iff.1 length.symm
    exact tells_true .nil
  | cons a as ih =>
    cases bs with
    | nil => cases length
    | cons b =>
      have rest := ih (Nat.succ.inj length) fun a' later b' later' =>
        each a' (.tail _ later) b' (.tail _ later')
      simp only [equalSlots, allEqual, slotEqual, comparable.value, Bool.or_self, Bool.false_eq_true, if_false]
      exact ((each a (.head _) b (.head _)).and rest).congr forall₂_cons.symm

lemma allEqual_of_same (comparable : p.Comparable) (each : Forall₂ (Same p) as bs) :
    allEqual (equalSlots p as bs) = .ok true :=
  (tells_slots comparable each.length_eq fun _ _ _ _ => tells_equals).iff.2 (each.imp fun _ _ => And.left)

/-- The slots of a message that holds any other one, with its type, the bytes and the content. -/
def AnyHolds (p : Program) (url : String) (data : Bytes) (content : Value) (slots : List Value) : Prop :=
  ∃ known, slots = [.text url, known, content] ∧ Any.valueBytes p (slots.map p.walk) = .ok (.bytes data)

/-- Contents of one class are compared as messages, others by their bytes. -/
lemma slotsEqual_iff (comparable : p.Comparable) {url url' : String} {data data' x y : Value} :
    Any.slotsEqual p [.text url, data, x] [.text url', data', y]
        (equalSlots p [.text url, data, x] [.text url', data', y]) = .ok true
      ↔ url = url' ∧ if (x.isPresent && x.sameType y) = true then Equals p x y else
        ∃ s s', Any.valueBytes p ([.text url, data, x].map p.walk) = .ok (.scalar s)
          ∧ Any.valueBytes p ([.text url', data', y].map p.walk) = .ok (.scalar s') ∧ s.equal s' = true := by
  have slots : ∀ v v' : Value, slotEqual p v v' (equal p v v') = equal p v v' := fun v v' => by
    simp [slotEqual, comparable.value v, comparable.value v']
  simp only [equalSlots, slots, Any.slotsEqual]
  have first : equal p (.text url) (.text url') = .ok (url == url') := rfl
  rw [first]
  by_cases sameUrl : url = url'
  · subst sameUrl
    simp only [beq_self_eq_true, bind, Except.bind, Bool.not_true, Bool.false_eq_true, if_false, true_and]
    by_cases compared : (x.isPresent && x.sameType y) = true
    · rw [if_pos compared, if_pos compared]
      rfl
    · rw [if_neg compared, if_neg compared]
      cases Any.valueBytes p (List.map p.walk [.text url, data, x]) with
      | error => simp
      | ok v =>
        cases Any.valueBytes p (List.map p.walk [.text url, data', y]) with
        | error => simp
        | ok v' => cases v <;> cases v' <;> simp [pure, Except.pure]
  · simp [sameUrl, bind, Except.bind, pure, Except.pure]

/-- Contents are compared by their bytes, unless both are messages of one class. -/
lemma slotsEqual_of_bytes (comparable : p.Comparable) {url : String} {data : Bytes} {content content' : Value}
    (left : AnyHolds p url data content as) (right : AnyHolds p url data content' bs)
    (unlike : (content.isPresent && content.sameType content') = false) :
    Any.slotsEqual p as bs (equalSlots p as bs) = .ok true := by
  obtain ⟨known, rfl, bytes⟩ := left
  obtain ⟨known', rfl, bytes'⟩ := right
  refine (slotsEqual_iff comparable).2 ⟨rfl, ?_⟩
  rw [if_neg (by simp [unlike])]
  exact ⟨_, _, bytes, bytes', by simp [Scalar.equal]⟩

/-- What is found by its number, if numbers are distinct. -/
lemma find?_number {x : Extension × Value} (distinct : (extensions.map (·.1.number)).Nodup) (member : x ∈ extensions) :
    (extensions.find? fun (e, _) => e.number == x.1.number) = some x := by
  induction extensions with
  | nil => cases member
  | cons first rest ih =>
    rw [map_cons, nodup_cons] at distinct
    rcases mem_cons.1 member with rfl | later
    · simp
    · have differs : (first.1.number == x.1.number) = false := by
        rw [beq_eq_false_iff_ne]
        rintro same
        exact distinct.1 (same ▸ mem_map_of_mem later)
      simp only [find?_cons, differs]
      exact ih distinct.2 later

/-- **Extensions** are compared by their numbers. -/
lemma tells_extensions {head head' : Head} {as bs : List (Extension × Value)} {R : Extension → Value → Value → Prop}
    (distinct : (bs.map (·.1.number)).Nodup)
    (each : ∀ x ∈ as, ∀ w, (x.1, w) ∈ bs →
      TellsUnless sure (head.sameSetting head' x.1.number && x.2.isNaN || x.2.isSame w) (equal p x.2 w) (R x.1 x.2 w)) :
    Tells sure (if as.length = bs.length then equalExtensions p head head' as bs else .ok false)
      (as.length = bs.length ∧ ∀ x ∈ as, ∃ w, (x.1, w) ∈ bs ∧ R x.1 x.2 w) := by
  have entries : Tells sure (equalExtensions p head head' as bs) (∀ x ∈ as, ∃ w, (x.1, w) ∈ bs ∧ R x.1 x.2 w) := by
    induction as with
    | nil => exact tells_true (by simp)
    | cons x as ih =>
      obtain ⟨e, v⟩ := x
      have rest := ih fun x' later => each x' (.tail _ later)
      have isFirst : ∀ w, (e, w) ∈ bs → (bs.find? fun x => x.1.number == e.number) = some (e, w) :=
        fun w inside => find?_number distinct inside
      rw [equalExtensions]
      split
      · rename_i found
        refine tells_false fun all => ?_
        obtain ⟨w, inside, -⟩ := all _ (.head _)
        cases (isFirst w inside).symm.trans found
      · rename_i e' w found
        have inside := mem_of_find?_eq_some found
        have unique : ∀ w', (e, w') ∈ bs → e = e' ∧ w' = w := fun w' inside' => by
          simpa using (isFirst w' inside').symm.trans found
        split
        · rename_i sameExtension
          subst sameExtension
          refine ((each _ (.head _) w inside).and rest).congr ?_
          rw [forall_mem_cons]
          refine and_congr_left fun _ => ⟨fun related => ⟨w, inside, related⟩, ?_⟩
          rintro ⟨w', inside', related⟩
          exact (unique w' inside').2 ▸ related
        · refine tells_false fun all => ?_
          obtain ⟨w', inside', -⟩ := all _ (.head _)
          exact absurd (unique w' inside').1 ‹_›
  split
  · exact entries.congr (by simp [*])
  · exact tells_false (by simp [*])

/-- Fields are compared slot by slot, unless they are in one storage. -/
lemma tells_fields (shared : c.isAny = true → c.isIndirected = true) {a b : Compared}
    (plain : a.loose = [] ∧ b.loose = []) {slots : List (Except Fault Bool)} {P : Prop}
    (one : a.head.sameStorage b.head = true → P) (fields : c.isAny = false → Tells sure (allEqual slots) P)
    (any : c.isAny = true → Tells sure (Any.slotsEqual p a.slots b.slots slots) P) :
    Tells sure (Compared.fieldsEqual p c a b slots) P := by
  simp only [Compared.fieldsEqual, Compared.sameStorage, plain, lookup_nil, any_nil, Bool.or_self,
    Bool.false_eq_true, if_false]
  cases isAny : c.isAny with
  | false =>
    split
    · exact fields isAny
    · split
      · exact tells_true (one ‹_›)
      · exact fields isAny
  | true =>
    rw [shared isAny]
    simp only [Bool.not_true, Bool.false_eq_true, if_false, if_true]
    split
    · exact tells_true (one ‹_›)
    · exact any isAny

/-- **Messages** of a class are compared field by field, then by their unknown fields and extensions. -/
lemma tells_message (comparable : p.Comparable) {a b : Content} {F E : Prop} (found : p.plan? b.head.type = some c)
    (type : a.head.type = b.head.type) (plain : a.loose = [] ∧ b.loose = [])
    (whole : a.head.bare = false ∧ b.head.bare = false)
    (one : a.head.sameObject b.head = true → F ∧ a.head.unknown = b.head.unknown ∧ E)
    (fields : Tells sure (Compared.fieldsEqual p c ⟨a.head, a.slots, a.extensions, []⟩
      ⟨b.head, b.slots, b.extensions, []⟩ (equalSlots p a.slots b.slots)) F)
    (extensions : Tells sure (if a.extensions.length = b.extensions.length then
      equalExtensions p a.head b.head a.extensions b.extensions else .ok false) E)
    (closed : c.isExtensible = false → E) :
    Tells sure (equal p a.value b.value) (F ∧ a.head.unknown = b.head.unknown ∧ E) := by
  simp only [Content.value, equal, (comparable.takes b.head.type).1, Bool.or_self, plain,
    type, bne_self_eq_false, Bool.false_eq_true, if_false]
  split
  · exact tells_true (one ‹_›)
  · simp only [Compared.messagesEqual, type, found, Compared.dataEqual, equalLoose, whole, lookup_nil,
      any_nil, Bool.false_and, Bool.or_self, Bool.false_eq_true, if_false]
    have unknown : Tells sure (.ok (a.head.unknown == b.head.unknown)) (a.head.unknown = b.head.unknown) :=
      ⟨by simp, fun _ => ⟨_, rfl⟩⟩
    refine fields.andThen (unknown.andThen ?_)
    cases extensible : c.isExtensible with
    | false => exact tells_true (closed extensible)
    | true => exact extensions

/-- What makes two messages of a class equal.  Of messages that hold any other one, the first knows no
more of its content than the bytes. -/
structure Content.Matches (p : Program) (c : ClassPlan) (a b : Content) : Prop where
  type : a.head.type = b.head.type
  plain : a.loose = [] ∧ b.loose = []
  whole : a.head.bare = false ∧ b.head.bare = false
  unknown : a.head.unknown = b.head.unknown
  slots : c.isAny = false → Forall₂ (Same p) a.slots b.slots
  any : c.isAny = true → ∃ url data content, AnyHolds p url data .none a.slots ∧ AnyHolds p url data content b.slots
  count : a.extensions.length = b.extensions.length
  distinct : (a.extensions.map (·.1.number)).Nodup ∧ (b.extensions.map (·.1.number)).Nodup
  here : ∀ x ∈ a.extensions, ∃ w, (x.1, w) ∈ b.extensions ∧ Same p x.2 w
  there : ∀ x ∈ b.extensions, ∃ w, (x.1, w) ∈ a.extensions ∧ Same p x.2 w

/-- Messages are equal if all that is compared is. -/
lemma equal_value (comparable : p.Comparable) {a b : Content} (found : p.plan? b.head.type = some c)
    (shared : c.isAny = true → c.isIndirected = true) (type : a.head.type = b.head.type)
    (plain : a.loose = [] ∧ b.loose = []) (whole : a.head.bare = false ∧ b.head.bare = false)
    (unknown : a.head.unknown = b.head.unknown) (slots : c.isAny = false → Forall₂ (Same p) a.slots b.slots)
    (any : c.isAny = true → Any.slotsEqual p a.slots b.slots (equalSlots p a.slots b.slots) = .ok true)
    (count : a.extensions.length = b.extensions.length) (distinct : (b.extensions.map (·.1.number)).Nodup)
    (each : ∀ x ∈ a.extensions, ∃ w, (x.1, w) ∈ b.extensions ∧ Same p x.2 w) :
    equal p a.value b.value = .ok true := by
  have holds : ∀ {x : Except Fault Bool}, x = .ok true → Tells False x True := fun equal => ⟨by simp [equal], False.elim⟩
  refine (tells_message comparable found type plain whole (fun _ => ⟨trivial, unknown, trivial⟩)
    (tells_fields shared ⟨rfl, rfl⟩ (fun _ => trivial) (fun plain => holds (allEqual_of_same comparable (slots plain)))
      fun isAny => holds (any isAny)) (holds ?_) fun _ => trivial).iff.2 ⟨trivial, unknown, trivial⟩
  refine (tells_extensions
    (R := fun e v w => (a.head.sameSetting b.head e.number && v.isNaN || v.isSame w) = true ∨ Equals p v w) distinct
    fun _ _ _ _ => tellsUnless_equals).iff.2 ⟨count, fun x member => ?_⟩
  obtain ⟨w, inside, same⟩ := each x member
  exact ⟨w, inside, .inr same.1⟩

/-- **Messages** are equal if their fields, unknown fields and extensions are. -/
lemma same_message (comparable : p.Comparable) {a b : Content} (found : p.plan? b.head.type = some c)
    (shared : c.isAny = true → c.isIndirected = true) (h : a.Matches p c b) : Same p a.value b.value := by
  constructor
  · refine equal_value comparable found shared h.type h.plain h.whole h.unknown h.slots (fun isAny => ?_) h.count
      h.distinct.2 h.here
    obtain ⟨url, data, content, here, there⟩ := h.any isAny
    exact slotsEqual_of_bytes comparable here there rfl
  · refine equal_value comparable (h.type ▸ found) shared h.type.symm h.plain.symm h.whole.symm h.unknown.symm
      (fun plain => (h.slots plain).flip.imp fun _ _ => Same.symm) (fun isAny => ?_) h.count.symm h.distinct.1 h.there
    obtain ⟨url, data, content, here, there⟩ := h.any isAny
    refine slotsEqual_of_bytes comparable there here ?_
    cases content with
    | scalar s => cases s <;> rfl
    | _ => rfl

end values

end Missive
