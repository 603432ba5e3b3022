import Missive.Proofs.Message.Equivalence

/-!
# What equality tells

Two values are alike if they have the same content: numbers that are equal, lists with the same items in order,
maps and extensions with the same entries in any order, and messages of one class with the same unknown bytes.
Where values were read from plays no part in it.  Equality does look at that, to be done sooner.  Between values
that are what stands in the places they were read from, it tells whether they are alike all the same.
-/

namespace Missive

open Plan Schema

/-! ## The same content -/

mutual

/-- Values of the same content, wherever they were read from: lists in order, maps and extensions in any order. -/
def Value.Alike : Value → Value → Prop
  | .scalar a, .scalar b => a.equal b = true
  | .list as, .list bs => AllAlike as bs
  | .map _ as, .map _ bs => as.length = bs.length ∧ EntriesAlike as bs
  | .case s a _, .case t b _ =>
    s.owner = t.owner ∧ s.slot = t.slot ∧ s.number.equal t.number = true ∧ a.Alike b
  | .message a slots extensions _, .message b slots' extensions' _ =>
    a.type = b.type ∧ AllAlike slots slots' ∧ a.unknown = b.unknown
      ∧ extensions.length = extensions'.length ∧ ExtensionsAlike extensions extensions'
  | _, _ => False
termination_by structural v => v

/-- Values that are alike pair by pair. -/
def AllAlike : List Value → List Value → Prop
  | [], bs => bs = []
  | a :: as, bs => ∃ b rest, bs = b :: rest ∧ a.Alike b ∧ AllAlike as rest
termination_by structural v => v

/-- Each key of a map leads to something alike in another one. -/
def EntriesAlike : List (Key × Value) → List (Key × Value) → Prop
  | [], _ => True
  | (key, a) :: as, bs => (∃ b, atKey? key bs = some b ∧ a.Alike b) ∧ EntriesAlike as bs
termination_by structural v => v

/-- Each extension of a message is set to something alike in another one. -/
def ExtensionsAlike : List (Extension × Value) → List (Extension × Value) → Prop
  | [], _ => True
  | (e, a) :: as, bs => (∃ b, (e, b) ∈ bs ∧ a.Alike b) ∧ ExtensionsAlike as bs
termination_by structural v => v

end

lemma allAlike_iff {as bs : List Value} : AllAlike as bs ↔ List.Forall₂ Value.Alike as bs := by
  induction as generalizing bs with
  | nil => simp [AllAlike]
  | cons a as ih => cases bs <;> simp [AllAlike, ih]

lemma entriesAlike_iff {as bs : List (Key × Value)} :
    EntriesAlike as bs ↔ ∀ a ∈ as, ∃ b, atKey? a.1 bs = some b ∧ a.2.Alike b := by
  induction as with
  | nil => simp [EntriesAlike]
  | cons a as ih => simp [EntriesAlike, ih]

lemma extensionsAlike_iff {as bs : List (Extension × Value)} :
    ExtensionsAlike as bs ↔ ∀ a ∈ as, ∃ b, (a.1, b) ∈ bs ∧ a.2.Alike b := by
  induction as with
  | nil => simp [ExtensionsAlike]
  | cons a as ih => simp [ExtensionsAlike, ih]

/-! ## Comparisons that always answer -/

section comparisons

variable {p : Program} {w : Sources}

variable {a b : Value} {as bs : List Value} {head head' : Head}

/-- Values that can be compared: numbers, and messages of classes that do not hold any other one, with nothing loose. -/
def Value.Sane (p : Program) : Value → Prop
  | .scalar s => (Value.scalar s).isNaN = false
  | .list _ => True
  | .map readOnly _ => readOnly = false
  | .case _ _ loose => loose = []
  | .message head slots extensions loose => loose = [] ∧ head.bare = false ∧ (extensions.map (·.1.number)).Nodup
    ∧ ∃ c, p.plan? head.type = some c ∧ c.isAny = false ∧ slots.length = c.slots.length
      ∧ (c.isExtensible = false → extensions = [])
  | .tuple _ | .loop => False

lemma Value.Sane.isNumber {v : Value} (sane : v.Sane p) : v.isNaN = false := by
  cases v with
  | scalar => exact sane
  | _ => rfl

/-- A value that can be compared, and is what stands in the places it was read from. -/
def Value.Clean (p : Program) (w : Sources) (v : Value) : Prop := v.Sane p ∧ v.From w

/-- A value is like itself, and comparing it tells whether another one is like it. -/
def Value.Told (p : Program) (w : Sources) (a : Value) : Prop :=
  a.Alike a ∧ (a.Every (Value.Clean p w) → ∀ b : Value, b.Every (Value.Clean p w) → Tells True (equal p a b) (a.Alike b))

lemma Value.Told.alike (told : a.Told p w) (one : a.Every (Value.Clean p w)) (other : b.Every (Value.Clean p w))
    (same : a.isSame b = true) : a.Alike b :=
  one.here.2.eq_of_isSame other.here.2 same ▸ told.1

lemma tellsApart_of_told (told : ∀ a ∈ as, a.Told p w) (one : ∀ a ∈ as, a.Every (Value.Clean p w))
    (other : ∀ b ∈ bs, b.Every (Value.Clean p w)) : TellsApart p True Value.Alike as bs := fun a here b there =>
  ((told a here).2 (one a here) b (other b there)).unless ((told a here).alike (one a here) (other b there))

/-- **Messages** are compared by their class, slots, unknown fields and extensions. -/
lemma tells_alike {es es' : List (Extension × Value)} (comparable : p.Comparable)
    (itself : (Value.message head as es []).Alike (.message head as es []))
    (one : (Value.message head as es []).Every (Value.Clean p w))
    (other : (Value.message head' bs es' []).Every (Value.Clean p w)) (slots : ∀ x ∈ as, x.Told p w)
    (extensions : ∀ x ∈ es, x.2.Told p w) :
    Tells True (equal p (.message head as es []) (.message head' bs es' []))
      ((Value.message head as es []).Alike (.message head' bs es' [])) := by
  obtain ⟨⟨⟨-, whole, -, c, found, plain, length, closed⟩, source⟩, oneSlots, oneExtensions⟩ := Value.every_message.1 one
  obtain ⟨⟨⟨-, whole', distinct, c', found', -, length', closed'⟩, source'⟩, otherSlots, otherExtensions⟩ :=
    Value.every_message.1 other
  by_cases type : head.type = head'.type
  · cases found.symm.trans (type ▸ found')
    have each : Tells True (allEqual (equalSlots p as bs)) (AllAlike as bs) :=
      (tells_slots comparable (length.trans length'.symm) fun a here b there =>
        (slots a here).2 (oneSlots a here) b (otherSlots b there)).congr allAlike_iff.symm
    have extended : ∀ x ∈ es, ∀ v, (x.1, v) ∈ es' → TellsUnless True
        (head.sameSetting head' x.1.number && x.2.isNaN || x.2.isSame v) (equal p x.2 v) (x.2.Alike v) := by
      intro x here v there
      have told := extensions x here
      have clean := otherExtensions _ there
      rw [(oneExtensions x here).here.1.isNumber, Bool.and_false, Bool.false_or]
      exact (told.2 (oneExtensions x here) v clean).unless (told.alike (oneExtensions x here) clean)
    refine (tells_message (a := ⟨head, as, es, []⟩) (b := ⟨head', bs, es', []⟩) comparable found' type ⟨rfl, rfl⟩
      ⟨whole, whole'⟩ (fun same => ?_)
      (tells_fields (by simp [plain]) ⟨rfl, rfl⟩ (fun same => source.eq_of_sameStorage source' same ▸ itself.2.1)
        (fun _ => each) (by simp [plain]))
      ((tells_extensions (R := fun _ => Value.Alike) distinct extended).congr
        (and_congr_right' extensionsAlike_iff.symm)) fun extensible => ?_).congr ?_
    · obtain ⟨rfl, rfl, rfl, -⟩ := Value.message.inj (source.eq_of_sameObject source' same)
      exact itself.2
    · simp [closed extensible, closed' extensible, ExtensionsAlike]
    · simp [Value.Alike, type]
  · rw [equal, if_neg (by simp [(comparable.takes _).1]), if_pos (by simp [type])]
    exact tells_false fun alike => type alike.1

lemma tells_unlike (comparable : p.Comparable) (sane : a.Sane p) (sane' : b.Sane p) (kind : a.ctorIdx ≠ b.ctorIdx) :
    Tells True (equal p a b) (a.Alike b) := by
  obtain ⟨tells, unlike⟩ : equal p a b = .ok false ∧ ¬a.Alike b := by
    cases a <;> cases b <;>
      first | exact absurd rfl kind | simp_all [Value.Sane, equal, Value.Alike, (comparable.takes _).1]
  exact tells ▸ tells_false unlike

section typed

variable {R : Rules} {content : Value → Prop} {n : Nat} {t : TypeId} {v : Value} (numeric : R.Numeric)

lemma told_scalar (comparable : p.Comparable) {s : Scalar} (number : s.isNaN = false) : (Value.scalar s).Told p w := by
  refine ⟨Scalar.equal_self number, fun one b other => ?_⟩
  cases b with
  | scalar => exact ⟨by simp [equal, Value.Alike], fun _ => ⟨_, rfl⟩⟩
  | _ => exact tells_unlike comparable one.here.1 other.here.1 (by simp [Value.ctorIdx])

lemma alike_list_self {items : List Value} (each : ∀ x ∈ items, x.Alike x) : AllAlike items items :=
  allAlike_iff.2 (List.forall₂_same.2 each)

include numeric in
lemma Rules.Numeric.told (comparable : p.Comparable) : R.Closed (Value.Told p w) where
  none := told_scalar comparable rfl
  scalar := fun holds => told_scalar comparable (numeric _ _ holds)
  list := fun {as} told => by
    refine ⟨alike_list_self fun x member => (told x member).1, fun one b other => ?_⟩
    cases b with
    | list =>
      exact (tellsApart_of_told told (Value.every_list.1 one).2 (Value.every_list.1 other).2).list.congr
        allAlike_iff.symm
    | _ => exact tells_unlike comparable one.here.1 other.here.1 (by simp [Value.ctorIdx])
  map := fun {as} distinct keys told => by
    refine ⟨⟨rfl, entriesAlike_iff.2 fun e member => ⟨e.2, ?_, (told e member).1⟩⟩, fun one b other => ?_⟩
    · obtain ⟨type, s, isKey, holds⟩ := keys e member
      refine atKey?_of_mem distinct member ?_
      rw [isKey, Key.equal]
      exact Scalar.equal_self (numeric _ _ holds)
    cases b with
    | map =>
      have apart := tellsApart_of_told (List.forall_mem_map.2 told) (List.forall_mem_map.2 (Value.every_map.1 one).2)
        (List.forall_mem_map.2 (Value.every_map.1 other).2)
      exact apart.map.congr (and_congr_right' entriesAlike_iff.symm)
    | _ => exact tells_unlike comparable one.here.1 other.here.1 (by simp [Value.ctorIdx])
  case := fun {owner slot number origin x} told => by
    refine ⟨⟨rfl, rfl, by simp [Scalar.equal, Scalar.int?], told.1⟩, fun one b other => ?_⟩
    cases b with
    | case tag y loose =>
      obtain rfl : loose = [] := other.here.1
      have inner := told.2 (Value.every_case.1 one).2 y (Value.every_case.1 other).2
      rw [equal, Value.Alike]
      split
      · exact inner.congr (by simp_all)
      · exact tells_false (by simp_all)
    | _ => exact tells_unlike comparable one.here.1 other.here.1 (by simp [Value.ctorIdx])

include numeric

/-- **Comparing** messages tells whether they are alike. -/
lemma Typed.told (comparable : p.Comparable) (typed : Typed p R (fun _ => False) n t v) : v.Told p w := by
  refine (numeric.told comparable).typed (fun _ => False.elim) (fun {n t c m} found fits slots extensions => ?_) typed
  obtain ⟨head, as, es, loose⟩ := m
  obtain rfl : loose = [] := fits.plain
  have itself : (Value.message head as es []).Alike (.message head as es []) := by
    refine ⟨rfl, alike_list_self fun x member => (slots x member).1, rfl, rfl, extensionsAlike_iff.2 fun x member => ?_⟩
    exact ⟨x.2, member, (extensions x member).1⟩
  refine ⟨itself, fun one b other => ?_⟩
  cases b with
  | message head' bs es' loose' =>
    obtain rfl : loose' = [] := other.here.1.1
    exact tells_alike comparable itself one other slots extensions
  | _ => exact tells_unlike comparable one.here.1 other.here.1 (by simp [Content.value, Value.ctorIdx])

lemma Typed.sane (noAny : ∀ {t c}, p.plan? t = some c → c.isAny = false) (typed : Typed p R (fun _ => False) n t v) :
    v.Every (Value.Sane p) := by
  have closed : R.Closed (Value.Every (Value.Sane p)) := {
    none := Value.every_scalar.2 rfl
    scalar := fun {type s} holds => Value.every_scalar.2 (numeric _ _ holds)
    list := fun items => Value.every_list.2 ⟨trivial, items⟩
    map := fun _ _ entries => Value.every_map.2 ⟨rfl, entries⟩
    case := fun inner => Value.every_case.2 ⟨rfl, inner⟩ }
  refine closed.typed (fun _ => False.elim) (fun {n t c m} found fits slots extensions => ?_) typed
  obtain ⟨head, as, es, loose⟩ := m
  obtain rfl : loose = [] := fits.plain
  refine Value.every_message.2 ⟨⟨rfl, fits.whole, fits.distinct, c, ?_, noAny found, fits.length (noAny found), ?_⟩,
    slots, extensions⟩
  · exact fits.type ▸ found
  · exact fits.extensions_eq_nil

end typed

end comparisons

end Missive
