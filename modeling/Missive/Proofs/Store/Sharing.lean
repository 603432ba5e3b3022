import Missive.Proofs.Message.Alike
import Missive.Session.Run

/-!
# Shared storage

Copies of a message share its storage until one of them is written to, and a storage that two messages share is not
compared slot by slot.  Whatever else a store shares, reading a place of it twice gives one value, so this does not
change the answer.
-/

namespace Missive

lemma forall₂_unique {α β : Type} {R S : α → β → Prop} {as : List α} {bs cs : List β} (one : List.Forall₂ R as bs)
    (other : List.Forall₂ S as cs) (unique : ∀ a b c, R a b → S a c → b = c) : bs = cs := by
  induction one generalizing cs with
  | nil => cases other; rfl
  | cons first _ ih =>
    cases other with
    | cons first' rest => rw [unique _ _ _ first first', ih rest]

/-- What is read of a cell, given what is read of the cells that it leads to. -/
inductive Store.Seen (s : Store) (P : Cell → Value → Prop) : Cell → Value → Prop
  | scalar (x : Scalar) : Seen s P (.scalar x) (.scalar x)
  | list {ref : Nat} {items : List Value} (each : List.Forall₂ P (s.list ref) items) : Seen s P (.list ref) (.list items)
  | map {ref : Nat} {entries : List (Key × Value)}
      (each : List.Forall₂ (fun e e' => e'.1 = e.1 ∧ P e.2 e'.2) (s.map ref) entries) :
      Seen s P (.map ref) (.map false entries)
  | case {ref : Nat} {c : CaseObject} {v : Value} (found : s.cases[ref]? = some c) (value : P c.value v) :
      Seen s P (.case ref) (.case (c.tag ref) v [])
  | message {ref : Nat} {o : Object} {slots : List Value} {extensions : List (Extension × Value)}
      (found : s.objects[ref]? = some o) (each : List.Forall₂ P (s.slots o) slots)
      (each' : List.Forall₂ (fun x x' => x'.1 = x.1 ∧ P x.2 x'.2) o.extensions extensions) :
      Seen s P (.message ref) (.message
        { type := o.type, unknown := o.unknown, bare := o.bare
          origin := some { object := ref, storage := Store.storageOf? o, marks := o.marks } } slots extensions [])

section reading

variable {p : Program} {s : Store} {c : Cell} {v v' : Value}

/-- A loop cannot be compared. -/
lemma unlooped {loops : Bool} {x : Except Fault Value} (sane : v.Sane p)
    (h : (if loops = true then .ok .loop else x) = .ok v) : x = .ok v := by
  split at h
  · cases h
    exact sane.elim
  · exact h

/-- What is read of a cell is what is read of its parts, one level further down. -/
lemma Store.seen_of_view {levels : Nat} {above : List Ref} (h : s.viewWithin levels above c = .ok v)
    (sane : v.Every (Value.Sane p)) : ∃ l inner, levels = l + 1
      ∧ s.Seen (fun c x => x.Every (Value.Sane p) ∧ s.viewWithin l inner c = .ok x) c v := by
  cases levels with
  | zero => cases h
  | succ l =>
    have views : ∀ {cells : List Cell} {values : List Value} {inner : List Ref},
        cells.mapM (s.viewWithin l inner) = .ok values → (∀ x ∈ values, x.Every (Value.Sane p)) →
        List.Forall₂ (fun c x => x.Every (Value.Sane p) ∧ s.viewWithin l inner c = .ok x) cells values :=
      fun h each => ((List.forall₂_and_left _ _).2 ⟨each, (mapM_ok h).flip⟩).flip
    have named : ∀ {α : Type} {cells : List (α × Cell)} {values : List (α × Value)} {inner : List Ref},
        (cells.mapM fun (a, c) => do return (a, ← s.viewWithin l inner c)) = .ok values →
        (∀ x ∈ values, x.2.Every (Value.Sane p)) → List.Forall₂ (fun e e' => e'.1 = e.1
          ∧ e'.2.Every (Value.Sane p) ∧ s.viewWithin l inner e.2 = .ok e'.2) cells values := by
      intro α cells values inner h each
      refine (((List.forall₂_and_left _ _).2 ⟨each, (mapM_ok h).flip⟩).flip).imp fun e e' both => ?_
      obtain ⟨x, viewed, h⟩ := bind_ok both.2
      cases h
      exact ⟨rfl, both.1, viewed⟩
    cases c with
    | scalar x =>
      obtain rfl : Value.scalar x = v := Except.ok.inj h
      exact ⟨l, [], rfl, .scalar x⟩
    | tuple =>
      obtain ⟨_, -, h⟩ := bind_ok h
      cases h
      exact sane.here.elim
    | frozen =>
      obtain ⟨_, -, h⟩ := bind_ok h
      cases h
      exact Bool.noConfusion sane.here
    | list =>
      obtain ⟨items, viewed, h⟩ := bind_ok (unlooped sane.here h)
      cases h
      exact ⟨l, _, rfl, .list (views viewed (Value.every_list.1 sane).2)⟩
    | map =>
      obtain ⟨entries, viewed, h⟩ := bind_ok (unlooped sane.here h)
      cases h
      exact ⟨l, _, rfl, .map (named viewed (Value.every_map.1 sane).2)⟩
    | case =>
      have h := unlooped sane.here h
      split at h
      · cases h
      · rename_i c found
        obtain ⟨value, viewed, h⟩ := bind_ok h
        obtain ⟨loose, -, h⟩ := bind_ok h
        cases h
        obtain rfl : loose = [] := sane.here
        exact ⟨l, _, rfl, .case found ⟨(Value.every_case.1 sane).2, viewed⟩⟩
    | message =>
      have h := unlooped sane.here h
      split at h
      · cases h
      · rename_i o found
        obtain ⟨slots, viewed, h⟩ := bind_ok h
        obtain ⟨extensions, viewed', h⟩ := bind_ok h
        obtain ⟨loose, -, h⟩ := bind_ok h
        cases h
        obtain rfl : loose = [] := sane.here.1
        obtain ⟨-, sane, sane'⟩ := Value.every_message.1 sane
        exact ⟨l, _, rfl, .message found (views viewed sane) (named viewed' sane')⟩

def Store.Reads (p : Program) (s : Store) (c : Cell) (v : Value) : Prop :=
  v.Every (Value.Sane p) ∧ ∃ levels above, s.viewWithin levels above c = .ok v

lemma Store.Seen.imp {P Q : Cell → Value → Prop} (weaker : ∀ c x, P c x → Q c x) (seen : s.Seen P c v) : s.Seen Q c v := by
  cases seen with
  | scalar x => exact .scalar x
  | list each => exact .list (each.imp weaker)
  | map each => exact .map (each.imp fun _ _ both => ⟨both.1, weaker _ _ both.2⟩)
  | case found value => exact .case found (weaker _ _ value)
  | message found each each' =>
    exact .message found (each.imp weaker) (each'.imp fun _ _ both => ⟨both.1, weaker _ _ both.2⟩)

lemma Store.Reads.seen (reads : s.Reads p c v) : s.Seen (s.Reads p) c v := by
  obtain ⟨sane, levels, above, viewed⟩ := reads
  obtain ⟨l, inner, -, seen⟩ := Store.seen_of_view viewed sane
  exact seen.imp fun c x both => ⟨both.1, l, inner, both.2⟩

/-- **One value.**  It does not matter below what a cell is read. -/
lemma Store.Reads.unique (one : s.Reads p c v) (other : s.Reads p c v') : v = v' := by
  obtain ⟨sane, levels, above, viewed⟩ := one
  induction levels generalizing above c v v' with
  | zero => cases viewed
  | succ l ih =>
    obtain ⟨_, inner, next, seen⟩ := Store.seen_of_view viewed sane
    obtain rfl := Nat.succ.inj next
    have same : ∀ c x x', x.Every (Value.Sane p) ∧ s.viewWithin l inner c = .ok x → s.Reads p c x' → x = x' :=
      fun c x x' here there => ih there here.1 inner here.2
    have pairs : ∀ {α : Type} (e : α × Cell) (x x' : α × Value), x.1 = e.1 ∧ x.2.Every (Value.Sane p)
        ∧ s.viewWithin l inner e.2 = .ok x.2 → x'.1 = e.1 ∧ s.Reads p e.2 x'.2 → x = x' :=
      fun e x x' here there => Prod.ext (here.1.trans there.1.symm) (same _ _ _ here.2 there.2)
    have seen' := other.seen
    cases seen with
    | scalar => cases seen'; rfl
    | list each => cases seen' with | list each' => rw [forall₂_unique each each' same]
    | map each => cases seen' with | map each' => rw [forall₂_unique each each' pairs]
    | case found value =>
      cases seen' with
      | case found' value' =>
        cases found.symm.trans found'
        rw [same _ _ _ value value']
    | message found each extensions =>
      cases seen' with
      | message found' each' extensions' =>
        cases found.symm.trans found'
        rw [forall₂_unique each each' same, forall₂_unique extensions extensions' pairs]

/-- What stands in the places of a store. -/
noncomputable def Store.sources (p : Program) (s : Store) : Sources where
  object ref := Classical.epsilon (s.Reads p (.message ref))
  storage i := Classical.epsilon (List.Forall₂ (s.Reads p) (((s.storages[i]?).map (·.slots)).getD []))
  member ref := Classical.epsilon (s.Reads p (.case ref))

lemma Store.Reads.source (reads : s.Reads p c v) : v.From (s.sources p) := by
  cases reads.seen with
  | case =>
    rintro o ⟨rfl⟩
    exact (Classical.epsilon_spec ⟨_, reads⟩ : s.Reads p _ _).unique reads
  | @message ref o slots extensions found each each' =>
    rintro origin ⟨rfl⟩
    refine ⟨(Classical.epsilon_spec ⟨_, reads⟩ : s.Reads p _ _).unique reads, fun i isStorage => ?_⟩
    have cells : s.slots o = ((s.storages[i]?).map (·.slots)).getD [] := by
      unfold Store.storageOf? at isStorage
      unfold Store.slots
      split at isStorage
      · cases isStorage
      · split at isStorage
        · cases isStorage
        · cases isStorage
          simp [*]
    rw [cells] at each
    exact forall₂_unique (Classical.epsilon_spec ⟨_, each⟩) each fun _ _ _ => Store.Reads.unique
  | _ => trivial

lemma Store.Seen.exists_of_part {P : Cell → Value → Prop} (seen : s.Seen P c v) {x : Value} (part : x ∈ v.parts) :
    ∃ c', P c' x := by
  have named : ∀ {α : Type} {cells : List (α × Cell)} {values : List (α × Value)},
      List.Forall₂ (fun e e' => e'.1 = e.1 ∧ P e.2 e'.2) cells values → x ∈ values.map (·.2) → ∃ c', P c' x := by
    rintro α cells values each member
    obtain ⟨e, inside, rfl⟩ := List.mem_map.1 member
    obtain ⟨e', -, -, read⟩ := exists_left_of_mem each inside
    exact ⟨_, read⟩
  cases seen with
  | scalar => cases part
  | list each =>
    obtain ⟨c', -, read⟩ := exists_left_of_mem each part
    exact ⟨c', read⟩
  | map each => exact named each part
  | case found value => exact ⟨_, List.mem_singleton.1 part ▸ value⟩
  | message found each each' =>
    simp only [Value.parts, List.mem_append, List.map_nil, List.not_mem_nil, or_false] at part
    rcases part with part | part
    · obtain ⟨c', -, read⟩ := exists_left_of_mem each part
      exact ⟨c', read⟩
    · exact named each' part

lemma Store.Reads.every (reads : s.Reads p c v) : v.Every (Value.Clean p (s.sources p)) := by
  intro x within
  induction within generalizing c with
  | self => exact ⟨reads.1.here, reads.source⟩
  | part member within ih =>
    obtain ⟨c', read⟩ := reads.seen.exists_of_part member
    exact ih read

/-- Comparing tells whether two messages are alike, however they share what they hold. -/
theorem Store.compare_alike {n n' : Nat} {t t' : TypeId} {a b : Cell} (comparable : p.Comparable)
    (noAny : ∀ t c, p.plan? t = some c → c.isAny = false) (viewed : s.view a = .ok v) (viewed' : s.view b = .ok v')
    (typed : Typed p .ofType (fun _ => False) n t v) (typed' : Typed p .ofType (fun _ => False) n' t' v') :
    ∃ same s', Storing.compare p a b s = .ok (same, !same) s' ∧ (same = true ↔ v.Alike v') := by
  have numeric : Rules.ofType.Numeric := Rules.plain_ofType.numeric
  have reads : s.Reads p a v := ⟨typed.sane numeric fun found => noAny _ _ found, _, _, viewed⟩
  have reads' : s.Reads p b v' := ⟨typed'.sane numeric fun found => noAny _ _ found, _, _, viewed'⟩
  have tells := (typed.told numeric comparable).2 reads.every v' reads'.every
  have apart : a.isSameContainer b = false := by
    have isMessage := typed.isMessage
    cases reads.seen with
    | message => rfl
    | _ => cases isMessage
  have answers : ∀ {same : Bool}, equal p v v' = .ok same →
      Succeeds (Storing.compare p a b) s fun answer _ => answer = (same, !same) := by
    intro same equals
    have differs : differ p v v' = .ok !same := by
      simp [differ, slotEqual, comparable.value, equals, bind, Except.bind, pure, Except.pure]
    simp [Storing.compare, Storing.view, Storing.keepSeals, Storing.ofExcept, apart, viewed, viewed', equals, differs]
  obtain ⟨same, equals⟩ := tells.answers trivial
  obtain ⟨_, s', compared, rfl⟩ := (answers equals).exists_run
  exact ⟨same, s', compared, by simp [← tells.iff, equals]⟩

end reading

/-- A message and two copies that share its storage, of which one has read an unknown field since. -/
def copiedPoints : Store :=
  { objects := [{ type := 0, body := .shared 0 }, { type := 0, body := .shared 0 },
      { type := 0, body := .shared 0, unknown := [16, 1] }]
    storages := [{ ownership := { owners := 3 }, slots := [.scalar (.float .zero)] }] }

/-- What is read of them. -/
def copiedPoint (ref : Nat) (unknown : Bytes) : Value :=
  .message { type := 0, unknown := unknown, origin := some { object := ref, storage := some 0 } }
    [.scalar (.float .zero)] [] []

theorem compare_alike_copies :
    (∃ s', Storing.compare pointProgram (.message 0) (.message 1) copiedPoints = .ok (true, false) s')
      ∧ ∃ s', Storing.compare pointProgram (.message 0) (.message 2) copiedPoints = .ok (false, true) s' := by
  obtain ⟨⟨-, -, -, comparable, -⟩, isPlan, -, plain⟩ := evaluated_point
  have noAny : ∀ t c, pointProgram.plan? t = some c → c.isAny = false :=
    fun t c found => plain (t, c) (Program.mem_classes_of_plan? found)
  have typed : ∀ ref unknown, Typed pointProgram .ofType (fun _ => False) 0 0 (copiedPoint ref unknown) :=
    fun ref unknown => typed_headed rfl rfl trivial isPlan (.inr ⟨.float .zero, rfl, rfl, rfl⟩)
  have viewed : copiedPoints.view (.message 0) = .ok (copiedPoint 0 []) := rfl
  have answer : ∀ ref unknown, copiedPoints.view (.message ref) = .ok (copiedPoint ref unknown) → ∃ s',
      Storing.compare pointProgram (.message 0) (.message ref) copiedPoints = .ok (unknown == [], !(unknown == [])) s' := by
    intro ref unknown viewed'
    obtain ⟨same, s', answer, iff⟩ :=
      Store.compare_alike comparable noAny viewed viewed' (typed 0 []) (typed ref unknown)
    have zero : (Scalar.float .zero).equal (.float .zero) = true := rfl
    have alike : (copiedPoint 0 []).Alike (copiedPoint ref unknown) ↔ unknown = [] := by
      simp [copiedPoint, Value.Alike, AllAlike, ExtensionsAlike, zero, eq_comm]
    have isSame : same = (unknown == []) := by rw [Bool.eq_iff_iff, iff, alike, beq_iff_eq]
    exact ⟨s', isSame ▸ answer⟩
  exact ⟨answer 1 [] rfl, answer 2 [16, 1] rfl⟩

/-! ## Names that hide what the generated code uses -/

/-- The faults of the steps of a session. -/
def faultsOf (p : Program) (s : Store) (steps : List Session.Step) : List (Option Fault) :=
  (Session.run p { store := s } steps).1.map faultOf?

/-- A message that is called like what makes a new storage of the same class. -/
def typeFiles : List Schema.FileDecl :=
  [{ name := "a.proto"
     messages := [{ name := "type" }, { name := "M", fields := [{ name := "x", number := 1, type := .int32 }] }] }]

/-- A copy is made and written to. -/
def copySteps : List Session.Step := [.new "m" "M" [], .copy "n" "m", .set "n" "x" (.scalar (.int 5))]

lemma evaluated_type :
    (Program.build typeFiles { threshold := some 0 }).toOption.map (fun p =>
        (faultsOf p {} copySteps, faultsOf p { policy := .eager } copySteps))
      = some ([none, none, some .wrongType], [none, some .wrongType, some .missingKey])
    ∧ ((Program.build typeFiles {}).toOption.map fun p => faultsOf p {} copySteps) = some [none, none, none] := by
  decide +kernel

/-- A message that is called like what makes a new byte string. -/
def bytesFiles : List Schema.FileDecl :=
  [{ name := "google/protobuf/any.proto"
     package := "google.protobuf"
     dialect := "proto3"
     messages :=
      [{ name := "Any"
         fields :=
          [{ name := "type_url", number := 1, type := .string }, { name := "value", number := 2, type := .bytes }] },
       { name := "bytes" }] }]

/-- A message whose class has the name of the method that ends a life for another class. -/
def finalFiles : List Schema.FileDecl :=
  [{ name := "a.proto"
     messages :=
      [{ name := "M"
         fields := [{ name := "x", number := 1, type := .message, typeName := ".M" }]
         messages := [{ name := "__del__" }] }] }]

/-- A copy that nobody refers to any more still counts as an owner of the storage. -/
theorem run_drop_unfinished :
    ∃ p, Program.build finalFiles {} = .ok p
      ∧ ((Session.run p {} [.new "m" "M" [], .copy "n" "m", .drop "n"]).2.registers.map fun r => (r.1, r.2.refs))
        = [("m", [.object 0])]
      ∧ ((Session.run p {} [.new "m" "M" [], .copy "n" "m", .drop "n"]).2.store.storages.map (·.ownership))
        = [{ owners := 2 }] :=
  ⟨.ofFiles finalFiles, Program.build_ofFiles (by decide +kernel), by decide +kernel⟩

end Missive
