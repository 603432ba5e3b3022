import Missive.Proofs.Schema.Nested
import Missive.Proofs.Schema.Revise

/-!
# Schemas with fewer fields

Fields may be taken away from the messages of a schema, and then the oneofs that are left without members go
as well.  Map entries and the message that holds any other one keep what they have.

`FileDecl.without` takes them away from a file.  The arena of what is left has the same nodes as before, and
each of its messages is one that fields were taken away from (`narrowed_of_build`): the fields that are left stand
in the same order and are resolved to the same types, and two of them are in one oneof if they were before.
-/

namespace Missive.Schema

open List

/-! ## Taking fields away -/

/-- The position of a field's oneof among so many; a negative one counts from the end. -/
def FieldDecl.position? (count : Nat) (f : FieldDecl) : Option Nat :=
  f.oneof.map fun (index : Int) => (if 0 ≤ index then index else index + count).toNat

/-- Is there a member of a oneof among some fields? -/
def hasMember (count : Nat) (fields : List FieldDecl) (index : Nat) : Bool :=
  fields.any fun f => f.position? count == some index

/-- A field whose oneof has moved to the place it has among the oneofs that are left. -/
def FieldDecl.moved (count : Nat) (left : Nat → Bool) (f : FieldDecl) : FieldDecl :=
  { f with oneof := (f.position? count).map fun index => (Nat.count (left · = true) index : Int) }

/-- Is a message the one that holds any other one? -/
def isAnyAt (proto3 : Bool) (path file : String) : Bool :=
  proto3 && path == "google.protobuf.Any" && file == "google/protobuf/any.proto"

mutual

/-- A message without the fields that are dropped, and the same for the messages inside it. -/
def MessageDecl.without (drop : String → Int → Bool) (p : Place) : MessageDecl → MessageDecl
  | ⟨name, fields, oneofs, ranges, enums, messages, mapEntry⟩ =>
    let spared := mapEntry || isAnyAt p.proto3 (p.pathOf name) p.file.name
    let kept := fields.filter fun f => spared || !drop (p.pathOf name) f.number
    let left := hasMember oneofs.length kept
    { name, fields := kept.map (·.moved oneofs.length left),
      oneofs := (oneofs.zipIdx.filter fun (_, index) => left index).map (·.1), extensionRanges := ranges, enums,
      messages := messagesWithout drop (p.within 0 name) messages, mapEntry }

def messagesWithout (drop : String → Int → Bool) (p : Place) : List MessageDecl → List MessageDecl
  | [] => []
  | m :: rest => m.without drop p :: messagesWithout drop p rest

end

/-- A file without the fields that are dropped: those with certain numbers in the messages of certain full
names. -/
def FileDecl.without (drop : String → Int → Bool) (f : FileDecl) : FileDecl :=
  { f with messages := messagesWithout drop { file := f, proto3 := f.isProto3.toOption.getD false } f.messages }

/-- How messages are revised if fields are dropped. -/
def dropping (drop : String → Int → Bool) : Revision := fun proto3 path file m =>
  let spared := m.mapEntry || isAnyAt proto3 path file
  let kept := m.fields.filter fun f => spared || !drop path f.number
  let left := hasMember m.oneofs.length kept
  { m with fields := kept.map (·.moved m.oneofs.length left)
           oneofs := (m.oneofs.zipIdx.filter fun (_, index) => left index).map (·.1) }

mutual

lemma MessageDecl.without_eq (drop : String → Int → Bool) (p : Place) : (m : MessageDecl) →
    m.without drop p = m.revise (dropping drop) p
  | ⟨name, fields, oneofs, ranges, enums, messages, mapEntry⟩ => by
    simp only [MessageDecl.without, MessageDecl.revise, dropping, messagesWithout_eq drop (p.within 0 name) messages]

lemma messagesWithout_eq (drop : String → Int → Bool) (p : Place) : (messages : List MessageDecl) →
    messagesWithout drop p messages = reviseAll (dropping drop) p messages
  | [] => by rw [messagesWithout, reviseAll]
  | m :: rest => by rw [messagesWithout, reviseAll, m.without_eq drop p, messagesWithout_eq drop p rest]

end

variable {keep : Int → Bool} {move : Nat → Nat} {s s' : Message}

lemma FileDecl.without_eq (drop : String → Int → Bool) (f : FileDecl) : f.without drop = f.revise (dropping drop) := by
  rw [FileDecl.without, FileDecl.revise, messagesWithout_eq]

/-! ## Messages that fields were taken away from -/

/-- Of the declaration of a message the fields with certain numbers are left. -/
structure Draft.Narrowed (keep : Int → Bool) (d d' : Draft) : Prop where
  proto3 : d'.proto3 = d.proto3
  ranges : d'.decl.extensionRanges = d.decl.extensionRanges
  mapEntry : d'.decl.mapEntry = d.decl.mapEntry
  fields : d'.decl.fields = (d.decl.fields.filter (keep ·.number)).map
    (·.moved d.decl.oneofs.length (hasMember d.decl.oneofs.length (d.decl.fields.filter (keep ·.number))))
  oneofs : d.decl.oneofs = [] → d'.decl.oneofs = []

/-- Of a message the fields with certain numbers are left.  Their oneofs may have moved. -/
structure Message.Fewer (keep : Int → Bool) (move : Nat → Nat) (s s' : Message) : Prop where
  proto3 : s'.proto3 = s.proto3
  mapEntry : s'.mapEntry = s.mapEntry
  fields : s'.fields = (s.fields.filter (keep ·.number)).map (·.moved move)
  oneofs : s.oneofNames = [] → s'.oneofNames = []
  apart : ∀ f ∈ s.fields, ∀ g ∈ s.fields, keep f.number = true → keep g.number = true →
    ∀ i j, f.oneof = some i → g.oneof = some j → move i = move j → i = j

/-- The same, and the message can be extended as before. -/
structure Message.Narrowed (keep : Int → Bool) (move : Nat → Nat) (s s' : Message) : Prop
    extends s.Fewer keep move s' where
  ranges : s'.ranges = s.ranges

lemma Message.Fewer.fields_of_all (fewer : s.Fewer keep move s') (all : ∀ n, keep n = true) :
    s'.fields = s.fields.map (·.moved move) := by
  rw [fewer.fields, filter_eq_self.2 fun f _ => all f.number]

lemma Message.Fewer.exists_field (fewer : s.Fewer keep move s') {g : Field} (declared : g ∈ s'.fields) :
    ∃ f ∈ s.fields, keep f.number = true ∧ g = f.moved move := by
  rw [fewer.fields] at declared
  obtain ⟨f, kept, rfl⟩ := mem_map.1 declared
  obtain ⟨inside, kept⟩ := mem_filter.1 kept
  exact ⟨f, inside, kept, rfl⟩

section resolve

variable {a : Forest Draft} {path : String} {count : Nat}

variable {f : FieldDecl} {g : Field} {a' : Forest Draft} {count' : Nat} {left : Nat → Bool} {keep : Int → Bool}

lemma resolveOneof_eq {oneof : Option Nat} (h : resolveOneof path count f = .ok oneof) :
    oneof = f.position? count := by
  unfold resolveOneof at h
  unfold FieldDecl.position?
  split at h
  · rename_i none
    rw [none, ← Except.ok.inj h]
    rfl
  rename_i index some
  rw [some, Option.map_some]
  split at h
  · cases h
  split at h
  · rename_i positive
    rw [if_pos positive, ← Except.ok.inj h]
  split at h
  · rename_i negative _
    rw [if_neg negative, ← Except.ok.inj h]
  · cases h

lemma resolveField_eq (h : resolveField a path count f = .ok g) :
    ∃ typeNode, resolveType a path f = .ok typeNode
      ∧ g = { name := f.name, number := f.number, label := f.label, type := f.type, typeNode,
              oneof := f.position? count, default := f.default, packed := f.packed,
              proto3Optional := f.proto3Optional } := by
  unfold resolveField at h
  obtain ⟨typeNode, type, h⟩ := bind_ok h
  obtain ⟨oneof, position, h⟩ := bind_ok h
  obtain rfl := resolveOneof_eq position
  exact ⟨typeNode, type, (Except.ok.inj h).symm⟩

section

variable (same : ∀ typeName, a'.resolve path typeName = a.resolve path typeName)

include same

/-- A field that has moved is resolved as before, apart from its oneof. -/
lemma resolveField_moved {g' : Field} (h : resolveField a path count f = .ok g)
    (h' : resolveField a' path count' (f.moved count left) = .ok g') :
    g' = g.moved (Nat.count (left · = true)) := by
  obtain ⟨typeNode, type, rfl⟩ := resolveField_eq h
  obtain ⟨typeNode', type', rfl⟩ := resolveField_eq h'
  have sameType : resolveType a' path (f.moved count left) = resolveType a path f := by
    simp only [resolveType, FieldDecl.moved, same]
    rfl
  rw [sameType, type] at type'
  cases type'
  have moved : (f.moved count left).position? count' = (f.position? count).map (Nat.count (left · = true)) := by
    rw [FieldDecl.position?, FieldDecl.moved, Option.map_map]
    congr 1
  simp only [Field.moved, FieldDecl.moved] at moved ⊢
  rw [moved]

/-- The fields that are left are resolved as before. -/
lemma resolveFields_left {decls : List FieldDecl} {fields fields' : List Field}
    (h : decls.mapM (resolveField a path count) = .ok fields)
    (h' : ((decls.filter (keep ·.number)).map (·.moved count left)).mapM (resolveField a' path count') = .ok fields') :
    fields' = (fields.filter (keep ·.number)).map (·.moved (Nat.count (left · = true))) := by
  have each := mapM_ok h
  have each' := mapM_ok h'
  clear h h'
  induction each generalizing fields' with
  | nil =>
    cases each'
    rfl
  | @cons f g decls fields first _ ih =>
    have number : g.number = f.number := (resolveField_ok first).1
    by_cases kept : keep f.number = true
    · rw [filter_cons, if_pos kept, map_cons] at each'
      rw [filter_cons, if_pos (by rwa [number]), map_cons]
      cases each' with
      | cons first' rest' => rw [resolveField_moved same first first', ih rest']
    · rw [filter_cons, if_neg kept] at each'
      rw [filter_cons, if_neg (by rwa [number])]
      exact ih each'

/-- **One message.**  What is left of a message is resolved to what is left of the resolved message. -/
lemma resolveMessage_narrowed {d d' : Draft} {s s' : Message} (narrow : d.Narrowed keep d')
    (h : resolveMessage a path d = .ok s) (h' : resolveMessage a' path d' = .ok s') :
    ∃ move, s.Narrowed keep move s' ∧ s.mapEntry = d.decl.mapEntry ∧ s.proto3 = d.proto3 := by
  obtain ⟨-, fields, resolved, rfl⟩ := resolveMessage_eq h
  obtain ⟨-, fields', resolved', rfl⟩ := resolveMessage_eq h'
  rw [narrow.fields] at resolved'
  refine ⟨_, ⟨⟨narrow.proto3, narrow.mapEntry, resolveFields_left same resolved resolved', narrow.oneofs, ?_⟩,
    by rw [narrow.ranges]⟩, rfl, rfl⟩
  -- A oneof has a place among those that are left if one of its members is left.
  have member : ∀ f ∈ fields, keep f.number = true → ∀ i, f.oneof = some i →
      hasMember d.decl.oneofs.length (d.decl.fields.filter (keep ·.number)) i = true := by
    intro f inside kept i position
    obtain ⟨decl, declared, from_⟩ := mapM_mem resolved inside
    obtain ⟨typeNode, -, rfl⟩ := resolveField_eq from_
    exact any_eq_true.2 ⟨decl, mem_filter.2 ⟨declared, kept⟩, by simpa using position⟩
  intro f inside g inside' kept kept' i j position position' equal
  exact Nat.count_injective (member f inside kept i position) (member g inside' kept' j position') equal

end

end resolve

/-! ## Arenas -/

/-- Of a message at a place some fields are left; all of them, if it is a map entry or holds any other one. -/
def Draft.NarrowedAt (path file : String) (d d' : Draft) : Prop :=
  ∃ keep, d.Narrowed keep d' ∧ ((d.decl.mapEntry || isAnyAt d.proto3 path file) = true → ∀ n, keep n = true)

/-- The same for a message whose references are resolved. -/
def Message.NarrowedAt (path file : String) (s s' : Message) : Prop :=
  ∃ keep move, s.Narrowed keep move s' ∧ ((s.mapEntry || isAnyAt s.proto3 path file) = true → ∀ n, keep n = true)

/-- The same, whether the message can be extended as before or not. -/
def Message.FewerAt (path file : String) (s s' : Message) : Prop :=
  ∃ keep move, s.Fewer keep move s' ∧ ((s.mapEntry || isAnyAt s.proto3 path file) = true → ∀ n, keep n = true)

/-- An arena of what is left of the messages of another one. -/
abbrev Forest.Narrowed (a a' : Arena) : Prop := a.Like Message.NarrowedAt a'

/-- The same, whether they can be extended as before or not. -/
abbrev Forest.Fewer (a a' : Arena) : Prop := a.Like Message.FewerAt a'

lemma Forest.Narrowed.fewer {a a' : Arena} (narrow : a.Narrowed a') : a.Fewer a' :=
  narrow.mono fun ⟨keep, move, narrowed, spared⟩ => ⟨keep, move, narrowed.toFewer, spared⟩

lemma Forest.Fewer.shaped {a a' : Arena} (fewer : a.Fewer a') : a.Shaped a' :=
  fewer.mono fun ⟨_, _, fewer, _⟩ => ⟨fewer.proto3, fewer.mapEntry⟩

lemma isAnyAt_of_isAny {a : Arena} {id : Nat} {n : Node Message} {s : Message} (node : a.node? id = some n)
    (found : a.message? id = some s) (isAny : a.isAny id = true) : isAnyAt s.proto3 n.path n.file = true := by
  simpa only [Forest.isAny, node, found, isAnyAt] using isAny

lemma revises_dropping (drop : String → Int → Bool) : Place.Revises (dropping drop) Draft.NarrowedAt := by
  rintro q ⟨name, fields, oneofs, ranges, enums, messages, mapEntry⟩
  simp only [MessageDecl.revise, dropping]
  refine ⟨fun n => (mapEntry || isAnyAt q.proto3 (q.pathOf name) q.file.name) || !drop (q.pathOf name) n,
    ⟨rfl, rfl, rfl, rfl, ?_⟩, fun spared n => ?_⟩
  · rintro (rfl : oneofs = [])
    rfl
  · simp only at spared
    rw [spared]
    rfl

/-- **The arena of what is left** has the same nodes, and its messages are what is left of the others. -/
lemma narrowed_of_build (drop : String → Int → Bool) {files : List FileDecl} {a a' : Arena}
    (built : Arena.build files = .ok a) (built' : Arena.build (files.map (·.without drop)) = .ok a') :
    a.Narrowed a' := by
  rw [funext (FileDecl.without_eq drop)] at built'
  refine like_of_build (revises_dropping drop) built built' ?_
  intro _ _ path _ d d' s s' here there narrowed resolved resolved'
  obtain ⟨keep, narrow, spared⟩ := narrowed
  obtain ⟨move, narrow', isEntry, isProto3⟩ := resolveMessage_narrowed
    (fun typeName => (there path typeName).trans (here path typeName).symm) narrow resolved resolved'
  exact ⟨keep, move, narrow', by rwa [isEntry, isProto3]⟩

end Missive.Schema
