import Missive.Proofs.Schema.Narrow

/-!
# Schemas with one more field

A number in an extension range of a message may be declared as a field instead: the message gets the field,
and the range is split around its number.  Map entries and messages of the newer dialect are left as they are.

`FileDecl.declaring` does so with a file.  The arena has the same nodes as before, and all messages are the same
but for the one that declares the field (`gains_of_build`); taking the field away again gives the messages
that were there before (`fewer_of_gains`).
-/

namespace Missive.Schema

open List

variable {g : Field} {drafts : Forest Draft} {a : Arena} {name : String}

/-! ## Declaring a number -/

/-- Some ranges without a number.  The range that it is in is split around it. -/
def splitAround (number : Int) (ranges : List (Int × Int)) : List (Int × Int) :=
  ranges.flatMap fun range =>
    if range.1 ≤ number ∧ number < range.2 then
      [(range.1, number), (number + 1, range.2)].filter fun part => part.1 < part.2
    else [range]

/-- A message with one more field, at a position among the others. -/
def MessageDecl.declare (position : Nat) (f : FieldDecl) (m : MessageDecl) : MessageDecl :=
  { m with fields := m.fields.take position ++ f :: m.fields.drop position
           extensionRanges := splitAround f.number m.extensionRanges }

/-- How messages are revised if the one of a full name declares a field. -/
def declaring (name : String) (position : Nat) (f : FieldDecl) : Revision := fun proto3 path _ m =>
  if path = name ∧ proto3 = false ∧ m.mapEntry = false then m.declare position f else m

/-- A file in which the message of a full name declares one more field. -/
def FileDecl.declaring (name : String) (position : Nat) (f : FieldDecl) (file : FileDecl) : FileDecl :=
  file.revise (Schema.declaring name position f)

lemma contains_ofList (ranges : List (Int × Int)) (number : Int) :
    (Ranges.ofList ranges).contains number = true ↔ ∃ range ∈ ranges, range.1 ≤ number ∧ number < range.2 := by
  simp [Ranges.contains, Ranges.ofList]

/-- Splitting around a number takes just that number away. -/
lemma contains_splitAround (ranges : List (Int × Int)) (number other : Int) :
    (Ranges.ofList (splitAround number ranges)).contains other
      = ((Ranges.ofList ranges).contains other && other != number) := by
  rw [Bool.eq_iff_iff, Bool.and_eq_true, contains_ofList, contains_ofList]
  simp only [splitAround, mem_flatMap, bne_iff_ne, ne_eq]
  constructor
  · rintro ⟨part, ⟨range, member, inside⟩, between⟩
    split at inside
    · simp only [mem_filter, mem_cons, not_mem_nil, or_false] at inside
      rcases inside.1 with rfl | rfl <;> exact ⟨⟨range, member, by omega⟩, by omega⟩
    · obtain rfl := mem_singleton.1 inside
      exact ⟨⟨part, member, between⟩, by omega⟩
  · rintro ⟨⟨range, member, between⟩, differs⟩
    by_cases split : range.1 ≤ number ∧ number < range.2
    · by_cases less : other < number
      · exact ⟨(range.1, number), ⟨range, member, by simp [split]; omega⟩, by omega⟩
      · exact ⟨(number + 1, range.2), ⟨range, member, by simp [split]; omega⟩, by omega⟩
    · exact ⟨range, ⟨range, member, by simp [split]⟩, between⟩

/-! ## Resolved messages -/

/-- A field outside of oneofs, resolved inside the message of a full name. -/
def FieldDecl.resolved (a : Arena) (name : String) (f : FieldDecl) : Field :=
  { name := f.name, number := f.number, label := f.label, type := f.type,
    typeNode := if f.typeName.isEmpty then none else a.resolve name f.typeName, oneof := none, default := f.default,
    packed := f.packed, proto3Optional := f.proto3Optional }

lemma resolveField_resolved {count : Nat} {f : FieldDecl}
    (same : ∀ message typeName, drafts.resolve message typeName = a.resolve message typeName) (alone : f.oneof = none)
    (h : resolveField drafts name count f = .ok g) : g = f.resolved a name := by
  obtain ⟨typeNode, type, rfl⟩ := resolveField_eq h
  have position : f.position? count = none := by rw [FieldDecl.position?, alone, Option.map_none]
  have node : typeNode = if f.typeName.isEmpty then none else a.resolve name f.typeName := by
    unfold resolveType at type
    split at type
    · rename_i empty
      rw [if_pos empty]
      split at type
      · exact (Except.ok.inj type).symm
      · cases type
    · rename_i named
      rw [if_neg named, ← same]
      split at type
      · rename_i id found
        rw [found, ← Except.ok.inj type]
      · cases type
  rw [FieldDecl.resolved, position, node]

/-- A message that declares one more field, under a number that is in no range any more. -/
structure Message.Gains (g : Field) (s s' : Message) : Prop where
  proto3 : s'.proto3 = s.proto3
  mapEntry : s'.mapEntry = s.mapEntry
  oneofs : s'.oneofNames = s.oneofNames
  fields : ∃ before after, s.fields = before ++ after ∧ s'.fields = before ++ g :: after
  distinct : (s'.fields.map (·.number)).Nodup
  ranges : ∀ number, s'.ranges.contains number = (s.ranges.contains number && number != g.number)

/-- At a place, a message is the same as before, or it is the one that declares a field. -/
def Message.GainsAt (name : String) (g : Field) (path _file : String) (s s' : Message) : Prop :=
  if path = name ∧ s.proto3 = false ∧ s.mapEntry = false then s.Gains g s' else s' = s

/-- The same for declarations. -/
def Draft.GainsAt (name : String) (position : Nat) (f : FieldDecl) (path _file : String) (d d' : Draft) : Prop :=
  d'.proto3 = d.proto3 ∧ d'.decl.mapEntry = d.decl.mapEntry ∧ d'.decl.oneofs = d.decl.oneofs
    ∧ d'.decl.fields = (if path = name ∧ d.proto3 = false ∧ d.decl.mapEntry = false then d.decl.declare position f
        else d.decl).fields
    ∧ d'.decl.extensionRanges = (if path = name ∧ d.proto3 = false ∧ d.decl.mapEntry = false then
        d.decl.declare position f else d.decl).extensionRanges

section resolve

variable {position : Nat} {f : FieldDecl}

lemma revises_declaring : Place.Revises (declaring name position f) (Draft.GainsAt name position f) := by
  rintro q ⟨own, fields, oneofs, ranges, enums, messages, mapEntry⟩
  simp only [MessageDecl.revise, declaring]
  refine ⟨rfl, rfl, ?_, rfl, rfl⟩
  split <;> rfl

/-- **One message.**  A declaration with one more field is resolved to a message with one more field. -/
lemma resolveMessage_gains (alone : f.oneof = none) {drafts' : Forest Draft} {path file : String} {d d' : Draft}
    {s s' : Message} (here : ∀ message typeName, drafts.resolve message typeName = a.resolve message typeName)
    (there : ∀ message typeName, drafts'.resolve message typeName = a.resolve message typeName)
    (gains : d.GainsAt name position f path file d') (h : resolveMessage drafts path d = .ok s)
    (h' : resolveMessage drafts' path d' = .ok s') : s.GainsAt name (f.resolved a name) path file s' := by
  obtain ⟨-, fields, resolved, rfl⟩ := resolveMessage_eq h
  obtain ⟨resolved', fields', again, rfl⟩ := resolveMessage_eq h'
  obtain ⟨dialect, entry, oneofs, own, ranges⟩ := gains
  -- Fields are resolved in the same way on both sides.
  have same : resolveField drafts' path d.decl.oneofs.length = resolveField drafts path d.decl.oneofs.length := by
    funext g
    simp only [resolveField, resolveType, here, there]
  rw [own, oneofs, same] at again
  unfold Message.GainsAt
  by_cases isHere : path = name ∧ d.proto3 = false ∧ d.decl.mapEntry = false
  · obtain rfl : path = name := isHere.1
    rw [if_pos isHere, MessageDecl.declare] at again ranges
    rw [if_pos isHere]
    rw [← take_append_drop position d.decl.fields, mapM_append] at resolved
    obtain ⟨front, first, resolved⟩ := bind_ok resolved
    obtain ⟨back, second, resolved⟩ := bind_ok resolved
    cases resolved
    rw [mapM_append] at again
    obtain ⟨front', first', again⟩ := bind_ok again
    obtain ⟨tail, more, again⟩ := bind_ok again
    cases again
    rw [mapM_cons] at more
    obtain ⟨g, field, more⟩ := bind_ok more
    obtain ⟨back', second', more⟩ := bind_ok more
    cases more
    cases first.symm.trans first'
    cases second.symm.trans second'
    obtain rfl := resolveField_resolved here alone field
    refine ⟨dialect, entry, oneofs, ⟨front, back, rfl, rfl⟩, resolved'.distinct, fun number => ?_⟩
    simp only [ranges]
    exact contains_splitAround _ _ _
  · rw [if_neg isHere] at again ranges
    rw [if_neg isHere, ← Except.ok.inj (resolved.symm.trans again), dialect, entry, oneofs, ranges]

/-- **The arena with one more field.** -/
lemma gains_of_build (alone : f.oneof = none) {files : List FileDecl} {a' : Arena} (built : Arena.build files = .ok a)
    (built' : Arena.build (files.map (·.declaring name position f)) = .ok a') :
    a.Like (Message.GainsAt name (f.resolved a name)) a' :=
  like_of_build revises_declaring built built' (resolveMessage_gains alone)

end resolve

/-! ## Taking the field away again -/

lemma Field.moved_id (f : Field) : f.moved id = f := by
  rw [Field.moved, Option.map_id]
  rfl

/-- Without the field that it declares, a message is what it was before. -/
lemma Message.Gains.fewer {s s' : Message} (gains : s.Gains g s') :
    s'.Fewer (· != g.number) id s where
  proto3 := gains.proto3.symm
  mapEntry := gains.mapEntry.symm
  fields := by
    obtain ⟨before, after, whole, more⟩ := gains.fields
    have distinct := gains.distinct
    rw [more, map_append, map_cons, nodup_middle, nodup_cons] at distinct
    have others : ∀ f ∈ before ++ after, (f.number != g.number) = true := by
      intro f member
      rw [bne_iff_ne]
      intro equal
      exact distinct.1 (by rw [← map_append, ← equal]; exact mem_map_of_mem member)
    have kept : (before ++ g :: after).filter (·.number != g.number) = before ++ after := by
      rw [filter_append, filter_cons, if_neg (by simp), ← filter_append]
      exact filter_eq_self.2 others
    rw [whole, more, kept, map_congr_left fun f _ => f.moved_id, map_id']
  oneofs := fun none => gains.oneofs ▸ none
  apart := fun _ _ _ _ _ _ _ _ _ _ same => same

lemma Message.fewer_self (s : Message) : s.Fewer (fun _ => true) id s where
  proto3 := rfl
  mapEntry := rfl
  fields := by
    rw [filter_eq_self.2 fun _ _ => rfl, map_congr_left fun f _ => f.moved_id, map_id']
  oneofs := fun none => none
  apart := fun _ _ _ _ _ _ _ _ _ _ same => same

/-- The messages of the arena before are those of the arena with one more field, without that field. -/
lemma fewer_of_gains {a' : Arena} (gains : a.Like (Message.GainsAt name g) a') : a'.Fewer a := by
  refine gains.flip fun {path file s s'} related => ?_
  unfold Message.GainsAt at related
  split at related
  · rename_i isHere
    refine ⟨_, _, related.fewer, fun spared => ?_⟩
    simp [isAnyAt, related.proto3, related.mapEntry, isHere] at spared
  · subst related
    exact ⟨_, _, Message.fewer_self _, fun _ _ => rfl⟩

end Missive.Schema
