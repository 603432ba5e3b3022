import Missive.Proofs.Naming.Scope
import Missive.Proofs.Plan.Planned
import Missive.Proofs.Schema.Nested

/-!
# The names of an arena are different

Names are looked up by the position of a message.  Where the messages inside a message have different
names, every message is reached from the outermost messages of its file and so gets names
(`exists_scope`), and a nested class is called in its own scope what the scope of its parent calls it
(`className_nested`).  With `nameScope_spec` this gives the result for arenas: inside each message
class all names are different.
-/

namespace Missive.Naming

open Schema List

variable {a : Arena} {id : Nat}

variable {m : Message} {c : Nat}

lemma exists_lookup {α : Type} {entries : List (Nat × α)} {key : Nat} {x : α}
    (member : (key, x) ∈ entries) : ∃ y, entries.lookup key = some y := by
  rw [← Option.isSome_iff_exists, Option.isSome_iff_ne_none, Ne, lookup_eq_none_iff]
  intro none
  simpa using none _ member

lemma node?_of_message? (found : a.message? id = some m) :
    ∃ n, a.node? id = some n ∧ n.isMessage = true := by
  obtain ⟨n, there, content⟩ := Option.bind_eq_some_iff.1 found
  exact ⟨n, there, by simp [Node.isMessage, content]⟩

lemma mem_files (nested : a.Nested) (apart : a.NestedApart) (found : a.message? id = some m) :
    ∃ file ∈ (a.nodes.map (·.file)).eraseDups,
      id ∈ ((a.topLevelMessages file).flatMap a.subtree).filter fun id => (a.message? id).isSome := by
  obtain ⟨n, there, isMessage⟩ := node?_of_message? found
  obtain ⟨root, top, inside⟩ := Forest.exists_root nested apart there isMessage
  refine ⟨n.file, ?_, mem_filter.2 ⟨mem_flatMap.2 ⟨root, top, inside⟩, by simp [found]⟩⟩
  exact mem_eraseDups.2 (mem_map_of_mem (mem_of_getElem? there))

/-- **Every message gets names.** -/
lemma exists_scope (nested : a.Nested) (apart : a.NestedApart) (found : a.message? id = some m) :
    (names a).scope id = .ok (nameScope (scopeDecl a id)) := by
  obtain ⟨file, listed, inside⟩ := mem_files nested apart found
  have entry : (id, nameScope (scopeDecl a id)) ∈ (names a).scopes := by
    simp only [names, fileNames, mem_flatMap, mem_map, exists_exists_and_eq_and]
    exact ⟨file, listed, id, inside, by simp [messageNames]⟩
  obtain ⟨scope, given⟩ := exists_lookup entry
  have ok : (names a).scope id = .ok scope := by rw [Names.scope, given]
  rw [ok, (Plan.scope_names found ok).1]

/-! ## Nested classes -/

lemma mem_nestedMessages (member : c ∈ a.nestedMessages id) :
    ∃ n, a.node? c = some n ∧ n.parent = some id :=
  Forest.parent_of_mem_children (mem_filter.1 member).1

/-- Names of classes are given at the top of a file, and in the scopes of messages. -/
lemma mem_classes {entry : Nat × String} (member : entry ∈ (names a).classes) :
    (∃ n, a.node? entry.1 = some n ∧ n.parent = none)
      ∨ ∃ id, entry ∈ (a.nestedMessages id).zip (nameScope (scopeDecl a id)).nested := by
  simp only [names, fileNames, mem_flatMap, mem_map, exists_exists_and_eq_and, mem_append] at member
  obtain ⟨file, -, top | ⟨id, -, inner⟩⟩ := member
  · refine .inl ?_
    have := (mem_filter.1 (mem_filter.1 (of_mem_zip top).1).1).2
    cases found : a.node? entry.1 with
    | none => simp [found] at this
    | some n => exact ⟨n, rfl, by simpa [found] using (show _ ∧ _ by simpa [found] using this).1⟩
  · exact .inr ⟨id, inner⟩

lemma eq_of_mem_zip {α β : Type} {l : List α} {l' : List β} (distinct : l.Nodup) {x : α} {y y' : β}
    (member : (x, y) ∈ l.zip l') (member' : (x, y') ∈ l.zip l') : y = y' := by
  obtain ⟨i, bound, at_⟩ := mem_iff_getElem.1 member
  obtain ⟨j, bound', at'⟩ := mem_iff_getElem.1 member'
  simp only [getElem_zip, Prod.mk.injEq] at at_ at'
  have same : i = j := (Nodup.getElem_inj_iff distinct).1 (at_.1.trans at'.1.symm)
  subst same
  exact at_.2.symm.trans at'.2

/-- A nested class is called what the scope of its parent calls it. -/
lemma className_nested (nested : a.Nested) (apart : a.NestedApart) (found : a.message? id = some m) {name : String}
    (member : (c, name) ∈ (a.nestedMessages id).zip (nameScope (scopeDecl a id)).nested) :
    (names a).className c = .ok name := by
  obtain ⟨file, listed, inside⟩ := mem_files nested apart found
  have entry : (c, name) ∈ (names a).classes := by
    simp only [names, fileNames, mem_flatMap, mem_map, exists_exists_and_eq_and, mem_append]
    exact ⟨file, listed, .inr ⟨id, inside, member⟩⟩
  obtain ⟨other, given⟩ := exists_lookup entry
  obtain ⟨before, after, whole, -⟩ := lookup_eq_some_iff.1 given
  obtain ⟨n, there, parent⟩ := mem_nestedMessages (of_mem_zip member).1
  have own : (c, other) ∈ (a.nestedMessages id).zip (nameScope (scopeDecl a id)).nested := by
    rcases mem_classes (show (c, other) ∈ (names a).classes by simp [whole]) with
      ⟨n', there', top⟩ | ⟨id', inside'⟩
    · cases there.symm.trans there'
      cases parent.symm.trans top
    · obtain ⟨n', there', parent'⟩ := mem_nestedMessages (of_mem_zip inside').1
      cases there.symm.trans there'
      cases parent.symm.trans parent'
      exact inside'
  rw [Names.className, given, eq_of_mem_zip ((a.nodup_children id).filter _) own member]

/-! ## The result -/

lemma length_names (d : ScopeDecl) :
    (nameScope d).fields.length = d.fields.length ∧ (nameScope d).oneofs.length = d.oneofs.length
      ∧ (nameScope d).oneofClasses.length = d.oneofs.length
      ∧ (nameScope d).nested.length = d.nested.length
      ∧ (nameScope d).fieldStorage.length = d.fields.length
      ∧ (nameScope d).oneofStorage.length = d.oneofs.length := by
  obtain ⟨free, round, -, -⟩ := exists_round d
  simp only [nameScope, round, nameRound, Plan.length_assignAll, length_map, and_self]

lemma classNames_nested (nested : a.Nested) (apart : a.NestedApart) (found : a.message? id = some m) :
    Forall₂ (fun c name => (names a).className c = .ok name) (a.nestedMessages id)
      (nameScope (scopeDecl a id)).nested := by
  refine forall₂_iff_zip.2 ⟨?_, className_nested nested apart found⟩
  rw [(length_names (scopeDecl a id)).2.2.2.1, scopeDecl, found, length_map]

/-- **Names are different inside each message class.**  In an arena in which the messages inside a
message have different names, every message has names for its fields, its oneofs and its nested
classes, whatever these are called in the schema.  All names of the class body are different, those of
methods included; what is declared or stored is called neither like a keyword nor like a reserved
attribute; and nothing that is stored is private. -/
theorem names_nodup {files : List FileDecl} (built : Arena.build files = .ok a)
    (apart : a.NestedApart) {m : Message} (found : a.message? id = some m) :
    ∃ s, (names a).scope id = .ok s ∧ s.fields.length = m.fields.length
      ∧ s.oneofs.length = m.oneofs.length ∧ s.oneofClasses.length = m.oneofs.length
      ∧ s.fieldStorage.length = m.fields.length ∧ s.oneofStorage.length = m.oneofs.length
      ∧ Forall₂ (fun c name => (names a).className c = .ok name) (a.nestedMessages id) s.nested
      ∧ s.body.Nodup ∧ (∀ name ∈ s.own, name ∉ keywords ∧ name ∉ reservedAttributes)
      ∧ ∀ name ∈ s.stored, name.startsWith "__" = false := by
  have nested := nested_of_build built
  obtain ⟨fields, oneofs, classes, -, fieldStorage, oneofStorage⟩ := length_names (scopeDecl a id)
  have declared : scopeDecl a id = ⟨m.fields.map (·.name), m.oneofs.map (·.name),
      (a.nestedMessages id).map fun c => ((a.node? c).map (·.name)).getD ""⟩ := by
    simp [scopeDecl, found]
  simp only [declared, length_map] at fields oneofs classes fieldStorage oneofStorage
  simp only [← declared] at fields oneofs classes fieldStorage oneofStorage
  exact ⟨_, exists_scope nested apart found, fields, oneofs, classes, fieldStorage, oneofStorage,
    classNames_nested nested apart found, nameScope_spec _⟩

/-- A field called like a keyword, a oneof called like a method of the field as it is renamed, and a
nested message called like the attribute that would store the field. -/
def crowdedFiles : List FileDecl :=
  [{ name := "a.proto"
     messages :=
      [{ name := "M"
         fields := [{ name := "class", number := 1, type := .int32, oneof := some 0 }]
         oneofs := ["has_class_"]
         messages := [{ name := "_class_" }] }] }]

theorem names_nodup_crowded :
    ∃ a m s, Arena.build crowdedFiles = .ok a ∧ a.NestedApart ∧ a.message? 0 = some m ∧ (names a).scope 0 = .ok s
      ∧ s = ⟨["class_"], ["has_class__"], ["OneofHasClass"], ["_class_"], ["_class__"], ["_has_class__"]⟩
      ∧ s.body.Nodup ∧ (∀ name ∈ s.own, name ∉ keywords ∧ name ∉ reservedAttributes)
      ∧ ∀ name ∈ s.stored, name.startsWith "__" = false := by
  obtain ⟨a, built⟩ := exists_of_isOk (show (Arena.build crowdedFiles).isOk = true by decide +kernel)
  have facts : ((Arena.build crowdedFiles).toOption.map fun a =>
      (decide a.NestedApart, (a.message? 0).isSome, (((names a).scope 0).toOption))) = some (true, true,
        some ⟨["class_"], ["has_class__"], ["OneofHasClass"], ["_class_"], ["_class__"], ["_has_class__"]⟩) := by
    decide +kernel
  simp only [built, Except.toOption, Option.map_some, Option.some.injEq, Prod.mk.injEq,
    decide_eq_true_eq] at facts
  obtain ⟨apart, isMessage, given⟩ := facts
  obtain ⟨m, found⟩ := Option.isSome_iff_exists.1 isMessage
  obtain ⟨s, scope, -, -, -, -, -, -, result⟩ := names_nodup built apart found
  rw [scope] at given
  exact ⟨a, m, s, built, apart, found, scope, Option.some.inj given, result⟩

end Missive.Naming
