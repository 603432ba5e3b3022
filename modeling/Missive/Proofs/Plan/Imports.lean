import Missive.Proofs.Plan.Planned

/-!
# References and imports

The code of a class refers to the classes of message fields, of the values of maps and of the members of
oneofs.  A class of another file is referred to through the alias of that file's module.  A type may be
declared in any file of the schema, but a module imports only the modules of the files that its own file
names as dependencies.

Both sides are computed apart: a reference is made from the name of its target (`plan_made`), an import from
a dependency (`binds_iff`).  `imports_bind_iff` compares them.
-/

namespace Missive

open Schema Naming List Program

/-- The file that a message is declared in. -/
def Schema.Forest.fileOf (a : Arena) (id : Nat) : String := ((a.node? id).map (·.file)).getD ""

namespace Plan

variable {s : Scene} {here : Standpoint} {m : Message} {f : Field} {ref : ClassRef} {c : ClassPlan}

/-! ## The references in a plan -/

/-- The references in the code of a field. -/
def FieldKind.refs : FieldKind → List ClassRef
  | scalar _ _ _ | repeated _ _ => []
  | message _ ref | repeatedMessage _ ref => [ref]
  | map _ _ ref => ref.toList

/-- The references in the code of a member, in its accessors and in the decoder of the oneof. -/
def MemberKind.refs : MemberKind → List ClassRef
  | scalar _ _ => []
  | message _ ref decodeRef => [ref, decodeRef]
  | entry ref => [ref]

def Declared.refs : Declared → List ClassRef
  | field _ f => f.kind.refs
  | member _ _ m _ => m.kind.refs

/-- The references in the code of a class, those of the classes inside it apart. -/
def ClassPlan.refs (c : ClassPlan) : List ClassRef :=
  c.declared.flatMap Declared.refs ++ c.oneofs.flatMap fun o => o.members.flatMap (·.kind.refs)

def ModulePlan.refs (m : ModulePlan) : List ClassRef := (flattenList m.classes).flatMap (·.refs)

/-- A reference was made for its target, somewhere in the file. -/
def Scene.Made (s : Scene) (ref : ClassRef) : Prop := ∃ here, s.classRef here ref.target = .ok ref

lemma fieldRef_made (h : s.fieldRef here f = .ok ref) : s.Made ref := by
  unfold Scene.fieldRef at h
  obtain ⟨⟨id, m⟩, -, h⟩ := bind_ok h
  exact ⟨here, by rw [classRef_target h, h]⟩

lemma valueRef_made (h : s.valueRef here f = .ok (some ref)) : s.Made ref := by
  unfold Scene.valueRef at h
  obtain ⟨value, -, h⟩ := bind_ok h
  obtain ⟨kind, -, h⟩ := bind_ok h
  split at h
  · obtain ⟨other, made, h⟩ := bind_ok h
    obtain rfl : other = ref := by simpa [pure, Except.pure] using h
    exact fieldRef_made made
  · simp [pure, Except.pure] at h

lemma fieldKind_made {kind : FieldKind} (h : s.fieldKind here m f = .ok kind) : ∀ ref ∈ kind.refs, s.Made ref := by
  unfold Scene.fieldKind at h
  obtain ⟨class_, -, h⟩ := bind_ok h
  cases class_ with
  | map =>
    obtain ⟨key, -, h⟩ := bind_ok h
    obtain ⟨value, -, h⟩ := bind_ok h
    obtain ⟨values, valuesAre, h⟩ := bind_ok h
    cases h
    intro ref isRef
    obtain rfl : values = some ref := by simpa [FieldKind.refs] using isRef
    exact valueRef_made valuesAre
  | group | message =>
    dsimp only at h
    split at h
    all_goals
      obtain ⟨ref, refIs, h⟩ := bind_ok h
      cases h
      simpa [FieldKind.refs] using fieldRef_made refIs
  | scalar =>
    dsimp only at h
    split at h
    · cases h
      simp [FieldKind.refs]
    · obtain ⟨default, -, h⟩ := bind_ok h
      cases h
      simp [FieldKind.refs]

lemma memberKind_made {kind : MemberKind} {oneofClass : String} (h : s.memberKind here oneofClass f = .ok kind) :
    ∀ ref ∈ kind.refs, s.Made ref := by
  unfold Scene.memberKind at h
  obtain ⟨class_, -, h⟩ := bind_ok h
  cases class_ with
  | map =>
    obtain ⟨ref, refIs, h⟩ := bind_ok h
    cases h
    simpa [MemberKind.refs] using fieldRef_made refIs
  | scalar =>
    obtain ⟨default, -, h⟩ := bind_ok h
    cases h
    simp [MemberKind.refs]
  | group | message =>
    obtain ⟨ref, refIs, h⟩ := bind_ok h
    obtain ⟨decodeRef, decodeRefIs, h⟩ := bind_ok h
    cases h
    simpa [MemberKind.refs] using And.intro (fieldRef_made refIs) (fieldRef_made decodeRefIs)

lemma planClass_made {sh : Shell} {p p' : Progress} (planned : planClass s sh p = .ok c p') :
    ∀ ref ∈ c.refs, s.Made ref := by
  obtain ⟨id, m, layout, shells⟩ := sh
  obtain ⟨here, names, oneofs, -, -, -, -, oneofsAre, declaredAre, -, -, -, -, -, -, -, -, -, same, -⟩ :=
    planClass_ok planned
  have members : ∀ entry ∈ oneofs, ∀ member ∈ entry.2.members, ∀ ref ∈ member.kind.refs, s.Made ref := by
    intro entry known member inside
    obtain ⟨_, -, -, oneofIs⟩ := exists_left_of_mem (planOneofs_inv oneofsAre) known
    obtain ⟨-, -, -, -, made⟩ := planOneof_inv oneofIs
    obtain ⟨_, -, -, -, kind⟩ := exists_left_of_mem made inside
    exact memberKind_made kind
  intro ref isRef
  rcases mem_append.1 isRef with own | inOneof
  · unfold planDeclared at declaredAre
    obtain ⟨options, entries, whole⟩ := filterMapM_ok declaredAre
    obtain ⟨d, declared, isRef⟩ := mem_flatMap.1 own
    obtain ⟨option, given, rfl⟩ := mem_filterMap.1 (whole ▸ declared)
    obtain ⟨_, -, planned⟩ := exists_left_of_mem entries given
    have parts := planDeclaredField_inv planned
    split at parts
    · obtain ⟨kind, kindIs, isField⟩ := parts
      cases isField
      exact fieldKind_made kindIs ref isRef
    · rename_i o of
      obtain ⟨plan, known, presented⟩ := Option.bind_eq_some_iff.1 parts.symm
      obtain ⟨member, found, rfl⟩ := Option.map_eq_some_iff.1 presented
      obtain ⟨front, back, split, -⟩ := lookup_eq_some_iff.1 known
      exact members (o.index, plan) (by simp [split]) member (mem_of_find?_eq_some found) ref isRef
  · simp only [same, mem_flatMap, mem_map] at inOneof
    obtain ⟨_, ⟨entry, known, rfl⟩, member, inside, isRef⟩ := inOneof
    exact members entry known member inside ref isRef

/-- The header of a module imports a module under a name. -/
def ModulePlan.Binds (module : ModulePlan) (runtimePackage short : String) : Prop :=
  ∃ name, (name, short) ∈ module.imports
    ∧ Code.line ("import " ++ name ++ " as " ++ short) ∈ Code.moduleHeader module runtimePackage

end Plan

open Plan

namespace Compilation

variable {k : Compilation} {file : FileDecl} {module : ModulePlan} {ref : ClassRef}

/-! ## References through imports -/

/-- The name under which the module of a message's file is imported. -/
def aliasOf (k : Compilation) (id : Nat) : String := k.options.style.moduleAlias (k.arena.fileOf id)

/-- A reference in the module of a file leads through the module of another file, which has a name. -/
structure Through (k : Compilation) (file : FileDecl) (ref : ClassRef) (short : String) : Prop where
  elsewhere : k.arena.fileOf ref.target ≠ file.name
  short_eq : short = k.aliasOf ref.target
  text_eq : ∃ name, k.names.qualifiedName k.arena ref.target = .ok name ∧ ref.text = short ++ "." ++ name

/-- A reference to a class of another file leads through the module of that file. -/
lemma through_of_plan (planned : (k.plan file).1 = .ok module) (isRef : ref ∈ module.refs)
    (elsewhere : k.arena.fileOf ref.target ≠ file.name) : k.Through file ref (k.aliasOf ref.target) := by
  obtain ⟨p, run, -⟩ := plan_ok planned
  obtain ⟨c, inside, isRef⟩ := mem_flatMap.1 isRef
  obtain ⟨sh, q, q', -, plan⟩ := planModule_flatten run inside
  obtain ⟨here, made⟩ := planClass_made plan ref isRef
  unfold Scene.classRef Names.reference at made
  obtain ⟨text, textIs, made⟩ := bind_ok made
  obtain ⟨name, named, textIs⟩ := bind_ok textIs
  have same := congrArg ClassRef.text (Except.ok.inj made)
  have written := Except.ok.inj textIs
  rw [if_neg (by simpa [Forest.fileOf] using elsewhere)] at written
  exact ⟨elsewhere, rfl, name, named, same.symm.trans written.symm⟩

/-- The names that a module imports others under are those of its dependencies. -/
lemma binds_iff (planned : (k.plan file).1 = .ok module) {runtimePackage short : String} :
    module.Binds runtimePackage short ↔ ∃ d ∈ file.dependencies, k.options.style.moduleAlias d = short := by
  obtain ⟨p, run, -⟩ := plan_ok planned
  unfold planModule at run
  obtain ⟨classes, t, -, run⟩ := run_bind_ok run
  obtain ⟨rfl, -⟩ := EStateM.Result.ok.inj run
  constructor
  · rintro ⟨name, member, -⟩
    obtain ⟨d, inside, same⟩ := mem_map.1 member
    exact ⟨d, inside, (Prod.mk.inj same).2⟩
  · rintro ⟨d, inside, rfl⟩
    exact ⟨k.options.style.moduleName d, mem_map.2 ⟨d, inside, rfl⟩,
      mem_append_right _ (mem_map.2 ⟨(_, _), mem_map.2 ⟨d, inside, rfl⟩, rfl⟩)⟩

/-- **References and imports.**  References to classes of other files lead through the modules of those files.
The header of a module binds the names of all these modules just if its file depends, up to the alias of a
module, on each file of a type that is referred to. -/
theorem imports_bind_iff (planned : (k.plan file).1 = .ok module) :
    (∀ ref ∈ module.refs, k.arena.fileOf ref.target = file.name ∨ k.Through file ref (k.aliasOf ref.target))
    ∧ ((∀ ref ∈ module.refs, ∀ short, k.Through file ref short → module.Binds k.options.runtimePackage short)
      ↔ ∀ ref ∈ module.refs, k.arena.fileOf ref.target = file.name
        ∨ ∃ d ∈ file.dependencies, k.options.style.moduleAlias d = k.aliasOf ref.target) := by
  simp only [or_iff_not_imp_left, binds_iff planned]
  refine ⟨fun ref isRef => through_of_plan planned isRef, fun bound ref isRef elsewhere => ?_, ?_⟩
  · exact bound ref isRef _ (through_of_plan planned isRef elsewhere)
  · intro imports ref isRef short through
    obtain ⟨elsewhere, rfl, -⟩ := through
    exact imports ref isRef elsewhere

/-- A message, a message with a field of its type, and a file in between. -/
def sourceFile : FileDecl := { name := "a.proto", package := "p", messages := [{ name := "X" }] }

def betweenFile : FileDecl := { name := "b.proto", dependencies := ["a.proto"] }

def userFile (dependency : String) : FileDecl where
  name := "c.proto"
  dependencies := [dependency]
  messages := [{ name := "M", fields := [{ name := "x", number := 1, type := .message, typeName := ".p.X" }] }]

/-- The reference of that field, where planning succeeds. -/
lemma exists_reference (files : List FileDecl) (dependency : String)
    (computed : ((Arena.build files).toOption.bind fun a =>
        ((start a {}).plan (userFile dependency)).1.toOption.map fun module =>
          module.refs.map fun ref => (ref.text, a.fileOf ref.target, (start a {}).aliasOf ref.target))
      = some [("_a_msg.X", "a.proto", "_a_msg")]) :
    ∃ a module ref, Arena.build files = .ok a ∧ ((start a {}).plan (userFile dependency)).1 = .ok module
      ∧ module.refs = [ref] ∧ ref.text = "_a_msg.X" ∧ a.fileOf ref.target = "a.proto"
      ∧ (start a {}).aliasOf ref.target = "_a_msg" := by
  obtain ⟨a, built, planned⟩ := Option.bind_eq_some_iff.1 computed
  obtain ⟨module, plan, refs⟩ := Option.map_eq_some_iff.1 planned
  obtain ⟨ref, whole, same⟩ := map_eq_singleton_iff.1 refs
  obtain ⟨text, file, short⟩ : _ ∧ _ ∧ _ := by simpa using same
  exact ⟨a, module, ref, eq_ok_of_toOption built, eq_ok_of_toOption plan, whole, text, file, short⟩

/-- A file that depends on the file of the type it uses: the reference leads through the import. -/
theorem imports_bind_direct :
    ∃ a module ref, Arena.build [sourceFile, userFile "a.proto"] = .ok a
      ∧ ((start a {}).plan (userFile "a.proto")).1 = .ok module ∧ module.refs = [ref] ∧ ref.text = "_a_msg.X"
      ∧ (start a {}).Through (userFile "a.proto") ref "_a_msg" ∧ module.Binds "pw_msggen.runtime" "_a_msg" := by
  obtain ⟨a, module, ref, built, planned, whole, text, file, short⟩ :=
    exists_reference [sourceFile, userFile "a.proto"] "a.proto" (by decide +kernel)
  obtain ⟨leads, bound⟩ := imports_bind_iff planned
  have through := (leads ref (by simp [whole])).resolve_left (file ▸ (by decide : "a.proto" ≠ "c.proto"))
  rw [short] at through
  refine ⟨a, module, ref, built, planned, whole, text, through, bound.2 (fun other isRef => .inr ?_) ref
    (by simp [whole]) _ through⟩
  obtain rfl : other = ref := by simpa [whole] using isRef
  exact ⟨"a.proto", mem_singleton_self _, short ▸ (by decide +kernel : ModuleStyle.moduleAlias {} _ = "_a_msg")⟩

/-- A file that depends on the file of the type only through another one: the reference leads through a
module that is not imported. -/
theorem imports_bind_indirect :
    ∃ a module ref, Arena.build [sourceFile, betweenFile, userFile "b.proto"] = .ok a
      ∧ ((start a {}).plan (userFile "b.proto")).1 = .ok module ∧ module.refs = [ref] ∧ ref.text = "_a_msg.X"
      ∧ (start a {}).Through (userFile "b.proto") ref "_a_msg" ∧ ¬ module.Binds "pw_msggen.runtime" "_a_msg" := by
  obtain ⟨a, module, ref, built, planned, whole, text, file, short⟩ :=
    exists_reference [sourceFile, betweenFile, userFile "b.proto"] "b.proto" (by decide +kernel)
  have through := through_of_plan planned (by simp [whole]) (file ▸ (by decide : "a.proto" ≠ "c.proto"))
  refine ⟨a, module, ref, built, planned, whole, text, short ▸ through, fun bound => ?_⟩
  have known : ∃ d ∈ (userFile "b.proto").dependencies, ModuleStyle.moduleAlias {} d = "_a_msg" :=
    (binds_iff planned).1 bound
  exact absurd known (by decide +kernel)

end Compilation

end Missive
