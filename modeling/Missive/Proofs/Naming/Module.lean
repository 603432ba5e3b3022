import Missive.Proofs.Naming.Names

/-!
# The names at the top of a module

At the top of a generated module stand three imports that every module has, an import for each
dependency, under an alias, and the outermost classes.  Class names are given against each other and
against the three fixed names, so these never meet (`nodup_topClasses`).  The alias of a module is made
from the parts of its path alone, by joining them with underscores.  The parts may have underscores
themselves, so different paths may give one alias, and nothing keeps a class from having an alias as
its name.  `moduleNames_nodup_iff` says exactly when that happens.
-/

namespace Missive.Naming

open Schema List

variable {a : Arena} {id : Nat} {file : String} {style : ModuleStyle}

/-! ## Outermost classes -/

lemma nodup_topLevelMessages (a : Arena) (file : String) : (a.topLevelMessages file).Nodup :=
  (nodup_range.filter _).filter _

/-- The names that the outermost messages of a file are given. -/
def topGiven (a : Arena) (file : String) : List String :=
  (assignAll reservedModuleNames [] ((a.topLevelMessages file).map fun id => ((a.node? id).map (·.name)).getD "")).1

lemma length_topGiven (a : Arena) (file : String) :
    (topGiven a file).length = (a.topLevelMessages file).length := by
  rw [topGiven, Plan.length_assignAll, length_map]

/-- An outermost class is called what it is given at the top of its file. -/
lemma className_top {name : String} (member : (id, name) ∈ (a.topLevelMessages file).zip (topGiven a file)) :
    (names a).className id = .ok name := by
  have top := (of_mem_zip member).1
  obtain ⟨n, there, -, outermost, rfl⟩ := Forest.mem_topLevelMessages.1 top
  have entry : (id, name) ∈ (names a).classes := by
    simp only [names, fileNames, mem_flatMap, mem_map, exists_exists_and_eq_and, mem_append]
    exact ⟨n.file, mem_eraseDups.2 (mem_map_of_mem (mem_of_getElem? there)), .inl member⟩
  obtain ⟨other, given⟩ := exists_lookup entry
  obtain ⟨before, after, whole, -⟩ := lookup_eq_some_iff.1 given
  have own : (id, other) ∈ (a.topLevelMessages n.file).zip (topGiven a n.file) := by
    have listed : (id, other) ∈ (names a).classes := by simp [whole]
    simp only [names, fileNames, mem_flatMap, mem_map, exists_exists_and_eq_and, mem_append] at listed
    obtain ⟨file', -, inside | ⟨q, -, inside⟩⟩ := listed
    · obtain ⟨n', there', -, -, rfl⟩ := Forest.mem_topLevelMessages.1 (of_mem_zip inside).1
      cases there.symm.trans there'
      exact inside
    · obtain ⟨n', there', parent⟩ := mem_nestedMessages (of_mem_zip inside).1
      cases there.symm.trans there'
      cases outermost.symm.trans parent
  rw [Names.className, given, eq_of_mem_zip (nodup_topLevelMessages a n.file) own member]

/-- The names of the outermost classes of a file. -/
def topClasses (a : Arena) (file : String) : List String :=
  (a.topLevelMessages file).filterMap fun id => ((names a).className id).toOption

lemma classNames_top (a : Arena) (file : String) :
    Forall₂ (fun id name => (names a).className id = .ok name) (a.topLevelMessages file) (topGiven a file) :=
  forall₂_iff_zip.2 ⟨(length_topGiven a file).symm, className_top⟩

lemma topClasses_eq (a : Arena) (file : String) : topClasses a file = topGiven a file := by
  have partners := classNames_top a file
  rw [topClasses]
  generalize a.topLevelMessages file = ids, topGiven a file = given at partners
  induction partners with
  | nil => rfl
  | cons first _ ih => rw [filterMap_cons, first, ← ih]; rfl

lemma nodup_topClasses (a : Arena) (file : String) : (reservedModuleNames ++ topClasses a file).Nodup := by
  obtain ⟨given, distinct, -⟩ := assignAll_given reservedModuleNames []
    ((a.topLevelMessages file).map fun id => ((a.node? id).map (·.name)).getD "")
  rw [topClasses_eq]
  refine nodup_append.2 ⟨by decide, distinct, ?_⟩
  rintro name fixed _ member rfl
  obtain ⟨_, -, own⟩ := exists_left_of_mem given member
  exact own.reserved fixed

/-! ## Modules and their aliases -/

namespace ModuleStyle

/-- The parts of a path are identifiers. -/
lemma isIdentifier_of_mem_parts {part : String} (member : part ∈ style.parts file) : IsIdentifier part := by
  unfold parts at member
  dsimp only at member
  obtain ⟨source, inside, rfl⟩ := mem_map.1 member
  have own : IsIdentifier source := by
    rcases mem_append.1 inside with directory | last
    · obtain ⟨x, -, rfl⟩ := mem_map.1 directory
      exact isIdentifier_identifier x
    · rw [mem_singleton.1 last]
      exact isIdentifier_identifier _
  by_cases keyword : keywords.contains source = true
  · have longer := own.padded 1
    rw [← padded_append, padded_zero] at longer
    rwa [if_pos keyword]
  · rwa [if_neg keyword]

lemma parts_ne_nil (style : ModuleStyle) (file : String) : style.parts file ≠ [] := by simp [parts]

/-- What is joined by a character that none of the parts has can be taken apart again. -/
lemma eq_of_intercalate {separator : Char} {parts parts' : List String}
    (free : ∀ part ∈ parts, separator ∉ part.toList) (free' : ∀ part ∈ parts', separator ∉ part.toList)
    (some : parts ≠ []) (some' : parts' ≠ [])
    (same : (String.singleton separator).intercalate parts = (String.singleton separator).intercalate parts') :
    parts = parts' := by
  have chars := congrArg (List.splitOn separator ∘ String.toList) same
  simp only [Function.comp_apply, String.toList_intercalate, String.toList_singleton] at chars
  rw [splitOn_intercalate _ (by simpa using free) (by simpa using some),
    splitOn_intercalate _ (by simpa using free') (by simpa using some')] at chars
  exact map_injective_iff.2 (fun _ _ => String.toList_injective) chars

/-- Modules have one name where their paths have the same parts. -/
lemma moduleName_eq_iff {file' : String} :
    style.moduleName file = style.moduleName file' ↔ style.parts file = style.parts file' := by
  have free : ∀ file, ∀ part ∈ style.parts file, '.' ∉ part.toList := by
    intro file part member dot
    have word := (isIdentifier_of_mem_parts member).word '.' dot
    exact absurd word (by decide)
  refine ⟨fun same => ?_, fun same => by rw [moduleName, same, ← moduleName]⟩
  have joined : ".".intercalate (style.parts file) = ".".intercalate (style.parts file') := by
    unfold moduleName at same
    dsimp only at same
    split at same
    · exact same
    · rw [String.intercalate_cons_of_ne_nil (parts_ne_nil _ _),
        String.intercalate_cons_of_ne_nil (parts_ne_nil _ _)] at same
      exact String.append_right_inj _ |>.1 same
  exact eq_of_intercalate (free file) (free file') (parts_ne_nil _ _) (parts_ne_nil _ _) joined

lemma toList_moduleAlias (style : ModuleStyle) (file : String) :
    (style.moduleAlias file).toList = '_' :: ("_".intercalate (style.parts file)).toList := by
  simp [moduleAlias]

/-- The alias of a module is that of the imported runtime only if the module is called `pw`. -/
lemma moduleAlias_eq_runtime_iff : style.moduleAlias file = "_pw" ↔ style.parts file = ["pw"] := by
  constructor
  · intro same
    have chars : ("_".intercalate (style.parts file)).toList = ['p', 'w'] := by
      have := congrArg String.toList same
      rwa [toList_moduleAlias, show "_pw".toList = ['_', 'p', 'w'] from rfl, List.cons.injEq,
        eq_self_iff_true, true_and] at this
    -- Two parts would have an underscore between them.
    cases parts : style.parts file with
    | nil => exact absurd parts (parts_ne_nil style file)
    | cons first rest =>
      cases rest with
      | nil =>
        rw [parts, String.intercalate_singleton] at chars
        rw [show first = "pw" from String.toList_injective chars]
      | cons =>
        have between : '_' ∈ ['p', 'w'] := by
          rw [← chars, parts]
          simp
        exact absurd between (by decide)
  · intro same
    rw [moduleAlias, same]
    decide

/-- No alias is one of the other fixed names. -/
lemma moduleAlias_mem_reserved_iff :
    style.moduleAlias file ∈ reservedModuleNames ↔ style.parts file = ["pw"] := by
  rw [← moduleAlias_eq_runtime_iff]
  constructor
  · intro member
    simp only [reservedModuleNames, mem_cons, not_mem_nil, or_false] at member
    rcases member with runtime | same | same
    · exact runtime
    all_goals
      have := congrArg (fun s => s.toList.head?) same
      rw [toList_moduleAlias, head?_cons] at this
      exact absurd this (by decide)
  · intro runtime
    rw [runtime]
    decide

end ModuleStyle

/-! ## The result -/

/-- The names bound at the top of a file's module: the fixed ones, its classes, and the aliases of the
modules that it depends on, one for each module. -/
def moduleNames (a : Arena) (style : ModuleStyle) (file : FileDecl) : List String :=
  reservedModuleNames ++ topClasses a file.name
    ++ (file.dependencies.map fun d => (style.moduleName d, style.moduleAlias d)).dedup.map (·.2)

/-- **When the names of a module are different.**  The names at the top of a module are different
exactly if dependencies whose paths have different parts never get the same alias, no dependency's
module is called `pw` and lies in no directory, and no outermost class is called like the alias of a
dependency. -/
theorem moduleNames_nodup_iff (a : Arena) (style : ModuleStyle) (file : FileDecl) :
    (moduleNames a style file).Nodup ↔ (∀ d ∈ file.dependencies, ∀ d' ∈ file.dependencies,
        style.moduleAlias d = style.moduleAlias d' → style.parts d = style.parts d')
      ∧ (∀ d ∈ file.dependencies, style.parts d ≠ ["pw"])
      ∧ ∀ d ∈ file.dependencies, style.moduleAlias d ∉ topClasses a file.name := by
  have aliases : ((file.dependencies.map fun d => (style.moduleName d, style.moduleAlias d)).dedup.map
        (·.2)).Nodup ↔ ∀ d ∈ file.dependencies, ∀ d' ∈ file.dependencies,
          style.moduleAlias d = style.moduleAlias d' → style.parts d = style.parts d' := by
    rw [nodup_map_iff_inj_on (nodup_dedup _)]
    simp only [mem_dedup, mem_map, forall_exists_index, and_imp, forall_apply_eq_imp_iff₂,
      Prod.mk.injEq, ModuleStyle.moduleName_eq_iff]
    exact forall₄_congr fun d _ d' _ => ⟨fun h same => (h same).1, fun h same => ⟨h same, same⟩⟩
  rw [moduleNames, nodup_append, aliases]
  simp only [nodup_topClasses, true_and, mem_append, mem_map, mem_dedup]
  refine and_congr_right fun _ => ?_
  constructor
  · intro apart
    refine ⟨fun d inside same => ?_, fun d inside same => ?_⟩
    · exact apart _ (.inl (ModuleStyle.moduleAlias_mem_reserved_iff.2 same)) _ ⟨_, ⟨d, inside, rfl⟩, rfl⟩ rfl
    · exact apart _ (.inr same) _ ⟨_, ⟨d, inside, rfl⟩, rfl⟩ rfl
  · rintro ⟨runtime, classes⟩ _ (fixed | own) _ ⟨_, ⟨d, inside, rfl⟩, rfl⟩ rfl
    · exact runtime d inside (ModuleStyle.moduleAlias_mem_reserved_iff.1 fixed)
    · exact classes d inside own

/-- A file that depends on two files in different directories. -/
def flattenedFile : FileDecl where
  name := "c.proto"
  dependencies := ["a/b.proto", "a_b.proto"]
  messages :=
    [{ name := "M"
       fields :=
        [{ name := "x", number := 1, type := .message, typeName := ".p.X" },
         { name := "y", number := 2, type := .message, typeName := ".q.Y" }] }]

def flattenedFiles : List FileDecl :=
  [{ name := "a/b.proto", package := "p", messages := [{ name := "X" }] },
   { name := "a_b.proto", package := "q", messages := [{ name := "Y" }] }, flattenedFile]

/-- The two modules have different names and one alias, so the second import takes the place of the
first. -/
theorem moduleNames_flattened :
    ∃ a, Arena.build flattenedFiles = .ok a ∧ ({} : ModuleStyle).moduleName "a/b.proto" = "a.b_msg"
      ∧ ({} : ModuleStyle).moduleName "a_b.proto" = "a_b_msg"
      ∧ moduleNames a {} flattenedFile = ["_pw", "copy", "types", "M", "_a_b_msg", "_a_b_msg"]
      ∧ ¬ (moduleNames a {} flattenedFile).Nodup := by
  obtain ⟨a, built⟩ := exists_of_isOk (show (Arena.build flattenedFiles).isOk = true by decide +kernel)
  have names : ((Arena.build flattenedFiles).toOption.map fun a => moduleNames a {} flattenedFile)
      = some ["_pw", "copy", "types", "M", "_a_b_msg", "_a_b_msg"] := by
    decide +kernel
  simp only [built, Except.toOption, Option.map_some, Option.some.injEq] at names
  refine ⟨a, built, by decide +kernel, by decide +kernel, names, ?_⟩
  rw [names]
  decide

end Missive.Naming
