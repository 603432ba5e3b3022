import Missive.Proofs.Schema.Narrow

/-!
# Schemas that are accepted

What is asked of a schema, in terms of its declarations alone: which names lead to which message or
enum (`Leads`), what a type name stands for (`StandsFor`) and what makes a message valid
(`MessageDecl.Valid`).

**Exactness.**  `build_iff_valid` says that building checks just that.  Each check decides its part of
it: it succeeds exactly if the part holds and complains otherwise (`Decides`), so the parts can be put
together along the program.
-/

namespace Missive.Schema

open List

variable {path : String} {enums : List EnumDecl} {messages : List MessageDecl} {found : Option MessageDecl}
  {files : List FileDecl} {a : Forest Draft}

/-! ## Declarations -/

/-- Names lead to a message, or to an enum, among some enums and messages and what the messages contain. -/
inductive Leads : List EnumDecl → List MessageDecl → List String → Option MessageDecl → Prop
  | enum {enums messages e} (member : e ∈ enums) : Leads enums messages [e.name] none
  | message {enums messages m} (member : m ∈ messages) : Leads enums messages [m.name] (some m)
  | inside {enums messages m names found} (member : m ∈ messages)
      (within : Leads m.enums m.messages names found) : Leads enums messages (m.name :: names) found

def FileDecl.fullName (f : FileDecl) (names : List String) : String :=
  ".".intercalate (if f.package.isEmpty then names else f.package :: names)

/-- Some files declare something with a full name: a message, or an enum. -/
def Declares (files : List FileDecl) (path : String) (found : Option MessageDecl) : Prop :=
  ∃ f ∈ files, ∃ names, Leads f.enums f.messages names found ∧ path = f.fullName names

/-- A node that has been collected for a declaration. -/
def Node.IsFor (n : Node Draft) (path : String) (found : Option MessageDecl) : Prop :=
  n.path = path ∧ n.message?.map (·.decl) = found

lemma Place.exists_enumNodes (p : Place) (id : Nat) (enums : List EnumDecl) :
    (∃ n ∈ p.enumNodes id enums, n.IsFor path found) ↔ found = none ∧ ∃ e ∈ enums, path = p.pathOf e.name := by
  simp only [Place.enumNodes, mem_mapIdx, Node.IsFor, Place.node, Node.message?]
  constructor
  · rintro ⟨n, ⟨i, bound, rfl⟩, rfl, rfl⟩
    exact ⟨rfl, _, getElem_mem bound, rfl⟩
  · rintro ⟨rfl, e, member, rfl⟩
    obtain ⟨i, bound, rfl⟩ := getElem_of_mem member
    exact ⟨_, ⟨i, bound, rfl⟩, rfl, rfl⟩

lemma Place.pathOf_eq (p : Place) (name : String) : p.pathOf name = p.file.fullName (p.names ++ [name]) := rfl

/-- What some names lead to is found by its first name. -/
lemma exists_leads (full : List String → String) :
    (∃ names, Leads enums messages names found ∧ path = full names) ↔ (found = none ∧ ∃ e ∈ enums, path = full [e.name])
        ∨ ∃ m ∈ messages, (path = full [m.name] ∧ found = some m)
          ∨ ∃ names, Leads m.enums m.messages names found ∧ path = full (m.name :: names) := by
  constructor
  · rintro ⟨names, leads, isPath⟩
    cases leads with
    | enum member => exact .inl ⟨rfl, _, member, isPath⟩
    | message member => exact .inr ⟨_, member, .inl ⟨isPath, rfl⟩⟩
    | inside member within => exact .inr ⟨_, member, .inr ⟨_, within, isPath⟩⟩
  · rintro (⟨rfl, e, member, isPath⟩ | ⟨m, member, ⟨isPath, rfl⟩ | ⟨names, within, isPath⟩⟩)
    · exact ⟨_, .enum member, isPath⟩
    · exact ⟨_, .message member, isPath⟩
    · exact ⟨_, .inside member within, isPath⟩

mutual

lemma Place.exists_messageNodes (p : Place) (id : Nat) : (m : MessageDecl) →
    ((∃ n ∈ p.messageNodes id m, n.IsFor path found) ↔ (path = p.pathOf m.name ∧ found = some m)
      ∨ ∃ names, Leads m.enums m.messages names found ∧ path = p.file.fullName (p.names ++ m.name :: names))
  | ⟨name, fields, oneofs, ranges, enums, messages, mapEntry⟩ => by
    rw [Place.messageNodes]
    simp only [mem_cons, mem_append, or_and_right, exists_or, exists_eq_left,
      Place.exists_enumNodes, Place.exists_messageListNodes _ _ messages,
      exists_leads fun names => p.file.fullName (p.names ++ name :: names)]
    simp [Node.IsFor, Place.node, Node.message?, Place.pathOf_eq, Place.within, eq_comm]

lemma Place.exists_messageListNodes (p : Place) (id : Nat) : (messages : List MessageDecl) →
    ((∃ n ∈ p.messageListNodes id messages, n.IsFor path found) ↔ ∃ m ∈ messages,
      (path = p.pathOf m.name ∧ found = some m)
      ∨ ∃ names, Leads m.enums m.messages names found ∧ path = p.file.fullName (p.names ++ m.name :: names))
  | [] => by simp [Place.messageListNodes]
  | m :: rest => by
    rw [Place.messageListNodes]
    simp only [mem_append, or_and_right, exists_or, Place.exists_messageNodes p id m,
      Place.exists_messageListNodes p _ rest, exists_mem_cons_iff]

end

def FileDecl.Known (f : FileDecl) : Prop := f.dialect = "" ∨ f.dialect = "proto2" ∨ f.dialect = "proto3"

lemma FileDecl.isProto3_cases (f : FileDecl) :
    (f.Known ∧ ∃ proto3, f.isProto3 = .ok proto3)
      ∨ ¬f.Known ∧ f.isProto3 = .error (.unknownDialect f.name f.dialect) := by
  unfold FileDecl.Known FileDecl.isProto3
  by_cases older : f.dialect = "" ∨ f.dialect = "proto2"
  · exact .inl ⟨by tauto, false, by simp [older]⟩
  by_cases newer : f.dialect = "proto3"
  · exact .inl ⟨by tauto, true, by simp [newer]⟩
  · exact .inr ⟨by tauto, by simp [older, newer]⟩

lemma FileDecl.nodes_cases (f : FileDecl) (id : Nat) :
    (f.Known ∧ ∃ nodes, f.nodes id = .ok nodes ∧ ∀ path found, (∃ n ∈ nodes, n.IsFor path found)
        ↔ ∃ names, Leads f.enums f.messages names found ∧ path = f.fullName names)
      ∨ ¬f.Known ∧ f.nodes id = .error (.unknownDialect f.name f.dialect) := by
  unfold FileDecl.nodes
  rcases f.isProto3_cases with ⟨known, proto3, isProto3⟩ | ⟨unknown, error⟩
  · refine .inl ⟨known, _, by rw [isProto3]; rfl, fun path found => ?_⟩
    simp only [mem_append, or_and_right, exists_or, Place.exists_enumNodes, Place.exists_messageListNodes,
      exists_leads f.fullName, Place.pathOf_eq]
    rfl
  · exact .inr ⟨unknown, by rw [error]; rfl⟩

/-- **Collecting.**  The nodes are those of the declarations, unless there is a file in an unknown dialect. -/
lemma collect_cases (files : List FileDecl) :
    ((∀ f ∈ files, f.Known) ∧ ∃ drafts, collect files = .ok drafts ∧ ∀ path found,
        (∃ n ∈ drafts.nodes, n.IsFor path found) ↔ Declares files path found)
      ∨ ∃ f ∈ files, ¬f.Known ∧ collect files = .error (.unknownDialect f.name f.dialect) := by
  have step : ∀ known : List (Node Draft), ((∀ f ∈ files, f.Known) ∧ ∃ nodes,
          files.foldlM (fun nodes f => do return nodes ++ (← f.nodes nodes.length)) known = .ok nodes
          ∧ ∀ path found, (∃ n ∈ nodes, n.IsFor path found)
            ↔ (∃ n ∈ known, n.IsFor path found) ∨ Declares files path found)
        ∨ ∃ f ∈ files, ¬f.Known ∧ files.foldlM (fun nodes f => do return nodes ++ (← f.nodes nodes.length)) known
            = .error (.unknownDialect f.name f.dialect) := by
    induction files with
    | nil => exact fun known => .inl ⟨by simp, known, rfl, by simp [Declares]⟩
    | cons f rest ih =>
      intro known
      rw [foldlM_cons]
      rcases f.nodes_cases known.length with ⟨isKnown, nodes, collected, nodes_iff⟩ | ⟨unknown, error⟩
      · have first : (do return known ++ (← f.nodes known.length))
            = (Except.ok (known ++ nodes) : Except Refusal _) := by
          rw [collected]
          rfl
        rw [first]
        rcases ih (known ++ nodes) with ⟨others, all, collected, all_iff⟩ | ⟨g, member, unknown, error⟩
        · refine .inl ⟨by simpa using ⟨isKnown, others⟩, all, collected, fun path found => ?_⟩
          simp only [all_iff, mem_append, or_and_right, exists_or, nodes_iff, Declares, exists_mem_cons_iff, or_assoc]
        · exact .inr ⟨g, .tail _ member, unknown, error⟩
      · exact .inr ⟨f, .head _, unknown, by rw [error]; rfl⟩
  unfold collect
  rcases step [] with ⟨known, nodes, collected, nodes_iff⟩ | ⟨f, member, unknown, error⟩
  · exact .inl ⟨known, ⟨nodes⟩, by rw [collected]; rfl, by simpa using nodes_iff⟩
  · exact .inr ⟨f, member, unknown, by rw [error]; rfl⟩

/-! ## Types -/

/-- A type name stands for a declaration, inside the message of a full name: for the one of that name
if it starts with a dot, and otherwise for one in the message or in something around it. -/
def StandsFor (files : List FileDecl) (message typeName : String) : Prop :=
  if typeName.startsWith "." then ∃ found, Declares files (Forest.withoutDots typeName) found
  else ∃ depth ≤ (Text.split '.' message).length, ∃ found, Declares files
      (Forest.withoutDots (".".intercalate ((Text.split '.' message).take depth ++ [typeName]))) found

lemma Forest.isSome_find? {name : String} :
    (a.find? name).isSome = true ↔ ∃ n ∈ a.nodes, n.path = Forest.withoutDots name := by
  simp only [Forest.find?, Forest.ids, find?_isSome, mem_reverse, mem_range, Forest.path, Forest.node?, beq_iff_eq]
  constructor
  · rintro ⟨id, bound, same⟩
    exact ⟨_, getElem_mem bound, by simpa [bound] using same⟩
  · rintro ⟨n, member, same⟩
    obtain ⟨id, bound, rfl⟩ := getElem_of_mem member
    exact ⟨id, bound, by simpa [bound] using same⟩

section types

variable (nodes : ∀ path found, (∃ n ∈ a.nodes, n.IsFor path found) ↔ Declares files path found)

include nodes

lemma Forest.isSome_find?_iff {name : String} :
    (a.find? name).isSome = true ↔ ∃ found, Declares files (Forest.withoutDots name) found := by
  simp [Forest.isSome_find?, ← nodes, Node.IsFor]

lemma Forest.isSome_resolve_iff {message typeName : String} :
    (a.resolve message typeName).isSome = true ↔ StandsFor files message typeName := by
  unfold Forest.resolve StandsFor
  split
  · exact Forest.isSome_find?_iff nodes
  · simp [Forest.resolveIn, findSome?_isSome_iff, Forest.isSome_find?_iff nodes]

lemma decides_resolveType {f : FieldDecl} :
    Decides (if f.typeName = "" then f.type ≠ .message ∧ f.type ≠ .group ∧ f.type ≠ .enum
      else StandsFor files path f.typeName) (resolveType a path f) := by
  unfold resolveType
  simp only [String.isEmpty_iff]
  split
  · split
    · exact decides_ok _ (by cases type : f.type <;> simp_all [FieldType.isScalar])
    · exact decides_invalid (by cases type : f.type <;> simp_all [FieldType.isScalar])
  · rw [← Forest.isSome_resolve_iff nodes]
    split
    · exact decides_ok _ (by simp [*])
    · exact decides_invalid (by simp [*])

end types

/-! ## Messages -/

/-- What is asked of a message with a full name among the declarations of some files. -/
structure MessageDecl.Valid (files : List FileDecl) (path : String) (m : MessageDecl) : Prop where
  positive : ∀ f ∈ m.fields, 0 < f.number
  distinct : (m.fields.map (·.number)).Nodup
  nonempty : ∀ r ∈ m.extensionRanges, 0 < r.1 ∧ r.1 < r.2
  disjoint : m.extensionRanges.Pairwise fun a b => ∀ n, a.1 ≤ n ∧ n < a.2 → ¬(b.1 ≤ n ∧ n < b.2)
  outside : ∀ f ∈ m.fields, ∀ r ∈ m.extensionRanges, ¬(r.1 ≤ f.number ∧ f.number < r.2)
  resolved : ∀ f ∈ m.fields, f.typeName ≠ "" → StandsFor files path f.typeName
  named : ∀ f ∈ m.fields, f.type = .message ∨ f.type = .group ∨ f.type = .enum → f.typeName ≠ ""
  indexed : ∀ f ∈ m.fields, ∀ i ∈ f.oneof, i < m.oneofs.length
  inhabited : ∀ i < m.oneofs.length, ∃ f ∈ m.fields, f.oneof = some (i : Int)

/-- No field counts its oneof from the end. -/
def MessageDecl.CountsForward (m : MessageDecl) : Prop := ∀ f ∈ m.fields, ∀ i ∈ f.oneof, 0 ≤ i

lemma Ranges.le_trans {a b c : Int × Int} : Ranges.le a b → Ranges.le b c → Ranges.le a c := by
  simp only [Ranges.le, Bool.or_eq_true, Bool.and_eq_true, decide_eq_true_eq, beq_iff_eq]
  omega

lemma Ranges.le_total (a b : Int × Int) : Ranges.le a b || Ranges.le b a := by
  simp only [Ranges.le, Bool.or_eq_true, Bool.and_eq_true, decide_eq_true_eq, beq_iff_eq]
  omega

/-- **One pass over the sorted ranges** is enough: in order, disjoint ranges are those that end where
the next one starts or before. -/
lemma decides_ranges {ranges : List (Int × Int)} :
    Decides ((∀ r ∈ ranges, 0 < r.1 ∧ r.1 < r.2)
        ∧ ranges.Pairwise fun a b => ∀ n, a.1 ≤ n ∧ n < a.2 → ¬(b.1 ≤ n ∧ n < b.2))
      (checkRanges path 0 (Ranges.ofList ranges).list) := by
  refine decides_checkRanges.congr ?_
  have sorted := @pairwise_sortBy _ Ranges.le (fun _ _ _ => Ranges.le_trans) Ranges.le_total ranges
  simp only [Ranges.ofList, mem_sortBy]
  rw [← (sortBy_perm Ranges.le ranges).pairwise_iff fun apart n there here => apart n here there]
  constructor
  · rintro ⟨each, ordered⟩
    exact ⟨fun r member => (each r member).2, ordered.imp fun before n => by omega⟩
  · rintro ⟨each, disjoint⟩
    refine ⟨fun r member => ⟨by have := each r member; omega, each r member⟩, ?_⟩
    refine (sorted.and disjoint).imp_of_mem fun {a b} first second both => ?_
    obtain ⟨le, apart⟩ := both
    have := apart b.1
    have := each b (by simpa using second)
    simp only [Ranges.le, Bool.or_eq_true, Bool.and_eq_true, decide_eq_true_eq, beq_iff_eq] at le
    omega

lemma decides_resolveOneof {count : Nat} {f : FieldDecl} (forward : ∀ i ∈ f.oneof, 0 ≤ i) :
    Decides (∀ i ∈ f.oneof, i < count) (resolveOneof path count f) := by
  unfold resolveOneof
  split
  · exact decides_ok _ (by simp [*])
  · rename_i index isOneof
    have := forward index isOneof
    split
    · exact decides_invalid (by simp [isOneof]; omega)
    · exact decides_ok _ (by simp [isOneof]; omega)

/-- Oneofs have members where their positions occur. -/
lemma allOneofs_iff {count : Nat} {decls : List FieldDecl} {fields : List Field} {proto3 mapEntry : Bool}
    {ranges : Ranges} {names : List String} (forward : ∀ f ∈ decls, ∀ i ∈ f.oneof, 0 ≤ i)
    (resolved : decls.mapM (resolveField a path count) = .ok fields) :
    (∀ o ∈ Message.allOneofs ⟨proto3, mapEntry, ranges, fields, names⟩, o.members ≠ [])
      ↔ ∀ i < names.length, ∃ f ∈ decls, f.oneof = some (i : Int) := by
  have member_iff : ∀ i : Nat, (∃ g ∈ fields, g.oneof = some i) ↔ ∃ f ∈ decls, f.oneof = some (i : Int) := by
    intro i
    have entries := mapM_ok resolved
    have position : ∀ f ∈ decls, f.position? count = some i ↔ f.oneof = some (i : Int) := by
      intro f member
      have := forward f member
      cases isOneof : f.oneof <;> simp_all [FieldDecl.position?]
      omega
    constructor
    · rintro ⟨g, member, same⟩
      obtain ⟨f, inside, made⟩ := exists_left_of_mem entries member
      obtain ⟨_, -, rfl⟩ := resolveField_eq made
      exact ⟨f, inside, (position f inside).1 same⟩
    · rintro ⟨f, member, same⟩
      obtain ⟨g, inside, made⟩ := exists_right_of_mem entries member
      obtain ⟨_, -, rfl⟩ := resolveField_eq made
      exact ⟨_, inside, (position f member).2 same⟩
  simp only [Message.allOneofs, mem_mapIdx, ← member_iff]
  constructor
  · intro all i bound
    simpa using all _ ⟨i, bound, rfl⟩
  · rintro all _ ⟨i, bound, rfl⟩
    simpa using all i bound

lemma decides_resolveMessage {d : Draft}
    (nodes : ∀ path found, (∃ n ∈ a.nodes, n.IsFor path found) ↔ Declares files path found)
    (forward : d.decl.CountsForward) :
    Decides (d.decl.Valid files path) (resolveMessage a path d) := by
  unfold resolveMessage
  refine (decides_checkNumbers.bind fun _ _ => decides_ranges.bind fun _ _ =>
    decides_checkOutside.bind fun _ _ => (decides_mapM fun f member => (decides_resolveType nodes).bind fun _ _ =>
      (decides_resolveOneof (forward f member)).bind fun _ _ => decides_ok _ trivial).bind
    fun fields resolved => (decides_checkOneofs.congr (allOneofs_iff forward resolved)).bind fun _ _ => decides_ok _ trivial).congr ?_
  constructor
  · rintro ⟨⟨positive, distinct⟩, ⟨nonempty, disjoint⟩, outside, fields, inhabited, -⟩
    refine ⟨fun f member => (positive f member).1, distinct, nonempty, disjoint, ?_, ?_, ?_,
      fun f member => (fields f member).2.1, inhabited⟩
    · simpa [Ranges.contains, Ranges.ofList, forall_mem_map] using outside
    · intro f member some
      simpa [some] using (fields f member).1
    · intro f member isNamed empty
      have := (fields f member).1
      simp_all
  · intro valid
    refine ⟨⟨fun f member => ⟨valid.positive f member, by simp⟩, valid.distinct⟩,
      ⟨valid.nonempty, valid.disjoint⟩, ?_, fun f member => ⟨?_, valid.indexed f member, trivial⟩, valid.inhabited, trivial⟩
    · simpa [Ranges.contains, Ranges.ofList, forall_mem_map] using valid.outside
    · split
      · have := valid.named f member
        grind
      · exact valid.resolved f member ‹_›

/-- The messages of files in known dialects decide what comes of them. -/
lemma build_cases (forward : ∀ path m, Declares files path (some m) → m.CountsForward) :
    ((∀ f ∈ files, f.Known) ∧ Decides (∀ path m, Declares files path (some m) → m.Valid files path) (Arena.build files))
      ∨ ∃ f ∈ files, ¬f.Known ∧ Arena.build files = .error (.unknownDialect f.name f.dialect) := by
  unfold Arena.build
  rcases collect_cases files with ⟨known, drafts, collected, nodes⟩ | ⟨f, member, unknown, refused⟩
  · refine .inl ⟨known, ?_⟩
    have resolves : Decides (∀ n ∈ drafts.nodes, ∀ d ∈ n.message?, d.decl.Valid files n.path)
        (drafts.nodes.mapM (resolveNode drafts)) := by
      refine decides_mapM fun n member => ?_
      have isFor : n.IsFor n.path (n.message?.map (·.decl)) := ⟨rfl, rfl⟩
      unfold resolveNode
      cases body : n.body with
      | enum => exact decides_ok _ (by simp [Node.message?, body])
      | message d =>
        have isMessage : n.message? = some d := by simp [Node.message?, body]
        rw [isMessage] at isFor
        have counts := forward _ _ ((nodes _ _).1 ⟨n, member, isFor⟩)
        exact ((decides_resolveMessage nodes counts).bind fun _ _ => decides_ok _ trivial).congr (by simp [isMessage])
    rw [collected]
    refine (resolves.bind fun _ _ => decides_ok _ trivial).congr ?_
    simp only [← nodes, Node.IsFor, and_true]
    constructor
    · rintro all _ m ⟨n, member, rfl, isMessage⟩
      obtain ⟨d, found, rfl⟩ := Option.map_eq_some_iff.1 isMessage
      exact all n member d found
    · intro all n member d found
      exact all _ _ ⟨n, member, rfl, by simp [Option.mem_def.1 found]⟩
  · exact .inr ⟨f, member, unknown, by rw [refused]; rfl⟩

/-- **Schemas are checked exactly.**  If no oneof is counted from the end, files make an arena exactly
if their dialects are known and their messages are valid.  Otherwise a file is refused for its
dialect, if there is a reason to, or a message is. -/
theorem build_iff_valid (forward : ∀ path m, Declares files path (some m) → m.CountsForward) :
    ((∃ a, Arena.build files = .ok a)
        ↔ (∀ f ∈ files, f.Known) ∧ ∀ path m, Declares files path (some m) → m.Valid files path)
      ∧ ((∃ f ∈ files, ¬f.Known) →
        ∃ f ∈ files, ¬f.Known ∧ Arena.build files = .error (.unknownDialect f.name f.dialect))
      ∧ ((∀ f ∈ files, f.Known) → (∃ path m, Declares files path (some m) ∧ ¬m.Valid files path) →
        ∃ complaint message field, Arena.build files = .error (.invalid complaint message field)) := by
  rcases build_cases forward with ⟨known, ⟨valid, built⟩ | ⟨invalid, refused⟩⟩ | ⟨f, member, unknown, refused⟩
  · refine ⟨⟨fun _ => ⟨known, valid⟩, fun _ => built⟩, ?_, ?_⟩
    · rintro ⟨f, member, unknown⟩
      exact absurd (known f member) unknown
    · rintro - ⟨path, m, declared, invalid⟩
      exact absurd (valid path m declared) invalid
  · refine ⟨⟨?_, fun all => absurd all.2 invalid⟩, ?_, fun _ _ => refused⟩
    · rintro ⟨a, built⟩
      obtain ⟨_, _, _, refused⟩ := refused
      cases built.symm.trans refused
    · rintro ⟨f, member, unknown⟩
      exact absurd (known f member) unknown
  · refine ⟨⟨?_, fun all => absurd (all.1 f member) unknown⟩, fun _ => ⟨f, member, unknown, refused⟩,
      fun known => absurd (known f member) unknown⟩
    rintro ⟨a, built⟩
    cases built.symm.trans refused

/-- The ranges are not in order, and the type of the field is declared inside its message. -/
def scopedFiles : List FileDecl :=
  [{ name := "a.proto", package := "p", messages := [
    { name := "M", fields := [{ name := "x", number := 1, type := .message, typeName := "N", oneof := some 0 }]
      oneofs := ["o"], extensionRanges := [(5, 8), (2, 5)], messages := [{ name := "N" }] }] }]

theorem build_iff_valid_scoped :
    (∀ path m, Declares scopedFiles path (some m) → m.CountsForward)
      ∧ ∀ path m, Declares scopedFiles path (some m) → m.Valid scopedFiles path := by
  have forward : ∀ path m, Declares scopedFiles path (some m) → m.CountsForward := by
    rintro path m ⟨f, member, names, leads, -⟩
    obtain rfl := mem_singleton.1 member
    cases leads with
    | message member =>
      obtain rfl := mem_singleton.1 member
      simp [MessageDecl.CountsForward]
    | inside member within =>
      obtain rfl := mem_singleton.1 member
      cases within with
      | message member =>
        obtain rfl := mem_singleton.1 member
        simp [MessageDecl.CountsForward]
      | inside member within =>
        obtain rfl := mem_singleton.1 member
        cases within <;> contradiction
  have able : (Arena.build scopedFiles).isOk = true := by decide +kernel
  exact ⟨forward, ((build_iff_valid forward).1.1 (exists_of_isOk able)).2⟩

end Missive.Schema
