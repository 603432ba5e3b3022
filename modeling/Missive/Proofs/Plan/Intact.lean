import Missive.Proofs.Naming.Module
import Missive.Proofs.Plan.Checks

/-!
# Schemas without defects

An accepted schema may have a defect that shows only when code is generated for it: a field that has no
message where one is needed, a message without a class, a map entry without a value, a default that
cannot be read.  Each defect has its own cause.  In an `Intact` schema there are none of these causes,
but for one: a map may be declared as a member of a oneof, where its entry would need a class
(`MapsApart`).  Without this, planning answers every question, and every file is compiled
(`compile_ok`).

A message has a class if it is outermost or no map entry (`Classed`).  Classes are referred to by the
names of all messages around theirs, so these have to have classes as well (`classed_of_mem_scope`).
-/

namespace Missive.Schema

/-- Can a text be read as the default of a type?  An enum has its first value for an unknown name. -/
def readsDefault (t : FieldType) (text : String) : Bool :=
  match t with
  | .string | .bool | .enum => true
  | .bytes => (Text.unescape text).isOk
  | .float | .double => (Text.readFloat? text).isSome
  | _ => (Text.readInt? text).isSome

namespace Forest

open Plan List

/-- A schema whose declarations can be used: message fields and groups name messages, and map entries
only if they are repeated message fields; map entries have a key and a value, and nothing is declared
inside them; the messages inside a message have different names; and defaults can be read. -/
@[mk_iff]
structure Intact (a : Arena) : Prop where
  types : ∀ id ∈ a.ids, ∀ m ∈ a.message? id, ∀ f ∈ m.fields, f.isMessage = true →
    ∃ t ∈ a.typeMessage? f, ∃ e ∈ a.message? t, e.mapEntry = true → f.isRepeated = true ∧ f.type = .message
  entries : ∀ id ∈ a.ids, ∀ e ∈ a.message? id, e.mapEntry = true → 2 ≤ e.fields.length
  flat : ∀ id ∈ a.ids, ∀ n ∈ a.node? id, ∀ q ∈ n.parent, ∀ e ∈ a.message? q, e.mapEntry = false
  apart : a.NestedApart
  defaults : ∀ id ∈ a.ids, ∀ m ∈ a.message? id, ∀ f ∈ m.fields, f.isMessage = false →
    ∀ text ∈ f.default, readsDefault f.type text = true

/-- No member of a oneof is a map. -/
def MapsApart (a : Arena) : Prop :=
  ∀ id ∈ a.ids, ∀ m ∈ a.message? id, ∀ f ∈ m.fields, (m.oneofOf f).isSome = true → a.classify f ≠ .ok .map

instance (a : Arena) : Decidable a.Intact := decidable_of_iff _ (intact_iff a).symm

instance (a : Arena) : Decidable a.MapsApart := by
  unfold MapsApart
  infer_instance

variable {a : Arena} {id : Nat} {m : Message} {f : Field}

/-! ## Fields -/

/-- The type of a message field, which is a map entry only if the field is a map. -/
def NamesMessage (a : Arena) (f : Field) : Prop :=
  ∃ t e, a.messageType f = .ok (t, e) ∧ a.message? t = some e ∧ (e.mapEntry = true → a.classify f = .ok .map)

lemma Intact.namesMessage (intact : a.Intact) (found : a.message? id = some m) (declared : f ∈ m.fields)
    (isMessage : f.isMessage = true) : a.NamesMessage f := by
  obtain ⟨t, type, e, content, use⟩ := intact.types id (Regular.mem_ids found) m found f declared isMessage
  have named : a.messageType f = .ok (t, e) := by
    obtain ⟨there, -⟩ := Option.filter_eq_some_iff.1 type
    simp only [messageType, there, show a.message? t = some e from content]
  refine ⟨t, e, named, content, fun entry => ?_⟩
  obtain ⟨many, kind⟩ := use entry
  simp [classify, isMap, many, kind, named, entry, bind, Except.bind, pure, Except.pure]

lemma answered_classify (typed : f.isMessage = true → a.NamesMessage f) : Answered (a.classify f) := by
  refine failsAs_bind ?_ fun isMap _ => ?_
  · unfold Forest.isMap
    split
    · obtain ⟨t, e, named, -⟩ := typed (by simp_all [Field.isMessage, FieldType.isScalar])
      exact failsAs_bind (failsAs_of_eq named) fun _ _ => failsAs_ok _
    · exact failsAs_ok _
  · repeat' split
    all_goals exact failsAs_ok _

lemma answered_readDefault {t : FieldType} {text : String} (reads : readsDefault t text = true) (other : t ≠ .enum) :
    Answered (readDefault t text) := by
  cases t with
  | enum => exact absurd rfl other
  | string | bool => exact failsAs_ok _
  | bytes =>
    obtain ⟨data, read⟩ := exists_of_isOk reads
    simp [readDefault, read, failsAs_ok]
  | _ =>
    obtain ⟨x, read⟩ := Option.isSome_iff_exists.1 reads
    simp [readDefault, read, failsAs_ok]

lemma Intact.answered_defaultOf (intact : a.Intact) (found : a.message? id = some m) (declared : f ∈ m.fields)
    (scalar : f.isMessage = false) : Answered (a.defaultOf f) := by
  unfold defaultOf
  split
  · exact failsAs_ok _
  · rename_i other
    cases given : f.default with
    | none => exact failsAs_ok _
    | some text =>
      have reads := intact.defaults id (Regular.mem_ids found) m found f declared scalar text given
      exact answered_readDefault reads (by simpa using other)

lemma Intact.exists_entryField (intact : a.Intact) (position : Nat) (low : position < 2)
    (isMap : a.classify f = .ok .map) :
    ∃ e g, (∃ t, a.message? t = some e) ∧ g ∈ e.fields ∧ a.entryField f position = .ok g := by
  obtain ⟨-, -, t, e, type, isEntry⟩ := classify_ok isMap
  have found := (messageType_ok type).2
  have bound := Nat.lt_of_lt_of_le low (intact.entries t (Regular.mem_ids found) e found isEntry)
  refine ⟨e, e.fields[position], ⟨t, found⟩, List.getElem_mem bound, ?_⟩
  simp only [entryField, type, bind, Except.bind, List.getElem?_eq_getElem bound]
  rfl

/-! ## Messages with classes -/

/-- A message that has a class: map entries have none unless they are outermost. -/
def Classed (a : Arena) (id : Nat) : Prop :=
  ∃ n m, a.node? id = some n ∧ a.message? id = some m ∧ (n.parent = none ∨ m.mapEntry = false)

lemma exists_message? {n : Node Message} (there : a.node? id = some n) (isMessage : n.isMessage = true) :
    ∃ m, a.message? id = some m := by
  simpa [message?, there, Node.isMessage, Option.isSome_iff_exists] using isMessage

lemma classed_of_plain (found : a.message? id = some m) (plain : m.mapEntry = false) : a.Classed id := by
  obtain ⟨n, there, -⟩ := Option.bind_eq_some_iff.1 found
  exact ⟨n, m, there, found, .inr plain⟩

/-- The messages around a message with a class have classes. -/
lemma classed_of_mem_scope (nested : a.Nested) (intact : a.Intact) {n : Node Message} (there : a.node? id = some n)
    (classed : a.Classed id) {q : Nat} (member : q ∈ n.scope) : a.Classed q := by
  induction id using Nat.strong_induction_on generalizing n with
  | _ id ih =>
    cases parent : n.parent with
    | none =>
      rw [nested.top id n there parent, List.mem_singleton] at member
      exact member ▸ classed
    | some outer =>
      obtain ⟨below, n', there', isMessage, -, scope⟩ := nested.parent id n outer there parent
      rw [scope, List.mem_append, List.mem_singleton] at member
      rcases member with inside | rfl
      · obtain ⟨m', found'⟩ := exists_message? there' isMessage
        have plain := intact.flat id (mem_ids_of_node? there) n there outer parent m' found'
        exact ih outer below there' (classed_of_plain found' plain) inside
      · exact classed

end Forest

end Missive.Schema

namespace Missive.Naming

open Schema Plan List

variable {a : Arena} {id : Nat} (nested : a.Nested) (intact : a.Intact)

include nested intact

lemma answered_className (classed : a.Classed id) : Answered ((names a).className id) := by
  obtain ⟨n, m, there, found, place⟩ := classed
  have isMessage : n.isMessage = true := by
    have := congrArg Option.isSome found
    simpa [Forest.message?, there, Node.isMessage] using this
  obtain ⟨name, named⟩ : ∃ name, (names a).className id = .ok name := by
    cases parent : n.parent with
    | none =>
      have top := Forest.mem_topLevelMessages.2 ⟨n, there, isMessage, parent, rfl⟩
      exact (exists_right_of_mem (classNames_top a n.file) top).imp fun _ => And.right
    | some q =>
      obtain ⟨-, n', there', isMessage', -⟩ := nested.parent id n q there parent
      obtain ⟨m', found'⟩ := Forest.exists_message? there' isMessage'
      have child := Forest.mem_children nested intact.apart (Forest.mem_messagesIn.2 ⟨n, there, isMessage, parent⟩)
      have inside : id ∈ a.nestedMessages q := by
        refine mem_filter.2 ⟨child, ?_⟩
        simp [found, place.resolve_left (by simp [parent])]
      exact (exists_right_of_mem (classNames_nested nested intact.apart found') inside).imp fun _ => And.right
  exact failsAs_of_eq named

lemma answered_qualifiedName (classed : a.Classed id) : Answered ((names a).qualifiedName a id) := by
  have ⟨n, _, there, _⟩ := classed
  unfold Names.qualifiedName
  rw [there]
  refine failsAs_bind (failsAs_mapM fun q inside => ?_) fun _ _ => failsAs_ok _
  exact answered_className nested intact (Forest.classed_of_mem_scope nested intact there classed inside)

end Missive.Naming

namespace Missive.Plan

open Schema Naming List

variable {s : Scene} {here : Standpoint} {id : Nat} {m : Message} {f : Field}
  (same : s.names = names s.arena) (nested : s.arena.Nested) (intact : s.arena.Intact)

section answers

include same nested intact

lemma answered_classRef (classed : s.arena.Classed id) : Answered (s.classRef here id) := by
  unfold Scene.classRef Names.reference
  rw [same]
  exact failsAs_bind (failsAs_bind (answered_qualifiedName nested intact classed) fun _ _ => failsAs_ok _)
    fun _ _ => failsAs_ok _

lemma answered_fieldRef (typed : s.arena.NamesMessage f) (other : s.arena.classify f ≠ .ok .map) :
    Answered (s.fieldRef here f) := by
  obtain ⟨t, e, type, found, entry⟩ := typed
  have plain : e.mapEntry = false := by simpa using mt entry other
  refine failsAs_bind (failsAs_of_eq type) fun _ answer => ?_
  cases type.symm.trans answer
  exact answered_classRef same nested intact (Forest.classed_of_plain found plain)

lemma answered_valueRef (isMap : s.arena.classify f = .ok .map) : Answered (s.valueRef here f) := by
  obtain ⟨e, value, ⟨t, found⟩, declared, valueIs⟩ := intact.exists_entryField 1 (by decide) isMap
  have typed := intact.namesMessage found declared
  refine failsAs_bind (failsAs_of_eq valueIs) fun _ answer => ?_
  cases valueIs.symm.trans answer
  refine failsAs_bind (Forest.answered_classify typed) fun kind classified => ?_
  split
  · rename_i isMessage
    obtain rfl := eq_of_beq isMessage
    refine failsAs_bind (answered_fieldRef same nested intact ?_ (by simp [classified])) fun _ _ => failsAs_ok _
    exact typed ((isMessage_of_classify classified).2 (by simp))
  · exact failsAs_ok _

variable (apart : s.arena.MapsApart)

include apart

/-- What is asked for the plan of a class is answered. -/
lemma replies_of_intact (found : s.arena.message? id = some m) (classed : s.arena.Classed id) :
    s.Replies (fun _ => False) id m where
  name := same ▸ answered_className nested intact classed
  scope := same ▸ failsAs_of_eq (exists_scope nested intact.apart found)
  fields here :=
    { kind := fun f declared => Forest.answered_classify (intact.namesMessage found declared)
      type := fun f declared isMessage place => by
        refine answered_fieldRef same nested intact (intact.namesMessage found declared isMessage) ?_
        exact place.elim (apart id (Forest.Regular.mem_ids found) m found f declared) fun other => other
      default := fun f declared scalar => intact.answered_defaultOf found declared scalar
      entry := fun f _ isMap => by
        obtain ⟨-, key, -, -, keyIs⟩ := intact.exists_entryField 0 (by decide) isMap
        obtain ⟨-, value, -, -, valueIs⟩ := intact.exists_entryField 1 (by decide) isMap
        exact ⟨answered_valueRef same nested intact isMap, failsAs_of_eq keyIs, failsAs_of_eq valueIs⟩ }
  qualified := same ▸ answered_qualifiedName nested intact classed
  own _ := answered_classRef same nested intact classed

/-- There are enough turns for what is nested, since it stands further down in the arena. -/
lemma runs_shell (threshold : s.options.threshold.isSome = true) (turns : Nat)
    (enough : s.arena.nodes.length < id + turns) (classed : s.arena.Classed id) :
    Runs (fun _ => False) (Informed s.arena) (shell s turns id) (Shell.Replies (fun _ => False) s) := by
  induction turns generalizing id with
  | zero =>
    obtain ⟨n, -, there, -⟩ := classed
    have := (List.getElem?_eq_some_iff.1 there).1
    omega
  | succ turns ih =>
    have ⟨n, m, there, found, _⟩ := classed
    obtain ⟨limit, limited⟩ := Option.isSome_iff_exists.1 threshold
    rw [shell, found, limited]
    refine (runs_ask (failsAs_ok _)).bind fun layout _ => ?_
    refine (runs_forIn fun f declared _ => ?_).bind fun _ _ => ?_
    · split
      · exact runs_asked (Forest.answered_classify (intact.namesMessage found declared)) (runs_pure trivial)
      · exact runs_pure trivial
    refine (runs_mapM (Q := fun _ => Shell.Replies (fun _ => False) s) fun c inside => ?_).bind fun shells replies => ?_
    · obtain ⟨child, plain⟩ := mem_filter.1 inside
      obtain ⟨n', there', parent⟩ := Forest.parent_of_mem_children child
      have below := (nested.parent c n' id there' parent).1
      obtain ⟨m', found', plain⟩ : ∃ m', s.arena.message? c = some m' ∧ m'.mapEntry = false := by
        cases found' : s.arena.message? c with
        | none => simp [found'] at plain
        | some m' => exact ⟨m', rfl, by simpa [found'] using plain⟩
      exact ih (by omega) (Forest.classed_of_plain found' plain)
    · refine (runs_note _).bind fun _ _ => runs_pure (.mk (replies_of_intact same nested intact apart found classed) ?_)
      intro sh member
      exact (exists_left_of_mem replies member).choose_spec.2

end answers

end Missive.Plan

namespace Missive.Compilation

open Schema Naming Plan

variable {k : Compilation} {files : List FileDecl}

/-- **Code is generated for every file** of a schema without defects, whatever the options are, and the compilation goes
on from there. -/
theorem compile_ok (built : Arena.build files = .ok k.arena) (given : k.names = Naming.names k.arena)
    (sound : k.memo.Sound k.arena) (intact : k.arena.Intact) (apart : k.arena.MapsApart)
    (threshold : k.options.threshold.isSome = true) (file : FileDecl) :
    ∃ output, (k.compile file).1 = .ok output ∧ output.path = k.options.style.modulePath file.name
      ∧ (k.compile file).2.2.memo.Sound k.arena := by
  have nested := nested_of_build built
  have planned : Runs (fun _ => False) (Informed k.arena) (planModule k.arena k.names k.options k.files file) fun module =>
      module.path = k.options.style.modulePath file.name := by
    unfold planModule
    refine (runs_mapM (Q := fun _ _ => True) fun id top => ?_).bind fun classes _ => runs_pure rfl
    obtain ⟨n, there, isMessage, parent, -⟩ := Forest.mem_topLevelMessages.1 top
    obtain ⟨m, found⟩ := Forest.exists_message? there isMessage
    intro p sound
    have shells := runs_shell (s := ⟨k.arena, k.names, k.options, k.files, file.name, file.dependencies⟩)
      given nested intact apart threshold (k.arena.nodes.length + 1) (by dsimp only; omega)
      ⟨n, m, there, found, .inl parent⟩ p sound
    obtain ⟨sh, p', run, sound', replies⟩ := Succeeds.exists_run shells
    refine ends_bind.2 ((ends_of_ok run).2 ?_)
    exact ((runs_planClass (shell_fits run) replies).mono fun _ _ => trivial) p' sound'
  obtain ⟨module, p, run, sound, path⟩ := Succeeds.exists_run (planned { memo := k.memo } sound)
  simp only [compile, plan, run]
  exact ⟨_, rfl, path, sound⟩

/-- Trees whose children have names, which may be a member of their oneof. -/
def treeFile (oneof : Option Nat) : FileDecl where
  name := "tree.proto"
  messages :=
    [{ name := "Tree"
       fields :=
        [{ name := "kids", number := 1, label := .repeated, type := .message, typeName := ".Tree.KidsEntry", oneof },
         { name := "leaf", number := 2, type := .message, typeName := "Leaf", oneof := some 0 },
         { name := "size", number := 3, type := .int32, default := some "-7" }]
       oneofs := ["content"]
       messages :=
        [{ name := "KidsEntry"
           fields :=
            [{ name := "key", number := 1, type := .string },
             { name := "value", number := 2, type := .message, typeName := ".Tree" }]
           mapEntry := true },
         { name := "Leaf" }] }]

theorem compile_ok_tree :
    ∃ a, Arena.build [treeFile none] = .ok a ∧ ∀ file, ∃ output, ((start a {}).compile file).1 = .ok output := by
  obtain ⟨a, built⟩ := exists_of_isOk (show (Arena.build [treeFile none]).isOk = true by decide +kernel)
  have checked : ((Arena.build [treeFile none]).toOption.all fun a => decide (a.Intact ∧ a.MapsApart)) = true := by
    decide +kernel
  obtain ⟨intact, apart⟩ : a.Intact ∧ a.MapsApart := by simpa [built, Except.toOption] using checked
  refine ⟨a, built, fun file => ?_⟩
  obtain ⟨output, compiled, -⟩ := compile_ok (k := start a {}) built rfl (RequiredMemo.sound_nil a) intact apart rfl file
  exact ⟨output, compiled⟩

/-- The accessors of a map in a oneof need the class of its entry, which there is not. -/
theorem compile_mapMember :
    ∃ a, Arena.build [treeFile (some 0)] = .ok a ∧ a.Intact
      ∧ ((start a {}).compile (treeFile (some 0))).1.map (·.path) = .error .unnamed := by
  have checked : ((Arena.build [treeFile (some 0)]).toOption.any fun a =>
      decide (a.Intact ∧ ((start a {}).compile (treeFile (some 0))).1.map (·.path) = .error .unnamed)) = true := by
    decide +kernel
  obtain ⟨a, built, fails⟩ := (Option.any_eq_true _ _).1 checked
  exact ⟨a, eq_ok_of_toOption built, of_decide_eq_true fails⟩

end Missive.Compilation
