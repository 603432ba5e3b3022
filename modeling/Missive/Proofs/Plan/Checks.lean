import Missive.Proofs.Plan.Regular
import Missive.Proofs.Schema.Required

/-!
# The checks of a plan

The plan of a class lists what its completeness check has to look at.  `ChecksFor` says which checks
these are, and what is behind a check that was left out: a field that leads to free messages only.

Planning a class may use answers about required fields that were found while other classes were
planned, so the memo is an invariant of planning (`Keeps`); what was planned in between does not matter
otherwise.
-/

namespace Missive.Plan

open Schema Naming List

/-! ## Which checks there are -/

def LeadsFree (a : Arena) (f : Field) : Prop := ∀ next ∈ a.typeMessage? f, a.Free next

/-- The check for the messages in a field that is in no oneof, if there is one. -/
inductive NestedFor (a : Arena) (m : Message) (f : Field) : Option Check → Prop
  | scalar (type : f.isMessage = false) : NestedFor a m f none
  | free (free : LeadsFree a f) : NestedFor a m f none
  | scalars {value : Field} (isMap : a.classify f = .ok .map) (second : a.valueField f = .ok value)
      (type : value.isMessage = false) : NestedFor a m f none
  | eachValue {value : Field} (isMap : a.classify f = .ok .map) (second : a.valueField f = .ok value)
      (type : value.isMessage = true) :
      NestedFor a m f (some (.eachValue (slotIndex m (.field f.number))))
  | each (type : f.isMessage = true) (plain : a.classify f ≠ .ok .map) (many : f.isRepeated = true) :
      NestedFor a m f (some (.each (slotIndex m (.field f.number))))
  | nested (type : f.isMessage = true) (single : f.isRepeated = false) :
      NestedFor a m f (some (.nested (slotIndex m (.field f.number))))

/-- The check for the message in a oneof, if there is one. -/
inductive ActiveFor (a : Arena) (m : Message) (o : Oneof) : Option Check → Prop
  | free (free : ∀ f ∈ o.members, f.isMessage = true → LeadsFree a f) : ActiveFor a m o none
  | active {numbers : List Int} (asked : ∀ number ∈ numbers, ∃ f ∈ o.members, f.number = number ∧ f.isMessage = true)
      (others : ∀ f ∈ o.members, f.isMessage = true → f.number ∈ numbers ∨ LeadsFree a f) :
      ActiveFor a m o (some (.active (slotIndex m (.oneof o.index)) numbers))

/-- The required fields that are in no oneof.  In the newer dialect there are none. -/
def requiredFields (m : Message) : List Field :=
  if m.proto3 then [] else (plainFields m).filter (·.isRequired)

lemma mem_plainFields {m : Message} {f : Field} : f ∈ plainFields m ↔ f ∈ m.fields ∧ m.oneofOf f = none := by
  simp [plainFields]

lemma mem_requiredFields {m : Message} {f : Field} :
    f ∈ requiredFields m ↔ m.proto3 = false ∧ f ∈ m.fields ∧ m.oneofOf f = none ∧ f.isRequired = true := by
  unfold requiredFields
  split
  · simp_all
  · simp_all [mem_plainFields, and_assoc]

/-- The checks of a message: its required fields, then the messages in its fields and its oneofs. -/
def ChecksFor (a : Arena) (m : Message) (checks : List Check) : Prop :=
  ∃ nested active, Forall₂ (NestedFor a m) (plainFields m) nested ∧ Forall₂ (ActiveFor a m) m.oneofs active
    ∧ checks = (requiredFields m).map (fun f => .set (slotIndex m (.field f.number)))
      ++ nested.filterMap id ++ active.filterMap id

/-! ## Planning them -/

section planning

variable {s : Scene}

variable {a : Arena} {m : Message}

/-- What planning keeps: remembered answers are right. -/
abbrev Informed (a : Arena) (p : Progress) : Prop := p.memo.Sound a

section questions

variable {α β : Type} {E : Defect → Prop} {I : Progress → Prop} {here : Standpoint}

/-- A question that is answered or fails as `E` says. -/
def FailsAs (E : Defect → Prop) (fact : Except Defect α) : Prop := ∀ d, fact = .error d → E d

/-- A question that is answered. -/
abbrev Answered (fact : Except Defect α) : Prop := FailsAs (fun _ => False) fact

lemma failsAs_ok (x : α) : FailsAs E (.ok x) := nofun

lemma failsAs_of_eq {fact : Except Defect α} {x : α} (h : fact = .ok x) : FailsAs E fact := h ▸ failsAs_ok x

lemma failsAs_bind {x : Except Defect α} {f : α → Except Defect β} (first : FailsAs E x)
    (later : ∀ a, x = .ok a → FailsAs E (f a)) : FailsAs E (x >>= f) := by
  cases x with
  | ok a => exact later a rfl
  | error d =>
    intro d' same
    cases same
    exact first d rfl

lemma failsAs_mapM {f : α → Except Defect β} {l : List α} (each : ∀ a ∈ l, FailsAs E (f a)) : FailsAs E (l.mapM f) := by
  induction l with
  | nil => exact failsAs_ok []
  | cons a rest ih =>
    rw [mapM_cons]
    refine failsAs_bind (each a (.head _)) fun _ _ => ?_
    exact failsAs_bind (ih fun a later => each a (.tail _ later)) fun _ _ => failsAs_ok _

lemma failsAs_filterMapM {f : α → Except Defect (Option β)} {l : List α} (each : ∀ a ∈ l, FailsAs E (f a)) :
    FailsAs E (l.filterMapM f) := by
  induction l with
  | nil => exact failsAs_ok []
  | cons a rest ih =>
    rw [filterMapM_cons]
    have rest := ih fun a later => each a (.tail _ later)
    refine failsAs_bind (each a (.head _)) fun o _ => ?_
    cases o with
    | none => exact rest
    | some => exact failsAs_bind rest fun _ _ => failsAs_ok _

lemma runs_ask {fact : Except Defect α} (h : FailsAs E fact) : Runs E I (ask fact) fun x => fact = .ok x := by
  cases fact with
  | ok => exact runs_pure rfl
  | error d => exact runs_throw (h d rfl)

/-- A question whose answer does not matter. -/
lemma runs_asked {fact : Except Defect α} (h : FailsAs E fact) {next : Planning β} {Q : β → Prop}
    (later : Runs E I next Q) : Runs E I (do let _ ← ask fact; next) Q :=
  (runs_ask h).bind fun _ _ => later

/-- What is asked about the fields of a message fails only as `E` says. -/
structure Scene.Answers (E : Defect → Prop) (s : Scene) (here : Standpoint) (m : Message) : Prop where
  kind : ∀ f ∈ m.fields, FailsAs E (s.arena.classify f)
  type : ∀ f ∈ m.fields, f.isMessage = true → (m.oneofOf f).isSome = true ∨ s.arena.classify f ≠ .ok .map →
    FailsAs E (s.fieldRef here f)
  default : ∀ f ∈ m.fields, f.isMessage = false → FailsAs E (s.arena.defaultOf f)
  entry : ∀ f ∈ plainFields m, s.arena.classify f = .ok .map →
    FailsAs E (s.valueRef here f) ∧ FailsAs E (s.arena.keyField f) ∧ FailsAs E (s.arena.valueField f)

/-- What is asked for the plan of a message's class fails only as `E` says. -/
structure Scene.Replies (E : Defect → Prop) (s : Scene) (id : Nat) (m : Message) : Prop where
  name : FailsAs E (s.names.className id)
  scope : FailsAs E (s.names.scope id)
  fields : ∀ here, s.Answers E here m
  qualified : FailsAs E (s.names.qualifiedName s.arena id)
  own : ∀ here, FailsAs E (s.classRef here id)

/-- The same for a shell and those inside it. -/
inductive Shell.Replies (E : Defect → Prop) (s : Scene) : Shell → Prop
  | mk {id : Nat} {m : Message} {layout : Layout} {nested : List Shell} (own : s.Replies E id m)
      (inside : ∀ sh ∈ nested, sh.Replies E s) : Shell.Replies E s (.mk id m layout nested)

lemma Shell.Fits.replies {sh : Shell} (fits : sh.Fits a) : sh.Replies (fun _ => True) s := by
  induction fits with
  | mk _ _ _ inside =>
    refine .mk ?_ inside
    constructor
    case fields => exact fun here => by constructor <;> simp [FailsAs]
    all_goals simp [FailsAs]

lemma isMessage_of_classify {f : Field} {kind : FieldClass} (h : a.classify f = .ok kind) :
    f.isMessage = true ↔ kind ≠ .scalar := by
  have facts := classify_ok h
  cases kind with
  | map => simp [Field.isMessage, facts.2.1, FieldType.isScalar]
  | scalar => simp [Field.isMessage, show f.type.isScalar = true from facts]
  | group => simp [Field.isMessage, show f.type = .group from facts, FieldType.isScalar]
  | message => simp [Field.isMessage, show f.type = .message from facts, FieldType.isScalar]

lemma runs_askOneofs (answers : s.Answers E here m) : Runs E I (askOneofs s here m) fun _ => True := by
  unfold askOneofs
  refine Runs.bind (runs_forIn fun o isOneof _ => ?_) fun _ _ => runs_pure trivial
  refine Runs.bind (runs_forIn fun f member _ => ?_) fun _ _ => runs_pure trivial
  obtain ⟨declared, of⟩ := (mem_members_iff isOneof).1 ((mem_sortBy _).1 member)
  have inside : (m.oneofOf f).isSome = true := by rw [of]; rfl
  refine (runs_ask (answers.kind f declared)).bind fun kind classified => ?_
  have isMessage := isMessage_of_classify classified
  split
  · exact runs_asked (answers.type f declared (isMessage.2 (by simp)) (.inl inside)) (runs_pure trivial)
  · exact runs_asked (answers.type f declared (isMessage.2 (by simp)) (.inl inside)) (runs_pure trivial)
  · exact runs_pure trivial

lemma runs_askInitials (answers : s.Answers E here m) (id : Nat) : Runs E I (askInitials s id m) fun _ => True := by
  unfold askInitials
  split
  · refine Runs.bind (runs_forIn fun f member _ => ?_) fun _ _ => runs_pure trivial
    split
    · rename_i plain
      have scalar : f.isMessage = false := by simp_all
      exact runs_asked (answers.default f (mem_filter.1 member).1 scalar) (runs_pure trivial)
    · exact runs_pure trivial
  · exact runs_pure trivial

lemma runs_askAccessors (answers : s.Answers E here m) : Runs E I (askAccessors s here m) fun _ => True := by
  unfold askAccessors
  refine Runs.bind (runs_forIn fun f declared _ => ?_) fun _ _ => runs_pure trivial
  split
  · rename_i inside
    split
    · rename_i isMessage
      exact runs_asked (answers.type f declared isMessage (.inl inside)) (runs_pure trivial)
    · rename_i scalar
      exact runs_asked (answers.default f declared (by simpa using scalar)) (runs_pure trivial)
  · refine (runs_ask (answers.kind f declared)).bind fun kind classified => ?_
    have isMessage := isMessage_of_classify classified
    split
    · exact runs_pure trivial
    · split
      · exact runs_asked (answers.default f declared (by simpa using isMessage)) (runs_pure trivial)
      · exact runs_pure trivial
    · rename_i notMap notScalar
      refine runs_asked (answers.type f declared (isMessage.2 notScalar) (.inr fun isMap => ?_)) (runs_pure trivial)
      exact notMap (Except.ok.inj (classified.symm.trans isMap))

lemma runs_askDecoder (answers : s.Answers E here m) : Runs E I (askDecoder s here m) fun _ => True := by
  unfold askDecoder
  refine Runs.bind (runs_forIn fun f member _ => ?_) fun _ _ => runs_pure trivial
  rw [sortFields, mem_sortBy] at member
  refine (runs_ask (answers.kind f (mem_filter.1 member).1)).bind fun kind classified => ?_
  split
  · rename_i isMap
    obtain ⟨value, key, -⟩ := answers.entry f member (by rw [classified, eq_of_beq isMap])
    exact runs_asked value (runs_asked key (runs_pure trivial))
  · exact runs_pure trivial

lemma Scene.Answers.fieldKind (answers : s.Answers E here m) {f : Field} (plain : f ∈ plainFields m) :
    FailsAs E (s.fieldKind here m f) := by
  have declared := (mem_plainFields.1 plain).1
  refine failsAs_bind (answers.kind f declared) fun kind classified => ?_
  have isMessage := isMessage_of_classify classified
  cases kind with
  | map =>
    obtain ⟨ref, key, value⟩ := answers.entry f plain classified
    exact failsAs_bind key fun _ _ => failsAs_bind value fun _ _ => failsAs_bind ref fun _ _ => failsAs_ok _
  | group | message =>
    have ref := answers.type f declared (isMessage.2 (by simp)) (.inr (by simp [classified]))
    dsimp only
    split <;> exact failsAs_bind ref fun _ _ => failsAs_ok _
  | scalar =>
    have default := answers.default f declared (by simpa using isMessage)
    dsimp only
    split
    · exact failsAs_ok _
    · exact failsAs_bind default fun _ _ => failsAs_ok _

lemma failsAs_memberKind (answers : ∀ here, s.Answers E here m) {f : Field} (declared : f ∈ m.fields)
    (inside : (m.oneofOf f).isSome = true) (oneofClass : String) : FailsAs E (s.memberKind here oneofClass f) := by
  refine failsAs_bind ((answers here).kind f declared) fun kind classified => ?_
  have isMessage := isMessage_of_classify classified
  have ref := fun type here => (answers here).type f declared (isMessage.2 type) (.inl inside)
  cases kind with
  | map => exact failsAs_bind (ref (by simp) _) fun _ _ => failsAs_ok _
  | group | message =>
    exact failsAs_bind (ref (by simp) _) fun _ _ => failsAs_bind (ref (by simp) _) fun _ _ => failsAs_ok _
  | scalar =>
    exact failsAs_bind ((answers here).default f declared (by simpa using isMessage)) fun _ _ => failsAs_ok _

lemma failsAs_planOneofs (answers : ∀ here, s.Answers E here m) (names : ScopeNames) :
    FailsAs E (m.oneofs.zipIdx.mapM fun (o, position) => do
      return (o.index, ← planOneof s here m names position o)) := by
  refine failsAs_mapM fun (o, position) paired => failsAs_bind ?_ fun _ _ => failsAs_ok _
  have isOneof : o ∈ m.oneofs := (mem_zipIdx paired).2.2 ▸ getElem_mem _
  refine failsAs_bind (failsAs_filterMapM fun (f, name) member => ?_) fun _ _ => failsAs_ok _
  dsimp only
  split
  · rename_i own
    have inside : (m.oneofOf f).isSome = true := by rw [oneofOf_of_mem isOneof (by simpa using own)]; rfl
    exact failsAs_bind (failsAs_memberKind answers (of_mem_zip member).1 inside _) fun _ _ => failsAs_ok _
  · exact failsAs_ok _

lemma failsAs_planDeclared (answers : s.Answers E here m) (names : ScopeNames) (oneofs : List (Nat × OneofPlan)) :
    FailsAs E (planDeclared s here m names oneofs) := by
  refine failsAs_filterMapM fun (f, position) paired => ?_
  have declared : f ∈ m.fields := (mem_zipIdx paired).2.2 ▸ getElem_mem _
  dsimp only [planDeclaredField]
  split
  · rename_i plain
    refine failsAs_bind (failsAs_bind (answers.fieldKind (mem_plainFields.2 ⟨declared, plain⟩)) fun _ _ => ?_) fun _ _ => ?_
    all_goals exact failsAs_ok _
  · split <;> exact failsAs_ok _

end questions

variable {E : Defect → Prop}

lemma runs_leadsToRequired (f : Field) : Runs E (Informed s.arena) (leadsToRequired s f) fun answer =>
      answer = false → LeadsFree s.arena f := by
  unfold leadsToRequired LeadsFree
  cases target : s.arena.typeMessage? f with
  | none => exact runs_pure (by simp)
  | some id =>
    intro p sound
    obtain ⟨right, kept⟩ := hasRequired_sound sound id
    refine ⟨kept, fun negative next same needs => ?_⟩
    obtain rfl : id = next := by simpa using same
    exact Bool.false_ne_true (negative.symm.trans (right.2 needs))

lemma runs_nestedCheck {here : Standpoint} (answers : s.Answers E here m) {f : Field} (plain : f ∈ plainFields m) :
    Runs E (Informed s.arena) (nestedCheck s (fun number => slotIndex m (.field number)) f) (NestedFor s.arena m f) := by
  unfold nestedCheck
  by_cases type : f.isMessage = true
  · simp only [type, Bool.not_true, Bool.false_eq_true, if_false]
    refine (runs_leadsToRequired f).bind fun leads free => ?_
    cases leads with
    | false => exact runs_pure (.free (free rfl))
    | true =>
      simp only [Bool.not_true, Bool.false_eq_true, if_false]
      refine (runs_ask (answers.kind f (mem_plainFields.1 plain).1)).bind fun kind classified => ?_
      split
      · refine (runs_ask (answers.entry f plain classified).2.2).bind fun value second => ?_
        split
        · exact runs_pure (.eachValue classified second ‹_›)
        · rename_i scalar
          exact runs_pure (.scalars classified second (by simpa using scalar))
      · rename_i other
        split
        · rename_i many
          exact runs_pure (.each type (fun isMap => other (Except.ok.inj (classified.symm.trans isMap))) many)
        · rename_i single
          exact runs_pure (.nested type (by simpa using single))
  · simp only [type, Bool.not_false, if_true]
    exact runs_pure (.scalar (by simpa using type))

lemma runs_oneofCheck (o : Oneof) :
    Runs E (Informed s.arena) (oneofCheck s (fun index => slotIndex m (.oneof index)) o) (ActiveFor s.arena m o) := by
  have member : ∀ f ∈ o.members, Runs E (Informed s.arena)
      (if f.isMessage then leadsToRequired s f else pure false) fun answer =>
        (answer = true → f.isMessage = true) ∧ (answer = false → f.isMessage = true → LeadsFree s.arena f) := by
    intro f _
    split
    · rename_i type
      exact (runs_leadsToRequired f).mono fun answer free => ⟨fun _ => type, fun no _ => free no⟩
    · rename_i type
      exact runs_pure ⟨by simp, fun _ isMessage => absurd isMessage type⟩
  unfold oneofCheck
  refine (runs_filterM member).bind fun kept ends => ?_
  obtain ⟨chosen, all⟩ := ends
  have others : ∀ f ∈ o.members, f.isMessage = true → f ∈ kept ∨ LeadsFree s.arena f :=
    fun f inside type => (all f inside).imp id fun no => no.2 rfl type
  split
  · rename_i empty
    have empty : kept = [] := by simpa using empty
    exact runs_pure (.free fun f inside type => (others f inside type).resolve_left (by simp [empty]))
  · refine runs_pure (.active (fun number inside => ?_) fun f inside type => ?_)
    · obtain ⟨f, isKept, rfl⟩ := mem_map.1 inside
      exact ⟨f, (chosen f isKept).1, rfl, (chosen f isKept).2.1 rfl⟩
    · exact (others f inside type).imp mem_map_of_mem id

lemma runs_planChecks {here : Standpoint} (answers : s.Answers E here m) :
    Runs E (Informed s.arena) (planChecks s m (fun number => slotIndex m (.field number))
      fun index => slotIndex m (.oneof index)) (ChecksFor s.arena m) := by
  unfold planChecks
  refine (runs_filterMapM fun f plain => runs_nestedCheck answers plain).bind fun nested nestedAre => ?_
  refine (runs_filterMapM fun o _ => runs_oneofCheck (m := m) o).bind fun active activeAre => ?_
  obtain ⟨nested, nestedFor, rfl⟩ := nestedAre
  obtain ⟨active, activeFor, rfl⟩ := activeAre
  exact runs_pure ⟨nested, active, nestedFor, activeFor, rfl⟩

/-! ## Planning the rest -/

lemma runs_note (text : String) : Runs E (Informed a) (note text) fun _ => True :=
  fun _ sound => ⟨sound, trivial⟩

lemma keeps_shell (turns id : Nat) : Keeps (Informed s.arena) (shell s turns id) fun _ => True := by
  induction turns generalizing id with
  | zero => exact runs_throw trivial
  | succ turns ih =>
    rw [shell]
    split
    · exact runs_throw trivial
    · refine (runs_ask fun _ _ => trivial).bind fun layout _ => ?_
      refine (runs_forIn fun f _ _ => ?_).bind fun _ _ => ?_
      · split
        · exact runs_asked (fun _ _ => trivial) (runs_pure trivial)
        · exact runs_pure trivial
      · refine (runs_mapM (Q := fun _ _ => True) fun id _ => ih id).bind fun nested _ => ?_
        exact (runs_note _).bind fun _ _ => runs_pure trivial

/-- What is checked in a class is what its message asks for. -/
def ClassPlan.Checked (a : Arena) (c : ClassPlan) : Prop :=
  ∀ m ∈ a.message? c.id, ChecksFor a m c.checks

mutual

/-- The checks of a class, and of all classes inside it. -/
lemma runs_planClass : ∀ {sh : Shell}, sh.Fits s.arena → sh.Replies E s →
    Runs E (Informed s.arena) (planClass s sh) fun c => ∀ d ∈ c.flatten, d.Checked s.arena
  | .mk id m layout shells, .mk found _ inside, .mk replies answered => by
    have answers := replies.fields
    rw [planClass]
    refine (runs_ask replies.name).bind fun name _ => ?_
    refine (runs_ask replies.scope).bind fun names _ => ?_
    refine (runs_askOneofs (answers _)).bind fun _ _ => ?_
    refine (runs_planClasses inside answered).bind fun nested nestedAre => ?_
    refine (runs_askInitials (answers ⟨id, name⟩) id).bind fun _ _ => ?_
    refine (runs_askAccessors (answers _)).bind fun _ _ => ?_
    refine (runs_planChecks (answers ⟨id, name⟩)).bind fun checks checksFor => ?_
    refine (runs_askDecoder (answers _)).bind fun _ _ => ?_
    refine (runs_ask (failsAs_planOneofs answers names)).bind fun oneofs _ => ?_
    refine (runs_ask (failsAs_planDeclared (answers _) names oneofs)).bind fun declared _ => ?_
    refine (runs_ask replies.qualified).bind fun qualified _ => ?_
    refine (runs_ask (replies.own _)).bind fun own _ => runs_pure ?_
    intro d member
    rcases mem_flatten member with rfl | deeper
    · intro m' found'
      cases found.symm.trans found'
      exact checksFor
    · exact nestedAre d deeper

lemma runs_planClasses : ∀ {shells : List Shell}, (∀ sh ∈ shells, sh.Fits s.arena) → (∀ sh ∈ shells, sh.Replies E s) →
    Runs E (Informed s.arena) (planClasses s shells) fun cs => ∀ d ∈ flattenList cs, d.Checked s.arena
  | [], _, _ => runs_pure (by simp [flattenList])
  | sh :: rest, fits, replies => by
    rw [planClasses]
    refine (runs_planClass (fits sh (.head _)) (replies sh (.head _))).bind fun c first => ?_
    refine (runs_planClasses (fun sh inside => fits sh (.tail _ inside)) fun sh inside =>
      replies sh (.tail _ inside)).bind fun others later => runs_pure ?_
    intro d member
    rw [flattenList, mem_append] at member
    exact member.elim (first d) (later d)

end

end planning

end Missive.Plan

namespace Missive.Program

open Schema Plan Naming List

variable {files : List FileDecl}

lemma keeps_planModule (a : Arena) (known : Names) (options : Plan.Options) (files : List String)
    (file : FileDecl) : Keeps (Informed a) (planModule a known options files file) fun m =>
      ∀ d ∈ flattenList m.classes, d.Checked a := by
  unfold planModule
  refine (runs_mapM (Q := fun _ c => ∀ d ∈ c.flatten, d.Checked a) fun id _ => ?_).bind fun classes made => runs_pure ?_
  · intro p sound
    refine ends_bind.2 (yields_iff.2 fun sh p' run => ?_)
    exact runs_planClass (shell_fits run) (shell_fits run).replies p' ((keeps_shell _ id).run sound run).1
  · intro d member
    obtain ⟨c, inside, deep⟩ := mem_flattenList.1 member
    obtain ⟨id, -, checked⟩ := exists_left_of_mem made inside
    exact checked d deep

lemma planAll_checked {c : Compilation} {modules : List ModulePlan} (sound : c.memo.Sound c.arena)
    (h : planAll c files = .ok modules) : ∀ m ∈ modules, ∀ d ∈ flattenList m.classes, d.Checked c.arena := by
  induction files generalizing c modules with
  | nil =>
    obtain rfl : [] = modules := by simpa [planAll] using h
    simp
  | cons file rest ih =>
    obtain ⟨first, others, p, rfl, run, more⟩ := planAll_cons h
    obtain ⟨soundLater, checked⟩ := (keeps_planModule _ _ _ _ file).run sound run
    intro m member
    rcases mem_cons.1 member with rfl | later
    · exact checked
    · exact ih (c := { c with memo := p.memo }) soundLater more m later

/-- **The checks of every class** of a program that was built are those its message asks for. -/
lemma checked_of_build {options : Plan.Options} {p : Program} (h : build files options = .ok p) {t : TypeId}
    {c : ClassPlan} (found : p.plan? t = some c) : c.Checked p.arena := by
  obtain ⟨-, modules, -, planned, m, inside, deep⟩ := exists_module_of_mem h (mem_classes_of_plan? found)
  exact planAll_checked (RequiredMemo.sound_nil p.arena) planned m inside c deep

end Missive.Program
