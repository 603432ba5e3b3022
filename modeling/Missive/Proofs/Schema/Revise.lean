import Missive.Proofs.Schema.Resolved
import Missive.Schema.Default

/-!
# Revised schemas

The messages of a schema may be revised one by one: a message keeps its name and what is declared inside it,
but may get other fields, oneofs and extension ranges.  `FileDecl.revise` does so with a file.

The arena of a revised schema has the same nodes as before, at the same positions.  Names stand for the same
nodes, and the messages are related if their declarations are (`like_of_build`).  What does not depend on the
fields stays the same: `Forest.Shaped`.
-/

namespace Missive.Schema

open List

/-! ## Revising messages -/

/-- How messages are revised, as their dialect, full name and file say.  Of the result only the fields, the
oneofs and the extension ranges count. -/
abbrev Revision := (proto3 : Bool) → (path file : String) → MessageDecl → MessageDecl

mutual

def MessageDecl.revise (g : Revision) (p : Place) : MessageDecl → MessageDecl
  | ⟨name, fields, oneofs, ranges, enums, messages, mapEntry⟩ =>
    let new := g p.proto3 (p.pathOf name) p.file.name ⟨name, fields, oneofs, ranges, enums, messages, mapEntry⟩
    { name, fields := new.fields, oneofs := new.oneofs, extensionRanges := new.extensionRanges, enums,
      messages := reviseAll g (p.within 0 name) messages, mapEntry }

def reviseAll (g : Revision) (p : Place) : List MessageDecl → List MessageDecl
  | [] => []
  | m :: rest => m.revise g p :: reviseAll g p rest

end

def FileDecl.revise (g : Revision) (f : FileDecl) : FileDecl :=
  { f with messages := reviseAll g { file := f, proto3 := f.isProto3.toOption.getD false } f.messages }

/-! ## Forests with the same nodes -/

namespace Forest.Like

variable {μ ν : Type} {R : String → String → μ → ν → Prop} {a : Forest μ} {a' : Forest ν}

section

variable (like : a.Like R a')

include like

lemma length_eq : a'.nodes.length = a.nodes.length := (Forall₂.length_eq like).symm

lemma ids_eq : a'.ids = a.ids := by rw [Forest.ids, Forest.ids, like.length_eq]

/-- What does not depend on the messages is the same of the nodes at a position. -/
lemma map_node? {α : Type} {f : Node μ → α} {f' : Node ν → α} (same : ∀ {n n'}, n.Like R n' → f' n' = f n)
    (id : Nat) : (a'.node? id).map f' = (a.node? id).map f := by
  rcases like.node? id with ⟨none, none'⟩ | ⟨n, n', found, found', related⟩
  · rw [none, none']
    rfl
  · rw [found, found', Option.map_some, Option.map_some, same related]

lemma path_eq (id : Nat) : a'.path id = a.path id := by
  rw [Forest.path, Forest.path, like.map_node? (fun related => related.path) id]

lemma find?_eq (name : String) : a'.find? name = a.find? name := by
  simp only [Forest.find?, like.ids_eq, like.path_eq]

lemma resolve_eq (message typeName : String) :
    a'.resolve message typeName = a.resolve message typeName := by
  simp only [Forest.resolve, Forest.resolveIn, like.find?_eq]

/-- The messages of the second forest are related to those of the first. -/
lemma flip {S : String → String → ν → μ → Prop} (back : ∀ {path file x y}, R path file x y → S path file y x) :
    a'.Like S a := by
  refine Forall₂.flip (Forall₂.imp (fun n n' related => ?_) like)
  obtain ⟨name, package, file, parent, scope, path, body⟩ := related
  refine ⟨name.symm, package.symm, file.symm, parent.symm, scope.symm, path.symm, ?_⟩
  rw [path, file]
  generalize n.body = content at body ⊢
  generalize n'.body = content' at body ⊢
  cases body with
  | enum values => exact .enum values
  | message related => exact .message (back related)

/-- Messages that are related are related in weaker ways as well. -/
lemma mono {S : String → String → μ → ν → Prop} (weaker : ∀ {path file x y}, R path file x y → S path file x y) :
    a.Like S a' :=
  (like.flip (S := fun path file y x => S path file x y) weaker).flip id

end

end Forest.Like

namespace Place

/-- Two places are called the same, wherever their nodes are. -/
structure Like (p p' : Place) : Prop where
  package : p'.file.package = p.file.package
  file : p'.file.name = p.file.name
  proto3 : p'.proto3 = p.proto3
  names : p'.names = p.names

section

variable {p p' : Place}

lemma Like.pathOf_eq (like : p.Like p') (name : String) : p'.pathOf name = p.pathOf name := by
  simp only [pathOf, like.names, like.package]

lemma Like.within (like : p.Like p') (id id' : Nat) (name : String) :
    (p.within id name).Like (p'.within id' name) :=
  ⟨like.package, like.file, like.proto3, by simp [Place.within, like.names]⟩

/-- Nodes at places that are called the same. -/
lemma Like.node {R : String → String → Draft → Draft → Prop} (like : p.Like p') (scope : p'.scope = p.scope)
    (id : Nat) (name : String) {body body' : Body Draft}
    (related : Body.Like (R (p.pathOf name) p.file.name) body body') :
    (p.node id name body).Like R (p'.node id name body') where
  name := rfl
  package := like.package
  file := like.file
  parent := by simp only [Place.node, scope]
  scope := by simp only [Place.node, scope]
  path := like.pathOf_eq name
  body := related

lemma Like.enumNodes {R : String → String → Draft → Draft → Prop} (like : p.Like p') (scope : p'.scope = p.scope)
    (id : Nat) (enums : List EnumDecl) :
    Forall₂ (Node.Like R) (p.enumNodes id enums) (p'.enumNodes id enums) := by
  refine forall₂_iff_get.2 ⟨by simp [Place.enumNodes], fun i inside inside' => ?_⟩
  simp only [Place.enumNodes, get_eq_getElem, getElem_mapIdx]
  exact like.node scope _ _ (.enum _)

end

/-- Declarations are related to the revised ones. -/
def Revises (g : Revision) (D : String → String → Draft → Draft → Prop) : Prop :=
  ∀ (q : Place) (m : MessageDecl), D (q.pathOf m.name) q.file.name ⟨q.proto3, m⟩ ⟨q.proto3, m.revise g q⟩

mutual

lemma Like.messageNodes {g : Revision} {D : String → String → Draft → Draft → Prop} (revises : Revises g D)
    {p p' q : Place} (like : p.Like p') (scope : p'.scope = p.scope) (named : p.Like q)
    (id : Nat) : (m : MessageDecl) → Forall₂ (Node.Like D) (p.messageNodes id m) (p'.messageNodes id (m.revise g q))
  | ⟨name, fields, oneofs, ranges, enums, messages, mapEntry⟩ => by
    have inner : (p'.within id name).scope = (p.within id name).scope := by simp [Place.within, scope]
    have revised := revises q ⟨name, fields, oneofs, ranges, enums, messages, mapEntry⟩
    rw [named.pathOf_eq, named.file, named.proto3] at revised
    simp only [MessageDecl.revise] at revised
    simp only [MessageDecl.revise, Place.messageNodes, like.proto3]
    refine .cons (like.node scope id name (.message revised)) (rel_append ?_ ?_)
    · exact (like.within id id name).enumNodes inner _ _
    · exact (like.within id id name).messageListNodes revises inner (named.within id 0 name) _ messages

/-- The same for messages in a row. -/
lemma Like.messageListNodes {g : Revision} {D : String → String → Draft → Draft → Prop} (revises : Revises g D)
    {p p' q : Place} (like : p.Like p') (scope : p'.scope = p.scope) (named : p.Like q)
    (id : Nat) : (messages : List MessageDecl) →
      Forall₂ (Node.Like D) (p.messageListNodes id messages) (p'.messageListNodes id (reviseAll g q messages))
  | [] => .nil
  | m :: rest => by
    have first := like.messageNodes revises scope named id m
    simp only [reviseAll, Place.messageListNodes]
    rw [← first.length_eq]
    exact rel_append first (like.messageListNodes revises scope named _ rest)

end

end Place

/-! ## Arenas -/

section arenas

variable {g : Revision} {D : String → String → Draft → Draft → Prop} (revises : Place.Revises g D)

include revises

variable {nodes nodes' : List (Node Draft)} {files : List FileDecl} {n : Node Draft} {r : Node Message}

lemma FileDecl.nodes_revise {f : FileDecl} {id : Nat} (h : f.nodes id = .ok nodes)
    (h' : (f.revise g).nodes id = .ok nodes') :
    Forall₂ (Node.Like D) nodes nodes' := by
  unfold FileDecl.nodes at h h'
  obtain ⟨proto3, isProto3, h⟩ := bind_ok h
  cases h
  obtain ⟨proto3', isProto3', h'⟩ := bind_ok h'
  cases h'
  cases isProto3'.symm.trans isProto3
  have like : Place.Like { file := f, proto3 } { file := f.revise g, proto3 } :=
    ⟨rfl, rfl, rfl, rfl⟩
  have named : Place.Like { file := f, proto3 }
      { file := f, proto3 := f.isProto3.toOption.getD false } := ⟨rfl, rfl, by rw [isProto3]; rfl, rfl⟩
  exact rel_append (like.enumNodes rfl _ _) (like.messageListNodes revises rfl named _ _)

lemma foldlM_revise {known known' : List (Node Draft)} (before : Forall₂ (Node.Like D) known known')
    (h : files.foldlM (fun nodes f => do return nodes ++ (← f.nodes nodes.length)) known = .ok nodes)
    (h' : (files.map (·.revise g)).foldlM (fun nodes f => do return nodes ++ (← f.nodes nodes.length)) known'
      = .ok nodes') : Forall₂ (Node.Like D) nodes nodes' := by
  induction files generalizing known known' with
  | nil =>
    cases h
    cases h'
    exact before
  | cons f rest ih =>
    rw [foldlM_cons] at h
    rw [map_cons, foldlM_cons] at h'
    obtain ⟨grown, added, h⟩ := bind_ok h
    obtain ⟨more, own, added⟩ := bind_ok added
    cases added
    obtain ⟨grown', added', h'⟩ := bind_ok h'
    obtain ⟨more', own', added'⟩ := bind_ok added'
    cases added'
    rw [← before.length_eq] at own'
    exact ih (rel_append before (FileDecl.nodes_revise revises own own')) h h'

omit revises in
/-- Nodes with related messages are resolved to such nodes, if their messages are. -/
lemma Node.Like.resolves {R : String → String → Message → Message → Prop} {n' : Node Draft} {r' : Node Message}
    {A A' : String → String → Draft → Message → Prop} (like : n.Like D n') (here : n.Like A r) (there : n'.Like A' r')
    (related : ∀ {path file d d' s s'}, D path file d d' → A path file d s → A' path file d' s' → R path file s s') :
    r.Like R r' := by
  obtain ⟨_, _, _, _, _, _, content⟩ := n
  obtain ⟨_, _, _, _, _, _, content'⟩ := n'
  obtain ⟨_, _, _, _, _, _, resolved⟩ := r
  obtain ⟨_, _, _, _, _, _, resolved'⟩ := r'
  obtain ⟨rfl, rfl, rfl, rfl, rfl, rfl, body⟩ := like
  obtain ⟨rfl, rfl, rfl, rfl, rfl, rfl, one⟩ := here
  obtain ⟨rfl, rfl, rfl, rfl, rfl, rfl, two⟩ := there
  refine ⟨rfl, rfl, rfl, rfl, rfl, rfl, ?_⟩
  dsimp only at body one two ⊢
  cases body with
  | enum values =>
    cases one
    cases two
    exact .enum values
  | message both =>
    cases one with
    | message one =>
      cases two with
      | message two => exact .message (related both one two)

/-- **The arena of a revised schema** has the same nodes, and its messages are related to the others as their
declarations say.  While they are resolved, names stand for what they stand for in the arena. -/
lemma like_of_build {R : String → String → Message → Message → Prop} {a a' : Arena}
    (built : Arena.build files = .ok a) (built' : Arena.build (files.map (·.revise g)) = .ok a')
    (resolves : ∀ {drafts drafts' : Forest Draft} {path file : String} {d d' : Draft} {s s' : Message},
      (∀ message typeName, drafts.resolve message typeName = a.resolve message typeName) →
      (∀ message typeName, drafts'.resolve message typeName = a.resolve message typeName) → D path file d d' →
      resolveMessage drafts path d = .ok s → resolveMessage drafts' path d' = .ok s' → R path file s s') :
    a.Like R a' := by
  obtain ⟨drafts, collected, like⟩ := exists_drafts built
  obtain ⟨drafts', collected', like'⟩ := exists_drafts built'
  obtain ⟨known, folded, collected⟩ := bind_ok collected
  cases collected
  obtain ⟨known', folded', collected'⟩ := bind_ok collected'
  cases collected'
  have revised : Forest.Like D ⟨known⟩ ⟨known'⟩ := foldlM_revise revises .nil folded folded'
  have here : ∀ message typeName, Forest.resolve ⟨known⟩ message typeName = a.resolve message typeName :=
    fun message typeName => (like.resolve_eq message typeName).symm
  have there : ∀ message typeName, Forest.resolve ⟨known'⟩ message typeName = a.resolve message typeName :=
    fun message typeName => (revised.resolve_eq message typeName).trans (here message typeName)
  refine forall₂_iff_get.2 ⟨by rw [like.length_eq, like'.length_eq, revised.length_eq], ?_⟩
  intro i inside inside'
  have bound : i < known.length := like.length_eq ▸ inside
  have bound' : i < known'.length := like'.length_eq ▸ inside'
  exact (Forall₂.get revised bound bound').resolves (Forall₂.get like bound inside)
    (Forall₂.get like' bound' inside') (resolves here there)

end arenas

/-! ## What stays the same -/

namespace Forest

section messages

variable {a a' : Arena} {R : String → String → Message → Message → Prop}

namespace Like

/-- The messages at a position. -/
lemma message? (like : a.Like R a') (id : Nat) :
    (a.message? id = none ∧ a'.message? id = none)
      ∨ ∃ n s s', a.node? id = some n ∧ a.message? id = some s ∧ a'.message? id = some s' ∧ R n.path n.file s s' := by
  unfold Forest.message?
  rcases like.node? id with ⟨none, none'⟩ | ⟨n, n', found, found', related⟩
  · exact .inl ⟨by rw [none]; rfl, by rw [none']; rfl⟩
  · rw [found, found']
    rcases related.message? with none | ⟨s, s', some, some', related⟩
    · exact .inl none
    · exact .inr ⟨n, s, s', rfl, some, some', related⟩

lemma exists_message (like : a.Like R a') {id : Nat} {s' : Message} (found' : a'.message? id = some s') :
    ∃ n s, a.node? id = some n ∧ a.message? id = some s ∧ R n.path n.file s s' := by
  rcases like.message? id with ⟨-, none'⟩ | ⟨n, s, s₁, node, found, found₁, related⟩
  · cases none'.symm.trans found'
  · cases found₁.symm.trans found'
    exact ⟨n, s, node, found, related⟩

end Like

end messages

/-- Two arenas whose messages have the same dialect and are map entries together. -/
abbrev Shaped (a a' : Arena) : Prop :=
  a.Like (fun _ _ s s' => s'.proto3 = s.proto3 ∧ s'.mapEntry = s.mapEntry) a'

end Forest

def Field.moved (move : Nat → Nat) (f : Field) : Field := { f with oneof := f.oneof.map move }

namespace Forest

namespace Shaped

variable {a a' : Arena}

section

variable (shaped : a.Shaped a')

include shaped

lemma isSome_message? (id : Nat) :
    (a'.message? id).isSome = (a.message? id).isSome := by
  rcases shaped.message? id with ⟨none, none'⟩ | ⟨n, s, s', -, found, found', -⟩
  · rw [none, none']
  · rw [found, found']
    rfl

lemma map_mapEntry (id : Nat) :
    (a'.message? id).map (·.mapEntry) = (a.message? id).map (·.mapEntry) := by
  rcases shaped.message? id with ⟨none, none'⟩ | ⟨n, s, s', -, found, found', -, entry⟩
  · rw [none, none']
  · rw [found, found', Option.map_some, Option.map_some, entry]

lemma isAny_eq (id : Nat) : a'.isAny id = a.isAny id := by
  unfold Forest.isAny
  rcases shaped.node? id with ⟨none, none'⟩ | ⟨n, n', node, node', like⟩
  · rw [none, none']
  · rcases shaped.message? id with ⟨none, none'⟩ | ⟨-, s, s', -, found, found', dialect, -⟩
    · rw [node, node', none, none']
    · simp only [node, node', found, found', like.path, like.file, dialect]

lemma topLevelMessages_eq (file : String) :
    a'.topLevelMessages file = a.topLevelMessages file := by
  have top : ∀ id, ((a'.node? id).map fun n => n.parent.isNone && n.file == file).getD false
      = ((a.node? id).map fun n => n.parent.isNone && n.file == file).getD false := by
    intro id
    rw [shaped.map_node? (fun like => by rw [like.parent, like.file]) id]
  simp only [Forest.topLevelMessages, Forest.topLevel, shaped.ids_eq, top, shaped.isSome_message?]

lemma putNamed_eq (id : Nat) (found : List Nat) : a'.putNamed id found = a.putNamed id found := by
  have name : ∀ id, (a'.node? id).map (·.name) = (a.node? id).map (·.name) :=
    fun id => shaped.map_node? (fun like => like.name) id
  induction found with
  | nil => rfl
  | cons other rest ih => simp only [Forest.putNamed, name, ih]

lemma nestedMessages_eq (id : Nat) : a'.nestedMessages id = a.nestedMessages id := by
  have parent : ∀ id, (a'.node? id).bind (·.parent) = (a.node? id).bind (·.parent) := by
    intro id
    rcases shaped.node? id with ⟨none, none'⟩ | ⟨n, n', node, node', like⟩
    · rw [none, none']
    · rw [node, node', Option.bind_some, Option.bind_some, like.parent]
  have entry : ∀ id, ((a'.message? id).map fun m => !m.mapEntry).getD false
      = ((a.message? id).map fun m => !m.mapEntry).getD false := by
    intro id
    have same := congrArg (Option.map (!·)) (shaped.map_mapEntry id)
    simp only [Option.map_map] at same
    exact congrArg (Option.getD · false) same
  simp only [Forest.nestedMessages, Forest.children, shaped.ids_eq, parent, shaped.putNamed_eq, entry]

end

/-! Fields that are left have the types they had. -/

section

variable (shaped : a.Shaped a') (f : Field) (move : Nat → Nat)

include shaped f move

lemma typeMessage?_eq :
    a'.typeMessage? (f.moved move) = a.typeMessage? f := by
  simp only [Forest.typeMessage?, Field.moved, shaped.isSome_message?]

lemma typeEnum?_eq :
    a'.typeEnum? (f.moved move) = a.typeEnum? f := by
  have values : ∀ id, (a'.node? id).bind Node.values? = (a.node? id).bind Node.values? := by
    intro id
    rcases shaped.node? id with ⟨none, none'⟩ | ⟨n, n', node, node', like⟩
    · rw [none, none']
    · have body := like.body
      rw [node, node', Option.bind_some, Option.bind_some, Node.values?, Node.values?]
      generalize n.body = content at body
      generalize n'.body = content' at body
      cases body <;> rfl
  cases node : f.typeNode with
  | none => simp [Forest.typeEnum?, Field.moved, node]
  | some id => simpa [Forest.typeEnum?, Field.moved, node] using values id

lemma defaultOf_eq :
    a'.defaultOf (f.moved move) = a.defaultOf f := by
  rw [Forest.defaultOf, Forest.defaultOf, shaped.typeEnum?_eq]
  rfl

lemma isMap_eq : a'.isMap (f.moved move) = a.isMap f := by
  have entry : (do return (← a'.messageType (f.moved move)).2.mapEntry : Except Defect Bool)
      = do return (← a.messageType f).2.mapEntry := by
    unfold Forest.messageType
    cases node : f.typeNode with
    | none => simp only [Field.moved, node]
    | some id =>
      simp only [Field.moved, node]
      rcases shaped.message? id with ⟨none, none'⟩ | ⟨n, s, s', -, found, found', -, entry⟩
      · rw [none, none']
      · rw [found, found']
        exact congrArg Except.ok entry
  unfold Forest.isMap
  rw [entry]
  rfl

lemma classify_eq :
    a'.classify (f.moved move) = a.classify f := by
  rw [Forest.classify, Forest.classify, shaped.isMap_eq]
  rfl

end

end Shaped

end Forest

end Missive.Schema
