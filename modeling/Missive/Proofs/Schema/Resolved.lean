import Missive.Proofs.Ends
import Missive.Schema.Build

/-!
# What an accepted schema promises

Building an arena checks every message before it resolves it.  `Message.Resolved` collects what the
checks promise about the resolved content, so that nothing later has to look at the checks again:
field numbers are positive and different, extension ranges are in order and apart from each other and
from the fields, and oneofs have members.  `resolved_of_build` is the one place where the checks are
opened.
-/

namespace Missive.Schema

variable {m : Message} {f : FieldDecl} {a : Forest Draft} {oneofs : Nat}

/-- What the checks promise about the content of a message. -/
structure Message.Resolved (m : Message) : Prop where
  positive : ∀ f ∈ m.fields, 0 < f.number
  distinct : (m.fields.map (·.number)).Nodup
  nonempty : ∀ r ∈ m.ranges.list, 0 < r.1 ∧ r.1 < r.2
  ordered : m.ranges.list.Pairwise fun a b => a.2 ≤ b.1
  outside : ∀ f ∈ m.fields, m.ranges.contains f.number = false
  indexed : ∀ f ∈ m.fields, ∀ i, f.oneof = some i → i < m.oneofNames.length
  inhabited : ∀ o ∈ m.allOneofs, o.members ≠ []

/-! ## Forests with the same nodes -/

/-- Two nodes hold the same enum, or related messages. -/
inductive Body.Like {μ ν : Type} (R : μ → ν → Prop) : Body μ → Body ν → Prop
  | enum (values : List (String × Int)) : Like R (.enum values) (.enum values)
  | message {x : μ} {y : ν} (related : R x y) : Like R (.message x) (.message y)

/-- Two nodes differ only in their messages, which are related as the full name and the file say. -/
structure Node.Like {μ ν : Type} (R : String → String → μ → ν → Prop) (n : Node μ) (n' : Node ν) : Prop where
  name : n'.name = n.name
  package : n'.package = n.package
  file : n'.file = n.file
  parent : n'.parent = n.parent
  scope : n'.scope = n.scope
  path : n'.path = n.path
  body : Body.Like (R n.path n.file) n.body n'.body

/-- The nodes of two forests differ only in their messages. -/
def Forest.Like {μ ν : Type} (R : String → String → μ → ν → Prop) (a : Forest μ) (a' : Forest ν) : Prop :=
  List.Forall₂ (Node.Like R) a.nodes a'.nodes

section like

variable {μ ν : Type} {R : String → String → μ → ν → Prop} {a : Forest μ} {a' : Forest ν}

lemma Forest.Like.node? (like : a.Like R a') (id : Nat) :
    (a.node? id = none ∧ a'.node? id = none) ∨ ∃ n n', a.node? id = some n ∧ a'.node? id = some n' ∧ n.Like R n' := by
  have length := List.Forall₂.length_eq like
  by_cases inside : id < a.nodes.length
  · have inside' : id < a'.nodes.length := by omega
    exact .inr ⟨_, _, List.getElem?_eq_getElem inside, List.getElem?_eq_getElem inside',
      List.Forall₂.get like inside inside'⟩
  · exact .inl ⟨List.getElem?_eq_none (by omega), List.getElem?_eq_none (by omega)⟩

lemma Forest.Like.exists_node (like : a.Like R a') {id : Nat} {n' : Node ν} (found : a'.node? id = some n') :
    ∃ n, a.node? id = some n ∧ n.Like R n' := by
  rcases like.node? id with ⟨-, none⟩ | ⟨n, _, there, found', related⟩
  · cases none.symm.trans found
  · exact ⟨n, there, Option.some.inj (found'.symm.trans found) ▸ related⟩

/-- The content of nodes that hold messages. -/
lemma Node.Like.message? {n : Node μ} {n' : Node ν} (like : n.Like R n') :
    (n.message? = none ∧ n'.message? = none)
      ∨ ∃ x y, n.message? = some x ∧ n'.message? = some y ∧ R n.path n.file x y := by
  have body := like.body
  unfold Node.message?
  generalize n.body = content at body
  generalize n'.body = content' at body
  cases body with
  | enum => exact .inl ⟨rfl, rfl⟩
  | message related => exact .inr ⟨_, _, rfl, rfl, related⟩

lemma Node.Like.isMessage_eq {n : Node μ} {n' : Node ν} (like : n.Like R n') : n'.isMessage = n.isMessage := by
  unfold Node.isMessage
  rcases like.message? with ⟨none, none'⟩ | ⟨_, _, some, some', -⟩
  · rw [none, none']; rfl
  · rw [some, some']; rfl

end like

/-! ## The checks -/

variable {α β : Type} {P Q : Prop} {path : String} {x : Except Refusal α}

/-- A check succeeds if something holds, and complains about a message if it does not. -/
def Decides (P : Prop) (x : Except Refusal α) : Prop :=
  (P ∧ ∃ a, x = .ok a) ∨ (¬P ∧ ∃ complaint message field, x = .error (.invalid complaint message field))

lemma decides_ok (a : α) (h : P) : Decides P (.ok a : Except Refusal α) := .inl ⟨h, a, rfl⟩

lemma decides_invalid {complaint : Complaint} {field : Option String} (h : ¬P) :
    Decides P (.error (.invalid complaint path field) : Except Refusal α) := .inr ⟨h, _, _, _, rfl⟩

lemma Decides.holds (h : Decides P x) {a : α} (ok : x = .ok a) : P := by
  rcases h with ⟨holds, -⟩ | ⟨-, _, _, _, error⟩
  · exact holds
  · rw [ok] at error
    cases error

lemma Decides.congr (h : Decides P x) (same : P ↔ Q) : Decides Q x := by
  rwa [Decides, ← same]

lemma Decides.bind {f : α → Except Refusal β} (first : Decides P x)
    (next : ∀ a, x = .ok a → Decides Q (f a)) : Decides (P ∧ Q) (x >>= f) := by
  rcases first with ⟨holds, a, rfl⟩ | ⟨fails, complaint, message, field, rfl⟩
  · exact (next a rfl).congr (by simp [holds])
  · exact .inr ⟨fun both => fails both.1, complaint, message, field, rfl⟩

lemma decides_mapM {P : β → Prop} {f : β → Except Refusal α} {l : List β} (each : ∀ b ∈ l, Decides (P b) (f b)) :
    Decides (∀ b ∈ l, P b) (l.mapM f) := by
  induction l with
  | nil => exact decides_ok [] (by simp)
  | cons b rest ih =>
    rw [List.mapM_cons]
    have others := ih fun b' later => each b' (.tail _ later)
    have both := (each b (.head _)).bind fun a _ => others.bind fun as _ => decides_ok (a :: as) trivial
    exact both.congr (by simp)

lemma decides_checkNumbers {seen : List Int} {fields : List FieldDecl} :
    Decides ((∀ f ∈ fields, 0 < f.number ∧ f.number ∉ seen) ∧ (fields.map (·.number)).Nodup)
      (checkNumbers path seen fields) := by
  induction fields generalizing seen with
  | nil => exact decides_ok () (by simp)
  | cons f rest ih =>
    rw [checkNumbers]
    split
    · exact decides_invalid (by simp; omega)
    split
    · exact decides_invalid (by simp_all)
    · refine ih.congr ?_
      rename_i positive unseen
      simp at positive unseen
      simp [positive, unseen]
      grind

lemma decides_checkRanges {previous : Int} {ranges : List (Int × Int)} :
    Decides ((∀ r ∈ ranges, previous ≤ r.1 ∧ 0 < r.1 ∧ r.1 < r.2) ∧ ranges.Pairwise fun a b => a.2 ≤ b.1)
      (checkRanges path previous ranges) := by
  induction ranges generalizing previous with
  | nil => exact decides_ok () (by simp)
  | cons range rest ih =>
    obtain ⟨start, stop⟩ := range
    rw [checkRanges]
    split
    · exact decides_invalid (by simp; omega)
    split
    · exact decides_invalid (by simp; omega)
    · refine ih.congr ?_
      simp
      grind

lemma decides_checkOutside {ranges : Ranges} {numbers : List Int} :
    Decides (∀ number ∈ numbers, ranges.contains number = false) (checkOutside path ranges numbers) := by
  unfold checkOutside
  split
  · rename_i number found
    exact decides_invalid (by grind [List.mem_of_find?_eq_some, mem_sortBy])
  · rename_i none
    exact decides_ok () (by simpa using none)

lemma decides_checkOneofs :
    Decides (∀ o ∈ m.allOneofs, o.members ≠ []) (checkOneofs path m) := by
  unfold checkOneofs
  split
  · rename_i o found
    have := List.find?_some found
    exact decides_invalid fun all => all o (List.mem_of_find?_eq_some found) (by simpa using this)
  · rename_i none
    exact decides_ok _ (by simpa using none)

lemma resolveOneof_lt {count : Nat} {i : Nat} (h : resolveOneof path count f = .ok (some i)) : i < count := by
  unfold resolveOneof at h
  split at h
  · cases h
  split at h
  · cases h
  split at h
  · cases Except.ok.inj h
    omega
  split at h
  · cases Except.ok.inj h
    omega
  · cases h

lemma resolveField_ok {g : Field} (h : resolveField a path oneofs f = .ok g) :
    g.number = f.number ∧ ∀ i, g.oneof = some i → i < oneofs := by
  unfold resolveField at h
  obtain ⟨type, -, h⟩ := bind_ok h
  obtain ⟨oneof, position, h⟩ := bind_ok h
  cases h
  refine ⟨rfl, fun i same => ?_⟩
  obtain rfl : oneof = some i := same
  exact resolveOneof_lt position

lemma resolveFields_numbers {decls : List FieldDecl} {fields : List Field}
    (h : decls.mapM (resolveField a path oneofs) = .ok fields) :
    fields.map (·.number) = decls.map (·.number) := by
  have entries := mapM_ok h
  clear h
  induction entries with
  | nil => rfl
  | cons first _ ih => simp [ih, (resolveField_ok first).1]

/-! ## Messages -/

/-- Of a message its fields are resolved, and the rest stays as it was declared.  It has passed all checks. -/
lemma resolveMessage_eq {d : Draft} (h : resolveMessage a path d = .ok m) :
    m.Resolved ∧ ∃ fields, d.decl.fields.mapM (resolveField a path d.decl.oneofs.length) = .ok fields
      ∧ m = ⟨d.proto3, d.decl.mapEntry, .ofList d.decl.extensionRanges, fields, d.decl.oneofs⟩ := by
  unfold resolveMessage at h
  obtain ⟨⟨⟩, numbers, h⟩ := bind_ok h
  obtain ⟨⟨⟩, ranges, h⟩ := bind_ok h
  obtain ⟨⟨⟩, outside, h⟩ := bind_ok h
  obtain ⟨fields, resolved, h⟩ := bind_ok h
  obtain ⟨⟨⟩, oneofs, h⟩ := bind_ok h
  cases h
  refine ⟨?_, fields, resolved, rfl⟩
  obtain ⟨positive, distinct⟩ := decides_checkNumbers.holds numbers
  obtain ⟨nonempty, ordered⟩ := decides_checkRanges.holds ranges
  have same := resolveFields_numbers resolved
  have declared : ∀ f ∈ fields, ∃ g ∈ d.decl.fields, g.number = f.number := by
    intro f member
    have : f.number ∈ d.decl.fields.map (·.number) := same ▸ List.mem_map_of_mem member
    simpa using this
  refine ⟨?_, same ▸ distinct, fun r member => (nonempty r member).2, ordered, ?_, ?_, decides_checkOneofs.holds oneofs⟩
  · intro f member
    obtain ⟨g, inside, number⟩ := declared f member
    exact number ▸ (positive g inside).1
  · intro f member
    exact decides_checkOutside.holds outside _ (same ▸ List.mem_map_of_mem member)
  · intro f member i position
    obtain ⟨g, -, from_⟩ := mapM_mem resolved member
    exact (resolveField_ok from_).2 i position

lemma resolveNode_like {n : Node Draft} {r : Node Message} (h : resolveNode a n = .ok r) :
    n.Like (fun path _ d s => resolveMessage a path d = .ok s) r := by
  obtain ⟨_, _, _, _, _, _, content⟩ := n
  unfold resolveNode at h
  cases content with
  | enum values =>
    cases h
    exact ⟨rfl, rfl, rfl, rfl, rfl, rfl, .enum values⟩
  | message =>
    obtain ⟨s, resolved, h⟩ := bind_ok h
    cases h
    exact ⟨rfl, rfl, rfl, rfl, rfl, rfl, .message resolved⟩

/-- An arena has the nodes that were collected, with their messages resolved. -/
lemma exists_drafts {files : List FileDecl} {a : Arena} (h : Arena.build files = .ok a) : ∃ drafts,
    collect files = .ok drafts ∧ drafts.Like (fun path _ d s => resolveMessage drafts path d = .ok s) a := by
  obtain ⟨drafts, collected, h⟩ := bind_ok h
  obtain ⟨nodes, resolved, h⟩ := bind_ok h
  cases h
  exact ⟨drafts, collected, (mapM_ok resolved).imp fun _ _ => resolveNode_like⟩

/-- **An accepted schema is resolved.**  Every message of an arena that was built has passed the
checks. -/
lemma resolved_of_build {files : List FileDecl} {a : Arena} (h : Arena.build files = .ok a) {id : Nat}
    (found : a.message? id = some m) : m.Resolved := by
  obtain ⟨drafts, -, like⟩ := exists_drafts h
  obtain ⟨r, there, isMessage⟩ := Option.bind_eq_some_iff.1 found
  obtain ⟨n, -, related⟩ := like.exists_node there
  rcases related.message? with ⟨-, none⟩ | ⟨d, s, -, some, resolved⟩
  · cases none.symm.trans isMessage
  · cases some.symm.trans isMessage
    exact (resolveMessage_eq resolved).1

end Missive.Schema
