import Missive.Proofs.Schema.Resolved

/-!
# How the nodes of an arena are nested

Nodes are collected outer ones first, and in each message its enums before its messages.  So a parent
comes before its children, is a message of the same file, and among the children of a message no enum
follows a message (`Forest.Nested`).  The nodes of a declaration are a `Segment` of the arena: what is
said about it does not depend on the nodes around it, so segments can be put together.

If the messages inside a message have different names, none of them is replaced, and every message is
found below one of the outermost messages of its file (`exists_root`).
-/

namespace Missive.Schema

open List Nat

variable {start id c : Nat} {above : List Nat} {file : String} {nodes : List (Node Draft)}
  {files : List FileDecl} {found : List Nat}
variable {more : List (Node Draft)}

/-! ## Segments -/

/-- Nodes in a row, from a position on, that stand inside the last node of `above`. -/
structure Segment (start : Nat) (above : List Nat) (file : String) (nodes : List (Node Draft)) :
    Prop where
  file : ∀ n ∈ nodes, n.file = file
  parent : ∀ (k : Nat) (n : Node Draft), nodes[k]? = some n →
    (n.parent = above.getLast? ∧ n.scope = above ++ [start + k]) ∨ ∃ q < k, n.parent = some (start + q)
          ∧ ∃ m, nodes[q]? = some m ∧ m.isMessage = true ∧ n.scope = m.scope ++ [start + k]
  late : ∀ (i j : Nat) (n n' : Node Draft), i < j → nodes[i]? = some n → nodes[j]? = some n' →
    n.parent.isSome = true → n.parent = n'.parent → n.isMessage = true → n'.isMessage = true

lemma Segment.le_parent (h : Segment start above file nodes) {n : Node Draft} (member : n ∈ nodes) :
    n.parent = above.getLast? ∨ ∃ q, n.parent = some q ∧ start ≤ q ∧ q < start + nodes.length := by
  obtain ⟨k, bound, rfl⟩ := mem_iff_getElem.1 member
  rcases h.parent k _ (getElem?_eq_getElem bound) with ⟨outside, -⟩ | ⟨q, below, inside, -⟩
  · exact .inl outside
  · exact .inr ⟨start + q, inside, by omega, by omega⟩

lemma Segment.nil (start : Nat) (above : List Nat) (file : String) : Segment start above file [] :=
  ⟨by simp, by simp, by simp⟩

/-- Segments in a row are a segment, if no enum that stands outside follows a message that does. -/
lemma Segment.append (first : Segment start above file nodes) (second : Segment (start + nodes.length) above file more)
    (order : ∀ n ∈ nodes, ∀ n' ∈ more, n.parent = above.getLast? → n'.parent = above.getLast? →
      n.isMessage = true → n'.isMessage = true) :
    Segment start above file (nodes ++ more) where
  file := by
    intro n member
    rcases mem_append.1 member with old | new
    · exact first.file n old
    · exact second.file n new
  parent := by
    intro k n found
    rcases lt_or_ge k nodes.length with early | late
    · rw [getElem?_append_left early] at found
      rcases first.parent k n found with outside | ⟨q, below, inside, m, there, isMessage, scope⟩
      · exact .inl outside
      · refine .inr ⟨q, below, inside, m, ?_, isMessage, scope⟩
        rw [getElem?_append_left (by omega), there]
    · rw [getElem?_append_right late] at found
      have position : start + nodes.length + (k - nodes.length) = start + k := by omega
      rcases second.parent _ n found with outside | ⟨q, below, inside, m, there, isMessage, scope⟩
      · exact .inl (position ▸ outside)
      · refine .inr ⟨nodes.length + q, by omega, by rw [inside]; congr 1; omega, m, ?_, isMessage, position ▸ scope⟩
        rw [getElem?_append_right (by omega), ← there]
        congr 1
        omega
  late := by
    intro i j n n' less found found' some same isMessage
    rcases lt_or_ge j nodes.length with early | late
    · rw [getElem?_append_left early] at found'
      rw [getElem?_append_left (by omega)] at found
      exact first.late i j n n' less found found' some same isMessage
    rw [getElem?_append_right late] at found'
    rcases lt_or_ge i nodes.length with early' | late'
    · -- A common parent of nodes of both segments lies outside of them.
      rw [getElem?_append_left early'] at found
      have old : n ∈ nodes := mem_of_getElem? found
      have new : n' ∈ more := mem_of_getElem? found'
      have outside : n'.parent = above.getLast? := by
        rcases second.le_parent new with outside | ⟨q, inside, low, -⟩
        · exact outside
        · rcases first.le_parent old with outside' | ⟨q', inside', -, high⟩
          · exact same.symm.trans outside'
          · rw [inside, inside', Option.some.injEq] at same
            omega
      exact order n old n' new (same.trans outside) outside isMessage
    · rw [getElem?_append_right late'] at found
      exact second.late _ _ n n' (by omega) found found' some same isMessage

/-- A message with what stands in it is a segment. -/
lemma Segment.cons {node : Node Draft} (inside : Segment (start + 1) (above ++ [start]) file nodes)
    (same : node.file = file) (isMessage : node.isMessage = true) (place : node.parent = above.getLast?)
    (scope : node.scope = above ++ [start]) (before : ∀ q ∈ above.getLast?, q < start) :
    Segment start above file (node :: nodes) where
  file := by
    intro n member
    rcases mem_cons.1 member with rfl | inner
    · exact same
    · exact inside.file n inner
  parent := by
    intro k n found
    cases k with
    | zero =>
      obtain rfl : node = n := by simpa using found
      exact .inl ⟨place, scope⟩
    | succ k =>
      rw [getElem?_cons_succ] at found
      have position : start + 1 + k = start + (k + 1) := by omega
      rcases inside.parent k n found with ⟨own, inner⟩ | ⟨q, below, own, m, there, message, inner⟩
      · exact .inr ⟨0, by omega, by simpa using own, node, rfl, isMessage, by rw [inner, scope, position]⟩
      · exact .inr ⟨q + 1, by omega, by rw [own]; congr 1; omega, m, there, message, position ▸ inner⟩
  late := by
    intro i j n n' less found found' some same' isMessage'
    obtain ⟨j, rfl⟩ := Nat.exists_eq_add_of_lt (Nat.zero_lt_of_lt less)
    rw [zero_add, getElem?_cons_succ] at found'
    cases i with
    | zero =>
      obtain rfl : node = n := by simpa using found
      obtain ⟨q, isOuter⟩ := Option.isSome_iff_exists.1 some
      have low := before q (place ▸ isOuter)
      rw [isOuter] at same'
      rcases inside.le_parent (mem_of_getElem? found') with own | ⟨q', own, high, -⟩
      · rw [own, getLast?_concat, Option.some.injEq] at same'
        omega
      · rw [own, Option.some.injEq] at same'
        omega
    | succ i =>
      rw [getElem?_cons_succ] at found
      exact inside.late i j n n' (by omega) found found' some same' isMessage'

/-! ## The nodes of declarations -/

namespace Place

lemma enumNodes_segment (p : Place) (id : Nat) (enums : List EnumDecl) :
    Segment id p.scope p.file.name (p.enumNodes id enums) ∧ ∀ n ∈ p.enumNodes id enums, n.isMessage = false := by
  have each : ∀ n ∈ p.enumNodes id enums, n.file = p.file.name ∧ n.parent = p.scope.getLast? ∧ n.isMessage = false := by
    intro n member
    obtain ⟨i, bound, rfl⟩ := mem_mapIdx.1 member
    exact ⟨rfl, rfl, rfl⟩
  refine ⟨⟨fun n member => (each n member).1, ?_, ?_⟩, fun n member => (each n member).2.2⟩
  · intro k n found
    obtain ⟨e, -, rfl⟩ : ∃ e, enums[k]? = some e ∧ p.node (id + k) e.name (.enum e.values) = n := by
      simpa [enumNodes] using found
    exact .inl ⟨rfl, rfl⟩
  · intro i j n n' _ found _ _ _ isMessage
    rw [(each n (mem_of_getElem? found)).2.2] at isMessage
    exact absurd isMessage Bool.false_ne_true

/-- Enums with the nodes behind them are a segment. -/
lemma enumNodes_append (p : Place) (id : Nat) (enums : List EnumDecl)
    (later : Segment (id + enums.length) p.scope p.file.name nodes) :
    Segment id p.scope p.file.name (p.enumNodes id enums ++ nodes) := by
  obtain ⟨segment, areEnums⟩ := p.enumNodes_segment id enums
  refine segment.append (by rwa [enumNodes, length_mapIdx]) fun n member _ _ _ _ isMessage => ?_
  rw [areEnums n member] at isMessage
  exact absurd isMessage Bool.false_ne_true

mutual

/-- The nodes of a message are a segment, and only messages in it stand outside. -/
lemma messageNodes_segment (p : Place) (id : Nat) (before : ∀ q ∈ p.scope.getLast?, q < id) :
    (m : MessageDecl) → Segment id p.scope p.file.name (p.messageNodes id m)
      ∧ ∀ n ∈ p.messageNodes id m, n.parent = p.scope.getLast? → n.isMessage = true
  | ⟨name, fields, oneofs, ranges, enums, messages, mapEntry⟩ => by
    have inner : (p.within id name).scope.getLast? = some id := by simp [within]
    obtain ⟨messageSegment, -⟩ := (p.within id name).messageListNodes_segment
      (id + 1 + enums.length) (by simp [inner]; omega) messages
    have inside := (p.within id name).enumNodes_append (id + 1) enums messageSegment
    rw [messageNodes]
    refine ⟨inside.cons rfl rfl rfl rfl before, fun n member outside => ?_⟩
    rcases mem_cons.1 member with rfl | below
    · rfl
    · rcases inside.le_parent below with own | ⟨q, own, high, -⟩
      · have := before _ (outside.symm.trans (own.trans inner))
        omega
      · have := before _ (outside.symm.trans own)
        omega

/-- The nodes of messages in a row are a segment, and only messages in it stand outside. -/
lemma messageListNodes_segment (p : Place) (id : Nat) (before : ∀ q ∈ p.scope.getLast?, q < id) :
    (messages : List MessageDecl) → Segment id p.scope p.file.name (p.messageListNodes id messages)
        ∧ ∀ n ∈ p.messageListNodes id messages, n.parent = p.scope.getLast? → n.isMessage = true
  | [] => ⟨.nil _ _ _, by simp [messageListNodes]⟩
  | m :: rest => by
    obtain ⟨first, tops⟩ := p.messageNodes_segment id before m
    obtain ⟨second, tops'⟩ := p.messageListNodes_segment (id + (p.messageNodes id m).length)
      (fun q outer => Nat.lt_add_right _ (before q outer)) rest
    rw [messageListNodes]
    refine ⟨first.append second fun _ _ n' member _ outside _ => tops' n' member outside, ?_⟩
    intro n member outside
    rcases mem_append.1 member with old | new
    · exact tops n old outside
    · exact tops' n new outside

end

end Place

/-! ## Arenas -/

/-- How nodes are nested: a parent is a message of the same file that comes before its children, the
scope of a node leads there, and among the children of a node messages come last. -/
structure Forest.Nested {μ : Type} (a : Forest μ) : Prop where
  parent : ∀ id n q, a.node? id = some n → n.parent = some q →
    q < id ∧ ∃ m, a.node? q = some m ∧ m.isMessage = true ∧ m.file = n.file ∧ n.scope = m.scope ++ [id]
  top : ∀ id n, a.node? id = some n → n.parent = none → n.scope = [id]
  late : ∀ i j n n', i < j → a.node? i = some n → a.node? j = some n' → n.parent.isSome = true →
    n.parent = n'.parent → n.isMessage = true → n'.isMessage = true

lemma FileDecl.nodes_segment {f : FileDecl} (h : f.nodes id = .ok nodes) : Segment id [] f.name nodes := by
  unfold FileDecl.nodes at h
  obtain ⟨proto3, -, h⟩ := bind_ok h
  cases h
  let place : Place := { file := f, proto3 }
  obtain ⟨messages, -⟩ := place.messageListNodes_segment (id + f.enums.length) (by simp [place]) f.messages
  exact place.enumNodes_append id f.enums messages

/-- The nodes of one more file keep the nesting. -/
lemma Forest.Nested.append (nested : Forest.Nested ⟨nodes⟩) (segment : Segment nodes.length [] file more) :
    Forest.Nested (⟨nodes ++ more⟩ : Forest Draft) where
  parent := by
    intro id n q found isParent
    change (nodes ++ more)[id]? = some n at found
    rcases lt_or_ge id nodes.length with early | late
    · rw [getElem?_append_left early] at found
      obtain ⟨below, m, there, more⟩ := nested.parent id n q found isParent
      refine ⟨below, m, ?_, more⟩
      exact (getElem?_append_left (by omega)).trans there
    · rw [getElem?_append_right late] at found
      rcases segment.parent _ n found with ⟨outside, -⟩ | ⟨q', below, inside, m, there, isMessage, scope⟩
      · rw [isParent] at outside
        cases outside
      · cases inside.symm.trans isParent
        refine ⟨by omega, m, ?_, isMessage, ?_, by rwa [Nat.add_sub_cancel' late] at scope⟩
        · exact (getElem?_append_right (by omega)).trans (by simpa using there)
        · rw [segment.file m (mem_of_getElem? there), segment.file n (mem_of_getElem? found)]
  top := by
    intro id n found outermost
    change (nodes ++ more)[id]? = some n at found
    rcases lt_or_ge id nodes.length with early | late
    · exact nested.top id n ((getElem?_append_left early).symm.trans found) outermost
    · rw [getElem?_append_right late] at found
      rcases segment.parent _ n found with ⟨-, scope⟩ | ⟨q, -, inside, -⟩
      · rwa [Nat.add_sub_cancel' late] at scope
      · cases outermost.symm.trans inside
  late := by
    intro i j n n' less found found' some same isMessage
    change (nodes ++ more)[i]? = _ at found
    change (nodes ++ more)[j]? = _ at found'
    rcases lt_or_ge j nodes.length with early | late
    · rw [getElem?_append_left early] at found'
      rw [getElem?_append_left (by omega)] at found
      exact nested.late i j n n' less found found' some same isMessage
    rw [getElem?_append_right late] at found'
    rcases lt_or_ge i nodes.length with early' | late'
    · rw [getElem?_append_left early'] at found
      obtain ⟨q, isParent⟩ := Option.isSome_iff_exists.1 some
      have low := (nested.parent i n q found isParent).1
      rcases segment.le_parent (mem_of_getElem? found') with outside | ⟨q', inside, high, -⟩
      · rw [← same, isParent] at outside
        cases outside
      · rw [isParent, inside, Option.some.injEq] at same
        omega
    · rw [getElem?_append_right late'] at found
      exact segment.late _ _ n n' (by omega) found found' some same isMessage

lemma nested_of_foldlM {known : List (Node Draft)} (nested : Forest.Nested ⟨known⟩)
    (folded : files.foldlM (fun nodes f => do return nodes ++ (← f.nodes nodes.length)) known = .ok nodes) :
    Forest.Nested (⟨nodes⟩ : Forest Draft) := by
  induction files generalizing known with
  | nil =>
    cases folded
    exact nested
  | cons f rest ih =>
    rw [foldlM_cons] at folded
    obtain ⟨grown, added, folded⟩ := bind_ok folded
    obtain ⟨more, own, added⟩ := bind_ok added
    cases added
    exact ih (nested.append (FileDecl.nodes_segment own)) folded

lemma collect_nested {drafts : Forest Draft} (h : collect files = .ok drafts) : drafts.Nested := by
  unfold collect at h
  obtain ⟨nodes, folded, h⟩ := bind_ok h
  cases h
  exact nested_of_foldlM ⟨by simp [Forest.node?], by simp [Forest.node?], by simp [Forest.node?]⟩ folded

/-- **The nodes of an arena are nested.** -/
lemma nested_of_build {a : Arena} (h : Arena.build files = .ok a) :
    a.Nested := by
  obtain ⟨drafts, collected, like⟩ := exists_drafts h
  have nested := collect_nested collected
  constructor
  · intro id r q found isParent
    obtain ⟨n, there, own⟩ := like.exists_node found
    obtain ⟨below, m, found', isMessage, same, scope⟩ := nested.parent id n q there (own.parent ▸ isParent)
    rcases like.node? q with ⟨none, -⟩ | ⟨m', r', there', target, outer⟩
    · cases none.symm.trans found'
    · cases there'.symm.trans found'
      exact ⟨below, r', target, outer.isMessage_eq.trans isMessage, by rw [outer.file, same, own.file],
        by rw [own.scope, scope, outer.scope]⟩
  · intro id r found outermost
    obtain ⟨n, there, own⟩ := like.exists_node found
    exact own.scope.trans (nested.top id n there (own.parent ▸ outermost))
  · intro i j r r' less found found' some same isMessage
    obtain ⟨n, there, own⟩ := like.exists_node found
    obtain ⟨n', there', own'⟩ := like.exists_node found'
    rw [own'.isMessage_eq]
    exact nested.late i j n n' less there there' (own.parent ▸ some) (by rw [← own.parent, same, own'.parent])
      (own.isMessage_eq ▸ isMessage)

/-! ## Below a node -/

namespace Forest

variable {μ : Type} {a : Forest μ}

/-- The messages that are declared directly inside a node. -/
def messagesIn (a : Forest μ) (id : Nat) : List Nat :=
  a.ids.filter fun c => ((a.node? c).map fun n => n.isMessage && n.parent == some id).getD false

/-- The messages that are declared inside one message have different names. -/
def NestedApart (a : Forest μ) : Prop :=
  ∀ id ∈ a.ids, ((a.messagesIn id).map fun c => (a.node? c).map (·.name)).Nodup

instance : Decidable a.NestedApart :=
  inferInstanceAs (Decidable (∀ id ∈ a.ids, Nodup _))

lemma mem_ids_of_node? {n : Node μ} (found : a.node? id = some n) : id ∈ a.ids := by
  rw [ids, mem_range]
  exact (List.getElem?_eq_some_iff.1 found).1

lemma mem_messagesIn :
    c ∈ a.messagesIn id ↔ ∃ n, a.node? c = some n ∧ n.isMessage = true ∧ n.parent = some id := by
  rw [messagesIn, mem_filter]
  constructor
  · rintro ⟨-, holds⟩
    cases found : a.node? c with
    | none => simp [found] at holds
    | some n =>
      rw [found] at holds
      exact ⟨n, rfl, by simpa using holds⟩
  · rintro ⟨n, found, isMessage, parent⟩
    exact ⟨mem_ids_of_node? found, by simp [found, isMessage, parent]⟩

lemma NestedApart.eq {c' : Nat} (apart : a.NestedApart) (nested : a.Nested) (member : c ∈ a.messagesIn id)
    (member' : c' ∈ a.messagesIn id) (same : (a.node? c).map (·.name) = (a.node? c').map (·.name)) :
    c = c' := by
  obtain ⟨n, found, -, parent⟩ := mem_messagesIn.1 member
  obtain ⟨-, m, there, -⟩ := nested.parent c n id found parent
  exact inj_on_of_nodup_map (apart id (mem_ids_of_node? there)) member member' same

lemma mem_putNamed_self (id : Nat) (found : List Nat) : id ∈ a.putNamed id found := by
  induction found with
  | nil => simp [putNamed]
  | cons other rest ih =>
    rw [putNamed]
    split
    · exact .head _
    · exact .tail _ ih

lemma mem_putNamed_of_ne (member : c ∈ found) (other : (a.node? c).map (·.name) ≠ (a.node? id).map (·.name)) :
    c ∈ a.putNamed id found := by
  induction found with
  | nil => cases member
  | cons first rest ih =>
    rw [putNamed]
    rcases mem_cons.1 member with rfl | later
    · rw [if_neg (by simpa using other)]
      exact .head _
    · split
      · exact .tail _ later
      · exact .tail _ (ih later)

/-- What later nodes do not replace stays. -/
lemma mem_foldl_putNamed {more : List Nat} (member : c ∈ found)
    (others : ∀ id ∈ more, (a.node? c).map (·.name) ≠ (a.node? id).map (·.name)) :
    c ∈ more.foldl (fun found id => a.putNamed id found) found := by
  induction more generalizing found with
  | nil => exact member
  | cons id rest ih =>
    exact ih (mem_putNamed_of_ne member (others id (.head _))) fun id' later => others id' (.tail _ later)

lemma putNamed_subset (id : Nat) (found : List Nat) : a.putNamed id found ⊆ id :: found := by
  induction found with
  | nil => simp [putNamed]
  | cons other rest ih =>
    rw [putNamed]
    split
    · exact cons_subset_cons _ (subset_cons_self _ _)
    · refine cons_subset.2 ⟨by simp, fun x member => ?_⟩
      rcases mem_cons.1 (ih member) with rfl | later
      · exact .head _
      · exact .tail _ (.tail _ later)

lemma nodup_putNamed (distinct : (id :: found).Nodup) :
    (a.putNamed id found).Nodup := by
  induction found with
  | nil => simp [putNamed]
  | cons other rest ih =>
    obtain ⟨new, old⟩ := nodup_cons.1 distinct
    obtain ⟨single, distinct'⟩ := nodup_cons.1 old
    rw [putNamed]
    split
    · exact nodup_cons.2 ⟨fun again => new (.tail _ again), distinct'⟩
    · have apart : id ∉ rest := fun again => new (.tail _ again)
      refine nodup_cons.2 ⟨fun again => ?_, ih (nodup_cons.2 ⟨apart, distinct'⟩)⟩
      rcases mem_cons.1 (putNamed_subset id rest again) with rfl | later
      · exact new (.head _)
      · exact single later

/-- Putting in nodes adds nothing else, and each of them once. -/
lemma foldl_putNamed {more : List Nat} (distinct : (found ++ more).Nodup) :
    more.foldl (fun found id => a.putNamed id found) found ⊆ found ++ more
      ∧ (more.foldl (fun found id => a.putNamed id found) found).Nodup := by
  induction more generalizing found with
  | nil => simpa using distinct
  | cons id rest ih =>
    have moved : (id :: found ++ rest).Nodup :=
      (perm_middle.nodup_iff).1 distinct
    have inside : a.putNamed id found ++ rest ⊆ id :: found ++ rest :=
      append_subset.2 ⟨fun x member => mem_append_left _ (putNamed_subset id found member), subset_append_right _ _⟩
    obtain ⟨old, later, apart⟩ := nodup_append.1 moved
    obtain ⟨subset, nodup⟩ := ih (nodup_append.2 ⟨nodup_putNamed old, later,
      fun x member y member' => apart x (putNamed_subset id found member) y member'⟩)
    refine ⟨fun x member => ?_, nodup⟩
    exact (perm_middle.mem_iff).2 (inside (subset member))

lemma nodup_ids_filter (q : Nat → Bool) : ([] ++ a.ids.filter q).Nodup := nodup_range.filter q

lemma nodup_children (a : Forest μ) (id : Nat) : (a.children id).Nodup :=
  (foldl_putNamed (nodup_ids_filter _)).2

lemma parent_of_mem_children (member : c ∈ a.children id) :
    ∃ n, a.node? c = some n ∧ n.parent = some id := by
  have := (foldl_putNamed (nodup_ids_filter _)).1 member
  simp only [nil_append, mem_filter, beq_iff_eq] at this
  exact Option.bind_eq_some_iff.1 this.2

/-- No message is replaced where the messages inside a message have different names. -/
lemma mem_children (nested : a.Nested) (apart : a.NestedApart) (member : c ∈ a.messagesIn id) :
    c ∈ a.children id := by
  obtain ⟨n, found, isMessage, parent⟩ := mem_messagesIn.1 member
  have inside : c ∈ a.ids.filter fun c => (a.node? c).bind (·.parent) == some id :=
    mem_filter.2 ⟨mem_ids_of_node? found, by simp [found, parent]⟩
  have ascending : (a.ids.filter fun c => (a.node? c).bind (·.parent) == some id).Pairwise (· < ·) :=
    pairwise_lt_range.filter _
  have siblings : ∀ id' ∈ a.ids.filter fun c => (a.node? c).bind (·.parent) == some id,
      ∃ n', a.node? id' = some n' ∧ n'.parent = some id := by
    intro id' member
    simp only [mem_filter, beq_iff_eq] at member
    exact Option.bind_eq_some_iff.1 member.2
  unfold children
  obtain ⟨before, later, whole⟩ := append_of_mem inside
  rw [whole] at ascending siblings ⊢
  rw [foldl_append, foldl_cons]
  refine mem_foldl_putNamed (mem_putNamed_self c _) fun id' after same => ?_
  have less : c < id' :=
    (pairwise_cons.1 (pairwise_append.1 ascending).2.1).1 id' after
  obtain ⟨n', found', parent'⟩ := siblings id' (by simp [after])
  have message' := nested.late c id' n n' less found found' (by simp [parent]) (parent.trans parent'.symm) isMessage
  have := apart.eq nested member (mem_messagesIn.2 ⟨n', found', message', parent'⟩) same
  omega

lemma mem_subtreeWithin_children {turns root : Nat} (member : id ∈ a.subtreeWithin turns root)
    (child : c ∈ a.children id) : c ∈ a.subtreeWithin (turns + 1) root := by
  induction turns generalizing root with
  | zero => exact absurd member (by simp [subtreeWithin])
  | succ turns ih =>
    rw [subtreeWithin] at member
    rw [subtreeWithin, mem_cons, mem_flatMap]
    rcases mem_cons.1 member with rfl | below
    · exact .inr ⟨c, child, by simp [subtreeWithin]⟩
    · obtain ⟨first, isChild, deeper⟩ := mem_flatMap.1 below
      exact .inr ⟨first, isChild, ih deeper⟩

lemma subtreeWithin_mono {turns turns' root : Nat} (le : turns ≤ turns')
    (member : id ∈ a.subtreeWithin turns root) : id ∈ a.subtreeWithin turns' root := by
  induction turns generalizing turns' root with
  | zero => exact absurd member (by simp [subtreeWithin])
  | succ turns ih =>
    obtain ⟨more, rfl⟩ := Nat.exists_eq_add_of_le' le
    rw [subtreeWithin] at member
    rw [← add_assoc, subtreeWithin]
    rcases mem_cons.1 member with rfl | below
    · exact .head _
    · obtain ⟨first, isChild, deeper⟩ := mem_flatMap.1 below
      exact .tail _ (mem_flatMap.2 ⟨first, isChild, ih (by omega) deeper⟩)

/-- The outermost messages of a file. -/
lemma mem_topLevelMessages {a : Arena} : id ∈ a.topLevelMessages file ↔
    ∃ n, a.node? id = some n ∧ n.isMessage = true ∧ n.parent = none ∧ n.file = file := by
  simp only [topLevelMessages, topLevel, message?, Node.isMessage, mem_filter]
  constructor
  · rintro ⟨⟨-, top⟩, isMessage⟩
    cases found : a.node? id with
    | none => simp [found] at top
    | some n => exact ⟨n, rfl, by simpa [found] using isMessage, by simpa [found] using top⟩
  · rintro ⟨n, found, isMessage, top⟩
    exact ⟨⟨mem_ids_of_node? found, by simpa [found] using top⟩, by simpa [found] using isMessage⟩

/-- **Every message is found.**  Where the messages inside a message have different names, each
message lies below an outermost message of its file. -/
lemma exists_root {a : Arena} (nested : a.Nested) (apart : a.NestedApart) {n : Node Message}
    (found : a.node? id = some n) (isMessage : n.isMessage = true) :
    ∃ root ∈ a.topLevelMessages n.file, id ∈ a.subtree root := by
  have within : ∃ root ∈ a.topLevelMessages n.file, id ∈ a.subtreeWithin (id + 1) root := by
    induction id using Nat.strong_induction_on generalizing n with
    | _ id ih =>
      cases parent : n.parent with
      | none =>
        exact ⟨id, mem_topLevelMessages.2 ⟨n, found, isMessage, parent, rfl⟩, by simp [subtreeWithin]⟩
      | some q =>
        obtain ⟨below, m, found', isMessage', same, -⟩ := nested.parent id n q found parent
        obtain ⟨root, top, inside⟩ := ih q below found' isMessage'
        refine ⟨root, same ▸ top, subtreeWithin_mono (succ_le_succ below) ?_⟩
        exact mem_subtreeWithin_children inside
          (mem_children nested apart (mem_messagesIn.2 ⟨n, found, isMessage, parent⟩))
  obtain ⟨root, top, inside⟩ := within
  exact ⟨root, top, subtreeWithin_mono (List.getElem?_eq_some_iff.1 found).1 inside⟩

end Forest

end Missive.Schema
