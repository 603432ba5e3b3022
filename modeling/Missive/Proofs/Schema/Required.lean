import Missive.Proofs.Ends
import Missive.Schema.Required

/-!
# Messages that never lack anything

A message needs a check if it, or a message that it leads to through the types of fields, can be extended
or has a required field.  The others are free: whatever they hold, nothing in them can be missing.

The search is depth first, with a list of what was visited.  While it runs, what is on the way down is
in the list but not done yet, so a step only promises that what it *adds* is done
(`Explored`).  The turns never run out, since each level adds a message of the arena.

A search that finds nothing has visited a set of messages that is closed under what they lead to, so none
of them needs a check.  Only the answer about the message where a search begins is remembered, and so
what is remembered is right (`RequiredMemo.Sound`), whatever is asked in whatever order.
-/

namespace Missive.Schema

open List

variable {id : Nat} {m : Message}

namespace Forest

variable (a : Arena)

variable {f : Field}

/-- A message leads to the messages that are types of its fields. -/
def Leads (id next : Nat) : Prop := ∃ m ∈ a.message? id, ∃ f ∈ m.fields, next ∈ a.typeMessage? f

/-- Something of its own can be missing in a message. -/
def Demands (id : Nat) : Prop :=
  ∃ m ∈ a.message? id, m.isExtensible = true ∨ ∃ f ∈ m.fields, f.isRequired = true

/-- Something can be missing in a message, or in one that it leads to, however far away. -/
def Needs (id : Nat) : Prop := ∃ other, Relation.ReflTransGen a.Leads id other ∧ a.Demands other

/-- Nothing can be missing in a message or in any message inside it. -/
def Free (id : Nat) : Prop := ¬a.Needs id

/-- Nothing of its own can be missing in a message, and what it leads to is among some messages. -/
def Undemanding (among : List Nat) (id : Nat) : Prop := ¬a.Demands id ∧ ∀ next, a.Leads id next → next ∈ among

variable {a}

lemma Undemanding.mono {among more : List Nat} (h : a.Undemanding among id) (subset : among ⊆ more) :
    a.Undemanding more id :=
  ⟨h.1, fun next leads => subset (h.2 next leads)⟩

lemma free_of_undemanding {among : List Nat} (closed : ∀ x ∈ among, a.Undemanding among x) (inside : id ∈ among) :
    a.Free id := by
  rintro ⟨other, path, demands⟩
  have reached : other ∈ among := by
    clear demands
    induction path with
    | refl => exact inside
    | tail _ step ih => exact (closed _ ih).2 _ step
  exact (closed other reached).1 demands

lemma Free.isExtensible (free : a.Free id) (found : a.message? id = some m) : m.isExtensible = false := by
  by_contra extensible
  exact free ⟨id, .refl, m, found, .inl (by simpa using extensible)⟩

lemma Free.isRequired (free : a.Free id) (found : a.message? id = some m) (declared : f ∈ m.fields) :
    f.isRequired = false := by
  by_contra required
  exact free ⟨id, .refl, m, found, .inr ⟨f, declared, by simpa using required⟩⟩

lemma Free.next (free : a.Free id) (found : a.message? id = some m) (declared : f ∈ m.fields)
    {next : Nat} (target : a.typeMessage? f = some next) : a.Free next :=
  fun ⟨other, path, demands⟩ => free ⟨other, .head ⟨m, found, f, declared, target⟩ path, demands⟩

lemma message?_of_typeMessage? (h : a.typeMessage? f = some id) : ∃ m, a.message? id = some m := by
  have known := (Option.filter_eq_some_iff.1 h).2
  exact Option.isSome_iff_exists.1 known

lemma lt_of_message? (found : a.message? id = some m) : id < a.nodes.length := by
  obtain ⟨node, there, -⟩ := Option.bind_eq_some_iff.1 found
  exact (List.getElem?_eq_some_iff.1 there).1

end Forest

/-! ## The search -/

/-- What a search that found nothing has made of the list of visited messages. -/
structure Explored (a : Arena) (before after : List Nat) : Prop where
  subset : before ⊆ after
  distinct : after.Nodup
  known : ∀ x ∈ after, x < a.nodes.length
  done : ∀ x ∈ after, x ∉ before → a.Undemanding after x

namespace Explored

variable {a : Arena} {before middle after : List Nat}

lemma refl (distinct : before.Nodup) (known : ∀ x ∈ before, x < a.nodes.length) :
    Explored a before before :=
  ⟨List.Subset.refl _, distinct, known, fun _ inside outside => absurd inside outside⟩

lemma trans (first : Explored a before middle) (second : Explored a middle after) :
    Explored a before after where
  subset := fun _ inside => second.subset (first.subset inside)
  distinct := second.distinct
  known := second.known
  done := by
    intro x inside new
    by_cases old : x ∈ middle
    · exact (first.done x old new).mono second.subset
    · exact second.done x inside old

lemma length_le (h : Explored a before after) : after.length ≤ a.nodes.length := by
  have subset : after ⊆ List.range a.nodes.length := fun x inside => mem_range.2 (h.known x inside)
  simpa using (subperm_of_subset h.distinct subset).length_le

lemma length_mono (h : Explored a before after) (distinct : before.Nodup) :
    before.length ≤ after.length :=
  (subperm_of_subset distinct h.subset).length_le

end Explored

section search

variable {a : Arena}

variable {turns : Nat} {seen : List Nat} {fields : List Field} {s : Search}

/-- How a search goes on with one field. -/
def searchField (a : Arena) (turns : Nat) (s : Search) (f : Field) : Search :=
  if s.found then s
  else if f.isRequired then ⟨true, s.seen⟩
  else
    match a.typeMessage? f with
    | none => s
    | some next => searchRequired a turns next s.seen

lemma searchRequired_new (new : id ∉ seen) (found : a.message? id = some m) :
    searchRequired a (turns + 1) id seen = if m.isExtensible then ⟨true, id :: seen⟩
        else m.fields.foldl (searchField a turns) ⟨false, id :: seen⟩ := by
  rw [searchRequired, if_neg (by simpa using new), found]
  rfl

/-- Once something was found, the rest is not looked at. -/
lemma foldl_searchField_found (found : s.found = true) :
    fields.foldl (searchField a turns) s = s := by
  induction fields with
  | nil => rfl
  | cons f rest ih => rw [foldl_cons, searchField, if_pos found, ih]

/-- What is found is found at a field. -/
lemma exists_searchField (none : s.found = false) (found : (fields.foldl (searchField a turns) s).found = true) :
    ∃ f ∈ fields, ∃ s : Search, s.found = false ∧ (searchField a turns s f).found = true := by
  induction fields generalizing s with
  | nil => exact absurd found (by simp [none])
  | cons f rest ih =>
    cases here : (searchField a turns s f).found with
    | true => exact ⟨f, .head _, s, none, here⟩
    | false =>
      obtain ⟨g, member, later⟩ := ih here found
      exact ⟨g, .tail _ member, later⟩

lemma known_cons (found : a.message? id = some m) (known : ∀ x ∈ seen, x < a.nodes.length) :
    ∀ x ∈ id :: seen, x < a.nodes.length := by
  intro x inside
  rcases mem_cons.1 inside with rfl | inside
  · exact Forest.lt_of_message? found
  · exact known x inside

section level

variable (below : ∀ {next : Nat} {seen : List Nat}, seen.Nodup → (∀ x ∈ seen, x < a.nodes.length) →
    a.nodes.length < turns + seen.length → (∃ m, a.message? next = some m) →
    (searchRequired a turns next seen).found = false →
    Explored a seen (searchRequired a turns next seen).seen ∧ next ∈ (searchRequired a turns next seen).seen)
  (distinct : s.seen.Nodup) (known : ∀ x ∈ s.seen, x < a.nodes.length)
  (enough : a.nodes.length < turns + s.seen.length)

include below distinct known enough

/-- A field at which nothing is found is not required, and what it leads to is explored, if the level below
explores. -/
lemma searchField_explored {f : Field} (none : (searchField a turns s f).found = false) :
    Explored a s.seen (searchField a turns s f).seen ∧ f.isRequired = false
      ∧ ∀ next ∈ a.typeMessage? f, next ∈ (searchField a turns s f).seen := by
  unfold searchField at none ⊢
  split at none
  · simp_all
  rename_i unfound
  rw [if_neg unfound]
  split at none
  · cases none
  rename_i optional
  rw [if_neg optional]
  have optional : f.isRequired = false := by simpa using optional
  cases target : a.typeMessage? f with
  | none => exact ⟨.refl distinct known, optional, by simp⟩
  | some next =>
    simp only [target] at none
    obtain ⟨explored, reached⟩ := below distinct known enough (Forest.message?_of_typeMessage? target) none
    refine ⟨explored, optional, fun other same => ?_⟩
    obtain rfl : next = other := by simpa using same
    exact reached

/-- A level of the search explores all messages that some fields lead to. -/
lemma foldl_searchField (none : (fields.foldl (searchField a turns) s).found = false) :
    Explored a s.seen (fields.foldl (searchField a turns) s).seen ∧ ∀ f ∈ fields, f.isRequired = false
        ∧ ∀ next ∈ a.typeMessage? f, next ∈ (fields.foldl (searchField a turns) s).seen := by
  induction fields generalizing s with
  | nil => exact ⟨.refl distinct known, by simp⟩
  | cons f rest ih =>
    rw [foldl_cons] at none ⊢
    have nothing : (searchField a turns s f).found = false := by
      by_contra found
      rw [foldl_searchField_found (by simpa using found)] at none
      exact found none
    obtain ⟨explored, optional, reached⟩ := searchField_explored below distinct known enough nothing
    have grown := explored.length_mono distinct
    obtain ⟨later, others⟩ := ih explored.distinct explored.known (by omega) none
    refine ⟨explored.trans later, fun g member => ?_⟩
    rcases mem_cons.1 member with rfl | inside
    · exact ⟨optional, fun next target => later.subset (reached next target)⟩
    · exact others g inside

/-- A level has the same outcome with one more turn, if the level below has. -/
lemma foldl_searchField_turns (same : ∀ {next : Nat} {seen : List Nat}, seen.Nodup →
      (∀ x ∈ seen, x < a.nodes.length) → a.nodes.length < turns + seen.length →
      searchRequired a (turns + 1) next seen = searchRequired a turns next seen) :
    fields.foldl (searchField a (turns + 1)) s = fields.foldl (searchField a turns) s := by
  induction fields generalizing s with
  | nil => rfl
  | cons f rest ih =>
    have first : searchField a (turns + 1) s f = searchField a turns s f := by
      simp only [searchField, same distinct known enough]
    rw [foldl_cons, foldl_cons, first]
    cases found : (searchField a turns s f).found with
    | true => rw [foldl_searchField_found found, foldl_searchField_found found]
    | false =>
      obtain ⟨explored, -, -⟩ := searchField_explored below distinct known enough found
      have grown := explored.length_mono distinct
      exact ih explored.distinct explored.known (by omega)

end level

section run

variable (distinct : seen.Nodup) (known : ∀ x ∈ seen, x < a.nodes.length)
  (enough : a.nodes.length < turns + seen.length)

include distinct known enough

/-- **A search that finds nothing has explored everything below.** -/
lemma searchRequired_explored (there : ∃ m, a.message? id = some m)
    (none : (searchRequired a turns id seen).found = false) :
    Explored a seen (searchRequired a turns id seen).seen ∧ id ∈ (searchRequired a turns id seen).seen := by
  induction turns generalizing id seen with
  | zero =>
    have := (Explored.refl distinct known).length_le
    omega
  | succ turns ih =>
    by_cases old : id ∈ seen
    · have same : searchRequired a (turns + 1) id seen = ⟨false, seen⟩ := by
        rw [searchRequired, if_pos (by simpa using old)]
      rw [same]
      exact ⟨.refl distinct known, old⟩
    obtain ⟨m, found⟩ := there
    rw [searchRequired_new old found] at none ⊢
    split at none
    · cases none
    rename_i closed
    rw [if_neg closed]
    obtain ⟨explored, fields⟩ := foldl_searchField (s := ⟨false, id :: seen⟩) ih
      (nodup_cons.2 ⟨old, distinct⟩) (known_cons found known)
      (by simp only [length_cons]; omega) none
    have reached := explored.subset (.head _)
    refine ⟨⟨fun x inside => explored.subset (.tail _ inside), explored.distinct,
      explored.known, fun x inside new => ?_⟩, reached⟩
    -- What was added is the message itself, which is done now, or was added below it.
    by_cases self : x = id
    · subst self
      constructor
      · rintro ⟨m', found', extensible | ⟨f, declared, required⟩⟩ <;>
          cases found.symm.trans found'
        · exact closed extensible
        · exact absurd required (by simp [(fields f declared).1])
      · rintro next ⟨m', found', f, declared, target⟩
        cases found.symm.trans found'
        exact (fields f declared).2 next target
    · exact explored.done x inside (by simp [self, new])

/-- **The turns never run out.** -/
lemma searchRequired_turns : searchRequired a (turns + 1) id seen = searchRequired a turns id seen := by
  induction turns generalizing id seen with
  | zero =>
    have := (Explored.refl distinct known).length_le
    omega
  | succ turns ih =>
    by_cases old : id ∈ seen
    · rw [searchRequired, searchRequired, if_pos (by simpa using old), if_pos (by simpa using old)]
    cases found : a.message? id with
    | none => rw [searchRequired, searchRequired, found]
    | some =>
      rw [searchRequired_new old found, searchRequired_new old found,
        foldl_searchField_turns (s := ⟨false, id :: seen⟩) searchRequired_explored
          (nodup_cons.2 ⟨old, distinct⟩) (known_cons found known)
          (by simp only [length_cons]; omega) ih]

end run

/-- **A search that finds something is right.**  The field at which it is found is required or leads to it. -/
lemma needs_of_searchRequired (found : (searchRequired a turns id seen).found = true) : a.Needs id := by
  induction turns generalizing id seen with
  | zero => cases found
  | succ turns ih =>
    by_cases old : id ∈ seen
    · rw [searchRequired, if_pos (by simpa using old)] at found
      cases found
    cases isMessage : a.message? id with
    | none =>
      rw [searchRequired, if_neg (by simpa using old), isMessage] at found
      cases found
    | some m =>
      rw [searchRequired_new old isMessage] at found
      split at found
      · exact ⟨id, .refl, m, isMessage, .inl ‹_›⟩
      obtain ⟨f, declared, s, none, here⟩ := exists_searchField rfl found
      unfold searchField at here
      simp only [none, Bool.false_eq_true, if_false] at here
      split at here
      · exact ⟨id, .refl, m, isMessage, .inr ⟨f, declared, ‹_›⟩⟩
      split at here
      · exact absurd here (by simp [none])
      · rename_i next target
        obtain ⟨other, path, demands⟩ := ih here
        exact ⟨other, .head ⟨m, isMessage, f, declared, target⟩ path, demands⟩

/-- **A search is right.** -/
lemma searchRequired_found_iff (id : Nat) :
    (searchRequired a (a.nodes.length + 1) id []).found = true ↔ a.Needs id := by
  refine ⟨needs_of_searchRequired, fun needs => ?_⟩
  by_contra none
  have none : (searchRequired a (a.nodes.length + 1) id []).found = false := by simpa using none
  have there : ∃ m, a.message? id = some m := by
    obtain ⟨other, path, m, found, -⟩ := needs
    rcases Relation.ReflTransGen.cases_head path with rfl | ⟨next, ⟨m, found, -⟩, -⟩ <;> exact ⟨m, found⟩
  obtain ⟨explored, reached⟩ := searchRequired_explored nodup_nil (by simp) (by simp) there none
  exact Forest.free_of_undemanding (fun x inside => explored.done x inside (by simp)) reached needs

end search

/-! ## Remembered answers -/

/-- What is remembered is right. -/
def RequiredMemo.Sound (a : Arena) (memo : RequiredMemo) : Prop :=
  ∀ id answer, memo.lookup id = some answer → (answer = true ↔ a.Needs id)

lemma RequiredMemo.sound_nil (a : Arena) : RequiredMemo.Sound a [] := by
  intro id answer known
  simp at known

/-- **Each answer** is right, and the memo stays sound. -/
lemma hasRequired_sound {a : Arena} {memo : RequiredMemo} (sound : memo.Sound a) (id : Nat) :
    ((hasRequired a id memo).1 = true ↔ a.Needs id) ∧ (hasRequired a id memo).2.Sound a := by
  unfold hasRequired
  cases known : memo.lookup id with
  | some answer => exact ⟨sound id answer known, sound⟩
  | none =>
    refine ⟨searchRequired_found_iff id, fun other answer remembered => ?_⟩
    by_cases same : other = id
    · subst same
      obtain rfl : _ = answer := by simpa using remembered
      exact searchRequired_found_iff other
    · have differs : (other == id) = false := by simpa using same
      simp only [List.lookup, differs] at remembered
      exact sound other answer remembered

/-- The answers to several questions in a row, each of which remembers those before it. -/
def answers (a : Arena) : RequiredMemo → List Nat → List Bool
  | _, [] => []
  | memo, id :: rest => (hasRequired a id memo).1 :: answers a (hasRequired a id memo).2 rest

/-- **Reachability.**  In any arena, whatever is asked in whatever order, the answer for a message is whether
it reaches one that can be extended or has a required field through zero or more types of fields.  Searches
end before their turns do: with more turns they are the same. -/
theorem answers_iff_reaches (a : Arena) (asked : List Nat) :
    Forall₂ (fun id answer => answer = true
        ↔ ∃ other, Relation.ReflTransGen a.Leads id other ∧ a.Demands other) asked (answers a [] asked)
      ∧ ∀ id more, searchRequired a (a.nodes.length + 1 + more) id []
        = searchRequired a (a.nodes.length + 1) id [] := by
  constructor
  · suffices right : ∀ memo : RequiredMemo, memo.Sound a →
        Forall₂ (fun id answer => answer = true ↔ a.Needs id) asked (answers a memo asked) from
      right [] (RequiredMemo.sound_nil a)
    induction asked with
    | nil => exact fun _ _ => .nil
    | cons id rest ih =>
      intro memo sound
      obtain ⟨right, kept⟩ := hasRequired_sound sound id
      exact .cons right (ih _ kept)
  · intro id more
    induction more with
    | zero => rfl
    | succ more ih =>
      rw [← ih]
      exact searchRequired_turns nodup_nil (by simp) (by simp; omega)

end Missive.Schema
