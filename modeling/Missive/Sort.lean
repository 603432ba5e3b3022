/-!
# Sorting

A stable sort by insertion. It recurses on the list alone, so the order of a closed list can be
computed in a proof.
-/

namespace Missive

variable {α : Type}

def insertBy (le : α → α → Bool) (x : α) : List α → List α
  | [] => [x]
  | y :: rest => if le x y then x :: y :: rest else y :: insertBy le x rest

def sortBy (le : α → α → Bool) : List α → List α
  | [] => []
  | x :: rest => insertBy le x (sortBy le rest)

section

variable (le : α → α → Bool)

theorem insertBy_perm (x : α) (l : List α) : (insertBy le x l).Perm (x :: l) := by
  induction l with
  | nil => exact .refl _
  | cons y rest ih =>
    rw [insertBy]
    split
    · exact .refl _
    · exact (ih.cons y).trans (.swap x y rest)

theorem sortBy_perm (l : List α) : (sortBy le l).Perm l := by
  induction l with
  | nil => exact .refl _
  | cons x rest ih => exact (insertBy_perm le x _).trans (ih.cons x)

@[simp] theorem mem_sortBy {x : α} {l : List α} : x ∈ sortBy le l ↔ x ∈ l :=
  (sortBy_perm le l).mem_iff

variable {le}

theorem pairwise_insertBy (trans : ∀ a b c, le a b → le b c → le a c) (total : ∀ a b, le a b || le b a)
    (x : α) {l : List α} (sorted : l.Pairwise fun a b => le a b) :
    (insertBy le x l).Pairwise fun a b => le a b := by
  induction l with
  | nil => exact .cons (fun _ none => absurd none List.not_mem_nil) .nil
  | cons y rest ih =>
    obtain ⟨first, later⟩ := List.pairwise_cons.1 sorted
    rw [insertBy]
    split
    · rename_i before
      refine .cons (fun z member => ?_) sorted
      cases List.mem_cons.1 member with
      | inl same => exact same ▸ before
      | inr inside => exact trans x y z before (first z inside)
    · rename_i behind
      have before : le y x = true := by simpa [behind] using total x y
      refine .cons (fun z member => ?_) (ih later)
      cases List.mem_cons.1 ((insertBy_perm le x rest).mem_iff.1 member) with
      | inl same => exact same ▸ before
      | inr inside => exact first z inside

theorem pairwise_sortBy (trans : ∀ a b c, le a b → le b c → le a c) (total : ∀ a b, le a b || le b a)
    (l : List α) : (sortBy le l).Pairwise fun a b => le a b := by
  induction l with
  | nil => exact .nil
  | cons x rest ih => exact pairwise_insertBy trans total x ih

end

end Missive
