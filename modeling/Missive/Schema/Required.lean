import Missive.Schema.Arena

/-!
# Required fields

A message needs a completeness check if it, or a message that it can contain, has a required field.
An extensible message counts as one that has, since an extension may bring one.

The search goes depth first and visits every message once; its answers are remembered.
-/

namespace Missive.Schema

/-- The answer of a search, and the messages it has visited. -/
structure Search where
  found : Bool
  seen : List Nat

/-- Searches from a message, for as many levels as there are turns. -/
def searchRequired (a : Arena) : (turns : Nat) → Nat → List Nat → Search
  | 0, _, seen => ⟨false, seen⟩
  | turns + 1, id, seen =>
    if seen.contains id then ⟨false, seen⟩
    else
      match a.message? id with
      | none => ⟨false, id :: seen⟩
      | some m =>
        if m.isExtensible then ⟨true, id :: seen⟩
        else
          m.fields.foldl (fun s f =>
              if s.found then s
              else if f.isRequired then ⟨true, s.seen⟩
              else
                match a.typeMessage? f with
                | none => s
                | some next => searchRequired a turns next s.seen)
            ⟨false, id :: seen⟩

abbrev RequiredMemo := List (Nat × Bool)

/-- Does a message, or one it can contain, have required fields? -/
def hasRequired (a : Arena) (id : Nat) (memo : RequiredMemo) : Bool × RequiredMemo :=
  match memo.lookup id with
  | some answer => (answer, memo)
  | none =>
    let answer := (searchRequired a (a.nodes.length + 1) id []).found
    (answer, (id, answer) :: memo)

end Missive.Schema
