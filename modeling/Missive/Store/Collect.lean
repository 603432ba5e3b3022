import Missive.Store.Owners

/-!
# Reachability

An object lives as long as something refers to it: a root, or a live object, list, map or case. An
object that is not reachable any more gives up its share in its storage, unless its class has the
name of the method that does so for something else.

`reachable` follows references depth first and enters each node once, so that as many steps as the
store has nodes are enough. `collect` ends the life of all objects that were not reached.
-/

namespace Missive

mutual

def Cell.refs : Cell → List Ref
  | .scalar _ => []
  | .tuple items => refsOfList items
  | .frozen entries => refsOfEntries entries
  | .case index => [.case index]
  | .list index => [.list index]
  | .map index => [.map index]
  | .message index => [.object index]

def refsOfList : List Cell → List Ref
  | [] => []
  | c :: rest => c.refs ++ refsOfList rest

def refsOfEntries : List (Key × Cell) → List Ref
  | [] => []
  | (_, c) :: rest => c.refs ++ refsOfEntries rest

end

namespace Store

def cells (s : Store) (o : Object) : List Cell :=
  s.slots o ++ o.extensions.map (·.2) ++ o.loose.map (·.2)

def children (s : Store) : Ref → List Ref
  | .object index => ((s.objects[index]?).map fun o => refsOfList (s.cells o)).getD []
  | .list index => refsOfList (s.list index)
  | .map index => refsOfEntries (s.map index)
  | .case index =>
    ((s.cases[index]?).map fun c => c.value.refs ++ refsOfList (c.loose.map (·.2))).getD []

def size (s : Store) : Nat :=
  s.objects.length + s.lists.length + s.maps.length + s.cases.length

/-- Adds what a node leads to within some steps to what was reached before. -/
def reach (s : Store) : (steps : Nat) → List Ref → Ref → List Ref
  | 0, reached, _ => reached
  | steps + 1, reached, ref =>
    if reached.contains ref then reached
    else (s.children ref).foldl (s.reach steps) (ref :: reached)

def reachable (s : Store) (roots : List Cell) : List Ref :=
  (refsOfList roots).foldl (s.reach (s.size + 1)) []

def memberMaps (s : Store) : List Cell := s.members.map fun (_, names) => .map names

/-- Ends the life of an object, which gives up its share in a storage. A count that cannot be lowered
stays. -/
def bury (p : Program) (s : Store) (index : Nat) : Store :=
  match s.objects[index]? with
  | none => s
  | some o =>
    match storageOf? o, p.plan? o.type with
    | some storage, some c =>
      if c.takes "__del__" then s
      else
        (s.updateObject index fun o => { o with body := .inline [] }).updateStorage storage
          fun shared => (shared.release c).toOption.getD shared
    | _, _ => s

/-- Ends the life of all objects that cannot be reached from the roots. -/
def collect (p : Program) (s : Store) (roots : List Cell) : Store :=
  let reached := s.reachable (roots ++ s.memberMaps)
  ((List.range s.objects.length).filter fun index => !reached.contains (.object index)).foldl (bury p) s

end Store

end Missive
