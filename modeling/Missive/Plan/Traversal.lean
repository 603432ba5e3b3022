import Missive.Plan.Basic

/-!
# The order of traversal

Fields are visited in ascending order of their numbers, extension ranges at their place among them.
The members of a oneof share one slot, so a run of neighbouring members is one visit. A oneof whose
members form a single run is visited without bounds; one that other fields or ranges interrupt is
visited once for each run, bounded by the numbers of the run.
-/

namespace Missive.Plan

open Schema

/-- A field or an extension range, in the order of numbers. -/
inductive Mark where
  | field (f : Field)
  | range (start stop : Int)

/-- Puts ranges between fields: each before the first field with a larger number. Both lists are in
ascending order. -/
def mergeMarks : List Field → List (Int × Int) → List Mark
  | [], ranges => ranges.map fun (start, stop) => .range start stop
  | f :: rest, ranges =>
    let before := ranges.takeWhile fun (start, _) => start < f.number
    let after := ranges.dropWhile fun (start, _) => start < f.number
    before.map (fun (start, stop) => .range start stop) ++ .field f :: mergeMarks rest after

/-- A stretch of the traversal. -/
inductive Stretch where
  | field (f : Field)
  | run (o : Oneof) (start stop : Int)
  | range (start stop : Int)

/-- Adds a mark in front of what follows it: a member joins a run of its oneof. -/
def joinMark (m : Message) (mark : Mark) (following : List Stretch) : List Stretch :=
  match mark with
  | .range start stop => .range start stop :: following
  | .field f =>
    match m.oneofOf f with
    | none => .field f :: following
    | some o =>
      match following with
      | .run o' _ stop :: rest =>
        if o.index == o'.index then .run o f.number stop :: rest
        else .run o f.number (f.number + 1) :: following
      | _ => .run o f.number (f.number + 1) :: following

def stretches (m : Message) : List Stretch :=
  (mergeMarks m.sorted m.ranges.list).foldr (joinMark m) []

/-- Does neither another field nor an extension range lie between the members of a oneof? -/
def isUnbroken (m : Message) (o : Oneof) : Bool :=
  let first := o.numbers.headD 0
  let last := o.numbers.getLastD 0
  m.isContinuous o && !m.ranges.list.any fun (start, _) => decide (first < start) && decide (start < last)

/-- The visits of a message. Slots are found by the number of a field or the position of a oneof. -/
def visits (m : Message) (fieldSlot : Int → Nat) (oneofSlot : Nat → Nat) : List Visit :=
  (stretches m).map fun
    | .field f => .field (fieldSlot f.number)
    | .run o start stop =>
      .oneof (oneofSlot o.index) (if isUnbroken m o then none else some (start, stop))
    | .range start stop => .extensions start stop

end Missive.Plan
