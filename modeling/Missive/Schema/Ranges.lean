import Missive.Sort

/-!
# Extension ranges

Half-open ranges of field numbers, kept in order of their ends.
-/

namespace Missive.Schema

/-- The extension ranges of a message, in ascending order. -/
structure Ranges where
  list : List (Int × Int)
  deriving DecidableEq

namespace Ranges

/-- The order of ranges: by start, then by end. -/
def le (a b : Int × Int) : Bool := a.1 < b.1 || (a.1 == b.1 && a.2 ≤ b.2)

def ofList (ranges : List (Int × Int)) : Ranges := ⟨sortBy le ranges⟩

def contains (r : Ranges) (number : Int) : Bool :=
  r.list.any fun (start, stop) => start ≤ number && number < stop

/-- Are there no ranges? -/
def isEmpty (r : Ranges) : Bool := r.list.isEmpty

def condition (r : Ranges) (subject : String) : String :=
  " or ".intercalate <| r.list.map fun (start, stop) =>
    if stop = start + 1 then subject ++ " == " ++ toString start
    else toString start ++ " <= " ++ subject ++ " < " ++ toString stop

end Ranges

end Missive.Schema
