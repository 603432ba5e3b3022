/-!
# Ownership

A storage knows how many messages own it, and whether a reference into it was given out. Only a
storage with one owner may be written to, and only one without such references may be shared.
-/

namespace Missive

/-- Who uses a storage. -/
structure Ownership where
  owners : Nat := 1
  escaped : Bool := false
  deriving DecidableEq, Repr

namespace Ownership

def retain (o : Ownership) : Ownership := { o with owners := o.owners + 1 }

def release (o : Ownership) : Ownership := { o with owners := o.owners - 1 }

def markEscaped (o : Ownership) : Ownership := { o with escaped := true }

def isUnique (o : Ownership) : Bool := o.owners == 1

end Ownership

end Missive
