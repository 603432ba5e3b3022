import Missive.Message.Item

/-!
# Unknown fields

Fields that a message does not know are kept as the bytes they were read from, tags included, and
written back unchanged.
-/

namespace Missive

/-- The raw bytes of unknown fields, in the order in which they were read. -/
structure Unknown where
  data : Bytes := []
  deriving DecidableEq

namespace Unknown

def append (u : Unknown) (field : Bytes) : Unknown := ⟨u.data ++ field⟩

def isEmpty (u : Unknown) : Bool := u.data.isEmpty

/-- The items that a walk meets: none, if there are no unknown fields. -/
def items (u : Unknown) : List Item := if u.isEmpty then [] else [.unknown u.data]

def literal (u : Unknown) : String := "UnknownStorage(" ++ Text.quotedBytes u.data ++ ")"

end Unknown

end Missive
