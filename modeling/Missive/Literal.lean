import Missive.Decimal.Shortest
import Missive.Value

/-!
# Literals of scalars

The text of a scalar, as generated code writes it and as messages are shown.
-/

namespace Missive

/-- Numbers from `1e-4` up to below `1e16` are written positionally, all others with an exponent of
at least two digits. -/
def floatLayout : Decimal.DigitLayout := ⟨-4, 16, 2⟩

namespace Scalar

def literal : Scalar → String
  | none => "None"
  | bool b => if b then "True" else "False"
  | int i => toString i
  | float x => floatLayout.text x
  | bytes data => Text.quotedBytes data
  | text s => Text.quoted s

/-- The text of a scalar inside other text: a text stands for itself. -/
def display : Scalar → String
  | text s => s
  | s => s.literal

/-- Numbers that are not finite have no literal and are converted from their text. -/
def isConverted : Scalar → Bool
  | float x => !x.isFinite
  | _ => false

def expression (s : Scalar) : String :=
  if s.isConverted then "float('" ++ s.literal ++ "')" else s.literal

end Scalar

end Missive
