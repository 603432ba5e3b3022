/-!
# Code

Generated code is a tree of lines and blocks. A block carries its body, so a compound statement and
what belongs to it cannot come apart, and indentation is made in one place, when a tree is laid out.
-/

namespace Missive

/-- A piece of generated code. -/
inductive Code where
  /-- One line; an empty one is blank. -/
  | line (text : String)
  /-- A compound statement and its body. -/
  | block (head : String) (body : List Code)
  /-- A statement that goes on over several lines inside brackets. -/
  | wrapped (opening : String) (inner : List String) (closing : String)
  /-- A compound statement whose head goes on over several lines inside brackets. -/
  | wrappedBlock (opening : String) (inner : List String) (closing : String) (body : List Code)

namespace Code

def blank : Code := line ""

/-- A line and its level of indentation. -/
structure Line where
  level : Nat
  text : String
  deriving DecidableEq

def indentWidth : Nat := 4

/-- The text of a line. Blank lines are not indented. -/
def Line.render (l : Line) : String :=
  if l.text.isEmpty then ""
  else String.ofList (List.replicate (indentWidth * l.level) ' ') ++ l.text

mutual

def lines (level : Nat) : Code → List Line
  | line text => [⟨level, text⟩]
  | block head body => ⟨level, head⟩ :: linesOf (level + 1) body
  | wrapped opening inner closing =>
    ⟨level, opening⟩ :: inner.map (⟨level + 1, ·⟩) ++ [⟨level, closing⟩]
  | wrappedBlock opening inner closing body =>
    ⟨level, opening⟩ :: inner.map (⟨level + 1, ·⟩) ++ ⟨level, closing⟩ :: linesOf (level + 1) body

def linesOf (level : Nat) : List Code → List Line
  | [] => []
  | c :: rest => lines level c ++ linesOf level rest

end

def render (code : List Code) : String :=
  String.join ((linesOf 0 code).map fun l => l.render ++ "\n")

def separated : List (List Code) → List Code
  | [] => []
  | [piece] => piece
  | piece :: rest => piece ++ blank :: separated rest

end Code

end Missive
