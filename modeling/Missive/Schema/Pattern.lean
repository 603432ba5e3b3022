import Missive.Sort

/-!
# Patterns of field numbers

A case of a dispatcher matches a set of field numbers. Three or more consecutive numbers are written
as a closed range, anything else as a list.
-/

namespace Missive.Schema

/-- Some field numbers in ascending order. -/
structure Pattern where
  numbers : List Int
  deriving DecidableEq

namespace Pattern

/-- The pattern of some numbers; there has to be one. -/
def ofNumbers? (numbers : List Int) : Option Pattern :=
  if numbers.isEmpty then none else some ⟨sortBy (fun a b => decide (a ≤ b)) numbers⟩

def first (p : Pattern) : Int := p.numbers.headD 0

def last (p : Pattern) : Int := p.numbers.getLastD 0

def isRange (p : Pattern) : Bool :=
  2 < p.numbers.length && p.first + p.numbers.length - 1 == p.last

def contains (p : Pattern) (number : Int) : Bool :=
  if p.isRange then p.first ≤ number && number ≤ p.last else p.numbers.contains number

def caseClause (p : Pattern) (subject : String) : String :=
  if p.isRange then
    "_ if " ++ toString p.first ++ " <= " ++ subject ++ " <= " ++ toString p.last
  else " | ".intercalate (p.numbers.map toString)

def describe (p : Pattern) : String :=
  if p.isRange then toString p.first ++ "..." ++ toString p.last
  else ", ".intercalate (p.numbers.map toString)

def literal (p : Pattern) : String :=
  "FieldNumberPattern([" ++ ", ".intercalate (p.numbers.map toString) ++ "])"

end Pattern

end Missive.Schema
