import Missive.Code.Basic

/-!
# Sheets

A sheet is a named text that is written line by line at a changing level of indentation.
-/

namespace Missive

/-- A text under construction. -/
structure Sheet where
  name : String
  content : String := ""
  level : Nat := 0

namespace Sheet

def line (s : Sheet) (text : String) : Sheet :=
  { s with content := s.content ++ (Code.Line.mk s.level text).render ++ "\n" }

def lines (s : Sheet) (texts : List String) : Sheet := texts.foldl line s

def indent (s : Sheet) : Sheet := { s with level := s.level + 1 }

def dedent (s : Sheet) : Sheet := { s with level := s.level - 1 }

end Sheet

end Missive
