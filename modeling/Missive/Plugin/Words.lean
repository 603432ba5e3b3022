/-!
# Words of a parameter

A parameter is split at commas. A word that starts with a quote goes on to the next quote of the
same kind, commas included, and ends with it; quotes elsewhere are ordinary characters. Quotes stay
part of their word.
-/

namespace Missive.Plugin

def isQuote (c : Char) : Bool := c == '\x27' || c == '\x22'

/-- What the splitter is in the middle of: nothing, an open quotation or a plain word. The
characters so far are in reverse order. -/
inductive Splitting where
  | idle
  | quotation (quote : Char) (word : List Char)
  | plain (word : List Char)

/-- Splits a parameter into words; nothing, if a quotation is not closed. -/
def splitFrom : Splitting → List Char → Option (List String)
  | .idle, [] => some []
  | .quotation _ _, [] => none
  | .plain word, [] => some [String.ofList word.reverse]
  | .idle, c :: rest =>
    if c == ',' then splitFrom .idle rest
    else if isQuote c then splitFrom (.quotation c [c]) rest
    else splitFrom (.plain [c]) rest
  | .quotation quote word, c :: rest =>
    if c == quote then (splitFrom .idle rest).map (String.ofList (c :: word).reverse :: ·)
    else splitFrom (.quotation quote (c :: word)) rest
  | .plain word, c :: rest =>
    if c == ',' then (splitFrom .idle rest).map (String.ofList word.reverse :: ·)
    else splitFrom (.plain (c :: word)) rest

def splitWords (parameter : String) : Option (List String) := splitFrom .idle parameter.toList

end Missive.Plugin
