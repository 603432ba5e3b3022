/-!
# Splitting text

A text is cut at a character into the parts between its occurrences, by recursion on the characters.
-/

namespace Missive.Text

/-- The parts of some characters between the occurrences of one. There is always a first part. -/
def splitChars (separator : Char) : List Char → List (List Char)
  | [] => [[]]
  | c :: rest =>
    let parts := splitChars separator rest
    if c = separator then [] :: parts else (c :: parts.headD []) :: parts.tail

def split (separator : Char) (text : String) : List String :=
  (splitChars separator text.toList).map String.ofList

end Missive.Text
