import Missive.Text.WordTable
import Missive.Text.DigitTable
import Missive.Text.PrintTable
import Missive.Text.CaseTable

/-!
# Character classes

The classes that identifiers, numerals and quoted text depend on. Each is a look-up in a table of
ranges or runs of code points, so all of them cover every character and not only the ASCII ones.
-/

namespace Missive.Text

def inRanges (ranges : List (Nat × Nat)) (c : Char) : Bool :=
  ranges.any fun (first, last) => first ≤ c.toNat && c.toNat ≤ last

/-- Does a code point lie in one of the runs that are in a class?  The runs that are not in it and those
that are follow each other in turns. -/
def inRuns (inside : Bool) : List Nat → Nat → Bool
  | [], _ => false
  | length :: rest, code => if code < length then inside else inRuns (!inside) rest (code - length)

def isWord (c : Char) : Bool := inRuns false wordRuns c.toNat

def isPrintable (c : Char) : Bool := !inRuns false unprintableRuns c.toNat

def isBlank (c : Char) : Bool :=
  inRanges [(0x9, 0xd), (0x20, 0x20), (0x85, 0x85), (0xa0, 0xa0), (0x1680, 0x1680), (0x2000, 0x200a),
    (0x2028, 0x2029), (0x202f, 0x202f), (0x205f, 0x205f), (0x3000, 0x3000)] c

def digitValue? (c : Char) : Option Nat :=
  zeros.findSome? fun first => if first ≤ c.toNat && c.toNat < first + 10 then some (c.toNat - first) else none

def isDigit (c : Char) : Bool := (digitValue? c).isSome || inRanges otherDigits c

/-- The upper case of a character, which may be several characters. -/
def upper (c : Char) : List Char :=
  match upperExpansions.lookup c.toNat with
  | some codes => codes.map Char.ofNat
  | none =>
    let run := upperRuns.findSome? fun (first, last, distance) =>
      if first ≤ c.toNat && c.toNat ≤ last then some distance else none
    let turn := upperTurns.any fun (first, last) =>
      first ≤ c.toNat && c.toNat ≤ last && (c.toNat - first) % 2 == 0
    let distance := (run.or (upperSingles.lookup c.toNat)).getD (if turn then -1 else 0)
    [Char.ofNat ((c.toNat : Int) + distance).toNat]

def hexDigit (n : Nat) : Char :=
  if n < 10 then Char.ofNat (48 + n) else Char.ofNat (87 + n)

/-- The last `width` hexadecimal digits of a number. -/
def hexDigits : (width : Nat) → Nat → List Char
  | 0, _ => []
  | width + 1, n => hexDigits width (n / 16) ++ [hexDigit (n % 16)]

/-- The value of a hexadecimal digit of either case. -/
def hexValue? (c : Char) : Option Nat :=
  let n := c.toNat
  if 48 ≤ n ∧ n ≤ 57 then some (n - 48)
  else if 97 ≤ n ∧ n ≤ 102 then some (n - 87)
  else if 65 ≤ n ∧ n ≤ 70 then some (n - 55)
  else none

def octalValue? (c : Char) : Option Nat :=
  let n := c.toNat
  if 48 ≤ n ∧ n ≤ 55 then some (n - 48) else none

end Missive.Text
