import Missive.Binary64
import Missive.Text.Character

/-!
# Numerals

How the text of an integer or of a floating-point number is read: blanks around it are dropped, a
sign may come first, decimal digits of any script count, and a single underscore may stand between
two digits.
-/

namespace Missive.Text

def trimBlanks (text : List Char) : List Char :=
  ((text.dropWhile isBlank).reverse.dropWhile isBlank).reverse

def splitSign : List Char → Bool × List Char
  | '-' :: rest => (true, rest)
  | '+' :: rest => (false, rest)
  | text => (false, text)

/-- The digits at the front of a text, single underscores between them left out, and the rest. The
flag tells that the previous character was a digit. -/
def digitRun : Bool → List Char → List Nat × List Char
  | _, [] => ([], [])
  | afterDigit, c :: rest =>
    match digitValue? c with
    | some v => let (more, left) := digitRun true rest; (v :: more, left)
    | none =>
      match afterDigit, c, rest with
      | true, '_', d :: _ =>
        if (digitValue? d).isSome then digitRun false rest else ([], c :: rest)
      | _, _, _ => ([], c :: rest)

def digitsValue (digits : List Nat) : Nat :=
  digits.foldl (fun acc d => 10 * acc + d) 0

def maxDigits : Nat := 4300

def readInt? (text : String) : Option Int :=
  let (negative, body) := splitSign (trimBlanks text.toList)
  match digitRun false body with
  | (digits, rest) =>
    if digits.isEmpty || !rest.isEmpty || maxDigits < digits.length then none
    else
      let n : Int := (digitsValue digits : Nat)
      some (if negative then -n else n)

/-- The exponent after the mark `e`, if the text ends there. -/
def readExponent? : List Char → Option Int
  | [] => some 0
  | mark :: rest =>
    if mark = 'e' ∨ mark = 'E' then
      let (negative, body) := splitSign rest
      match digitRun false body with
      | (digits, []) =>
        if digits.isEmpty then none
        else
          let n : Int := (digitsValue digits : Nat)
          some (if negative then -n else n)
      | _ => none
    else none

def splitPoint (text : List Char) : List Nat × List Nat × List Char :=
  match digitRun false text with
  | (whole, '.' :: rest) => let (fraction, left) := digitRun false rest; (whole, fraction, left)
  | (whole, rest) => (whole, [], rest)

/-- The number nearest to `d * 10 ^ e`. Far outside the range of the format the answer is known
without computing the power. -/
def nearestDecimal (negative : Bool) (d : Nat) (e : Int) : Binary64 :=
  let magnitude : Int := (Nat.log2 d : Int) * 3 / 10 + e
  if d = 0 ∨ magnitude < -400 then Binary64.ofRatio negative 0 1
  else if 400 < magnitude then Binary64.ofPattern negative Format.double.infinity
  else if 0 ≤ e then Binary64.ofRatio negative (d * pow10 e.toNat) 1
  else Binary64.ofRatio negative d (pow10 (-e).toNat)

/-- The floating-point number that a text spells. -/
def readFloat? (text : String) : Option Binary64 :=
  let (negative, body) := splitSign (trimBlanks text.toList)
  let word := String.ofList (body.map Char.toLower)
  if word = "inf" ∨ word = "infinity" then
    some (Binary64.ofPattern negative Format.double.infinity)
  else if word = "nan" then some (Binary64.ofPattern negative Binary64.nan.pattern)
  else
    match splitPoint body with
    | (whole, fraction, rest) =>
      if whole.isEmpty && fraction.isEmpty then none
      else
        (readExponent? rest).map fun e =>
          nearestDecimal negative (digitsValue (whole ++ fraction)) (e - (fraction.length : Int))

end Missive.Text
