/-!
# Formats

A format says how a text or an integer is laid out: how it is filled up to a width and on which
side, whether a number shows its sign, its base and its groups of digits, and how much of a text is
shown.

`Format.read?` reads what a format is written as, and `layText?` and `layInt?` apply it. A format
that does not suit what is laid out gives nothing.
-/

namespace Missive.Text

/-- Where the filling goes. -/
inductive Align where
  | left
  | right
  | center
  /-- Between the sign of a number and its digits. -/
  | inside
  deriving DecidableEq, Repr

/-- How something is laid out. -/
structure Format where
  fill : Char := ' '
  align : Align
  sign : Option Char := none
  unsignedZero : Bool := false
  alternate : Bool := false
  width : Nat := 0
  grouping : Option Char := none
  precision : Option Nat := none
  type : Char
  deriving DecidableEq, Repr

namespace Align

/-- The side that a character stands for. -/
def ofChar? : Char → Option Align
  | '<' => some left
  | '>' => some right
  | '^' => some center
  | '=' => some inside
  | _ => none

end Align

namespace Format

/-! ## Reading -/

def takeOneOf (wanted : List Char) : List Char → Option Char × List Char
  | c :: rest => if wanted.contains c then (some c, rest) else (none, c :: rest)
  | [] => (none, [])

def takeNumber (text : List Char) : Option Nat × List Char :=
  let (digits, rest) := text.span Char.isDigit
  ((String.ofList digits).toNat?, rest)

/-- Takes the filling and the side off the front of a format, and tells of each whether it was
there. A filling is written before a side. -/
def takeFill (f : Format) : List Char → Format × Bool × Bool × List Char
  | c :: d :: rest =>
    match Align.ofChar? d, Align.ofChar? c with
    | some align, _ => ({ f with fill := c, align }, true, true, rest)
    | none, some align => ({ f with align }, false, true, d :: rest)
    | none, none => (f, false, false, c :: d :: rest)
  | [c] =>
    match Align.ofChar? c with
    | some align => ({ f with align }, false, true, [])
    | none => (f, false, false, [c])
  | [] => (f, false, false, [])

/-- A zero before the width fills with zeros, in numbers behind the sign. -/
def takeZero (f : Format) (filled aligned : Bool) (text : List Char) : Format × List Char :=
  match text, filled with
  | '0' :: rest, false =>
    let align := if !aligned && f.align == .right then .inside else f.align
    ({ f with fill := '0', align }, rest)
  | _, _ => (f, text)

def allowsGroups (separator type : Char) : Bool :=
  type == 'd' || (separator == '_' && ['b', 'o', 'x', 'X'].contains type)

/-- Reads the end of a format: how digits are grouped, how much is shown, and the type. -/
def readEnd? (f : Format) (text : List Char) : Option Format :=
  let (grouping, text) := takeOneOf [',', '_'] text
  let shown :=
    match text with
    | '.' :: rest =>
      match takeNumber rest with
      | (some n, rest) => some (some n, rest)
      | (none, _) => none
    | _ => some (none, text)
  match shown with
  | none => none
  | some (precision, text) =>
    let type := match text with
      | [] => some f.type
      | [c] => some c
      | _ => none
    type.bind fun type =>
      if grouping.all fun separator => allowsGroups separator type then
        some { f with grouping, precision, type }
      else none

/-- The format that a text describes, for a number or for a text. -/
def read? (numeric : Bool) (text : String) : Option Format :=
  let start : Format :=
    if numeric then { align := .right, type := 'd' } else { align := .left, type := 's' }
  let (f, filled, aligned, rest) := start.takeFill text.toList
  let (sign, rest) := takeOneOf [' ', '+', '-'] rest
  let (zero, rest) := takeOneOf ['z'] rest
  let (mark, rest) := takeOneOf ['#'] rest
  let f := { f with sign, unsignedZero := zero.isSome, alternate := mark.isSome }
  let (f, rest) := f.takeZero filled aligned rest
  let (width, rest) := takeNumber rest
  { f with width := width.getD 0 }.readEnd? rest

/-! ## Laying out -/

def run (n : Nat) (c : Char) : String := String.ofList (List.replicate n c)

/-- Fills a text up to the width. What stands before the inside stays in front of the filling. -/
def filled (f : Format) (before inside : String) : String :=
  let missing := f.width - (before.length + inside.length)
  match f.align with
  | .left => before ++ inside ++ run missing f.fill
  | .right => run missing f.fill ++ before ++ inside
  | .center => run (missing / 2) f.fill ++ before ++ inside ++ run (missing - missing / 2) f.fill
  | .inside => before ++ run missing f.fill ++ inside

def layText? (f : Format) (text : String) : Option String :=
  let suits := f.type == 's' && f.sign.isNone && !f.unsignedZero && !f.alternate && f.align != .inside
  if suits then
    some (f.filled "" (String.ofList (text.toList.take (f.precision.getD text.length))))
  else none

def grouped (separator : Char) (size : Nat) (digits : List Char) : List Char :=
  let step := fun (count, (out : List Char)) c =>
    if count == size then (1, c :: separator :: out) else (count + 1, c :: out)
  (digits.reverse.foldl step (0, [])).2

def digitsFor (size width count : Nat) : Nat :=
  ((List.range (width + 1)).find? fun n => count ≤ n && width ≤ n + (n - 1) / size).getD count

/-- The digits of a number in groups. Where zeros fill a number behind its sign, they are grouped
too. -/
def groupedDigits (f : Format) (separator : Char) (size taken : Nat) (digits : String) : String :=
  let zeros :=
    if f.fill == '0' && f.align == .inside then
      digitsFor size (f.width - taken) digits.length - digits.length
    else 0
  String.ofList (grouped separator size (List.replicate zeros '0' ++ digits.toList))

/-- The base of a type of number, and what marks it. -/
def base? : Char → Option (Nat × String)
  | 'd' | 'n' => some (10, "")
  | 'b' => some (2, "0b")
  | 'o' => some (8, "0o")
  | 'x' => some (16, "0x")
  | 'X' => some (16, "0X")
  | _ => none

/-- What stands for the sign of a number. -/
def signText (f : Format) (i : Int) : String :=
  if i < 0 then "-"
  else
    match f.sign with
    | some '+' => "+"
    | some ' ' => " "
    | _ => ""

def layInt? (f : Format) (i : Int) : Option String :=
  if f.precision.isSome || f.unsignedZero then none
  else if f.type == 'c' then
    if f.sign.isNone && !f.alternate && 0 ≤ i then
      some (f.filled "" (Char.ofNat i.toNat).toString)
    else none
  else
    (base? f.type).map fun (base, mark) =>
      let digits := String.ofList (Nat.toDigits base i.natAbs)
      let digits := if f.type == 'X' then digits.map Char.toUpper else digits
      let before := f.signText i ++ (if f.alternate then mark else "")
      match f.grouping with
      | none => f.filled before digits
      | some separator =>
        let size := if f.type == 'd' then 3 else 4
        f.filled before (f.groupedDigits separator size before.length digits)

end Format

end Missive.Text
