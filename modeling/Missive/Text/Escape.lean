import Missive.Bytes
import Missive.Text.Character
import Missive.Text.NameTable

/-!
# Escaped byte strings

The default of a bytes field is written as text with backslash escapes. It is read in three passes,
each over the whole text: a one-digit hexadecimal escape is widened to two digits; escapes of four
or eight hexadecimal digits are replaced by their characters; and the result, taken as UTF-8, has
its other escapes replaced, each by one character. In the end every character must be a byte.

For the second pass a character beyond a byte is itself written as an escape, so a backslash before
it takes the escape apart. A backslash before a line end joins the lines, and an unknown escape
stands for itself, backslash included.
-/

namespace Missive.Text

/-- Why an escaped byte string has no value. -/
inductive EscapeFault where
  /-- An escape is cut off by the end of the text, lacks its digits or names no character. -/
  | malformed
  /-- A character is larger than a byte. -/
  | tooLarge (code : Nat)
  deriving DecidableEq

/-- Widens one-digit hexadecimal escapes. `odd` tells whether an odd number of backslashes stands
right before. -/
def widenHex : Bool → List Char → List Char
  | _, [] => []
  | odd, 'x' :: h :: rest =>
    if odd && (hexValue? h).isSome && !((rest.head?.bind hexValue?).isSome) then
      'x' :: '0' :: h :: widenHex false rest
    else 'x' :: widenHex false (h :: rest)
  | odd, c :: rest => c :: widenHex (if c = '\\' then !odd else false) rest

/-- Writes the characters beyond a byte as escapes of four or eight hexadecimal digits. -/
def spellWide (c : Char) : List Nat :=
  if c.toNat < 256 then [c.toNat]
  else
    let digits := if c.toNat < 65536 then 'u' :: hexDigits 4 c.toNat else 'U' :: hexDigits 8 c.toNat
    ('\\' :: digits).map Char.toNat

/-- Exactly `width` hexadecimal digits: their value, starting from `acc`, and the rest. -/
def hexRun? : (width : Nat) → (acc : Nat) → List Nat → Option (Nat × List Nat)
  | 0, acc, rest => some (acc, rest)
  | width + 1, acc, code :: rest =>
    match hexValue? (Char.ofNat code) with
    | some v => hexRun? width (16 * acc + v) rest
    | none => none
  | _ + 1, _, [] => none

/-- The code point that `width` hexadecimal digits spell, and the rest. -/
def codePoint (width : Nat) (codes : List Nat) : Except EscapeFault (Nat × List Nat) :=
  match hexRun? width 0 codes with
  | some (code, rest) => if code < 0x110000 then .ok (code, rest) else .error .malformed
  | none => .error .malformed

/-- Replaces the escapes of four and eight hexadecimal digits and keeps the others. The first
argument bounds the length. -/
def resolveWide : (fuel : Nat) → List Nat → Except EscapeFault (List Nat)
  | 0, _ => .ok []
  | _ + 1, [] => .ok []
  | _ + 1, [code] => .ok [code]
  | fuel + 1, code :: next :: rest =>
    if code ≠ '\\'.toNat then (code :: ·) <$> resolveWide fuel (next :: rest)
    else if next = 'u'.toNat ∨ next = 'U'.toNat then do
      let (point, left) ← codePoint (if next = 'u'.toNat then 4 else 8) rest
      return point :: (← resolveWide fuel left)
    else ([code, next] ++ ·) <$> resolveWide fuel rest

def utf8Of (point : Nat) : Except EscapeFault (List Nat) :=
  if 0xd800 ≤ point ∧ point < 0xe000 then .error (.tooLarge point)
  else .ok ((String.singleton (Char.ofNat point)).toUTF8.toList.map UInt8.toNat)

/-- The code point of a name, in any case of its letters. Of a character beyond a byte only that it
is one is known. -/
def named? (name : String) : Option Nat :=
  let name := String.ofList (name.toList.map Char.toUpper)
  match byteNames.lookup name with
  | some code => some code
  | none => if wideNames.contains name then some 256 else none

/-- The code point of a name in braces, and what follows the braces. -/
def namedPoint : List Nat → Except EscapeFault (Nat × List Nat)
  | [] => .error .malformed
  | opening :: rest =>
    if opening ≠ '\x7b'.toNat then .error .malformed
    else
      match rest.span (· != '\x7d'.toNat) with
      | (name, _ :: left) =>
        match named? (String.ofList (name.map Char.ofNat)) with
        | some code => .ok (code, left)
        | none => .error .malformed
      | (_, []) => .error .malformed

/-- Up to `limit` octal digits: their value, starting from `acc`, and the rest. -/
def octalRun : (limit : Nat) → (acc : Nat) → List Nat → Nat × List Nat
  | limit + 1, acc, code :: rest =>
    match octalValue? (Char.ofNat code) with
    | some v => octalRun limit (8 * acc + v) rest
    | none => (acc, code :: rest)
  | _, acc, rest => (acc, rest)

def letterEscape? (c : Char) : Option Nat :=
  if c = 'n' then some 10
  else if c = 't' then some 9
  else if c = 'r' then some 13
  else if c = 'a' then some 7
  else if c = 'b' then some 8
  else if c = 'f' then some 12
  else if c = 'v' then some 11
  else if c = '\\' ∨ c = '\x22' ∨ c = '\x27' then some c.toNat
  else none

/-- What an escape stands for, given what follows its backslash, and the rest. -/
def resolveEscape : List Nat → Except EscapeFault (List Nat × List Nat)
  | [] => .error .malformed
  | next :: rest =>
    let c := Char.ofNat next
    match letterEscape? c, octalValue? c with
    | some v, _ => .ok ([v], rest)
    | none, some v => let (value, left) := octalRun 2 v rest; .ok ([value], left)
    | none, none =>
      let point := fun (found : Except EscapeFault (Nat × List Nat)) => do
        let (code, left) ← found
        return ([code], left)
      if c = '\n' then .ok ([], rest)
      else if c = 'x' then point (codePoint 2 rest)
      else if c = 'u' then point (codePoint 4 rest)
      else if c = 'U' then point (codePoint 8 rest)
      else if c = 'N' then point (namedPoint rest)
      else .ok (['\\'.toNat, next], rest)

/-- Replaces the escapes in a text given by its codes. The first argument bounds the length. -/
def resolveEscapes : (fuel : Nat) → List Nat → Except EscapeFault (List Nat)
  | 0, _ => .ok []
  | _ + 1, [] => .ok []
  | fuel + 1, code :: rest =>
    if code ≠ '\\'.toNat then (code :: ·) <$> resolveEscapes fuel rest
    else do
      let (value, left) ← resolveEscape rest
      return value ++ (← resolveEscapes fuel left)

/-- The byte of a code, if it is one. -/
def byteOf (code : Nat) : Except EscapeFault UInt8 :=
  if code < 256 then .ok (UInt8.ofNat code) else .error (.tooLarge code)

def unescape (text : String) : Except EscapeFault Bytes := do
  let spelled := (widenHex false text.toList).flatMap spellWide
  let points ← resolveWide (spelled.length + 1) spelled
  let codes := (← points.mapM utf8Of).flatten
  let resolved ← resolveEscapes (codes.length + 1) codes
  resolved.mapM byteOf

end Missive.Text
