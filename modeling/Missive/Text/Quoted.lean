import Missive.Bytes
import Missive.Text.Character

/-!
# Quoted text

A string or byte string is written between quotes. Single quotes are preferred; double quotes serve
when the text has a single quote and no double one. The backslash and the chosen quote are escaped,
the common control characters have letters, and everything that is not printable is written by its
number in hexadecimal digits.
-/

namespace Missive.Text

def apostrophe : Char := '\x27'

def quotationMark : Char := '\x22'

def quoteFor (text : List Char) : Char :=
  if text.contains apostrophe && !text.contains quotationMark then quotationMark else apostrophe

/-- The escapes that do not depend on what is printable. -/
def commonEscape? (quote c : Char) : Option (List Char) :=
  if c = quote ∨ c = '\\' then some ['\\', c]
  else if c = '\t' then some ['\\', 't']
  else if c = '\n' then some ['\\', 'n']
  else if c = '\r' then some ['\\', 'r']
  else none

/-- The escape of a character that is not printable, as short as its number allows. -/
def numberEscape (c : Char) : List Char :=
  let n := c.toNat
  if n < 0x100 then '\\' :: 'x' :: hexDigits 2 n
  else if n < 0x10000 then '\\' :: 'u' :: hexDigits 4 n
  else '\\' :: 'U' :: hexDigits 8 n

def quoteChar (quote c : Char) : List Char :=
  match commonEscape? quote c with
  | some escape => escape
  | none => if isPrintable c then [c] else numberEscape c

def quoted (text : String) : String :=
  let quote := quoteFor text.toList
  String.ofList (quote :: text.toList.flatMap (quoteChar quote) ++ [quote])

/-- A text in which all that is not ASCII is escaped. -/
def asciiOnly (text : String) : String :=
  String.ofList (text.toList.flatMap fun c => if c.toNat < 0x80 then [c] else numberEscape c)

/-- One byte inside quotes: only printable ASCII stands for itself. -/
def quoteByte (quote : Char) (b : UInt8) : List Char :=
  let c := Char.ofNat b.toNat
  match commonEscape? quote c with
  | some escape => escape
  | none => if 0x20 ≤ b.toNat ∧ b.toNat < 0x7f then [c] else numberEscape c

def quotedBytes (bytes : Bytes) : String :=
  let quote := quoteFor (bytes.map fun b => Char.ofNat b.toNat)
  String.ofList ('b' :: quote :: bytes.flatMap (quoteByte quote) ++ [quote])

end Missive.Text
