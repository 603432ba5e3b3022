import Missive.Text.Escape
import Missive.Text.Split

/-!
# Templates

A template is text with escapes and with holes between braces. A hole names a value, which is put in
its place; braces that are text are doubled. The name may be followed by an equals sign, which shows
the name too, by an exclamation mark and the form in which the value is shown, and by a colon and
the format in which it is laid out.
-/

namespace Missive.Text

/-- The form in which a value is shown. -/
inductive Form where
  /-- As it stands inside other text. -/
  | plain
  /-- As it is written in code. -/
  | written
  /-- As it is written in code, with ASCII characters only. -/
  | ascii
  deriving DecidableEq, Repr

/-- A hole in a template: the names that lead to a value, what stands before the value, and how the
value is shown. -/
structure Hole where
  path : List String
  label : String
  form : Option Form
  format : String
  deriving DecidableEq, Repr

/-- A piece of a template. -/
inductive Piece where
  | text (s : String)
  | hole (h : Hole)
  deriving DecidableEq, Repr

/-- Text with its escapes replaced. One that stands for nothing is left as it is. -/
def withEscapes (text : List Char) : String :=
  let codes := text.map Char.toNat
  match resolveEscapes (codes.length + 1) codes with
  | .ok resolved => String.ofList (resolved.map Char.ofNat)
  | .error _ => String.ofList text

/-- The form that a letter stands for. -/
def Form.ofChar? : Char → Option Form
  | 's' => some .plain
  | 'r' => some .written
  | 'a' => some .ascii
  | _ => none

/-- The hole that the text between braces describes. A value whose name is shown too is written as
in code, unless the hole says something else. -/
def readHole (text : List Char) : Hole :=
  let (name, rest) := text.span fun c => c != '=' && c != '!' && c != ':'
  let (label, rest) :=
    match rest with
    | '=' :: more =>
      let (blanks, rest) := more.span (· == ' ')
      (name ++ '=' :: blanks, rest)
    | _ => ([], rest)
  let (form, rest) :=
    match rest with
    | '!' :: c :: more => (Form.ofChar? c, more)
    | _ => (none, rest)
  let form := if form.isNone && !label.isEmpty && rest.isEmpty then some .written else form
  { path := split '.' (String.ofList (name.filter (· != ' '))),
    label := String.ofList label, form, format := String.ofList rest.tail }

/-- Puts text in front of pieces, unless there is none. -/
def consText (text : List Char) (pieces : List Piece) : List Piece :=
  if text.isEmpty then pieces else .text (withEscapes text) :: pieces

/-- The pieces of a template, after text that was read before and is held in reverse. The first
argument bounds the length. -/
def readPieces : (fuel : Nat) → (before : List Char) → List Char → List Piece
  | 0, before, _ => consText before.reverse []
  | _ + 1, before, [] => consText before.reverse []
  | fuel + 1, before, c :: rest =>
    match c, rest with
    | '\x7b', '\x7b' :: more => readPieces fuel ('\x7b' :: before) more
    | '\x7d', '\x7d' :: more => readPieces fuel ('\x7d' :: before) more
    | '\x7b', _ =>
      let (inside, after) := rest.span (· != '\x7d')
      consText before.reverse (.hole (readHole inside) :: readPieces fuel [] after.tail)
    | '\\', 'N' :: '\x7b' :: more =>
      let (name, after) := more.span (· != '\x7d')
      readPieces fuel ('\x7d' :: (name.reverse ++ ('\x7b' :: 'N' :: '\\' :: before))) after.tail
    | '\\', next :: more =>
      if next = '\x7b' then readPieces fuel ('\\' :: before) rest
      else readPieces fuel (next :: '\\' :: before) more
    | _, _ => readPieces fuel (c :: before) rest

def pieces (template : String) : List Piece :=
  readPieces (template.length + 1) [] template.toList

end Missive.Text
