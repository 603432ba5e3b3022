/-!
# Logs

What is logged and how a log is shown: levels have names of three letters, coloured if colour is on,
and a record is shown if it is at least as severe as the log asks for.
-/

namespace Missive.Log

/-- How severe a record is. -/
inductive Level where
  | critical
  | error
  | warning
  | info
  | debug
  deriving DecidableEq, Repr

namespace Level

def all : List Level := [critical, error, warning, info, debug]

/-- A number that grows with severity. -/
def severity : Level → Nat
  | critical => 50
  | error => 40
  | warning => 30
  | info => 20
  | debug => 10

def shortName : Level → String
  | critical => "CRT"
  | error => "ERR"
  | warning => "WRN"
  | info => "INF"
  | debug => "DBG"

def longName : Level → String
  | critical => "CRITICAL"
  | error => "ERROR"
  | warning => "WARNING"
  | info => "INFO"
  | debug => "DEBUG"

end Level

/-- A logged text. -/
structure Record where
  level : Level
  text : String

/-! ## Colours -/

/-- The colours of a terminal that logs use. -/
inductive Color where
  | red
  | boldRed
  | yellow
  | magenta
  | blue
  | blackOnWhite
  deriving DecidableEq, Repr

namespace Color

def all : List Color := [red, boldRed, yellow, magenta, blue, blackOnWhite]

def name : Color → String
  | red => "red"
  | boldRed => "bold_red"
  | yellow => "yellow"
  | magenta => "magenta"
  | blue => "blue"
  | blackOnWhite => "black_on_white"

def codes : Color → List Nat
  | red => [31, 1]
  | boldRed => [30, 41]
  | yellow => [33, 1]
  | magenta => [35, 1]
  | blue => [34, 1]
  | blackOnWhite => [30, 47]

def control (code : Nat) : String := "\x1b[" ++ toString code ++ "m"

def apply (enabled : Bool) (c : Color) (text : String) : String :=
  if enabled then String.join (c.codes.map control) ++ text ++ control 0 else text

end Color

def Level.color : Level → Color
  | critical => .boldRed
  | error => .red
  | warning => .yellow
  | info => .magenta
  | debug => .blue

/-! ## How a log is shown -/

/-- How a log is shown: the least severe level, colour, time stamps, and whether it goes to a file
instead of the terminal. -/
structure Display where
  level : Level := .info
  color : Bool := false
  hideTimestamp : Bool := false
  toFile : Bool := false

namespace Display

def levelName (d : Display) (level : Level) : String :=
  level.color.apply d.color level.shortName

def format (d : Display) : String :=
  let stamp := if d.hideTimestamp then "" else Color.blackOnWhite.apply d.color "%(asctime)s" ++ " "
  stamp ++ "%(levelname)s %(message)s"

def dateFormat : String := "%Y%m%d %H:%M:%S"

def line (d : Display) (r : Record) : String := d.levelName r.level ++ " " ++ r.text ++ "\n"

def lines (d : Display) (records : List Record) : String :=
  String.join <| (records.filter fun r => d.level.severity ≤ r.level.severity).map d.line

/-- What the terminal shows; nothing, if the log goes to a file. -/
def terminal (d : Display) (records : List Record) : String :=
  if d.toFile then "" else d.lines records

end Display

end Missive.Log
