import Missive.Plan.Build
import Missive.Plugin.Words

/-!
# Settings

The parameter of the plugin is a list of options. Long options may be abbreviated while that is not
ambiguous, and a value follows after an equals sign or as a word of its own. All words are looked at
before the first option takes effect, so an ambiguous one is an error even after a request for help.

A value that consists of the mark which ends the options is dropped, and leaves its option unset.
What an unset option means is decided where it is needed.
-/

namespace Missive.Plugin

/-- What the parameter sets. -/
structure Settings where
  threshold : Option Int := some Schema.Layout.defaultThreshold
  moduleSuffix : Option String := some "_msg"
  modulePackage : Option String := some ""
  runtimePackage : Option String := some "pw_msggen.runtime"
  verbose : Bool := false

/-- Why a parameter does not give settings. -/
inductive SettingsFault where
  /-- The program ends: with 0 after a request for help, with 2 after a usage error. -/
  | exit (code : Nat)
  /-- A quotation is not closed. -/
  | unclosedQuotation
  /-- The package of the modules is needed and unset. -/
  | noPackage
  /-- The suffix of the modules is needed and unset. -/
  | noSuffix
  deriving DecidableEq, Repr

def usageError : SettingsFault := .exit 2

/-- The options. -/
inductive Flag where
  | help
  | threshold
  | moduleSuffix
  | modulePackage
  | runtimePackage
  | verbose
  deriving DecidableEq, Repr

namespace Flag

def spellings : List (String × Flag) :=
  [("-h", help), ("--help", help), ("--heap-storage-threshold", threshold),
   ("--module-suffix", moduleSuffix), ("--module-prefix", modulePackage),
   ("--runtime-package", runtimePackage), ("--verbose", verbose)]

def takesValue : Flag → Bool
  | help | verbose => false
  | _ => true

end Flag

/-- What a word is. -/
inductive Word where
  /-- A word that may be the value of an option. -/
  | plain (text : String)
  /-- An option, with the value after its equals sign. `short` marks one of a single dash, behind
  which more of them may follow. -/
  | option (flag : Flag) (short : Bool) (value : Option String)
  /-- A word that is neither. -/
  | stray
  deriving DecidableEq

def splitEquals (word : String) : String × Option String :=
  match word.toList.span (· != '=') with
  | (before, _ :: after) => (String.ofList before, some (String.ofList after))
  | (_, []) => (word, none)

/-- Is a word a negative number such as `-1` or `-.5`? A line end after it does not count. -/
def isNegativeNumber (word : String) : Bool :=
  match word.toList with
  | '-' :: body =>
    let body := if body.getLast? == some '\n' then body.dropLast else body
    let isDigit := fun c => (Text.digitValue? c).isSome
    match body.span isDigit with
    | (whole, []) => !whole.isEmpty
    | (_, '.' :: fraction) => !fraction.isEmpty && fraction.all isDigit
    | _ => false
  | _ => false

/-- The options that a word may abbreviate, each with the value that the word gives it. -/
def abbreviated (word : String) : List Word :=
  if word.startsWith "--" then
    let (name, value) := splitEquals word
    Flag.spellings.filterMap fun (spelling, flag) =>
      if spelling.startsWith name then some (.option flag false value) else none
  else
    Flag.spellings.filterMap fun (spelling, flag) =>
      if spelling.toList == word.toList.take 2 then
        some (.option flag true (some (String.ofList (word.toList.drop 2))))
      else if spelling.startsWith word then some (.option flag false none)
      else none

def classify (word : String) : Except SettingsFault Word :=
  if !word.startsWith "-" then .ok (.plain word)
  else
    match Flag.spellings.lookup word with
    | some flag => .ok (.option flag (!word.startsWith "--") none)
    | none =>
      if word.length == 1 then .ok (.plain word)
      else
        let (name, value) := splitEquals word
        match value.bind fun _ => Flag.spellings.lookup name with
        | some flag => .ok (.option flag (!name.startsWith "--") value)
        | none =>
          match abbreviated word with
          | [option] => .ok option
          | _ :: _ :: _ => .error usageError
          | [] =>
            if isNegativeNumber word || word.contains ' ' then .ok (.plain word) else .ok .stray

/-- Tells what each word is. After two dashes all words are plain. -/
def classifyAll : List String → Except SettingsFault (List Word)
  | [] => .ok []
  | word :: rest => do
    if word == "--" then return .stray :: rest.map .plain
    let first ← classify word
    return first :: (← classifyAll rest)

def setValue (s : Settings) (flag : Flag) (value : String) : Except SettingsFault Settings :=
  let kept := if value == "--" then none else some value
  match flag with
  | .threshold =>
    match kept with
    | none => .ok { s with threshold := none }
    | some text =>
      match Text.readInt? text with
      | some n => .ok { s with threshold := some n }
      | none => .error usageError
  | .moduleSuffix => .ok { s with moduleSuffix := kept }
  | .modulePackage => .ok { s with modulePackage := kept }
  | .runtimePackage => .ok { s with runtimePackage := kept }
  | .help | .verbose => .error usageError

/-- Follows short options that are written behind one another, such as `-hh`. All of them have to
exist before the first one takes effect. -/
def followShort : List Char → Except SettingsFault Settings
  | [] => .error usageError
  | [c] => if c == 'h' then .error (.exit 0) else .error usageError
  | c :: rest => if c == 'h' then followShort rest else .error usageError

/-- Lets words take effect in order. Stray words are an error in the end. -/
def applyWords : (stray : Bool) → Settings → List Word → Except SettingsFault Settings
  | stray, s, [] => if stray then .error usageError else .ok s
  | _, s, .plain _ :: rest => applyWords true s rest
  | _, s, .stray :: rest => applyWords true s rest
  | stray, s, .option flag short (some value) :: rest =>
    if flag.takesValue then
      match setValue s flag value with
      | .ok s => applyWords stray s rest
      | .error e => .error e
    else if short then followShort value.toList
    else .error usageError
  | _, _, .option .help _ none :: _ => .error (.exit 0)
  | stray, s, .option .verbose _ none :: rest => applyWords stray { s with verbose := true } rest
  | stray, s, .option flag _ none :: .plain value :: rest =>
    match setValue s flag value with
    | .ok s => applyWords stray s rest
    | .error e => .error e
  | _, _, .option _ _ none :: _ => .error usageError

/-- How code is generated under some settings. Modules cannot be named without a package and a
suffix; the package of the runtime is only written out, empty brackets if there is none. -/
def Settings.options (s : Settings) : Except SettingsFault Plan.Options :=
  match s.modulePackage, s.moduleSuffix with
  | none, _ => .error .noPackage
  | some _, none => .error .noSuffix
  | some package, some suffix =>
    .ok { threshold := s.threshold, style := { suffix, package },
          runtimePackage := s.runtimePackage.getD "[]" }

def readSettings (parameter : String) : Except SettingsFault Settings :=
  match splitWords parameter with
  | none => .error .unclosedQuotation
  | some words => do applyWords false {} (← classifyAll words)

end Missive.Plugin
