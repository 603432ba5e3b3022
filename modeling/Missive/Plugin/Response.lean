import Missive.Compile
import Missive.Plugin.Settings

/-!
# Requests and responses

The plugin is asked to generate modules for some of the files it is given. A schema that is refused
is logged and makes the request fail; other faults end the handling at once, and what was generated
before stays.
-/

namespace Missive.Plugin

open Schema

/-- What the plugin is asked for. -/
structure Request where
  files : List FileDecl
  generate : List String := []
  parameter : String := ""

/-- What ends the handling of a request. -/
inductive RequestFault where
  | settings (f : SettingsFault)
  /-- A refusal of a schema that is not reported as such. -/
  | refused (r : Refusal)
  /-- A file to generate is not among the files. -/
  | noSuchFile
  | defect (d : Defect)

/-- The outcome of a request: success, failure or a fault, the files generated, and the log. -/
structure Response where
  outcome : Except RequestFault Bool
  files : List Output := []
  log : List Log.Record := []

def Request.file? (r : Request) (name : String) : Option FileDecl :=
  r.files.reverse.find? fun f => f.name == name

/-- Generates the files with some names, after those of a response. -/
def generateAll (r : Request) : Compilation → Response → List String → Response
  | _, response, [] => response
  | c, response, name :: rest =>
    match r.file? name with
    | none => { response with outcome := .error .noSuchFile }
    | some file =>
      let (result, records, c) := c.compile file
      let log := response.log ++ records
      match result with
      | .error d => { response with outcome := .error (.defect d), log }
      | .ok output =>
        generateAll r c { response with files := response.files ++ [output], log } rest

/-- Fails at the first file to generate, before it is looked into. -/
def refuseFirst (r : Request) (f : SettingsFault) : Response :=
  match r.generate with
  | [] => { outcome := .ok true }
  | name :: _ =>
    match r.file? name with
    | none => { outcome := .error .noSuchFile }
    | some _ => { outcome := .error (.settings f) }

def handle (r : Request) (s : Settings) : Response :=
  match Arena.build r.files with
  | .error .oneofBeforeFirst => { outcome := .error (.refused .oneofBeforeFirst) }
  | .error refusal =>
    { outcome := .ok false, log := [⟨.error, refusal.describe.getD ""⟩] }
  | .ok arena =>
    match s.options with
    | .error f => refuseFirst r f
    | .ok options =>
      generateAll r (Compilation.start arena options) { outcome := .ok true } r.generate

def respond (r : Request) : Response :=
  match readSettings r.parameter with
  | .error e => { outcome := .error (.settings e) }
  | .ok s => handle r s

/-- What a run of the program leaves: how it ended, what it logged on the terminal, and the files of
its answer, if it gave one. -/
structure Run where
  exit : Except RequestFault Nat
  terminal : String := ""
  files : Option (List Output) := none

/-- The features that answers declare: optional fields in the newer dialect. -/
def supportedFeatures : Nat := 1

/-- Runs the program on a request. The log shows warnings and errors, or everything if asked to. -/
def run (r : Request) : Run :=
  match readSettings r.parameter with
  | .error e => { exit := .error (.settings e) }
  | .ok s =>
    let display : Log.Display :=
      { level := if s.verbose then .debug else .warning, hideTimestamp := true }
    let response := handle r s
    match response.outcome with
    | .error f => { exit := .error f, terminal := display.lines response.log }
    | .ok true =>
      { exit := .ok 0, terminal := display.lines response.log, files := some response.files }
    | .ok false =>
      let last : Log.Record := ⟨.error, "pw_msggen failed to generate protobuf code"⟩
      { exit := .ok 1, terminal := display.lines (response.log ++ [last]) }

end Missive.Plugin
