import Missive.Plugin.Response
import Missive.Schema.Serialized
import Missive.Wire.Written

/-!
# Exchange with the schema compiler

The schema compiler runs the plugin with a serialized request and expects a serialized response.
-/

namespace Missive.Plugin

open Schema

def Request.ofBytes (data : Bytes) : Except Fault Request := do
  let f ← Fields.ofBytes data
  return {
    files := ← f.parts 15 readFile
    generate := ← f.texts 1
    parameter := ← f.text 2 }

def writeOutput (o : Output) : Written :=
  Written.delimited 15 (Written.scalar 1 .string (.text o.path) ++ Written.scalar 15 .string (.text o.content))

def writeResponse (files : List Output) : Written :=
  Written.scalar 2 .uint64 (.int supportedFeatures) ++ Written.concat (files.map writeOutput)

/-- How a run of the program ends: the code it exits with, what it prints for people to read, and
the answer. -/
structure Ending where
  code : Nat
  terminal : String
  answer : Bytes := []

def RequestFault.code : RequestFault → Nat
  | .settings (.exit code) => code
  | _ => 1

/-- A fault in a few words. -/
def RequestFault.describe : RequestFault → String
  | .settings (.exit 0) => ""
  | .settings _ => "The parameter of the plugin cannot be read\n"
  | .refused r => r.describe.getD "A field refers to a oneof that does not exist" ++ "\n"
  | .noSuchFile => "A file to generate is not part of the request\n"
  | .defect _ => "A file cannot be generated\n"

def runSerialized (data : Bytes) : Ending :=
  match Request.ofBytes data with
  | .error f => { code := 1, terminal := f.describe.getD "The request cannot be read" ++ "\n" }
  | .ok request =>
    let r := run request
    match r.exit with
    | .error f => { code := f.code, terminal := r.terminal ++ f.describe }
    | .ok code =>
      { code, terminal := r.terminal
        answer := (r.files.map fun files => (writeResponse files).bytes).getD [] }

end Missive.Plugin
