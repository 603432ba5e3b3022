import Missive.Plugin.Exchange

/-!
# The plugin program

The program reads a request from its standard input, writes the response to its standard output and
the log to its standard error.
-/

namespace Missive

partial def readAll (stream : IO.FS.Stream) (before : ByteArray) : IO ByteArray := do
  let chunk ← stream.read 65536
  if chunk.isEmpty then return before
  readAll stream (before ++ chunk)

end Missive

/-- Runs the plugin. -/
def main : IO UInt32 := do
  let data ← Missive.readAll (← IO.getStdin) ByteArray.empty
  let ending := Missive.Plugin.runSerialized data.toList
  (← IO.getStderr).putStr ending.terminal
  (← IO.getStdout).write ⟨ending.answer.toArray⟩
  return UInt32.ofNat ending.code
