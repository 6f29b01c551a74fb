-- The program: arguments and standard input in, text and exit code out.
import SelectQuery.Command.Response

open SelectQuery

/-- All bytes of a stream, after those read before. -/
partial def allBytes (stream : IO.FS.Stream) (before : ByteArray) : IO ByteArray := do
  let chunk ← stream.read 65536
  if chunk.isEmpty then return before else allBytes stream (before ++ chunk)

/-- The standard input, as far as the arguments ask for it. -/
def standardInput (arguments : List String) : IO Command.Input := do
  let stdin ← IO.getStdin
  if !Command.readsInput arguments || (← stdin.isTty) then pure .terminal
  else return .bytes (← allBytes stdin .empty)

def main (arguments : List String) : IO UInt32 := do
  let response := Command.respond arguments (← standardInput arguments)
  (← IO.getStdout).putStr response.output
  (← IO.getStderr).putStr response.errors
  return response.exitCode.toUInt32
