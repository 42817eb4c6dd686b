import SqlKit.CommandLine.Run

/-!
# The executable

Connects `CommandLine.respond` to the file system, the environment and the standard streams.
-/

namespace SqlKit

/-- Reads the bytes of a file. -/
def readBytes (file : String) : IO (Except String ByteArray) := do
  match ← (IO.FS.readBinFile file).toBaseIO with
  | .ok bytes => return .ok bytes
  | .error (.noFileOrDirectory ..) => return .error "No such file or directory (os error 2)"
  | .error e => return .error (toString e)

end SqlKit

/-- Runs the program. -/
def main (arguments : List String) : IO UInt32 := do
  let environment ← IO.getEnv "QUILL_FORMAT"
  let outcome ← SqlKit.CommandLine.respond SqlKit.readBytes environment arguments
  IO.print outcome.output
  IO.eprint outcome.errors
  return outcome.exitCode.toUInt32
