import SlotChain.Program

/-!
# Command line program

The outer layer: it hands the arguments, the log filter and the content of the script file to the
program, prints what a run has printed and told, and exits with its code.
-/

namespace SlotChain.Main

/-- The error of a file that could not be read. -/
def ioError : IO.Error → IoError
  | .noFileOrDirectory .. => .notFound
  | .inappropriateType .. => .notDirectory
  | e => .custom (toString e)

/-- Read a file, and tell a directory from it. -/
def readFile (path : String) : IO (Except IoError ByteArray) := do
  try
    return .ok (← IO.FS.readBinFile path)
  catch e =>
    return .error (ioError e)

/-- Read the script file that the arguments name, if they name one. -/
def readScript (argv : List String) : IO (Except IoError ByteArray) := do
  match CommandLine.parse argv with
  | .ok { script := some path, .. } => readFile path
  | _ => return .error .notFound

end SlotChain.Main

open SlotChain in
/-- Run the program and exit with its code. -/
def main (argv : List String) : IO UInt32 := do
  let log := (← IO.getEnv "RUST_LOG").getD ""
  let script ← SlotChain.Main.readScript argv
  let o := Program.run log argv fun _ => script
  (← IO.getStdout).write ⟨o.ending.output.toArray⟩
  IO.eprint o.told
  if let .faulted fault := o.ending then
    IO.eprintln fault.message
  return UInt32.ofNat o.ending.exitCode
