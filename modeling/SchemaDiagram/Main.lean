import SchemaDiagram.CommandLine.Run

/-!
# The program

Runs the command on the files, the input and the output of the process.
-/

namespace SchemaDiagram

/-- Some system calls give the negative of an error's number. -/
def errorNumber (code : UInt32) : Nat :=
  if code.toNat < 0x80000000 then code.toNat else 0x100000000 - code.toNat

def systemError (code : UInt32) (details : String) : FileError :=
  match errorNumber code with
  | 2 => .notFound
  | 13 => .permissionDenied
  | 20 => .notDirectory
  | 21 => .isDirectory
  | 36 => .nameTooLong
  | n => .other (Text.ofString s!"{details} (os error {n})")

def fileError : IO.Error → FileError
  | .noFileOrDirectory _ code details => systemError code details
  | .inappropriateType _ code details => systemError code details
  | .permissionDenied _ code details => systemError code details
  | .invalidArgument _ code details => systemError code details
  | .resourceExhausted _ code details => systemError code details
  | .otherError code details => systemError code details
  | e => .other (Text.ofString e.toString)

def attempt {α : Type} (action : IO α) : IO (Except FileError α) := do
  try return .ok (← action) catch e => return .error (fileError e)

def systemHost : Host IO where
  contents path := attempt (IO.FS.readBinFile (String.ofList path))
  input := attempt do (← IO.getStdin).readBinToEnd
  store path t := attempt (IO.FS.writeFile (String.ofList path) (String.ofList t))

end SchemaDiagram

def main (arguments : List String) : IO UInt32 := do
  let outcome ← SchemaDiagram.systemHost.run (arguments.map String.toList)
  (← IO.getStdout).putStr (String.ofList outcome.stdout)
  (← IO.getStderr).putStr (String.ofList outcome.stderr)
  return UInt32.ofNat outcome.exit
