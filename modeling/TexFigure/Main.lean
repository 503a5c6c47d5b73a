import TexFigure.CommandLine.Run
/-!
# The program

The files and streams of the machine are the surroundings of the command line. Nothing is decided
here.
-/

open TexFigure CommandLine

/-- Why the machine cannot read or write a file. -/
def fileFault : IO.Error → FileFault
  | .noFileOrDirectory .. => .notFound
  | .inappropriateType _ 20 _ => .notDirectory
  | .inappropriateType _ 21 _ => .isDirectory
  | .invalidArgument _ 36 _ => .nameTooLong
  | fault => .other (toString fault).toList

/-- The rest of a stream. -/
partial def readStream (stream : IO.FS.Stream) (front : ByteArray) : IO ByteArray := do
  let bytes ← stream.read 65536
  if bytes.isEmpty then return front else readStream stream (front ++ bytes)

/-- Do something to a file, or say why it cannot be done. -/
def attempt {α : Type} (action : IO α) : IO (Except FileFault α) := do
  match ← action.toBaseIO with
  | .ok a => return .ok a
  | .error fault => return .error (fileFault fault)

instance : Surroundings IO where
  input := do
    let bytes ← readStream (← IO.getStdin) .empty
    return ((String.fromUTF8? bytes).getD "").toList
  read name := attempt do return (← IO.FS.readFile (String.ofList name)).toList
  write name content := attempt (IO.FS.writeFile (String.ofList name) (String.ofList content))

def main (arguments : List String) : IO UInt32 := do
  let outcome : Outcome ← run (arguments.map String.toList)
  IO.eprint (String.ofList outcome.errors)
  IO.print (String.ofList outcome.output)
  return outcome.exitCode.toUInt32
