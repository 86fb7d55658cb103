import Gridmark.Command.Run
/-!
# Main — the program

The only module that touches files and streams.  It reads for `Command.run` and prints what that returns.
-/
namespace Gridmark

/-- Why the operating system did not read a file.  What it says of a directory has the code 21, and any other error of
its kind is about a file taken for one. -/
def FileError.ofSystem : IO.Error → FileError
  | .noFileOrDirectory .. => .missing
  | .inappropriateType _ 21 _ => .isDirectory
  | .inappropriateType .. => .notDirectory
  | _ => .denied

def readAll (stream : IO.FS.Stream) : IO Bytes := do
  let mut done := ByteArray.empty
  repeat
    let chunk ← stream.read 65536
    if chunk.isEmpty then break
    done := done ++ chunk
  return done.toList

def systemSurroundings : Command.Surroundings IO where
  input := do readAll (← IO.getStdin)
  file := fun path => do
    try return .ok (← IO.FS.readBinFile (String.ofList path)).toList
    catch e => return .error (FileError.ofSystem e)

end Gridmark

def main (args : List String) : IO UInt32 := do
  let outcome ← Gridmark.Command.run Gridmark.systemSurroundings (args.map String.toList)
  IO.print (String.ofList outcome.output)
  IO.eprint (String.ofList outcome.message)
  return outcome.status.toUInt32
