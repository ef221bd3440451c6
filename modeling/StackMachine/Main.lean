import StackMachine.CommandLine.Program

/-! The command line, with the real standard streams and files around the command. -/

namespace StackMachine.CommandLine

/-- Reads a stream to its end, behind what was read so far. -/
partial def readToEnd (stream : IO.FS.Stream) (soFar : ByteArray) : IO ByteArray := do
  let chunk ← stream.read 65536
  if chunk.isEmpty then return soFar else readToEnd stream (soFar ++ chunk)

/-- Opens a file and reads all of it. -/
def openFile (path : String) : IO Opening := do
  try
    let contents ← IO.FS.readBinFile path
    return .opened ⟨contents.data.toList, none⟩
  catch fault =>
    match fault with
    | .noFileOrDirectory .. => return .refused (PathFault.missing.during "open" path)
    | .inappropriateType .. => return .opened ⟨[], some (PathFault.isDirectory.during "read" path)⟩
    | other => return .refused (utf8 s!"open {path}: {other}")

/-- The host of a command, with nothing read but the image that its arguments name. -/
def readHost (arguments : List String) : IO Host := do
  let nothing : Source := ⟨[], none⟩
  match Options.standard.read arguments with
  | .ok (options, []) =>
    if options.image = "-" then
      let text ← readToEnd (← IO.getStdin) .empty
      return ⟨⟨text.data.toList, none⟩, fun _ => .opened nothing⟩
    else
      let opening ← openFile options.image
      return ⟨nothing, fun _ => opening⟩
  | _ => return ⟨nothing, fun _ => .opened nothing⟩

end StackMachine.CommandLine

def main (arguments : List String) : IO UInt32 := do
  let host ← StackMachine.CommandLine.readHost arguments
  let outcome := StackMachine.CommandLine.run arguments host
  (← IO.getStdout).putStr outcome.stdout
  (← IO.getStderr).write (ByteArray.mk outcome.stderr.toArray)
  return outcome.exit
