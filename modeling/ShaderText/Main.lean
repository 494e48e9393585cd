/-
The program: reads the files that its arguments name, prints the outcome, and writes back the file
that was indented anew.
-/
import ShaderText.Command.Run

namespace ShaderText.Command

/-- What is found at a path on disk. -/
def readContent (path : String) : IO FileContent := do
  try
    let bytes ← IO.FS.readBinFile path
    match String.fromUTF8? bytes with
    | some content => return .text content
    | none => return .binary
  catch _ => return .absent

/-- Reads the files at some paths. -/
def readFiles (paths : List String) : IO Files := do
  let contents ← paths.mapM fun path => return (path, ← readContent path)
  return fun path => (contents.lookup path).getD .absent

end ShaderText.Command

open ShaderText.Command in
/-- Runs the program. -/
def main (args : List String) : IO UInt32 := do
  let paths := match readArguments args with
    | .ok (.run invocation) => invocation.paths
    | _ => []
  let result := outcome (← readFiles paths) args
  IO.print result.stdout
  IO.eprint result.stderr
  match result.written with
  | some (path, content) => IO.FS.writeFile path content
  | none => pure ()
  return result.code.toUInt32
