import SymSolve.CommandLine.Answer

/-!
# The program

Reads the files that a command line names, prints the answer and ends with its exit code.
-/

open SymSolve CommandLine

/-- What a path leads to. What cannot be read as a file counts as a directory. -/
def fileAt (path : String) : IO File := do
  try
    return .content (← IO.FS.readBinFile path)
  catch
    | .noFileOrDirectory .. => return .missing
    | _ => return .directory

/-- The files that a command line names. -/
def filesFor (args : List String) : IO Files := do
  let paths := match Request.ofArgs args with
    | .ok request => request.paths
    | .error _ => []
  let found ← paths.mapM fun path => return (path, ← fileAt path)
  return fun path => ((found.find? fun f => f.1 = path).map Prod.snd).getD .missing

/-- Answers a command line. -/
def main (args : List String) : IO UInt32 := do
  let files ← filesFor args
  let answer : Answer Float := .ofArgs args files
  IO.print answer.output
  if let some complaint := answer.complaint? then IO.eprintln complaint
  return answer.exitCode.toUInt32
