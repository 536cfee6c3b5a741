import Corun.CommandLine

open Corun

def faultOf : IO.Error → FileFault
  | .permissionDenied .. => .denied
  | .inappropriateType .. => .directory
  | .noFileOrDirectory .. => .missing
  | .noSuchThing .. => .missing
  | .userError _ => .notUnicode
  | _ => .missing

def readText (path : String) : IO (Except FileFault String) := do
  try return .ok (← IO.FS.readFile path)
  catch e => return .error (faultOf e)

def main (args : List String) : IO UInt32 := do
  let content ← match CommandLine.configPath? args with
    | some path => readText path
    | none => pure (.error .missing)
  let response := CommandLine.respond .small (fun _ => content) args
  IO.print response.output
  for line in response.logs do
    IO.eprintln (Text.plain line.render)
  if let some complaint := response.complaint? then
    IO.eprintln complaint
  return response.exit.toUInt32
