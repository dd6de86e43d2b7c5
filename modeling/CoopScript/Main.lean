import CoopScript.CommandLine

set_option autoImplicit false
open CoopScript

partial def readLines (stream : IO.FS.Stream) (lines : Array String) : IO (Array String) := do
  let line ← stream.getLine
  if line.isEmpty then return lines
  readLines stream (lines.push line)

def readFile? (name : String) : IO (Option String) := do
  try return some (← IO.FS.readFile name)
  catch _ => return none

def main (arguments : List String) : IO UInt32 := do
  match CommandLine.read? arguments with
  | none =>
    IO.eprintln "usage: [--idle-ticks N] [--workers N] [run SCRIPT | eval SOURCE | repl]"
    return 2
  | some request =>
    let content ← match request.command with
      | some (.run script) => readFile? script
      | _ => pure none
    let input ← match request.command with
      | none | some .repl => readLines (← IO.getStdin) #[]
      | _ => pure #[]
    let result := CommandLine.execute request (fun _ => content) input.toList
    IO.print result.output
    IO.eprint result.errors
    return result.code
