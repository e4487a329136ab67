import SheetLint.Command.Outcome

/-! The program: reads the files that its arguments name, and prints what a run has to tell. -/
namespace SheetLint.Command

/-- The files to read, none where the arguments ask for nothing that needs files. -/
def namedFiles (arguments : List String) : List String :=
  match Invocation.ofArguments arguments with
  | some ⟨_, .inspect inspection⟩ => inspection.files
  | _ => []

/-- The bytes of a file, none if it cannot be read. -/
def readBytes (path : String) : IO (Option (List UInt8)) := do
  try
    let bytes ← IO.FS.readBinFile path
    return some bytes.toList
  catch _ => return none

def usageLine : String :=
  "Usage: a11ylint [-v] lint [--severity warning|error] [--disable RULE]... FILES..."

def faultLine : String := "a11ylint: a stylesheet cannot be judged"

end SheetLint.Command

open SheetLint

def main (arguments : List String) : IO UInt32 := do
  let mut known : List (String × List UInt8) := []
  for path in Command.namedFiles arguments do
    if let some bytes ← Command.readBytes path then
      known := (path, bytes) :: known
  let outcome := Command.run (fun path => List.lookup path known) arguments
  IO.eprint (Command.printed outcome.errors)
  IO.print (Command.printed outcome.output)
  if outcome.fault.isSome then IO.eprintln Command.faultLine
  if outcome.code = Command.usageCode then IO.eprintln Command.usageLine
  return outcome.code.toUInt32
