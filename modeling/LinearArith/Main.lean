import LinearArith.CommandLine

/-! The program: reads the arguments and the file, prints what the run leaves behind. -/

open LinearArith

def fileContents (file : String) : IO (Except String String) := do
  try
    return .ok (← IO.FS.readFile file)
  catch
    | .noFileOrDirectory .. => return .error "No such file or directory (os error 2)"
    | e => return .error e.toString

def main (args : List String) : IO UInt32 := do
  let some command := Command.ofArgs args
    | IO.eprint Outcome.usage
      return Outcome.usageError.code
  let contents ← match command.file? with
    | some file => fileContents file
    | none => pure (.ok "")
  let outcome := Outcome.ofCommand contents command
  IO.print outcome.stdout
  IO.eprint outcome.errorText
  return outcome.code
