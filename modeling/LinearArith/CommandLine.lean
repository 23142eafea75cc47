import LinearArith.Problem
import LinearArith.Registry

/-! The command line: `check FILE [--verbose] [--config JSON]` and `list`, with the counter `-v` or
`--log` anywhere. A command is read from the arguments and gives texts and an exit code. -/

namespace LinearArith

inductive Command where
  | check (file : String) (verbose : Bool) (config : Option String)
  | list
  | help
  | version
  deriving DecidableEq, Repr

namespace Command

/-- What an argument other than a value is for a command without options of its own. -/
inductive Flag where
  | log
  | help
  | version
  | unknown
  deriving DecidableEq, Repr

/-- The letters after one dash, up to the first that asks for a text or is not known. -/
def shortFlag : List Char → Flag
  | [] => .log
  | 'v' :: cs => shortFlag cs
  | 'h' :: _ => .help
  | 'V' :: _ => .version
  | _ => .unknown

/-- The flag that an argument is; none for a value, a command name or a single dash. -/
def flag? (arg : String) : Option Flag :=
  match arg.toList with
  | '-' :: '-' :: name =>
    some (if name = "log".toList then .log
      else if name = "help".toList then .help
      else if name = "version".toList then .version
      else .unknown)
  | '-' :: c :: cs => some (shortFlag (c :: cs))
  | _ => none

structure CheckArgs where
  file : Option String := none
  verbose : Bool := false
  config : Option String := none

namespace CheckArgs

def finish (a : CheckArgs) : Option Command := a.file.map fun f => .check f a.verbose a.config

/-- There is one file, and its name is not empty. -/
def setFile? (file : String) (a : CheckArgs) : Option CheckArgs :=
  if a.file.isSome || file = "" then none else some { a with file }

def setConfig? (config : String) (a : CheckArgs) : Option CheckArgs :=
  if a.config.isSome then none else some { a with config }

/-- After `--` every argument is a value. -/
def readValues (a : CheckArgs) (args : List String) : Option Command :=
  (args.foldlM (fun (a : CheckArgs) file => a.setFile? file) a).bind finish

/-- The value in `--config=value`. -/
def attachedConfig? (arg : String) : Option String :=
  let name := "--config=".toList
  if name.isPrefixOf arg.toList then some (String.ofList (arg.toList.drop name.length)) else none

/-- Reads the arguments of `check`; none if they are not understood. -/
def read (a : CheckArgs) : List String → Option Command
  | [] => a.finish
  | "--" :: args => a.readValues args
  | "--verbose" :: args => if a.verbose then none else read { a with verbose := true } args
  | ["--config"] => none
  | "--config" :: value :: args =>
    if (flag? value).isSome then none
    else
      match a.setConfig? value with
      | some a => read a args
      | none => none
  | arg :: args =>
    match attachedConfig? arg, flag? arg with
    | some value, _ =>
      match a.setConfig? value with
      | some a => read a args
      | none => none
    | none, some .log => read a args
    | none, some .help => some .help
    | none, some _ => none
    | none, none =>
      match a.setFile? arg with
      | some a => read a args
      | none => none

end CheckArgs

def readList : List String → Option Command
  | [] => some .list
  | ["--"] => some .list
  | arg :: args =>
    match flag? arg with
    | some .log => readList args
    | some .help => some .help
    | _ => none

def readHelp : List String → Option Command
  | [] | ["check"] | ["list"] | ["help"] => some .help
  | _ => none

def ofArgs : List String → Option Command
  | [] => none
  | "check" :: args => CheckArgs.read {} args
  | "list" :: args => readList args
  | "help" :: args => readHelp args
  | arg :: args =>
    match flag? arg with
    | some .log => ofArgs args
    | some .help => some .help
    | some .version => some .version
    | _ => none

def file? : Command → Option String
  | check file _ _ => some file
  | _ => none

end Command

structure Outcome where
  code : UInt32
  stdout : String := ""
  errorText : String := ""
  deriving DecidableEq, Repr

namespace Outcome

def usage : String :=
  "Prove goals by linear arithmetic\n\n" ++
  "Usage: linarith [-v|--log]... check FILE [--verbose] [--config JSON]\n" ++
  "       linarith [-v|--log]... list\n"

def usageError : Outcome where
  code := 2

def failure (report : String) : Outcome where
  code := 1
  errorText := "Error: " ++ report ++ "\n"

/-- An error report that says what was being done and what went wrong. -/
def failureIn (context cause : String) : Outcome :=
  failure (context ++ "\n\nCaused by:\n    " ++ cause)

/-- Runs the tactic; the exit code tells whether the goal was closed. -/
def ofActivation (config : Config) (s : ProofState) : Outcome :=
  match activate config .elimination s [] with
  | (.error e, _) => failure e.message
  | (.ok residual, t) => ⟨if residual.isEmpty then 0 else 1, Trace.text t, ""⟩

/-- Checks a problem text; `contents` is what was read from the file, or why it could not be. -/
def ofCheck (file : String) (verbose : Bool) (config : Option String)
    (contents : Except String String) : Outcome :=
  match contents with
  | .error reason => failureIn ("Failed to read " ++ file) reason
  | .ok source =>
    match ProofState.ofText source with
    | .error e => failureIn ("In " ++ file) e.message
    | .ok s =>
      match (config.map Config.ofJson).getD (.ok {}) with
      | .error e => failure e.message
      | .ok config => ofActivation ⟨config.verbose || verbose⟩ s

def tacticText (t : Tactic) : String := t.name ++ " (" ++ t.label ++ "): " ++ t.description ++ "\n"

def ofCommand (contents : Except String String) : Command → Outcome
  | .check file verbose config => ofCheck file verbose config contents
  | .list => ⟨0, String.join (Registry.standard.toList.map tacticText), ""⟩
  | .help => ⟨0, usage, ""⟩
  | .version => ⟨0, "linarith 1.0.0\n", ""⟩

end Outcome
end LinearArith
