import ModelServer.CommandLine.Run

/-!
# The program

The outermost layer: it reads the words of the command line, the files they name and the environment,
and prints the report that `CommandLine.run` makes of them. Nothing is decided here.

The program by itself has no collaborators to load and no transport, so what would need one of them ends
in a message that says so.
-/

namespace ModelServer.Program

open CommandLine

/-- What a file holds; a file that cannot be read for another reason than that it may not be is as one
that is missing. -/
def contentOf (path : String) : IO FileContent := do
  try
    return .octets (← IO.FS.readBinFile path).toList
  catch
    | .permissionDenied _ _ _ => return .closed
    | _ => return .missing

/-- The files that a command line looks at, by their paths. -/
def filesOf (words : List String) : IO (List (String × FileContent)) :=
  match Invocation.ofWords words with
  | .ok i => (i.sources?.toList.flatMap Shell.pathsOf).mapM fun p ↦ do return (p, ← contentOf p)
  | .error _ => return []

/-- There is nothing to load. -/
def nothing {α : Type} (spec : String) : Except Fault α := do
  let target ← Settings.target spec
  throw (.plain .lookup ("No module named " ++ Text.quoted target.moduleName))

/-- The environment, given the address of the execution server in it. -/
def environment (url : Option String) : Environment Unit where
  valueOf name := if name = Settings.urlVariable then url else none
  loader := ⟨nothing, nothing, nothing⟩
  wire _ := return .unreachable "there is no transport"
  installed := .empty

/-- Prints a report; the answer is the status that the program ends with. -/
def print : Report → IO UInt32
  | .finished status output errors => do
    IO.print output
    IO.eprint errors
    return UInt32.ofNat status
  | .serving _ => do
    IO.eprintln "Error: there is no transport"
    return 1
  | .refused usage => do
    IO.eprintln ("Error: " ++ usage.message)
    return 2
  | .failed fault => do
    IO.eprint ((Incident.raised fault).trace)
    return 1

end ModelServer.Program

open ModelServer Depths in
/-- Runs a command line. -/
def main (words : List String) : IO UInt32 := do
  let files ← Program.filesOf words
  let url ← IO.getEnv Settings.urlVariable
  let directory ← IO.currentDir
  let shell : CommandLine.Shell Unit :=
    ⟨Program.environment url, directory.toString, fun p ↦ (files.lookup p).getD .missing⟩
  Program.print (CommandLine.run shell words (.new ())).1
