import ModelServer.CommandLine.Path
import ModelServer.Settings.Basic

/-!
# Files in memory

The files of one directory, held as texts by their names. A path leads from the directory, or from the
root if it starts with a slash, through directories that there are: those that files are in, and those
above.
-/

namespace ModelServer.CommandLine

structure Files where
  /-- The steps from the root to the directory. -/
  directory : List String
  /-- The texts by the steps from the root to each file. -/
  texts : List (List String × String)

namespace Files

/-- The files of those names in a directory. -/
def ofNames (directory : String) (texts : List (String × String)) : Files :=
  ⟨Path.steps directory, texts.map fun f ↦ (Path.steps directory ++ Path.steps f.1, f.2)⟩

/-- The steps lead to a directory. -/
def isDirectory (fs : Files) (steps : List String) : Bool :=
  steps.isPrefixOf fs.directory ||
    fs.texts.any fun f ↦ steps.isPrefixOf f.1 && steps.length < f.1.length

/-- One step further from a directory, or what is found if there is no further step. -/
def walk (fs : Files) (reached : List String) (step : String) :
    Except FileContent (List String) :=
  if !fs.isDirectory reached then .error .missing
  else if Path.maxStepSize < step.utf8ByteSize then .error .tooLong
  else .ok (if step = ".." then reached.dropLast else reached ++ [step])

/-- What is found where the steps lead to. -/
def contentAt (fs : Files) (steps : List String) : FileContent :=
  match fs.texts.lookup steps with
  | some text => .octets text.toUTF8.toList
  | none => if fs.isDirectory steps then .directory else .missing

/-- What is found under a path. -/
def content (fs : Files) (path : String) : FileContent :=
  let start := if (Path.root path).isEmpty then fs.directory else []
  if Path.maxSize < path.utf8ByteSize then .tooLong
  else
    match (Path.steps path).foldlM fs.walk start with
    | .error found => found
    | .ok steps => fs.contentAt steps

end Files

end ModelServer.CommandLine
