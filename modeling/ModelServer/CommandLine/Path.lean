/-!
# Paths

The paths of files as they are given on a command line. In its plain form a path has no empty steps and
no steps that stay where they are; steps that go back are kept, since where they lead depends on the
files there are.
-/

namespace ModelServer.CommandLine.Path

/-- A path must not hold the character that ends paths where they are looked up; this is what is wrong
with one that does. -/
def refusal? (path : String) : Option String :=
  if path.contains '\x00' then some "embedded null byte" else none

/-- How many octets a path has at most. -/
def maxSize : Nat := 4095

/-- How many octets a step has at most. -/
def maxStepSize : Nat := 255

/-- The slashes that a path starts with, as far as they count: two have a meaning of their own, more
than two are as one. -/
def root (path : String) : String :=
  match path.toList with
  | '/' :: '/' :: '/' :: _ => "/"
  | '/' :: '/' :: _ => "//"
  | '/' :: _ => "/"
  | _ => ""

/-- The steps of a path. -/
def steps (path : String) : List String :=
  (path.splitOn "/").filter fun s ↦ s ≠ "" ∧ s ≠ "."

/-- The plain form of a path. -/
def plain (path : String) : String :=
  let whole := root path ++ "/".intercalate (steps path)
  if whole.isEmpty then "." else whole

/-- The file of that name in a directory. -/
def join (directory name : String) : String :=
  plain (directory ++ "/" ++ name)

end ModelServer.CommandLine.Path
