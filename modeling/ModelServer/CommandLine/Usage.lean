import ModelServer.Fault
import ModelServer.Text.Similarity

/-!
# Command lines that are no use

What can be wrong with a command line, and how it is told. A mistyped word is answered with the words
that are close to it. Words that are repeated in a message without quotes are tamed, since the message
goes to a terminal.
-/

namespace ModelServer.CommandLine

/-- What is wrong with a command line. -/
inductive Usage where
  | missingCommand
  | unknownCommand (name : String)
  | unknownOption (name : String) (similar : List String)
  /-- An option stands at the end without the value it takes. -/
  | missingValue (option : String)
  /-- An option that takes no value is given one. -/
  | unwantedValue (option : String)
  | missingOption (name : String)
  | missingArgument (name : String)
  /-- Words that nothing takes. -/
  | extra (words : List String)
  /-- A value that cannot be used. -/
  | invalid (reason : String)
  /-- A value that an option or argument cannot take. -/
  | unfit (parameter reason : String)
  /-- What is wrong, with commands that may have been meant. -/
  | proposing (usage : Usage) (commands : List String)
  deriving DecidableEq, Repr

/-- Why the work on a command line ends early. -/
inductive Stop where
  | usage (u : Usage)
  | fault (f : Fault)
  deriving Repr

namespace Usage

/-- The name under which the fault is told. -/
def name : Usage → String
  | missingCommand | unknownCommand _ | extra _ => "UsageError"
  | unknownOption _ _ => "NoSuchOption"
  | missingValue _ | unwantedValue _ => "BadOptionUsage"
  | missingOption _ | missingArgument _ => "MissingParameter"
  | invalid _ | unfit _ _ => "BadParameter"
  | proposing usage _ => usage.name

/-- What is proposed for a mistyped option. -/
def options : Usage → String
  | unknownOption _ (word :: words) =>
    " (Possible options: " ++ ", ".intercalate ((word :: words).mergeSort (· ≤ ·)) ++ ")"
  | proposing usage _ => usage.options
  | _ => ""

/-- The text without the points at its end. -/
def dropPoints (s : String) : String :=
  String.ofList (s.toList.reverse.dropWhile (· == '.')).reverse

/-- The wording, but for options that are proposed. -/
def statement : Usage → String
  | missingCommand => "Missing command."
  | unknownCommand name => "No such command " ++ Text.quoted name ++ "."
  | unknownOption name _ => "No such option: " ++ Text.tame name
  | missingValue option => "Option " ++ Text.quoted option ++ " requires an argument."
  | unwantedValue option => "Option " ++ Text.quoted option ++ " does not take a value."
  | missingOption name => "Missing option '" ++ name ++ "'."
  | missingArgument name => "Missing argument '" ++ name ++ "'."
  | extra words => "Got unexpected extra argument(s) (" ++ Text.tame (" ".intercalate words) ++ ")"
  | invalid reason => "Invalid value: " ++ reason
  | unfit parameter reason => "Invalid value for '" ++ parameter ++ "': " ++ reason
  | proposing usage commands =>
    dropPoints usage.statement ++ ". Did you mean " ++
      ", ".intercalate (commands.map Text.quoted) ++ "?"

/-- The wording. -/
def message (u : Usage) : String :=
  u.statement ++ u.options

end Usage

end ModelServer.CommandLine
