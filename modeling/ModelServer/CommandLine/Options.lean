import ModelServer.CommandLine.Usage

/-!
# Options on a command line

A command line is a list of words. An option is a word that starts with a dash, with its value behind a
sign of equality or in the next word; `--` ends the options. `scan` sorts the words into options and
others, in one pass from left to right.
-/

namespace ModelServer.CommandLine

/-- An option that a command knows. -/
structure KnownOption where
  name : String
  takesValue : Bool
  deriving DecidableEq, Repr

/-- An option that asks for a description of the command. -/
def helpOption : KnownOption := ⟨"--help", false⟩

/-- The words of a command line: the options with their values (empty if they take none), and the words
that are no options. -/
structure Scan where
  options : List (String × String)
  words : List String
  deriving DecidableEq, Repr

namespace Scan

/-- One more option, in front. -/
def withOption (name value : String) (s : Scan) : Scan :=
  { s with options := (name, value) :: s.options }

/-- One more word, in front. -/
def withWord (word : String) (s : Scan) : Scan :=
  { s with words := word :: s.words }

/-- The values given for an option, in order. -/
def valuesOf (name : String) (s : Scan) : List String :=
  (s.options.filter (·.1 == name)).map (·.2)

/-- The last value given for an option. -/
def value? (name : String) (s : Scan) : Option String :=
  (s.valuesOf name).getLast?

/-- The option is given. -/
def has (name : String) (s : Scan) : Bool :=
  s.options.any (·.1 == name)

end Scan

/-- What stands before the first sign of equality, and what stands behind it, if there is one. -/
def splitAtEquals (s : String) : String × Option String :=
  match s.toList.span (· != '=') with
  | (_, []) => (s, none)
  | (before, _ :: behind) => (String.ofList before, some (String.ofList behind))

/-- A word is an option if more than a dash starts with a dash. -/
def isOption (word : String) : Bool :=
  match word.toList with
  | '-' :: _ :: _ => true
  | _ => false

/-- The fault of an option that is not known. Of a word that starts with one dash only the first
character is an option. -/
def unknown (known : List KnownOption) (word : String) : Usage :=
  match word.toList with
  | '-' :: '-' :: _ =>
    let name := (splitAtEquals word).1
    .unknownOption name (Text.Similarity.closeTo name (known.map (·.name)))
  | '-' :: c :: _ => .unknownOption (String.ofList ['-', c]) []
  | _ => .unknownOption word []

/-- What is wrong with words, and the words behind the one that it is wrong with. -/
structure Refusal where
  usage : Usage
  rest : List String
  deriving DecidableEq, Repr

/-- Sorts the words. If options and other words are not `mixed`, the first other word ends the
options. -/
def scan (known : List KnownOption) (mixed : Bool) : List String → Except Refusal Scan
  | [] => .ok ⟨[], []⟩
  | word :: rest =>
    if word = "--" then .ok ⟨[], rest⟩
    else if isOption word then
      let (name, attached) := splitAtEquals word
      match known.find? (·.name == name), attached with
      | none, _ => .error ⟨unknown known word, rest⟩
      | some o, some value =>
        if o.takesValue then (scan known mixed rest).map (·.withOption name value)
        else .error ⟨.unwantedValue name, rest⟩
      | some o, none =>
        if o.takesValue then
          match rest with
          | [] => .error ⟨.missingValue name, []⟩
          | value :: rest => (scan known mixed rest).map (·.withOption name value)
        else (scan known mixed rest).map (·.withOption name "")
    else if mixed then (scan known mixed rest).map (·.withWord word)
    else .ok ⟨[], word :: rest⟩

end ModelServer.CommandLine
