import ModelServer.CommandLine.Options
import ModelServer.CommandLine.Path
import ModelServer.Command.Basic
import ModelServer.Text.Digits

/-!
# Invocations

What a command line asks for. `Invocation.ofWords` reads it off the words: first come the options of the
program as a whole, then the name of a command, then the command's own options and arguments. What is
wrong is told in a fixed order: a word that is no known option, then the path of an option that can be
none, then an argument that is missing or can be none, then an option that is missing, then words that
nothing takes.
-/

namespace ModelServer.CommandLine

/-- Where the documents of an invocation are, and where its settings are. -/
structure Sources where
  /-- The files of the documents. -/
  paths : List String
  /-- The directory with the settings. -/
  root : String
  /-- The file of the settings, if it is another one. -/
  config : Option String
  deriving DecidableEq, Repr

/-- What a command line asks for. -/
inductive Invocation where
  /-- To serve an editor, at an address if one is given. -/
  | serve (address : Option String)
  /-- To list the commands that documents offer. -/
  | commands (sources : Sources)
  /-- To run a command on an element. -/
  | execute (sources : Sources) (entity command : String) (args params : List String)
  /-- To run the tests of an element. -/
  | test (sources : Sources) (entity : String) (suite test : Option String) (legacy : Bool)
  /-- To list the references in documents and where they lead to. -/
  | references (sources : Sources)
  /-- To describe the program. -/
  | help
  deriving DecidableEq, Repr

/-- What a command takes. -/
structure Profile where
  name : String
  takesPaths : Bool
  options : List KnownOption
  /-- The options that must be given, in the order in which their absence is told. -/
  required : List String
  deriving DecidableEq, Repr

namespace Profile

def valued (name : String) : KnownOption := ⟨name, true⟩

def flag (name : String) : KnownOption := ⟨name, false⟩

/-- The options that tell where the settings are. -/
def settingsOptions : List KnownOption :=
  [valued "--root", valued "--config"]

def serve : Profile :=
  ⟨"serve", false, [valued "--tcp", helpOption], []⟩

def commands : Profile :=
  ⟨"commands", true, settingsOptions ++ [helpOption], []⟩

def execute : Profile :=
  ⟨"execute", true,
    [valued "--entity", valued "--command", valued "--arg", valued "--param"] ++ settingsOptions ++
      [helpOption],
    ["--entity"]⟩

def test : Profile :=
  ⟨"test", true,
    [valued "--entity", valued "--suite", valued "--test", flag "--legacy", flag "--no-legacy"] ++
      settingsOptions ++ [helpOption],
    ["--entity"]⟩

def references : Profile :=
  ⟨"references", true, settingsOptions ++ [helpOption], []⟩

/-- All commands. -/
def all : List Profile :=
  [serve, commands, execute, test, references]

/-- The argument that names the documents. -/
def pathsArgument : String := "paths"

/-- A parameter that holds a path refuses one that no path can be. -/
def checkPath (parameter path : String) : Except Usage Unit :=
  match Path.refusal? path with
  | some reason => .error (.unfit parameter ("Value error, " ++ reason))
  | none => .ok ()

/-- The options that hold a path are checked in the order in which they are first given, by the value
that counts. -/
def checkOptions (s : Scan) : Except Usage Unit :=
  (s.options.map (·.1)).forM fun name ↦
    if settingsOptions.any (·.name == name) then checkPath name ((s.value? name).getD "") else .ok ()

/-- The words of a command that takes paths are all paths, and at least one. -/
def checkWords (p : Profile) (s : Scan) : Except Usage Unit :=
  if !p.takesPaths then .ok ()
  else if s.words.isEmpty then .error (.missingArgument pathsArgument)
  else s.words.forM (checkPath pathsArgument)

/-- Nothing that must be given is missing, and nothing is left over. -/
def checkPresent (p : Profile) (s : Scan) : Except Usage Unit :=
  match p.required.find? (!s.has ·) with
  | some name => .error (.missingOption name)
  | none => if p.takesPaths || s.words.isEmpty then .ok () else .error (.extra s.words)

/-- The words of a command, if it can take them. -/
def check (p : Profile) (s : Scan) : Except Usage Unit := do
  checkOptions s
  p.checkWords s
  p.checkPresent s

end Profile

namespace Invocation

/-- The options of the program as a whole. -/
def programOptions : List KnownOption :=
  [Profile.valued "--log-level", helpOption]

/-- Where the documents and settings are. -/
def sources (s : Scan) : Sources :=
  ⟨s.words, (s.value? "--root").getD ".", s.value? "--config"⟩

/-- The legacy test is asked for, by the last of the two options that say. -/
def wantsLegacy (s : Scan) : Bool :=
  ((s.options.map (·.1)).filter fun n ↦ n == "--legacy" || n == "--no-legacy").getLast? ==
    some "--legacy"

/-- Where the documents and settings of an invocation are, if it has any. -/
def sources? : Invocation → Option Sources
  | commands s | execute s _ _ _ _ | test s _ _ _ _ | references s => some s
  | serve _ | help => none

/-- What the words of a command ask for. -/
def ofScan (p : Profile) (s : Scan) : Invocation :=
  let entity := (s.value? "--entity").getD ""
  if p = .serve then .serve (s.value? "--tcp")
  else if p = .commands then .commands (sources s)
  else if p = .execute then
    .execute (sources s) entity ((s.value? "--command").getD Command.executeId) (s.valuesOf "--arg")
      (s.valuesOf "--param")
  else if p = .test then
    .test (sources s) entity (s.value? "--suite") (s.value? "--test") (wantsLegacy s)
  else .references (sources s)

/-- What the words behind the name of a command ask for. -/
def ofCommand (p : Profile) (words : List String) : Except Usage Invocation := do
  let s ← (scan p.options true words).mapError (·.usage)
  if s.has helpOption.name then return .help
  p.check s
  return ofScan p s

/-- What is wrong, with the commands that the first of the words may have been meant for. -/
def proposing (u : Usage) : List String → Usage
  | [] => u
  | word :: _ =>
    match Text.Similarity.closeTo word (Profile.all.map (·.name)) with
    | [] => u
    | similar => .proposing u similar

/-- What words come to of which the first, `name`, should name a command and does not. If it looks like an
option it is taken for one, and the words that are then left are those that commands are proposed
for. -/
def ofUnknown (name : String) (rest : List String) : Except Usage Invocation :=
  match scan programOptions false (name :: rest) with
  | .error r => .error (proposing r.usage r.rest)
  | .ok s =>
    if s.has helpOption.name then .ok .help
    else .error (proposing (.unknownCommand name) s.words)

/-- What a command line asks for. -/
def ofWords (words : List String) : Except Usage Invocation := do
  let s ← (scan programOptions false words).mapError (·.usage)
  if s.has helpOption.name then return .help
  match s.words with
  | [] => throw .missingCommand
  | name :: rest =>
    match Profile.all.find? (·.name == name) with
    | some p => ofCommand p rest
    | none => ofUnknown name rest

end Invocation

/-- Where an editor is served. -/
inductive Endpoint where
  /-- On standard input and output. -/
  | standard
  | tcp (host : String) (port : Nat)
  deriving DecidableEq, Repr

namespace Endpoint

/-- The host where none is named. -/
def localHost : String := "127.0.0.1"

/-- What stands before the last colon, and what stands behind it. -/
def split? (s : String) : Option (List Char × List Char) :=
  match s.toList.reverse.span (· != ':') with
  | (_, []) => none
  | (port, _ :: host) => some (host.reverse, port.reverse)

/-- Why an address is none. -/
inductive Refusal where
  | form (address : String)
  /-- Characters that count as digits and denote no number, as they are shown. -/
  | port (shown : String)
  /-- More digits than are read. -/
  | long (digits : Nat)
  deriving DecidableEq, Repr

/-- The number of decimal digits at the front. -/
def decimals (port : List Char) : Nat :=
  (port.takeWhile fun c ↦ (Text.decimalValue? c).isSome).length

/-- The number of characters in which a port is shown that is none. -/
def shownWidth : Nat := 200

/-- The endpoint that an address names, or the reason why it names none. -/
def ofAddress (address : String) : Except Refusal Endpoint :=
  match split? address with
  | none => .error (.form address)
  | some (host, port) =>
    if port.isEmpty || !port.all Text.isDigit then .error (.form address)
    else if Text.maxDigits < decimals port then .error (.long (decimals port))
    else
      match Text.nat? port with
      | some n => .ok (.tcp (if host.isEmpty then localHost else String.ofList host) n)
      | none => .error (.port (Text.quotedWithin shownWidth (String.ofList port)))

end Endpoint

end ModelServer.CommandLine
