import ModelServer.Api.Record

/-!
# Commands

What can be done to an element, as it is offered in a list of commands. A `Collector` takes offers in
order and keeps the first for each element and command id, so what it holds never has two commands of
one id for one element.
-/

namespace ModelServer

namespace Command

/-! ### The ids and titles of commands -/

def executeId : String := "conduit.function.execute"

def registerId : String := "conduit.service.registerService"

def runLegacyTestsId : String := "conduit.service.runLegacyTests"

def runTestsId : String := "conduit.testable.runTests"

def executeTitle : String := "Execute"

def registerTitle : String := "Register service"

def runLegacyTestsTitle : String := "Run legacy tests"

def runTestsTitle : String := "Run tests"

/-! ### The names of the requests that a client sends -/

def executeRequest : String := "conduit.execute"

def tableRequest : String := "conduit.tdsRequest"

def cancelRequest : String := "conduit.cancelRequest"

end Command

/-- A command that is offered for an element. -/
structure Command where
  entityPath : String
  id : String
  title : String
  location : Option Location
  executableArgs : List (String × String)
  deriving DecidableEq, Repr

namespace Command

/-- A command without arguments of its own. -/
def plain (path id title : String) (location : Option Location) : Command :=
  ⟨path, id, title, location, []⟩

/-- What tells two offers apart. -/
def key (c : Command) : String × String :=
  (c.entityPath, c.id)

/-- The record that clients get of a command. -/
def record (c : Command) : Api.CommandRecord :=
  ⟨c.entityPath, c.id, c.title, c.location.map .ofLocation, c.executableArgs⟩

/-- Takes an offer, unless one with its key was taken before. -/
def offer (taken : List Command) (c : Command) : List Command :=
  if taken.any (·.key = c.key) then taken else taken ++ [c]

/-- The offers that are kept, each the first with its key. -/
def collect (offers : List Command) : List Command :=
  offers.foldl offer []

end Command

end ModelServer
