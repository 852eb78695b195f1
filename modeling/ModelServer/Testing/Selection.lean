import ModelServer.Json.Data
import ModelServer.Model.Part

/-!
# Choosing tests

Which tests of an element are run: all, those of one suite, those with one id, or both. Choosing by
test keeps of each suite the tests with that id and drops a suite that is left without any; choosing
by suite alone keeps suites whole, also those that hold no test.
-/

namespace ModelServer

variable {σ : Type}

/-- The id is the wanted one, which should be a text and is no id otherwise; every id is, if none is
wanted in particular. -/
def isWanted (wanted : Json) (id : String) : Bool :=
  wanted.isNull || wanted.text? == some id

namespace TestSuite

/-- The suite with those of its tests that have the id; `none` if it has none. -/
def only? (test : Json) (s : TestSuite σ) : Option (TestSuite σ) :=
  match s.tests.filter fun t ↦ isWanted test t.id with
  | [] => none
  | tests => some { s with tests }

/-- The part of the suite that is chosen. -/
def choose (suite test : Json) (s : TestSuite σ) : Option (TestSuite σ) :=
  if isWanted suite s.id then if test.isNull then some s else s.only? test
  else none

/-- The suites, and the parts of suites, that are chosen. -/
def select (suites : List (TestSuite σ)) (suite test : Json) : List (TestSuite σ) :=
  suites.filterMap (choose suite test)

/-- Where the test of that id in the suite of that id stands: at the first such test of the first
such suite, or, if that suite has no such test or the test has no place, at the suite. -/
def sourceOf (suites : List (TestSuite σ)) (suite test : String) : Option σ :=
  match suites.find? (·.id == suite) with
  | none => none
  | some s =>
    match s.tests.find? (·.id == test) with
    | some t => t.source <|> s.source
    | none => s.source

end TestSuite

end ModelServer
