import ModelServer.Text.Blank
import ModelServer.Text.Lines

/-!
# Completions

What an editor proposes at a place, which depends on the text of the line before that place alone:
keywords that the word at its end begins, and for services a template on a blank line and the steps
of a query behind an arrow.
-/

namespace ModelServer

structure Completion where
  description : String
  suggestion : String
  deriving DecidableEq, Repr

namespace Completion

/-- What keyword proposals are described as. -/
def keywordDescription : String := "Keyword"

/-- A letter of a keyword: an ASCII letter or an underscore. -/
def isWordChar (c : Char) : Bool :=
  ('a' ≤ c && c ≤ 'z') || ('A' ≤ c && c ≤ 'Z') || c == '_'

/-- The longest run of word letters at the end of a line. -/
def lastWord (line : String) : String :=
  String.ofList (line.toList.reverse.takeWhile isWordChar).reverse

/-- The keywords that a word begins. Nothing is proposed for the empty word, and no keyword for
itself. -/
def keywords (names : List String) (word : String) : List Completion :=
  if word.isEmpty then []
  else
    (names.filter fun n ↦ word.toList.isPrefixOf n.toList && n != word).map
      (Completion.mk keywordDescription)

/-- A service to start from. -/
def serviceTemplate : String :=
  "\n".intercalate
    ["Service package::path::serviceName",
      "\x7b",
      "  pattern: 'uri/to/the/service/\x7bparameter1\x7d';",
      "  documentation: 'What the service returns and what its parameters mean.';",
      "  execution: Single",
      "  \x7b",
      "    query: parameter1: String[1] |",
      "      package::path::className.all()",
      "        ->filter(x| $x.attribute1 == $parameter1)",
      "        ->project([ x| $x.attribute1 ], ['id']);",
      "    mapping: package::path::mappingName;",
      "    runtime: package::path::runtimeName;",
      "  \x7d",
      "\x7d",
      ""]

/-- The steps of a query. -/
def querySteps : List String :=
  ["filter(x|",
    "project([ x| $x.attribute1 ],['attribute1'])",
    "groupBy([ x| $x.attribute1 ],[ agg(x|$x.attribute2, x|sum($x)) ])",
    "distinct()",
    "limit(10)"]

/-- The line ends in an arrow. -/
def endsInArrow (line : String) : Bool :=
  ['>', '-'].isPrefixOf line.toList.reverse

/-- What is proposed in a service. -/
def services (line : String) : List Completion :=
  (if Text.allBlank line then [⟨"Service boilerplate", serviceTemplate⟩] else []) ++
    (if endsInArrow line then querySteps.map (Completion.mk "Function evaluation") else [])

/-- Keeps of equal completions the first. -/
def union (seen more : List Completion) : List Completion :=
  more.foldl (fun cs c ↦ if cs.contains c then cs else cs ++ [c]) seen

end Completion

end ModelServer
