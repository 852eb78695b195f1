import ModelServer.Json.Data

/-!
# What can be wrong with a value

A schema finds everything that is wrong with a value at once. Each `Issue` is a cause together with
the path from the value being checked to the part at fault; the wording of causes is given here and
nowhere else.
-/

namespace ModelServer.Schema

/-- A step from a value to a part of it: a member by name, or an item by number. The case of a union
that was chosen is a step of its own, under the name of its tag. -/
inductive Step where
  | name (s : String)
  | index (n : Nat)
  deriving DecidableEq, Repr

/-- The text of a step. Steps are set apart by points, so a name that holds one stands between backward
quotes. -/
def Step.render : Step → String
  | .name s => if s.contains '.' then "\x60" ++ s ++ "\x60" else s
  | .index n => toString n

/-- The step to the member of that name. -/
def Step.member (name : String) : Step :=
  .name (Text.repaired name)

/-- Why a value does not fit. -/
inductive Cause where
  /-- A member that must be there is not. -/
  | missing
  | text
  /-- Surrogates stand alone in the text. -/
  | brokenText
  /-- The text must not be empty. -/
  | emptyText
  | integer
  | integerText
  | fractional
  | infinite
  | tooLarge
  | boolean
  | booleanText
  | list
  | dictionary
  | tuple
  /-- A tuple of two has `length` items. -/
  | tupleLength (length : Nat)
  /-- The value should be a record of the named kind. -/
  | record (title : String)
  /-- The member that names the kind of a record should have this value. -/
  | kind (expected : String)
  /-- The value should be a record of one of several kinds. -/
  | union
  | untagged
  | unknownTag (found : String) (expected : List String)
  /-- A span has a negative coordinate. -/
  | negativeSpan (start stop : Int × Int)
  /-- A span ends before it starts. -/
  | reversedSpan (start stop : Int × Int)
  /-- The value is nested too deep. -/
  | depth
  deriving DecidableEq, Repr

/-- The text of a pair of coordinates. -/
def renderPair (p : Int × Int) : String :=
  "(" ++ toString p.1 ++ ", " ++ toString p.2 ++ ")"

/-- The wording of a cause. -/
def Cause.message : Cause → String
  | .missing => "Field required"
  | .text => "Input should be a valid string"
  | .brokenText => "Input should be a valid string, unable to parse raw data as a unicode string"
  | .emptyText => "String should have at least 1 character"
  | .integer => "Input should be a valid integer"
  | .integerText => "Input should be a valid integer, unable to parse string as an integer"
  | .fractional => "Input should be a valid integer, got a number with a fractional part"
  | .infinite => "Input should be a finite number"
  | .tooLarge => "Unable to parse input string as an integer, exceeded maximum size"
  | .boolean => "Input should be a valid boolean"
  | .booleanText => "Input should be a valid boolean, unable to interpret input"
  | .list => "Input should be a valid list"
  | .dictionary => "Input should be a valid dictionary"
  | .tuple => "Input should be a valid tuple"
  | .tupleLength n => "Tuple should have at most 2 items after validation, not " ++ toString n
  | .record title => "Input should be a valid dictionary or instance of " ++ title
  | .kind expected => "Input should be '" ++ expected ++ "'"
  | .union => "Input should be a valid dictionary or object to extract fields from"
  | .untagged => "Unable to extract tag using discriminator 'kind'"
  | .unknownTag found expected =>
    "Input tag '" ++ found ++ "' found using 'kind' does not match any of the expected tags: " ++
      ", ".intercalate (expected.map fun t ↦ "'" ++ t ++ "'")
  | .negativeSpan start stop =>
    "Value error, span positions must be non-negative: " ++ renderPair start ++ " to " ++
      renderPair stop
  | .reversedSpan start stop =>
    "Value error, span ends before it starts: " ++ renderPair start ++ " to " ++ renderPair stop
  | .depth => "Recursion error - maximum validation depth exceeded"

/-- The code of a cause. -/
def Cause.code : Cause → String
  | .missing => "missing"
  | .text => "string_type"
  | .brokenText => "string_unicode"
  | .emptyText => "string_too_short"
  | .integer => "int_type"
  | .integerText => "int_parsing"
  | .fractional => "int_from_float"
  | .infinite => "finite_number"
  | .tooLarge => "int_parsing_size"
  | .boolean => "bool_type"
  | .booleanText => "bool_parsing"
  | .list => "list_type"
  | .dictionary => "dict_type"
  | .tuple => "tuple_type"
  | .tupleLength _ => "too_long"
  | .record _ => "model_type"
  | .kind _ => "literal_error"
  | .union => "model_attributes_type"
  | .untagged => "union_tag_not_found"
  | .unknownTag _ _ => "union_tag_invalid"
  | .negativeSpan _ _ => "value_error"
  | .reversedSpan _ _ => "value_error"
  | .depth => "recursion_depth_exceeded"

/-- Something wrong with a part of a value. -/
structure Issue where
  path : List Step
  cause : Cause
  deriving DecidableEq, Repr

/-- The lines of an issue: its path, unless the value as a whole is at fault, and its cause. -/
def Issue.lines (i : Issue) : List String :=
  let what := "  " ++ i.cause.message ++ " [type=" ++ i.cause.code ++ "]"
  if i.path.isEmpty then [what] else [".".intercalate (i.path.map Step.render), what]

/-- The wording of all that is wrong with a value of the named kind. -/
def describe (title : String) (issues : List Issue) : String :=
  let count := issues.length
  let head :=
    toString count ++ (if count = 1 then " validation error for " else " validation errors for ") ++
      title
  "\n".intercalate (head :: issues.flatMap Issue.lines)

end ModelServer.Schema
