import ModelServer.CommandLine.Options

/-!
# Names and values on a command line

Arguments and parameters are given as `name=value`, the name not being empty. Of two values for one name
the later one counts, in the place of the earlier. The value of a parameter is JSON if it can be read as
JSON, and otherwise the text that it is; only a text that is nested too deep is a fault.
-/

namespace ModelServer.CommandLine.Pairs

variable [Depths]

/-- A name and the text behind the first sign of equality. -/
def split (option entry : String) : Except Usage (String × String) :=
  match splitAtEquals entry with
  | (name, some value) =>
    if name.isEmpty then .error (refusal option entry) else .ok (name, value)
  | (_, none) => .error (refusal option entry)
where
  /-- The entry is no name and value. -/
  refusal (option entry : String) : Usage :=
    .invalid (option ++ " expects key=value, got " ++ Text.quoted entry)

/-- Names and texts. -/
def texts (option : String) (entries : List String) : Except Usage (List (String × String)) :=
  (entries.mapM (split option)).map Dictionary.ofList

/-- The value that a text denotes. -/
def decode (s : String) : Except Fault Json :=
  match Json.read s with
  | .ok v => .ok v
  | .error f => if f.isDepth then .error (.unreadable f) else .ok (.text s)

/-- A name and a value. -/
def member (option entry : String) : Except Stop (String × Json) := do
  let pair ← (split option entry).mapError .usage
  let v ← (decode pair.2).mapError .fault
  return (pair.1, v)

/-- Names and values. -/
def values (option : String) (entries : List String) : Except Stop Members :=
  (entries.mapM (member option)).map Dictionary.ofList

end ModelServer.CommandLine.Pairs
