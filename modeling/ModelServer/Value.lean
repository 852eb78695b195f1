import ModelServer.Fault
import ModelServer.Json.Printer

/-!
# Values of collaborators

What a plan executor or a test runner hands back is data with two kinds of leaves more than JSON has:
octets, and objects of which nothing is known but their text and, if they have one, their name.

What an execution gives is shown to whoever asked for it, and that may fail: an `Output` is a value, or
something of which only the fault of showing it is known.
-/

namespace ModelServer

/-- A leaf that no JSON text denotes. -/
inductive Foreign where
  | octets (bs : List UInt8)
  /-- An object with its text; `name` is its name, if it has one that is a text. -/
  | object (text : String) (name : Option String)
  deriving DecidableEq, Repr

/-- The text form of a leaf. -/
def Foreign.describe : Foreign → String
  | octets bs => Text.quotedOctets bs
  | object text _ => text

/-- A value that a collaborator hands over. -/
abbrev Value := Data Foreign

namespace Value

/-- How a value is shown where it stands alone. -/
def describe (v : Value) : String :=
  Data.describe Foreign.describe v

/-- How a value is shown inside a message. -/
def inspect (v : Value) : String :=
  String.ofList (Data.inspect Foreign.describe v)

/-- The name of the type of a value. -/
def typeName : Value → String :=
  Data.typeName fun
    | .octets _ => "bytes"
    | .object _ _ => "object"

/-- The value counts as nothing. -/
def isNothing (v : Value) : Bool :=
  Data.isBlank (· == .octets []) v

/-- Two values are one as keys. An object is one with nothing but itself. -/
def sameKey (a b : Value) : Bool :=
  match a with
  | .foreign (.object _ _) => false
  | _ => a.key? == b.key?

/-- The name under which an outcome is known: that of the object, else the value's text. -/
def outcomeName : Value → String
  | .foreign (.object _ (some name)) => name
  | v => v.describe

/-- The output of an execution as the text that is shown for it: a text as it is, octets as the text
they are in UTF-8, and anything else as JSON, in which a leaf that JSON has no form for is written
as its text. -/
def renderOutput : Value → String
  | .text s => s
  | .foreign (.octets bs) => Text.Utf8.decodeLossy bs
  | v => String.ofList (Json.writeAt .pretty Foreign.describe 0 v)

end Value

/-- What an execution gives. -/
inductive Output where
  | value (v : Value)
  /-- Something that cannot be shown, such as a record whose names cannot be put in order. -/
  | obscure (fault : Fault)
  deriving Repr

/-- The text that is shown for an output, or the fault of showing it. -/
def Output.render : Output → Except Fault String
  | value v => .ok v.renderOutput
  | obscure fault => .error fault

end ModelServer
