import ModelServer.Text.Blank
import ModelServer.Text.Digits

/-!
# Addresses on the web

Two things are done with addresses. A text that someone configured is read as one (`read?`): what is
wrapped around it is taken off, and it must name a scheme. And the path of a file is written as one
(`ofFile`): octets that an address cannot hold are escaped, so the address is ASCII.
-/

namespace ModelServer.Url

/-! ### Reading -/

/-- The characters without the `word` at their front, if it is there. -/
def dropWord? : List Char → List Char → Option (List Char)
  | [], cs => some cs
  | w :: word, c :: cs => if w = c then dropWord? word cs else none
  | _ :: _, [] => none

/-- What stands between `<` and `>`, if the text is in these. -/
def inBrackets? (cs : List Char) : Option (List Char) :=
  match cs, cs.getLast? with
  | '<' :: rest, some '>' => some (Text.trimBoth Text.isBlank rest.dropLast)
  | _, _ => none

/-- The text without the blanks, brackets and mark that may be around an address. -/
def unwrap (cs : List Char) : List Char :=
  let cs := Text.trimBoth Text.isBlank cs
  let cs := (inBrackets? cs).getD cs
  match dropWord? "URL:".toList cs with
  | some rest => Text.trimBoth Text.isBlank rest
  | none => cs

/-- What stands before the last `#`, and what stands behind it. -/
def splitFragment (cs : List Char) : List Char × List Char :=
  match cs.reverse.span (· != '#') with
  | (_, []) => (cs, [])
  | (fragment, _ :: before) => (before.reverse, fragment.reverse)

/-- The text starts with a name and a colon. -/
def hasScheme (cs : List Char) : Bool :=
  match cs.span fun c ↦ c != '/' && c != ':' with
  | (_ :: _, ':' :: _) => true
  | _ => false

/-- The address that a text is, or, if it names no scheme, what it would be. An empty fragment is
dropped. -/
def read (s : String) : Except String String :=
  let (base, fragment) := splitFragment (unwrap s.toList)
  let whole := String.ofList (if fragment.isEmpty then base else base ++ '#' :: fragment)
  if hasScheme base then .ok whole else .error whole

/-! ### Paths of files -/

/-- An octet that stands for itself in the address of a file. -/
def isPlain (b : UInt8) : Bool :=
  let c := Char.ofNat b.toNat
  c.isAlphanum || c == '_' || c == '.' || c == '-' || c == '~' || c == '/'

/-- One octet of a path as it stands in an address. -/
def escapeOctet (b : UInt8) : List Char :=
  if isPlain b then [Char.ofNat b.toNat]
  else '%' :: (Text.hex 2 b.toNat).map Char.toUpper

/-- The steps of a path, one after the other, last one first: `.` stays where it is and `..` goes
back one step, unless there is none. -/
def walk : List String → List String → List String
  | seen, [] => seen
  | seen, step :: rest =>
    if step = "" ∨ step = "." then walk seen rest
    else if step = ".." then walk seen.tail rest
    else walk (step :: seen) rest

/-- The path from the root that `path` is when it starts at the directory `base`; one that starts at
the root is as it is. -/
def absolute (base path : String) : String :=
  let whole := if path.startsWith "/" then path else base ++ "/" ++ path
  "/" ++ "/".intercalate (walk [] (whole.splitOn "/")).reverse

/-- The address of the file with that absolute path. -/
def ofFile (path : String) : String :=
  "file://" ++ String.ofList (path.toUTF8.toList.flatMap escapeOctet)

end ModelServer.Url
