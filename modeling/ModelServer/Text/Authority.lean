import ModelServer.Text.Quoted

/-!
# Who answers for an address

Behind its scheme an address names, after two slashes, who answers for it: a host, perhaps with a port and
a user. A host that is an address of its own stands in square brackets, and must then be one of version
six or of a later version. `check` refuses an address whose brackets do not fit, and one in which a
character only looks as if it did not end this part: under compatibility normalization it would.
-/

namespace ModelServer.Url.Authority

/-- Why an address is refused. -/
inductive Refusal where
  /-- There are brackets of one kind only. -/
  | brackets
  /-- What stands in brackets claims a later version and is not of its form. -/
  | laterVersion
  /-- What stands in brackets is an address of version four. -/
  | versionFour
  /-- What stands in brackets is no address. -/
  | noAddress (host : String)
  | disguised (authority : String)
  deriving DecidableEq, Repr

/-- The wording. -/
def Refusal.message : Refusal → String
  | brackets => "Invalid IPv6 URL"
  | laterVersion => "IPvFuture address is invalid"
  | versionFour => "An IPv4 address cannot be in brackets"
  | noAddress host => Text.quoted host ++ " does not appear to be an IPv4 or IPv6 address"
  | disguised authority =>
    "netloc '" ++ authority ++ "' contains invalid characters under NFKC normalization"

/-! ### Numeric addresses -/

/-- A number below 256 without leading zeros. -/
def isOctet (s : String) : Bool :=
  let cs := s.toList
  !cs.isEmpty && cs.length ≤ 3 && cs.all Text.isAsciiDigit &&
    (s == "0" || cs.head? != some '0') && Text.natOfDigits cs ≤ 255

/-- An address of version four: four octets with points between them. -/
def isVersionFour (s : String) : Bool :=
  let parts := s.splitOn "."
  parts.length == 4 && parts.all isOctet

/-- One to four hexadecimal digits. -/
def isGroup (s : String) : Bool :=
  let cs := s.toList
  !cs.isEmpty && cs.length ≤ 4 && cs.all fun c ↦ (Text.hexValue? c).isSome

/-- The groups, two of them in the place of an address of version four at the end; `none` if what looks
like one there is none. -/
def expandLast (groups : List String) : Option (List String) :=
  match groups.getLast? with
  | some last =>
    if last.contains '.' then
      if isVersionFour last then some (groups.dropLast ++ ["0", "0"]) else none
    else some groups
  | none => some groups

/-- Groups of which the one at `gap`, which is empty, stands for as many as are missing. An empty group at
either end must be next to it. -/
def fitsAround (groups : List String) (gap : Nat) : Bool :=
  let before := groups.take gap
  let behind := groups.drop (gap + 1)
  let before := if before == [""] then [] else before
  let behind := if behind == [""] then [] else behind
  before.length + behind.length < 8 && before.all isGroup && behind.all isGroup

/-- Eight groups, or fewer with one gap. -/
def isGroups (groups : List String) : Bool :=
  let inner := (List.range groups.length).filter fun i ↦
    0 < i && i + 1 < groups.length && groups[i]? == some ""
  match inner with
  | [] => groups.length == 8 && groups.all isGroup
  | [gap] => fitsAround groups gap
  | _ => false

/-- An address of version six, perhaps with the zone that it is in. -/
def isVersionSix (s : String) : Bool :=
  let groups := fun (s : String) ↦
    let parts := s.splitOn ":"
    3 ≤ parts.length && ((expandLast parts).any fun gs ↦ gs.length ≤ 9 && isGroups gs)
  match s.splitOn "%" with
  | [address] => groups address
  | [address, zone] => !zone.isEmpty && groups address
  | _ => false

/-- An address of a later version: the version, a point, and what there is behind it. -/
def isLaterVersion (cs : List Char) : Bool :=
  match cs with
  | 'v' :: rest =>
    match rest.span fun c ↦ (Text.hexValue? c).isSome with
    | (_ :: _, '.' :: _ :: _) => true
    | _ => false
  | _ => false

/-- What stands in brackets must be an address of version six or later. -/
def checkHost (host : List Char) : Except Refusal Unit :=
  let s := String.ofList host
  if host.head? == some 'v' then
    if isLaterVersion host then .ok () else .error .laterVersion
  else if isVersionFour s then .error .versionFour
  else if isVersionSix s then .ok ()
  else .error (.noAddress s)

/-! ### The authority of an address -/

/-- The address without blanks in front and line breaks anywhere. -/
def clean (cs : List Char) : List Char :=
  (cs.dropWhile (·.toNat ≤ 0x20)).filter fun c ↦ c != '\t' && c != '\n' && c != '\r'

/-- A character of a scheme. -/
def isSchemeChar (c : Char) : Bool :=
  c.isAlphanum || c == '+' || c == '-' || c == '.'

/-- What stands behind the scheme, or all if there is none. -/
def behindScheme (cs : List Char) : List Char :=
  match cs.span (· != ':') with
  | (c :: scheme, _ :: rest) => if c.isAlpha && scheme.all isSchemeChar then rest else cs
  | _ => cs

/-- The part of an address that names who answers for it; nothing if there is no such part. -/
def ofAddress (address : String) : List Char :=
  match behindScheme (clean address.toList) with
  | '/' :: '/' :: rest => rest.takeWhile fun c ↦ c != '/' && c != '?' && c != '#'
  | _ => []

/-- What stands in the first brackets. -/
def inBrackets (cs : List Char) : List Char :=
  ((cs.dropWhile (· != '[')).drop 1).takeWhile (· != ']')

/-- The characters whose compatibility form holds a character that would end the authority, or one of
its parts. -/
def disguises : List Nat :=
  [0x2047, 0x2048, 0x2049, 0x2100, 0x2101, 0x2105, 0x2106, 0x2A74, 0xFE13, 0xFE16, 0xFE55, 0xFE56,
    0xFE5F, 0xFE6B, 0xFF03, 0xFF0F, 0xFF1A, 0xFF1F, 0xFF20]

/-- Nothing in the authority is disguised. -/
def checkPlain (cs : List Char) : Except Refusal Unit :=
  if cs.any fun c ↦ disguises.contains c.toNat then .error (.disguised (String.ofList cs))
  else .ok ()

/-- Refuses an address whose authority cannot be one. -/
def check (address : String) : Except Refusal Unit := do
  let cs := ofAddress address
  if cs.contains '[' != cs.contains ']' then throw .brackets
  if cs.contains '[' then checkHost (inBrackets cs)
  checkPlain cs

end ModelServer.Url.Authority
