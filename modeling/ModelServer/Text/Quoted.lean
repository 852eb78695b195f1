import ModelServer.Text.Printable
import ModelServer.Text.Digits
import ModelServer.Text.Surrogate

/-!
# Quoted text

The form in which messages show a piece of text: between quotes, on one line, with everything that
is not printable escaped. Single quotes are used unless the text holds one and holds no double
quote, so that a quote is escaped only where the text holds both kinds.
-/

namespace ModelServer.Text

/-- The quote that goes around a text. -/
def quoteFor (cs : List Char) : Char :=
  if cs.contains '\'' && !cs.contains '"' then '"' else '\''

/-- One character as it stands inside the quotes. -/
def quoteChar (quote c : Char) : List Char :=
  if c == '\\' || c == quote then ['\\', c]
  else if c == '\n' then ['\\', 'n']
  else if c == '\r' then ['\\', 'r']
  else if c == '\t' then ['\\', 't']
  else if isPrintable c then [c]
  else if c.toNat < 0x100 then '\\' :: 'x' :: hex 2 c.toNat
  else if c.toNat < 0x10000 then '\\' :: 'u' :: hex 4 c.toNat
  else '\\' :: 'U' :: hex 8 c.toNat

/-- One code point as it stands inside the quotes: a surrogate is escaped by its value. -/
def quoteUnit (quote : Char) (n : Nat) : List Char :=
  if isSurrogate n then '\\' :: 'u' :: hex 4 n else quoteChar quote (Char.ofNat n)

/-- The text between quotes. -/
def quoted (s : String) : String :=
  let q := quoteFor s.toList
  String.ofList (q :: ((units s.toList).flatMap (quoteUnit q) ++ [q]))

/-- The text between quotes, cut off behind `width` characters. -/
def quotedWithin (width : Nat) (s : String) : String :=
  String.ofList ((quoted s).toList.take width)

/-! ### Text that goes to a terminal -/

/-- A control character, of either set. -/
def isControl (c : Char) : Bool :=
  c.toNat < 0x20 || (0x7F ≤ c.toNat && c.toNat < 0xA0)

/-- The text with control characters escaped by their values, so that it can do nothing to the terminal
it is shown on. -/
def tame (s : String) : String :=
  String.ofList (s.toList.flatMap fun c ↦
    if isControl c then '\\' :: 'x' :: hex 2 c.toNat else [c])

/-- The text with surrogates that stand alone escaped by their values, since nothing can show them. -/
def shown (s : String) : String :=
  String.ofList ((units s.toList).flatMap fun n ↦
    if isSurrogate n then '\\' :: 'u' :: hex 4 n else [Char.ofNat n])

/-- One octet as it stands inside the quotes: octets outside printable ASCII are escaped by their
value. -/
def quoteOctet (quote : Char) (b : UInt8) : List Char :=
  if b < 0x80 then quoteChar quote (Char.ofNat b.toNat) else '\\' :: 'x' :: hex 2 b.toNat

/-- A run of octets between quotes, marked by a `b` in front. -/
def quotedOctets (bs : List UInt8) : String :=
  let q := quoteFor (bs.map fun b ↦ Char.ofNat b.toNat)
  String.ofList ('b' :: q :: (bs.flatMap (quoteOctet q) ++ [q]))

end ModelServer.Text
