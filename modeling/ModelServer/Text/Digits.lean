/-!
# Digits of all scripts

A number typed by a user may be written in the digits of any script. `decimalValue?` reads one
decimal digit (category `Nd` of Unicode 14.0); `isDigit` admits more, such as a superscript two,
which stands for a digit without being part of a decimal number. The two classes differ, so a text
of digits need not denote a number: `nat?` is `none` on `²`.
-/

namespace ModelServer.Text

/-- The zeros of the decimal digits: each starts a run of ten. -/
def decimalZeros : List Nat :=
  [
   0x30, 0x660, 0x6F0, 0x7C0, 0x966, 0x9E6, 0xA66, 0xAE6, 0xB66, 0xBE6, 0xC66, 0xCE6, 0xD66,
   0xDE6, 0xE50, 0xED0, 0xF20, 0x1040, 0x1090, 0x17E0, 0x1810, 0x1946, 0x19D0, 0x1A80, 0x1A90,
   0x1B50, 0x1BB0, 0x1C40, 0x1C50, 0xA620, 0xA8D0, 0xA900, 0xA9D0, 0xA9F0, 0xAA50, 0xABF0,
   0xFF10, 0x104A0, 0x10D30, 0x11066, 0x110F0, 0x11136, 0x111D0, 0x112F0, 0x11450, 0x114D0,
   0x11650, 0x116C0, 0x11730, 0x118E0, 0x11950, 0x11C50, 0x11D50, 0x11DA0, 0x16A60, 0x16AC0,
   0x16B50, 0x1D7CE, 0x1D7D8, 0x1D7E2, 0x1D7EC, 0x1D7F6, 0x1E140, 0x1E2F0, 0x1E950, 0x1FBF0]

/-- Characters that stand for a digit and are no decimal digit: superscripts, circled digits and
the like. -/
def otherDigitRanges : List (Nat × Nat) :=
  [(0xB2, 0xB3), (0xB9, 0xB9), (0x1369, 0x1371), (0x19DA, 0x19DA), (0x2070, 0x2070), (0x2074,
   0x2079), (0x2080, 0x2089), (0x2460, 0x2468), (0x2474, 0x247C), (0x2488, 0x2490), (0x24EA,
   0x24EA), (0x24F5, 0x24FD), (0x24FF, 0x24FF), (0x2776, 0x277E), (0x2780, 0x2788), (0x278A,
   0x2792), (0x10A40, 0x10A43), (0x10E60, 0x10E68), (0x11052, 0x1105A), (0x1F100, 0x1F10A)]

/-- The value of a decimal digit. -/
def decimalValue? (c : Char) : Option Nat :=
  (decimalZeros.find? fun z ↦ z ≤ c.toNat && c.toNat < z + 10).map (c.toNat - ·)

/-- A character that stands for a digit, decimal or not. -/
def isDigit (c : Char) : Bool :=
  (decimalValue? c).isSome || otherDigitRanges.any fun r ↦ r.1 ≤ c.toNat && c.toNat ≤ r.2

/-- An ASCII digit. -/
def isAsciiDigit (c : Char) : Bool :=
  '0' ≤ c && c ≤ '9'

/-- The value of an ASCII digit. -/
def asciiDigit (c : Char) : Nat :=
  c.toNat - '0'.toNat

/-- The number that a run of ASCII digits denotes; the empty run denotes zero. -/
def natOfDigits (cs : List Char) : Nat :=
  cs.foldl (fun n c ↦ 10 * n + asciiDigit c) 0

/-- The number that a non-empty run of decimal digits of any script denotes. -/
def nat? (cs : List Char) : Option Nat :=
  if cs.isEmpty then none
  else cs.foldl (fun n c ↦ do return 10 * (← n) + (← decimalValue? c)) (some 0)

/-- The greatest number of decimal digits in which an integer is read. -/
def maxDigits : Nat := 4300

/-- The wording for an integer that has more digits. -/
def tooLongMessage (digits : Nat) : String :=
  "Exceeds the limit (" ++ toString maxDigits ++ " digits) for integer string conversion: value has " ++
    toString digits ++ " digits; use sys.set_int_max_str_digits() to increase the limit"

/-- The value of a hexadecimal digit. -/
def hexValue? (c : Char) : Option Nat :=
  if isAsciiDigit c then some (asciiDigit c)
  else if 'a' ≤ c && c ≤ 'f' then some (c.toNat - 'a'.toNat + 10)
  else if 'A' ≤ c && c ≤ 'F' then some (c.toNat - 'A'.toNat + 10)
  else none

/-- The number below sixteen as a hexadecimal digit in lower case. -/
def hexDigit (n : Nat) : Char :=
  if n < 10 then Char.ofNat (48 + n) else Char.ofNat (87 + n)

/-- The lowest `width` hexadecimal digits of a number, in lower case. -/
def hex (width n : Nat) : List Char :=
  (List.range width).reverse.map fun i ↦ hexDigit (n / Nat.pow 16 i % 16)

end ModelServer.Text
