import ColouredPetri.Text.Alphabetic
import ColouredPetri.Text.Numeric
import ColouredPetri.Text.Mark

namespace ColouredPetri.Text

/-- The property White_Space. -/
def isBlank (c : Char) : Bool :=
  let n := c.toNat
  (9 ≤ n && n ≤ 13) || n == 0x20 || n == 0x85 || n == 0xa0 || n == 0x1680 ||
    (0x2000 ≤ n && n ≤ 0x200a) || n == 0x2028 || n == 0x2029 || n == 0x202f || n == 0x205f ||
    n == 0x3000

def trim (s : List Char) : List Char :=
  ((s.dropWhile isBlank).reverse.dropWhile isBlank).reverse

def trimText (s : String) : String := String.ofList (trim s.toList)

/-- Underscore and the other connectors, general category Pc. -/
def isConnector (c : Char) : Bool :=
  let n := c.toNat
  n == 0x5f || n == 0x203f || n == 0x2040 || n == 0x2054 || n == 0xfe33 || n == 0xfe34 ||
    (0xfe4d ≤ n && n ≤ 0xfe4f) || n == 0xff3f

def isJoiner (c : Char) : Bool := c.toNat == 0x200c || c.toNat == 0x200d

def isWordChar (c : Char) : Bool :=
  CharSet.alphabetic.contains c || CharSet.mark.contains c || CharSet.decimalDigit.contains c ||
    isConnector c || isJoiner c

def isAlphanumeric (c : Char) : Bool :=
  CharSet.alphabetic.contains c || CharSet.numeric.contains c

end ColouredPetri.Text
