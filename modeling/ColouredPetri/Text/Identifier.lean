import ColouredPetri.Text.Classes

/-!
The characters of identifiers: the Unicode properties XID_Start and XID_Continue.
-/

namespace ColouredPetri.Text

namespace CharSet

def enclosedLetter : CharSet where
  flips := [0x24b6, 0x24ea, 0x1f130, 0x1f14a, 0x1f150, 0x1f16a, 0x1f170, 0x1f18a]

def enclosingMark : CharSet where
  flips := [0x488, 0x48a, 0x1abe, 0x1abf, 0x20dd, 0x20e1, 0x20e2, 0x20e5, 0xa670, 0xa673]

def otherStart : CharSet where
  flips := [0x1885, 0x1887, 0x2118, 0x2119, 0x212e, 0x212f]

def otherContinue : CharSet where
  flips := [
    0xb7, 0xb8, 0x387, 0x388, 0x1369, 0x1372, 0x19da, 0x19db, 0x200c, 0x200e, 0x30fb, 0x30fc,
    0xff65, 0xff66]

def compatibilityLetter : CharSet where
  flips := [
    0x37a, 0x37b, 0x2e2f, 0x2e30, 0xfc5e, 0xfc64, 0xfdfa, 0xfdfc, 0xfe70, 0xfe71, 0xfe72, 0xfe73,
    0xfe74, 0xfe75, 0xfe76, 0xfe77, 0xfe78, 0xfe79, 0xfe7a, 0xfe7b, 0xfe7c, 0xfe7d, 0xfe7e, 0xfe7f]

def innerLetter : CharSet where
  flips := [0xe33, 0xe34, 0xeb3, 0xeb4, 0xff9e, 0xffa0]

end CharSet

/-- General categories L and Nl. -/
def isLetter (c : Char) : Bool :=
  CharSet.alphabetic.contains c && !CharSet.mark.contains c && !CharSet.enclosedLetter.contains c

def isIdentifierStart (c : Char) : Bool :=
  (isLetter c || CharSet.otherStart.contains c) && !CharSet.compatibilityLetter.contains c &&
    !CharSet.innerLetter.contains c

def isIdentifierPart (c : Char) : Bool :=
  isIdentifierStart c || CharSet.innerLetter.contains c || CharSet.decimalDigit.contains c ||
    (CharSet.mark.contains c && !CharSet.enclosingMark.contains c) || isConnector c ||
    CharSet.otherContinue.contains c

end ColouredPetri.Text
