import ColouredPetri.Text.Mark
import ColouredPetri.Text.Unprintable

namespace ColouredPetri.Text

def hexDigits (n : Nat) : List Char := Nat.toDigits 16 n

def codePointEscape (c : Char) : List Char :=
  '\\' :: 'u' :: '\x7b' :: (hexDigits c.toNat ++ ['\x7d'])

def escapeChar (singleQuotes : Bool) (c : Char) : List Char :=
  if c = '\x00' then ['\\', '0']
  else if c = '\t' then ['\\', 't']
  else if c = '\r' then ['\\', 'r']
  else if c = '\n' then ['\\', 'n']
  else if c = '\\' || c = '"' || (singleQuotes && c = '\'') then ['\\', c]
  else if CharSet.graphemeExtend.contains c || CharSet.unprintable.contains c then
    codePointEscape c
  else [c]

def quotedChars (singleQuotes : Bool) (s : List Char) : List Char :=
  '"' :: (s.flatMap (escapeChar singleQuotes) ++ ['"'])

def quoted (s : String) : String := String.ofList (quotedChars false s.toList)

def quotedFully (s : String) : String := String.ofList (quotedChars true s.toList)

end ColouredPetri.Text
