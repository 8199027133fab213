import CallBridge.Text.Unprintable
import CallBridge.Text.Extending
import CallBridge.Text.Ignorable

/-!
# Quoted text

A string in double quotes on one line. The quote, the backslash and the usual
control characters have two-character escapes; any other character that would not
show is written with its code point.
-/

namespace CallBridge

namespace Text

/-- The code point of a character in lower-case hexadecimal digits. -/
def hexDigits (n : Nat) : List Char :=
  Nat.toDigits 16 n

/-- The escape that gives a code point, with at least `width` digits. -/
def codePointEscape (width n : Nat) : List Char :=
  let digits := hexDigits n
  ['\\', 'u', '\x7b'] ++ List.replicate (width - digits.length) '0' ++ digits ++ ['\x7d']

/-- Whether a character would not show, or would change the look of its neighbour. -/
def isHidden (c : Char) : Bool :=
  isExtending c || isIgnorable c || isUnprintable c

/-- A character as it stands between double quotes. -/
def escape (c : Char) : List Char :=
  if c = '"' then ['\\', '"']
  else if c = '\\' then ['\\', '\\']
  else if c = '\n' then ['\\', 'n']
  else if c = '\t' then ['\\', 't']
  else if c = '\r' then ['\\', 'r']
  else if c.toNat = 0 then ['\\', '0']
  else if isHidden c then codePointEscape 0 c.toNat
  else [c]

/-- The string in double quotes. -/
def quote (s : String) : String :=
  String.ofList ('"' :: s.toList.flatMap escape ++ ['"'])

end Text

end CallBridge
