import RuncardReview.Text.Shown

/-!
# Quoted texts

A text in double quotes, in which quotes, backslashes and the usual controls are
written with a backslash and every other character that would not be seen as its
number in hexadecimal.
-/

namespace RuncardReview
namespace Text

/-- The form of a character within a quoted text. -/
def quotedChar (c : Char) : List Char :=
  if c = '\x00' then ['\\', '0']
  else if c = '\t' then ['\\', 't']
  else if c = '\r' then ['\\', 'r']
  else if c = '\n' then ['\\', 'n']
  else if c = '"' then ['\\', '"']
  else if c = '\\' then ['\\', '\\']
  else if isShown c then [c]
  else '\\' :: 'u' :: '\x7b' :: Nat.toDigits 16 c.toNat ++ ['\x7d']

def quoted (s : String) : String :=
  String.ofList ('"' :: s.toList.flatMap quotedChar ++ ['"'])

end Text
end RuncardReview
