import HypermediaApi.Text.Basic
import HypermediaApi.Text.EscapedTable

/-!
# HypermediaApi.Text.Quoted — quoted text in messages

Text inside double quotes, as diagnostics show it: quotes and backslashes are escaped, tab, line feed,
carriage return and NUL have escapes of one letter, and a character that is invisible or would join its
neighbour is shown by its code point in hexadecimal.
-/

namespace HypermediaApi.Text

/-- The lower-case hexadecimal digits of a number, no leading zeros. -/
def hexDigits (n : Nat) : List Char := Nat.toDigits 16 n

/-- The written form of a character inside double quotes. -/
def quotedChar (c : Char) : List Char :=
  match c with
  | '\x00' => ['\\', '0']
  | '\t' => ['\\', 't']
  | '\r' => ['\\', 'r']
  | '\n' => ['\\', 'n']
  | '\\' => ['\\', '\\']
  | '"' => ['\\', '"']
  | c =>
    if inRanges escapedRanges c then ['\\', 'u', '\x7b'] ++ hexDigits c.toNat ++ ['\x7d'] else [c]

/-- The text in double quotes. -/
def quoted (s : String) : String := .ofList ('"' :: (s.toList.flatMap quotedChar ++ ['"']))

end HypermediaApi.Text
