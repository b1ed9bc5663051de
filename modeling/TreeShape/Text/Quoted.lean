import TreeShape.Text.Standalone

/-!
Quoted text: any string between double quotes, on one line and legible. A quote, a backslash,
NUL, tab, carriage return and line feed have two-character escapes; every other character that is
not legible by itself is written by its code point in hexadecimal.
-/

namespace TreeShape.Text

/-- A code point as `\u` and lower-case hexadecimal digits in braces. -/
def escapeCode (c : Char) : List Char :=
  ['\\', 'u', '\x7b'] ++ Nat.toDigits 16 c.toNat ++ ['\x7d']

def escapeChar (c : Char) : List Char :=
  if c = '\x00' then ['\\', '0']
  else if c = '\t' then ['\\', 't']
  else if c = '\r' then ['\\', 'r']
  else if c = '\n' then ['\\', 'n']
  else if c = '\\' then ['\\', '\\']
  else if c = '"' then ['\\', '"']
  else if isStandalone c then [c]
  else escapeCode c

def quoteChars (cs : List Char) : List Char :=
  '"' :: cs.flatMap escapeChar ++ ['"']

def quote (s : String) : String :=
  String.ofList (quoteChars s.toList)

end TreeShape.Text
