import TreeShape.Text.Quoted

/-!
Text for a terminal. The control characters that a terminal acts on are written as escapes, so that
a message cannot move the cursor or change colours. White space stays as it is.
-/

namespace TreeShape.Text

/-- A code point below 256 as `\x` and two lower-case hexadecimal digits. -/
def escapeByte (c : Char) : List Char :=
  ['\\', 'x', Nat.digitChar (c.toNat / 16), Nat.digitChar (c.toNat % 16)]

/-- Escape, bell, backspace, form feed and delete. -/
def terminalControls : List Char :=
  ['\x1b', '\x07', '\x08', '\x0c', '\x7f']

def terminalChar (c : Char) : List Char :=
  if terminalControls.contains c then escapeByte c
  else if 0x80 ≤ c.toNat ∧ c.toNat < 0xa0 then escapeCode c
  else [c]

def forTerminal (s : String) : String :=
  String.ofList (s.toList.flatMap terminalChar)

end TreeShape.Text
