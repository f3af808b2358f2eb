import WorldPlugins.Text.Glyphless

/-! # Quoted text for messages

A message that shows a value puts it between double quotes and makes every character visible: quotes and
backslashes are escaped, the common controls have short names, and whatever has no glyph of its own is given
by its code point.
-/

namespace WorldPlugins.Text

/-- Whether a character shows as itself. -/
def isVisible (c : Char) : Bool :=
  if c.toNat < 0x80 then 0x20 ≤ c.toNat && c.toNat < 0x7F else !isGlyphless c

/-- One character of a quoted text. -/
def quotedChar (c : Char) : List Char :=
  if c = '"' then ['\\', '"']
  else if c = '\\' then ['\\', '\\']
  else if c = '\n' then ['\\', 'n']
  else if c = '\r' then ['\\', 'r']
  else if c = '\t' then ['\\', 't']
  else if c.toNat = 0 then ['\\', '0']
  else if isVisible c then [c]
  else ['\\', 'u', '{'] ++ Nat.toDigits 16 c.toNat ++ ['}']

/-- A text between double quotes, with every character visible. -/
def quoted (s : String) : String := String.ofList ('"' :: s.toList.flatMap quotedChar ++ ['"'])

end WorldPlugins.Text
