import HexDiff.Hex
import HexDiff.Text.Visible

/-!
# Quoted characters

How a message names a character: between single quotes, as itself where it is visible and by an
escape where it is not.
-/

namespace HexDiff

/-- The characters that stand for `c` between quotes.  Five characters and the backslash have short
escapes; whatever else is not visible is written by its code point. -/
def escapeChar (c : Char) : List Char :=
  if c = '\x00' then ['\\', '0']
  else if c = '\t' then ['\\', 't']
  else if c = '\r' then ['\\', 'r']
  else if c = '\n' then ['\\', 'n']
  else if c = '\'' then ['\\', '\'']
  else if c = '\\' then ['\\', '\\']
  else if isVisible c then [c]
  else ['\\', 'u', '\x7b'] ++ Hex.ofNatLower c.toNat ++ ['\x7d']

/-- A character in single quotes. -/
def quoteChar (c : Char) : String :=
  String.ofList ('\'' :: escapeChar c ++ ['\''])

end HexDiff
