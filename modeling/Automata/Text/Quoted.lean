import Automata.Text.Printable

/-!
# Quoted text

The form in which messages show labels: between quotation marks, with every character that a reader
could not see or could take for the end of the text written as an escape.
-/

namespace Automata.Text

/-- How `c` is written between quotation marks. -/
def escapeChar (c : Char) : List Char :=
  if c = '"' then ['\\', '"']
  else if c = '\\' then ['\\', '\\']
  else if c = '\n' then ['\\', 'n']
  else if c = '\r' then ['\\', 'r']
  else if c = '\t' then ['\\', 't']
  else if c = '\x00' then ['\\', '0']
  else if isPrintable c then [c]
  else ['\\', 'u', '\x7b'] ++ Nat.toDigits 16 c.toNat ++ ['\x7d']

/-- The text `s` between quotation marks. -/
def quoted (s : String) : String :=
  String.ofList ('"' :: s.toList.flatMap escapeChar ++ ['"'])

/-- Quoted texts, separated by commas. -/
def quotedItems (items : List String) : String :=
  ", ".intercalate (items.map quoted)

/-- A list of quoted texts in square brackets. -/
def quotedList (items : List String) : String :=
  "[" ++ quotedItems items ++ "]"

/-- A set of quoted texts in curly brackets. -/
def quotedSet (items : List String) : String :=
  "\x7b" ++ quotedItems items ++ "\x7d"

end Automata.Text
