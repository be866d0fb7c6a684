import LineBasic.Text.Unprintable

/-!
# Quoted text

Names and messages are shown between quotation marks in such a way that every
text has a visible form on one line: the mark and the backslash are escaped, and
a character that cannot be printed is written by its code point.
-/

namespace LineBasic.Text

/-- The mark a text is quoted with: the double one if the text holds single
quotes and no double ones, otherwise the single one. -/
def quotationMark (cs : List Char) : Char :=
  if cs.contains '\x27' && !cs.contains '\x22' then '\x22' else '\x27'

/-- The last `width` digits of a number in base sixteen, in lower case. -/
def hexDigits (width value : Nat) : List Char :=
  match width with
  | 0 => []
  | width + 1 => hexDigits width (value / 16) ++ [Nat.digitChar (value % 16)]

/-- An unprintable character by its code point, with two, four or eight digits
as its size requires. -/
def escapeCode (c : Char) : List Char :=
  if c.toNat < 0x100 then '\\' :: 'x' :: hexDigits 2 c.toNat
  else if c.toNat < 0x10000 then '\\' :: 'u' :: hexDigits 4 c.toNat
  else '\\' :: 'U' :: hexDigits 8 c.toNat

/-- How one character is written between two marks. -/
def escapeChar (mark c : Char) : List Char :=
  if c = mark || c = '\\' then ['\\', c]
  else if c = '\n' then ['\\', 'n']
  else if c = '\r' then ['\\', 'r']
  else if c = '\t' then ['\\', 't']
  else if isPrintable c then [c]
  else escapeCode c

/-- The text between quotation marks. -/
def quote (text : String) : String :=
  let mark := quotationMark text.toList
  String.ofList (mark :: text.toList.flatMap (escapeChar mark) ++ [mark])

end LineBasic.Text
