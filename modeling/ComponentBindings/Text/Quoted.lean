import ComponentBindings.Text.CodePoint
import ComponentBindings.Text.Digit
import ComponentBindings.Text.Printable

/-!
# Quoted text

How a message shows a text: between single quotes, or between double quotes where the text holds a
single quote and no double one. The quote in use and the backslash are escaped, line feed, carriage
return and tab have their letters, and other characters that are not printable are written by their
code points with two, four or eight digits.
-/

namespace ComponentBindings.Text

/-- A code point written by its code, in the shortest of the three widths. -/
def codeEscape (p : CodePoint) : List Char :=
  if p.code < 0x100 then '\\' :: 'x' :: hexDigits 2 p.code
  else if p.code < 0x10000 then '\\' :: 'u' :: hexDigits 4 p.code
  else '\\' :: 'U' :: hexDigits 8 p.code

/-- One character inside the quotes `quote`. -/
def quotedChar (quote c : Char) : List Char :=
  if c = quote || c = '\\' then ['\\', c]
  else if c = '\n' then ['\\', 'n']
  else if c = '\r' then ['\\', 'r']
  else if c = '\t' then ['\\', 't']
  else if isPrintable c then [c]
  else codeEscape (.char c)

/-- One code point inside the quotes `quote`. Half a pair is not printable. -/
def quotedPoint (quote : Char) : CodePoint → List Char
  | .char c => quotedChar quote c
  | .half place => codeEscape (.half place)

/-- The quote that a text is shown between. -/
def quoteFor (cs : List Char) : Char :=
  if cs.contains '\'' && !cs.contains '"' then '"' else '\''

/-- A text as a message shows it. -/
def quoted (s : String) : String :=
  let quote := quoteFor s.toList
  String.ofList (quote :: (codePoints s.toList).flatMap (quotedPoint quote) ++ [quote])

end ComponentBindings.Text
