import CardCatalog.Text.Digit
import CardCatalog.Text.Printable
import CardCatalog.Text.Wide

/-!
# Quoted text

Algorithm: messages show a text between quotes, so that blank and invisible characters
can be told apart. Single quotes are used, or double quotes when the text holds a single
quote and no double quote. The quote in use and the backslash are escaped by a backslash,
tab, line feed and carriage return by their letters, and every other code without a
printed form by its number in hexadecimal digits: two, four or eight of them.
-/

namespace CardCatalog
namespace Text

/-- The number of a code, behind a backslash. -/
def codeEscape (n : Nat) : List Char :=
  if n ≤ 0xff then '\\' :: 'x' :: padded 16 2 n
  else if n ≤ 0xffff then '\\' :: 'u' :: padded 16 4 n
  else '\\' :: 'U' :: padded 16 8 n

/-- One character between the quotes `quote`. -/
def quotedChar (quote c : Char) : List Char :=
  if c = quote ∨ c = '\\' then ['\\', c]
  else if c = '\t' then ['\\', 't']
  else if c = '\n' then ['\\', 'n']
  else if c = '\r' then ['\\', 'r']
  else if isPrintable c then [c]
  else codeEscape c.toNat

/-- One code between the quotes `quote`; halves of surrogate pairs have no printed form. -/
def quotedCode (quote : Char) : Code → List Char
  | .char c => quotedChar quote c
  | .half n => codeEscape (Code.half n).toNat

/-- The quote that a text is shown in. -/
def quoteFor (codes : List Code) : Char :=
  if codes.contains (.char '\'') && !codes.contains (.char '"') then '"' else '\''

/-- A text between quotes, without invisible characters. -/
def quoted (w : Wide) : String :=
  let quote := quoteFor w.codes
  String.ofList (quote :: w.codes.flatMap (quotedCode quote) ++ [quote])

end Text
end CardCatalog
