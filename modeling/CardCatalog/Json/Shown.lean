import CardCatalog.Json.Basic
import CardCatalog.Number.Shortest
import CardCatalog.Text.CommaList
import CardCatalog.Text.Lower
import CardCatalog.Text.Quoted

/-!
# Values in messages and in loose text

A value has a shown form, in which text is quoted and the words `None`, `True` and `False`
are used, and a plain form, which differs for text alone: there it is the text itself.
Loose settings go through the plain form: yes-or-no words, blank values and
comma-separated lists are all decided on it.

A list that should hold texts and does not is refused with the word for the first value
that is none (`NotText`).
-/

namespace CardCatalog
namespace Json

open Text (Wide)

mutual

/-- The form in which messages show a value. -/
def shown : Json → String
  | .null => "None"
  | .bool true => "True"
  | .bool false => "False"
  | .int n => toString n
  | .double x => x.toText
  | .text w => Text.quoted w
  | .list items => "[" ++ shownItems items ++ "]"
  | .object fields => "\x7b" ++ shownFields fields ++ "\x7d"

/-- The shown values of a list, with commas between them. -/
def shownItems : List Json → String
  | [] => ""
  | [j] => shown j
  | j :: js => shown j ++ ", " ++ shownItems js

/-- The shown fields of an object, with commas between them. -/
def shownFields : List (Wide × Json) → String
  | [] => ""
  | [(name, j)] => Text.quoted name ++ ": " ++ shown j
  | (name, j) :: fs => Text.quoted name ++ ": " ++ shown j ++ ", " ++ shownFields fs

end

/-- The form in which a value is read as text. -/
def plain : Json → Wide
  | .text w => w
  | j => shown j

/-- The word for the kind of a value. -/
def kindWord : Json → String
  | .null => "NoneType"
  | .bool _ => "bool"
  | .int _ => "int"
  | .double _ => "float"
  | .text _ => "str"
  | .list _ => "list"
  | .object _ => "dict"

/-- An entry of a list that should have been text, by the word for what it is. -/
structure NotText where
  found : String
  deriving DecidableEq, Repr

/-- The texts of a list; entries that are empty values are left out. -/
def texts : List Json → Except NotText (List Wide)
  | [] => .ok []
  | j :: rest =>
    if j.isEmptyValue then texts rest
    else
      match j with
      | .text w => (texts rest).map (w :: ·)
      | j => .error ⟨j.kindWord⟩

/-- The entries that a value lists: those of a list of texts, or of a comma-separated
text. Null lists nothing. -/
def entries : Json → Except NotText (List Wide)
  | .null => .ok []
  | .list items => (texts items).map Text.tidyList
  | j => .ok (Text.commaList j.plain)

/-- The words that say yes. -/
def yesWords : List String :=
  ["1", "true", "yes", "y", "on"]

/-- Whether a value says yes: a truth value says what it is, null says the default, and
anything else says yes if its plain form is a yes word up to case and outer blanks. -/
def saysYes (j : Json) (default : Bool) : Bool :=
  match j with
  | .bool b => b
  | .null => default
  | j => yesWords.any fun word => j.plain.trim.lower = (word : Wide)

/-- The value, or nothing if it is null or blank. -/
def unlessBlank? (j : Json) : Option Json :=
  match j with
  | .null => none
  | j => if j.plain.isBlank then none else some j

end Json
end CardCatalog
