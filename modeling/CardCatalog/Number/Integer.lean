import CardCatalog.Text.Blank
import CardCatalog.Text.Digit

/-!
# Integers: the stored range, and loose text

`InRange` is the range of a stored integer, sixty-four bits with a sign.

`integerOfText` reads an integer from text as a client may type it. A text in the one plain
form of an integer is read as it stands. Any other text is made plain first. Algorithm:
outer white space and a plus sign go; a minus sign is set aside; leading zeros are passed
over, and underscores among them; a fraction of zeros goes, and so do single underscores
between two characters. Passing over zeros stops at a minus sign too, so `0-1` is read as
minus one.

A text that starts like a plain integer of more than `longestInteger` digits is a failure of
its own, whatever follows them; one that has to be made plain is only malformed then.
-/

namespace CardCatalog
namespace Number

/-- The integers that a stored column can hold. -/
def InRange (n : Int) : Prop :=
  -0x8000000000000000 ≤ n ∧ n < 0x8000000000000000

instance (n : Int) : Decidable (InRange n) :=
  inferInstanceAs (Decidable (_ ∧ _))

/-- The natural number that decimal digits spell. -/
def ofDigits (ds : List Nat) : Nat :=
  ds.foldl (fun n d => 10 * n + d) 0

/-- The most digits that an integer text may have. -/
def longestInteger : Nat := 4300

/-- Why a text is not read as an integer. -/
inductive Misread where
  /-- The text is no integer. -/
  | malformed
  /-- The integer has too many digits. -/
  | tooLong
  deriving DecidableEq, Repr

section Loose

/-- The characters behind leading zeros, of which `last` is the last one read. The zero in
front of a point stays, and so does the last character of a text without anything else. -/
def pastZeros? (last : Char) : List Char → Option (List Char)
  | [] => some [last]
  | c :: cs =>
    if c = '0' ∨ c = '_' then pastZeros? c cs
    else if c.isDigit ∨ c = '-' then some (c :: cs)
    else if c = '.' then some (last :: c :: cs)
    else none

/-- A text that starts with a digit, without its leading zeros. -/
def dropZeros? : List Char → Option (List Char)
  | [] => none
  | c :: cs => if c = '0' then pastZeros? c cs else if c.isDigit then some (c :: cs) else none

/-- A text without its sign and its leading zeros; a minus sign stays in front. -/
def dropSign? : List Char → Option (List Char)
  | '-' :: cs => (dropZeros? cs).map ('-' :: ·)
  | '+' :: cs => if cs.head? = some '-' then none else dropZeros? cs
  | cs => dropZeros? cs

/-- A text without its fraction, if that is one of zeros. -/
def dropFraction (cs : List Char) : List Char :=
  let whole := cs.takeWhile (· ≠ '.')
  match cs.drop whole.length with
  | _ :: z :: zs => if (z :: zs).all (· = '0') then whole else cs
  | _ => cs

/-- A text without its underscores, each of which has to stand between two other
characters. -/
def joinGroups? : List Char → Option (List Char)
  | [] => some []
  | [c] => if c = '_' then none else some [c]
  | c :: d :: cs =>
    if c = '_' then none
    else if d = '_' then
      if cs = [] then none else (joinGroups? cs).map (c :: ·)
    else (joinGroups? (d :: cs)).map (c :: ·)

/-- A text in plain form, as far as it can be made so. -/
def madePlain? (cs : List Char) : Option (List Char) :=
  (dropSign? (Text.trimBy Text.isSpace cs)).bind fun cs => joinGroups? (dropFraction cs)

end Loose

/-- The integer whose plain form a text is: digits without a needless zero, behind a
minus sign or without one. -/
def integerOfPlain (cs : List Char) : Except Misread Int :=
  let (negative, ds) :=
    match cs with
    | '-' :: ds => (true, ds)
    | ds => (false, ds)
  let run := ds.takeWhile Char.isDigit
  if run.head? = some '0' ∧ run.length > 1 then .error .malformed
  else if run.length > longestInteger then .error .tooLong
  else if run = [] ∨ run ≠ ds then .error .malformed
  else
    let n : Int := ofDigits (run.filterMap Text.asciiDigit?)
    .ok (if negative then -n else n)

/-- The integer that a loose text spells. -/
def integerOfText (s : String) : Except Misread Int :=
  match integerOfPlain s.toList with
  | .ok n => .ok n
  | .error .tooLong => .error .tooLong
  | .error .malformed =>
    match (madePlain? s.toList).map integerOfPlain with
    | some (.ok n) => .ok n
    | _ => .error .malformed

end Number
end CardCatalog
