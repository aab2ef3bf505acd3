import CardCatalog.Calendar.Date
import CardCatalog.Number.Binary64
import CardCatalog.Text.Digit

/-!
# Reading dates

Input: a text, an integer or a double.
A text is a date `YYYY-MM-DD`, a date with a time of day, or a count of seconds. A date
with a time is taken only at midnight of its own clock, whatever its offset. A number
counts seconds from 1970-01-01, or milliseconds when it is beyond twenty thousand million
either way, and is taken only at midnight, to the microsecond. Counts with a point are
doubles, and so is everything computed from them; they may have a power of ten.

What is not read as a date is told apart by `Misread`.
-/

namespace CardCatalog
namespace Calendar

/-- Why something is not a date. -/
inductive Misread where
  /-- It cannot be read as a date or a moment. -/
  | unreadable
  /-- It is a moment other than midnight. -/
  | notMidnight
  /-- It lies in the year zero. -/
  | yearZero
  /-- It is no kind of value that dates are written in. -/
  | wrongType
  deriving DecidableEq, Repr

section Texts

/-- A number of exactly two digits in front of a text. -/
def twoDigits? : List Char → Option (Nat × List Char)
  | a :: b :: rest => do
    let x ← Text.asciiDigit? a
    let y ← Text.asciiDigit? b
    pure (10 * x + y, rest)
  | _ => none

/-- Year, month and day in front of a text; the year may be zero. -/
def civilDate? (cs : List Char) : Option ((Nat × Nat × Nat) × List Char) := do
  let (century, cs) ← twoDigits? cs
  let (years, cs) ← twoDigits? cs
  let year := 100 * century + years
  match cs with
  | '-' :: cs =>
    let (month, cs) ← twoDigits? cs
    match cs with
    | '-' :: cs =>
      let (day, cs) ← twoDigits? cs
      if IsDay year month day then some ((year, month, day), cs) else none
    | _ => none
  | _ => none

/-- A fraction of a second behind its point: whether its first six digits are zeros, and
what follows. -/
def fraction? (cs : List Char) : Option (Bool × List Char) :=
  let ds := cs.takeWhile fun c => (Text.asciiDigit? c).isSome
  if ds.isEmpty then none
  else some ((ds.take 6).all (· = '0'), cs.drop ds.length)

/-- A time of day in front of a text: whether it is midnight, and what follows. -/
def timeOfDay? (cs : List Char) : Option (Bool × List Char) := do
  let (hour, cs) ← twoDigits? cs
  match cs with
  | ':' :: cs =>
    let (minute, cs) ← twoDigits? cs
    if hour > 23 ∨ minute > 59 then none
    else
      match cs with
      | ':' :: cs =>
        let (second, cs) ← twoDigits? cs
        if second > 59 then none
        else
          let (zeros, cs) ←
            match cs with
            | '.' :: cs => fraction? cs
            | ',' :: cs => fraction? cs
            | cs => some (true, cs)
          some (hour == 0 && minute == 0 && second == 0 && zeros, cs)
      | cs => some (hour == 0 && minute == 0, cs)
  | _ => none

/-- An offset from universal time up to the end of the text. -/
def isOffset : List Char → Bool
  | [] => true
  | ['Z'] => true
  | ['z'] => true
  | sign :: cs =>
    (sign == '+' || sign == '-' || sign == Char.ofNat 0x2212) &&
      match twoDigits? cs with
      | none => false
      | some (hours, cs) =>
        let cs := match cs with | ':' :: cs => cs | cs => cs
        match twoDigits? cs with
        | some (minutes, []) => minutes < 60 && hours < 24
        | _ => false

/-- A date with a time of day: the date, and whether the time is midnight. -/
def civilMoment? (cs : List Char) : Option ((Nat × Nat × Nat) × Bool) := do
  let (date, cs) ← civilDate? cs
  match cs with
  | separator :: cs =>
    if separator = 'T' ∨ separator = 't' ∨ separator = ' ' ∨ separator = '_' then
      let (midnight, cs) ← timeOfDay? cs
      if isOffset cs then some (date, midnight) else none
    else none
  | [] => none

end Texts

section Counts

/-- Beyond this count, either way, a number counts milliseconds. -/
def millisecondsBeyond : Int := 20000000000

/-- Seconds and microseconds of a count, with further microseconds added. -/
def splitCount (count : Int) (microseconds : Nat) : Int × Nat :=
  if count.natAbs ≤ millisecondsBeyond.toNat then (count, microseconds)
  else (count.fdiv 1000, (count.emod 1000).toNat * 1000 + microseconds)

/-- Whole seconds and microseconds of a finite double. The fraction is a double, its
microseconds are one, and half a microsecond counts as a whole one. -/
def splitDouble? (x : Number.Binary64) : Option (Int × Nat) := do
  let (num, den) ← x.quotient?
  let seconds := num.fdiv den
  let (num, den) ← (Number.Binary64.ofQuotient (num - seconds * den) den).quotient?
  let (num, den) ← (Number.Binary64.ofQuotient (num * 1000000) den).quotient?
  some (seconds, (2 * num.toNat + den) / (2 * den))

/-- Year, month and day of a count of seconds, and whether it is a midnight; counts
outside the years 0 to 9999 are unreadable. -/
def civilOfSeconds (seconds : Int) : Except Misread ((Nat × Nat × Nat) × Bool) :=
  if seconds < -62167219200 ∨ 253402300799 < seconds then .error .unreadable
  else
    let (year, month, day) := Date.civilOfEpochDay (seconds.fdiv 86400)
    .ok ((year.toNat, month, day), seconds.emod 86400 == 0)

/-- The day of a moment, which has to be midnight and not in the year zero. -/
def dayOf (moment : (Nat × Nat × Nat) × Bool) : Except Misread Date :=
  let ((year, month, day), midnight) := moment
  if !midnight then .error .notMidnight
  else if year = 0 then .error .yearZero
  else
    match Date.ofCivil? year month day with
    | some date => .ok date
    | none => .error .unreadable

/-- The date at seconds and microseconds, of which there may be more than a second. -/
def dateAt (seconds : Int) (microseconds : Nat) : Except Misread Date := do
  let (civil, midnight) ← civilOfSeconds (seconds + (microseconds / 1000000 : Nat))
  dayOf (civil, midnight && microseconds % 1000000 == 0)

/-- The date at a count of seconds or milliseconds. -/
def dateOfCount (count : Int) (microseconds : Nat) : Except Misread Date :=
  let (seconds, microseconds) := splitCount count microseconds
  dateAt seconds microseconds

/-- The date at a count given as a double; the whole part of it tells milliseconds from
seconds. -/
def dateOfDouble (x : Number.Binary64) : Except Misread Date :=
  match splitDouble? x with
  | some (count, microseconds) => dateOfCount count microseconds
  | none => .error .unreadable

/-- The date at a count given as an integer; integers beyond the doubles are refused. -/
def dateOfInt (n : Int) : Except Misread Date :=
  match Number.Binary64.ofDecimal (.ofInt n) with
  | .finite .. => dateOfCount n 0
  | _ => .error .wrongType

end Counts

section CountTexts

/-- What stands behind the point of a count: digits, and a power of ten. -/
structure CountFraction where
  digits : List Nat
  exponent : Int

/-- A count in a text: a sign, digits, and what stands behind a point. -/
structure CountText where
  negative : Bool
  whole : List Nat
  fraction? : Option CountFraction

/-- Digits up to the end of a text. -/
def digits? (cs : List Char) : Option (List Nat) :=
  cs.mapM Text.asciiDigit?

/-- Reads what stands behind a point. -/
def CountFraction.read? (cs : List Char) : Option CountFraction :=
  let ds := cs.takeWhile fun c => (Text.asciiDigit? c).isSome
  (Number.Decimal.exponentPart? Text.asciiDigit? (cs.drop ds.length)).map fun exponent =>
    ⟨ds.filterMap Text.asciiDigit?, exponent⟩

/-- Reads a count, which has a digit on one side of its point at least. -/
def CountText.read? (cs : List Char) : Option CountText := do
  let (negative, cs) :=
    match cs with
    | '-' :: r => (true, r)
    | '+' :: r => (false, r)
    | r => (false, r)
  let whole ← digits? (cs.takeWhile (· ≠ '.'))
  let fraction? ←
    match cs.dropWhile (· ≠ '.') with
    | [] => some none
    | _ :: rest => (CountFraction.read? rest).map some
  if whole.isEmpty ∧ (fraction?.map CountFraction.digits).getD [] = [] then none
  else some ⟨negative, whole, fraction?⟩

/-- The double nearest to a count. -/
def CountText.toDouble (t : CountText) : Number.Binary64 :=
  let f := t.fraction?.getD ⟨[], 0⟩
  .ofDecimal
    (.finite t.negative (Number.ofDigits (t.whole ++ f.digits))
      (f.exponent - f.digits.length))

/-- Seconds of a count that is a double. -/
def secondsOf (x : Number.Binary64) : Number.Binary64 :=
  match x.quotient? with
  | some (num, den) =>
    if num.natAbs > millisecondsBeyond.toNat * den then .ofQuotient num (den * 1000) else x
  | none => x

/-- The date at a count. A count with a point is a double, and is taken to seconds before
its fraction is looked at. -/
def CountText.date (t : CountText) : Except Misread Date :=
  match t.fraction? with
  | none =>
    let count : Int := Number.ofDigits t.whole
    dateOfCount (if t.negative then -count else count) 0
  | some _ =>
    match splitDouble? (secondsOf t.toDouble) with
    | some (seconds, microseconds) => dateAt seconds microseconds
    | none => .error .unreadable

end CountTexts

/-- The date that a text spells. -/
def dateOfText (s : String) : Except Misread Date :=
  let cs := s.toList
  match civilDate? cs with
  | some (civil, []) => dayOf (civil, true)
  | _ =>
    match CountText.read? cs with
    | some t => t.date
    | none =>
      match civilMoment? cs with
      | some moment => dayOf moment
      | none => .error .unreadable

namespace Date

/-- The date of a text in the form `YYYY-MM-DD`. -/
def ofText? (s : String) : Option Date :=
  match civilDate? s.toList with
  | some ((year, month, day), []) => ofCivil? year month day
  | _ => none

end Date
end Calendar
end CardCatalog
