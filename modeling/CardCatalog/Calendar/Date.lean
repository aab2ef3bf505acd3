import CardCatalog.Text.Digit

/-!
# Calendar dates

A date is a day of the Gregorian calendar in the years 1 to 9999; that it is a day of its
month is part of the type. Its text is `YYYY-MM-DD`.

Results: the numbers of a date give it back (`ofCivil?_self`), and three numbers give a
date exactly if they are a day of the covered years (`isSome_ofCivil?_iff`).
-/

namespace CardCatalog
namespace Calendar

/-- Leap years of the Gregorian rule. -/
def isLeap (year : Nat) : Bool :=
  year % 4 == 0 && (year % 100 != 0 || year % 400 == 0)

/-- The number of days of a month, zero for numbers that name no month. -/
def daysInMonth (year month : Nat) : Nat :=
  match month with
  | 1 | 3 | 5 | 7 | 8 | 10 | 12 => 31
  | 4 | 6 | 9 | 11 => 30
  | 2 => if isLeap year then 29 else 28
  | _ => 0

/-- A day of its month, in any year. -/
def IsDay (year month day : Nat) : Prop :=
  1 ≤ day ∧ day ≤ daysInMonth year month

instance (year month day : Nat) : Decidable (IsDay year month day) :=
  inferInstanceAs (Decidable (_ ∧ _))

/-- A day of the years 1 to 9999. -/
structure Date where
  year : Nat
  month : Nat
  day : Nat
  inYears : 1 ≤ year ∧ year ≤ 9999
  isDay : IsDay year month day
  deriving DecidableEq

namespace Date

/-- The date of three numbers, if there is such a day. -/
def ofCivil? (year month day : Nat) : Option Date :=
  if h : (1 ≤ year ∧ year ≤ 9999) ∧ IsDay year month day then
    some ⟨year, month, day, h.1, h.2⟩
  else none

/-- The first day of the count of days. -/
def epoch : Date :=
  ⟨1970, 1, 1, by decide, by decide⟩

instance : Inhabited Date := ⟨epoch⟩

/-- A number that grows with the date. -/
def rank (d : Date) : Nat :=
  (d.year * 13 + d.month) * 32 + d.day

instance : LE Date := ⟨fun a b => a.rank ≤ b.rank⟩

instance (a b : Date) : Decidable (a ≤ b) :=
  inferInstanceAs (Decidable (a.rank ≤ b.rank))

/-- The text `YYYY-MM-DD`. -/
def toText (d : Date) : String :=
  String.ofList (Text.padded 10 4 d.year ++ '-' :: Text.padded 10 2 d.month
    ++ '-' :: Text.padded 10 2 d.day)

/-- Year, month and day of a day counted from 1970-01-01. The count is split into
periods of four hundred years, and years are taken to begin in March, so that the leap
day comes last. -/
def civilOfEpochDay (days : Int) : Int × Nat × Nat :=
  let z := days + 719468
  let era := z.fdiv 146097
  let dayOfEra := (z - era * 146097).toNat
  let yearOfEra :=
    (dayOfEra - dayOfEra / 1460 + dayOfEra / 36524 - dayOfEra / 146096) / 365
  let dayOfYear := dayOfEra - (365 * yearOfEra + yearOfEra / 4 - yearOfEra / 100)
  let shifted := (5 * dayOfYear + 2) / 153
  let day := dayOfYear - (153 * shifted + 2) / 5 + 1
  let month := if shifted < 10 then shifted + 3 else shifted - 9
  let year := (yearOfEra : Int) + era * 400 + (if month ≤ 2 then 1 else 0)
  (year, month, day)

/-- The numbers of a date give the date back. -/
theorem ofCivil?_self (d : Date) : ofCivil? d.year d.month d.day = some d := by
  simp [ofCivil?, d.inYears, d.isDay]

/-- Numbers give a date exactly when they are a day of the covered years. -/
theorem isSome_ofCivil?_iff (year month day : Nat) :
    (ofCivil? year month day).isSome
      ↔ (1 ≤ year ∧ year ≤ 9999) ∧ IsDay year month day := by
  unfold ofCivil?
  split <;> simp_all

end Date
end Calendar
end CardCatalog
