/-
Dates and times of day, and their normal form: all numbers in full width, a capital `T` between date
and time, a fraction of a second without zeros behind it, a capital `Z`.
-/

namespace ShaderText

/-! ## Numbers in full width -/

/-- The last `width` decimal digits of a number. -/
def padded : Nat → Nat → List Char
  | 0, _ => []
  | width + 1, n => padded width (n / 10) ++ [Nat.digitChar (n % 10)]

theorem length_padded (width n : Nat) : (padded width n).length = width := by
  induction width generalizing n with
  | zero => rfl
  | succ width ih => simp [padded, ih]

/-! ## Dates and times -/

/-- A day of the calendar. -/
structure Date where
  year : Nat
  month : Nat
  day : Nat
  deriving DecidableEq, Repr, Inhabited

/-- A time of day. -/
structure TimeOfDay where
  hour : Nat
  minute : Nat
  second : Nat
  nanosecond : Nat
  deriving DecidableEq, Repr, Inhabited

/-- How far the time of a place is from universal time. -/
inductive Offset
  /-- Universal time itself. -/
  | universal
  | minutes (ahead : Int)
  deriving DecidableEq, Repr, Inhabited

/-- A day, a time of any day, or a time of one day, at some place or at one that is told by its
offset. -/
inductive Moment
  | date (date : Date)
  | time (time : TimeOfDay)
  | timeOfDate (date : Date) (time : TimeOfDay) (offset : Option Offset)
  deriving DecidableEq, Repr, Inhabited

def isLeapYear (year : Nat) : Bool := year % 4 == 0 && (year % 100 != 0 || year % 400 == 0)

/-- The number of days in a month. -/
def daysIn (year month : Nat) : Nat :=
  if month = 2 then if isLeapYear year then 29 else 28
  else if month = 4 ∨ month = 6 ∨ month = 9 ∨ month = 11 then 30
  else 31

theorem daysIn_le (year month : Nat) : daysIn year month ≤ 31 := by
  unfold daysIn
  repeat' split
  all_goals decide

/-- A year of four digits, a month and a day that the month has. -/
def Date.IsValid (d : Date) : Prop :=
  d.year ≤ 9999 ∧ 1 ≤ d.month ∧ d.month ≤ 12 ∧ 1 ≤ d.day ∧ d.day ≤ daysIn d.year d.month

instance (d : Date) : Decidable d.IsValid := by unfold Date.IsValid; infer_instance

/-! ## The normal form -/

def Date.chars (d : Date) : List Char :=
  padded 4 d.year ++ '-' :: (padded 2 d.month ++ '-' :: padded 2 d.day)

def TimeOfDay.chars (t : TimeOfDay) : List Char :=
  let fraction := ((padded 9 t.nanosecond).reverse.dropWhile (· == '0')).reverse
  padded 2 t.hour ++ ':' :: (padded 2 t.minute ++ ':' :: (padded 2 t.second ++
    if fraction.isEmpty then [] else '.' :: fraction))

def Offset.chars : Offset → List Char
  | universal => ['Z']
  | minutes ahead =>
    (if ahead < 0 then '-' else '+') ::
      (padded 2 (ahead.natAbs / 60) ++ ':' :: padded 2 (ahead.natAbs % 60))

def Moment.chars : Moment → List Char
  | date d => d.chars
  | time t => t.chars
  | timeOfDate d t offset =>
    d.chars ++ 'T' :: (t.chars ++ (offset.map Offset.chars).getD [])

end ShaderText
