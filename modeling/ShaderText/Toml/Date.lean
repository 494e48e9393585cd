/-
Dates and times of day as the TOML format writes them. The numbers in them have a fixed width, so
that what is written in full width is read back.
-/
import ShaderText.Toml.Scalar

namespace ShaderText.Toml

/-! ## Numbers of a fixed width -/

/-- The number that the first `width` characters write, all of them digits, and what follows. -/
def number? (width : Nat) (cs : List Char) : Option (Nat × List Char) :=
  let digits := cs.take width
  if digits.length = width ∧ digits.all Char.isDigit then
    some (numberOfDigits 10 digits, cs.drop width)
  else none

/-- Such a number within bounds. -/
def numberIn? (width low high : Nat) (cs : List Char) : Option (Nat × List Char) :=
  (number? width cs).filter fun (n, _) => low ≤ n && n ≤ high

theorem digitChar_spec {d : Nat} (h : d < 10) :
    (Nat.digitChar d).isDigit = true ∧ hexValue (Nat.digitChar d) = d := by
  have all : ∀ e ∈ List.range 10,
      (Nat.digitChar e).isDigit = true ∧ hexValue (Nat.digitChar e) = e := by decide
  exact all d (List.mem_range.2 h)

theorem all_isDigit_padded (width n : Nat) : (padded width n).all Char.isDigit = true := by
  induction width generalizing n with
  | zero => rfl
  | succ width ih =>
    simp only [padded, List.all_append, ih, List.all_cons, List.all_nil,
      (digitChar_spec (Nat.mod_lt n (by decide))).1]
    rfl

theorem numberOfDigits_padded {width n : Nat} (h : n < Nat.pow 10 width) :
    numberOfDigits 10 (padded width n) = n := by
  induction width generalizing n with
  | zero =>
    have : n = 0 := Nat.lt_one_iff.1 h
    subst this
    rfl
  | succ width ih =>
    have hn : n / 10 < Nat.pow 10 width :=
      Nat.div_lt_of_lt_mul (by rw [Nat.pow_eq, Nat.pow_succ, ← Nat.pow_eq] at h; omega)
    have hd := (digitChar_spec (Nat.mod_lt n (by decide : 10 > 0))).2
    have step := ih hn
    unfold numberOfDigits at step ⊢
    rw [padded, List.foldl_append, step, List.foldl_cons, List.foldl_nil, hd]
    omega

/-- A number that is written in full width is read back. -/
theorem number?_padded {width n : Nat} (h : n < Nat.pow 10 width) (rest : List Char) :
    number? width (padded width n ++ rest) = some (n, rest) := by
  have ht : (padded width n ++ rest).take width = padded width n :=
    List.take_left' (length_padded width n)
  have hd : (padded width n ++ rest).drop width = rest :=
    List.drop_left' (length_padded width n)
  simp only [number?, ht, hd, length_padded, all_isDigit_padded, and_self, if_true,
    numberOfDigits_padded h]

theorem numberIn?_padded (width : Nat) {low high n : Nat} (hw : high < Nat.pow 10 width)
    (hl : low ≤ n) (hh : n ≤ high) (rest : List Char) :
    numberIn? width low high (padded width n ++ rest) = some (n, rest) := by
  simp [numberIn?, number?_padded (Nat.lt_of_le_of_lt hh hw), hl, hh]

/-! ## Dates -/

/-- What follows a character. -/
def after? (c : Char) : List Char → Option (List Char)
  | [] => none
  | d :: cs => if d = c then some cs else none

/-- The date that a text starts with. -/
def date? (cs : List Char) : Option (Date × List Char) := do
  let (year, cs) ← numberIn? 4 0 9999 cs
  let (month, cs) ← numberIn? 2 1 12 (← after? '-' cs)
  let (day, cs) ← numberIn? 2 1 (daysIn year month) (← after? '-' cs)
  return (⟨year, month, day⟩, cs)

/-- The normal form of a date is read as that date. -/
theorem date?_chars {d : Date} (h : d.IsValid) (rest : List Char) :
    date? (d.chars ++ rest) = some (d, rest) := by
  obtain ⟨hy, hm, hm', hd, hd'⟩ := h
  have ry := numberIn?_padded 4 (by decide) (Nat.zero_le _) hy
  have rm := numberIn?_padded 2 (by decide) hm hm'
  have rd := numberIn?_padded 2 (Nat.lt_of_le_of_lt (daysIn_le ..) (by decide)) hd hd'
  simp [date?, Date.chars, after?, ry, rm, rd]

/-! ## Times of day -/

/-- The greatest numbers that are read: the last hour of a day, and the hours and minutes of an
offset. -/
structure Limits where
  hour : Nat
  offsetHour : Nat
  offsetMinute : Nat
  deriving DecidableEq, Repr, Inhabited

/-- The limits of a date or a time that stands as a value of its own. -/
def Limits.plain : Limits := ⟨23, 23, 59⟩

/-- The limits of one that stands in a string. -/
def Limits.quoted : Limits := ⟨24, 99, 99⟩

/-- The fraction of a second that a text may start with, in nanoseconds; further digits are cut. -/
def fraction : List Char → Nat × List Char
  | '.' :: cs =>
    let digits := cs.takeWhile Char.isDigit
    if digits.isEmpty then (0, '.' :: cs)
    else (numberOfDigits 10 ((digits ++ List.replicate 9 '0').take 9), cs.drop digits.length)
  | cs => (0, cs)

/-- The time of day that a text starts with. A minute may have a sixty-first second. -/
def timeOfDay? (limits : Limits) (cs : List Char) : Option (TimeOfDay × List Char) := do
  let (hour, cs) ← numberIn? 2 0 limits.hour cs
  let (minute, cs) ← numberIn? 2 0 59 (← after? ':' cs)
  let (second, cs) ← numberIn? 2 0 60 (← after? ':' cs)
  let (nanosecond, cs) := fraction cs
  return (⟨hour, minute, second, nanosecond⟩, cs)

/-- The offset that a text starts with, of a day at most. -/
def offset? (limits : Limits) (cs : List Char) : Option (Offset × List Char) :=
  match cs with
  | [] => none
  | c :: cs =>
    if c = 'Z' ∨ c = 'z' then some (.universal, cs)
    else if c = '+' ∨ c = '-' then do
      let (hours, cs) ← numberIn? 2 0 limits.offsetHour cs
      let (minutes, cs) ← numberIn? 2 0 limits.offsetMinute (← after? ':' cs)
      let ahead := hours * 60 + minutes
      if 24 * 60 < ahead then none
      else return (.minutes (if c = '-' then -(ahead : Int) else ahead), cs)
    else none

/-! ## Dates with times -/

/-- The time of day that stands behind a date. -/
def timeBehindDate? (limits : Limits) : List Char → Option (TimeOfDay × List Char)
  | [] => none
  | c :: cs => if c = 'T' ∨ c = 't' ∨ c = ' ' then timeOfDay? limits cs else none

/-- The date, the time of day or both that a text starts with. -/
def moment? (limits : Limits) (cs : List Char) : Option (Moment × List Char) :=
  match date? cs with
  | none => (timeOfDay? limits cs).map fun (time, rest) => (.time time, rest)
  | some (date, rest) =>
    match timeBehindDate? limits rest with
    | none => some (.date date, rest)
    | some (time, rest) =>
      match offset? limits rest with
      | none => some (.timeOfDate date time none, rest)
      | some (offset, rest) => some (.timeOfDate date time (some offset), rest)

/-- The date, the time of day or both that a whole string writes. -/
def quotedMoment? (text : String) : Option Moment :=
  match moment? .quoted text.toList with
  | some (moment, []) => some moment
  | _ => none

end ShaderText.Toml
