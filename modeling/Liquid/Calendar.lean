/-!
# Dates and times

Days of the proleptic Gregorian calendar and times of day without a zone. A leap second is a
fraction of a billion nanoseconds or more on top of second 59.
-/

namespace Liquid

/-- A day. -/
structure Date where
  year : Int
  month : Nat
  day : Nat
deriving DecidableEq, Repr

/-- A day and a time of day. -/
structure DateTime where
  date : Date
  hour : Nat
  minute : Nat
  second : Nat
  nanosecond : Nat := 0
deriving DecidableEq, Repr

/-- The number in decimal with zeros in front up to `width` digits. -/
def padded (width n : Nat) : String :=
  let digits := (Nat.repr n).toList
  String.ofList (List.replicate (width - digits.length) '0' ++ digits)

namespace Date

/-- Years from 0 to 9999 have four digits, others a sign and four digits or more. -/
def yearText (year : Int) : String :=
  if 0 ≤ year ∧ year ≤ 9999 then padded 4 year.toNat
  else (if year < 0 then "-" else "+") ++ padded 4 year.natAbs

def text (d : Date) : String :=
  yearText d.year ++ "-" ++ padded 2 d.month ++ "-" ++ padded 2 d.day

def compare (a b : Date) : Ordering :=
  (Ord.compare a.year b.year).then ((Ord.compare a.month b.month).then (Ord.compare a.day b.day))

end Date

namespace DateTime

/-- The time of day between colons, a leap second as second 60. -/
def timeText (t : DateTime) : String :=
  padded 2 t.hour ++ ":" ++ padded 2 t.minute ++ ":" ++
    padded 2 (t.second + t.nanosecond / 1000000000)

def text (t : DateTime) : String := t.date.text ++ " " ++ t.timeText

/-- The fraction of a second in as many digits as it needs: none, three, six or nine. -/
def fractionText (nanosecond : Nat) : String :=
  let n := nanosecond % 1000000000
  if n = 0 then ""
  else if n % 1000000 = 0 then "." ++ padded 3 (n / 1000000)
  else if n % 1000 = 0 then "." ++ padded 6 (n / 1000)
  else "." ++ padded 9 n

/-- The day and the time of day in full, joined by the letter `T`. -/
def fullText (t : DateTime) : String :=
  t.date.text ++ "T" ++ t.timeText ++ fractionText t.nanosecond

def compare (a b : DateTime) : Ordering :=
  (a.date.compare b.date).then ((Ord.compare a.hour b.hour).then
    ((Ord.compare a.minute b.minute).then ((Ord.compare a.second b.second).then
      (Ord.compare a.nanosecond b.nanosecond))))

end DateTime

end Liquid
