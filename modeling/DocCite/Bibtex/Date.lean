import DocCite.Text.Blank
import DocCite.Text.Case
import DocCite.Text.Letter

/-!
# Dates of records

A record says its date in one field, or in a field each for the year, the month and the day. A
date is a moment or a range of moments, which may be open at one end, and it may be marked as
approximate or uncertain. `Date.write` gives every date one form: years have four digits, months
and days two, and an open end is two points.
-/

namespace DocCite.Bibtex

/-- The months of the year. -/
def months : List String :=
  ["January", "February", "March", "April", "May", "June", "July", "August", "September",
    "October", "November", "December"]

/-- The number of the month that a word names, in full or by its first three letters. -/
def monthNumber? (word : String) : Option Nat :=
  let key := asciiLowercase word
  (months.findIdx? fun month =>
    let name := asciiLowercase month
    key = name || key.toList = name.toList.take 3).map (· + 1)

/-- The month that a word names. -/
def monthName? (word : String) : Option String := do
  let n ← monthNumber? word
  months[n - 1]?

/-- The number that digits denote. -/
def valueOf (digits : List Char) : Nat :=
  digits.foldl (fun n c => 10 * n + (c.toNat - 48)) 0

/-- A point in time, as far as it is known. -/
structure Moment where
  year : Int
  month : Option Nat := none
  day : Option Nat := none
  /-- The time of the day with the letter before it, as it is written. -/
  clock : List Char := []

/-- A moment or a range of moments. -/
inductive Interval
  | on (m : Moment)
  | since (start : Moment)
  | upTo (stop : Moment)
  | between (start stop : Moment)

/-- A date and how well it is known. -/
structure Date where
  interval : Interval
  uncertain : Bool := false
  approximate : Bool := false

/-! ## Writing -/

/-- A number with zeros before it up to a width. -/
def padded (width n : Nat) : List Char :=
  let digits := (toString n).toList
  List.replicate (width - digits.length) '0' ++ digits

/-- The form of a moment. -/
def Moment.write (m : Moment) : List Char :=
  (if m.year < 0 then ['-'] else []) ++ padded 4 m.year.natAbs ++
    match m.month with
    | none => []
    | some month =>
      ['-'] ++ padded 2 month ++
        match m.day with
        | none => []
        | some day => ['-'] ++ padded 2 day ++ m.clock

/-- The form of a range. -/
def Interval.write : Interval → List Char
  | .on m => m.write
  | .since start => start.write ++ ['/', '.', '.']
  | .upTo stop => ['.', '.', '/'] ++ stop.write
  | .between start stop => start.write ++ ['/'] ++ stop.write

/-- The form of a date. -/
def Date.write (d : Date) : List Char :=
  d.interval.write ++
    (if d.uncertain && d.approximate then ['%']
      else if d.uncertain then ['?'] else if d.approximate then ['~'] else [])

/-! ## Reading one field -/

/-- The largest year that is read. -/
def yearBound : Nat := 0x80000000

/-- Reads a year after blanks: digits with an optional sign. -/
def year? (s : List Char) : Option (Int × List Char) :=
  let s := s.dropWhile Text.isBlank
  let negative := s.head? = some '-'
  let s := if negative then s.drop 1 else s
  let digits := s.takeWhile Text.isAsciiDigit
  let n := valueOf digits
  if digits.isEmpty || yearBound ≤ n then none
  else some (if negative then -n else n, s.dropWhile Text.isAsciiDigit)

/-- Reads two digits after blanks, up to a bound. -/
def twoDigits? (bound : Nat) (s : List Char) : Option (Nat × List Char) :=
  match s.dropWhile Text.isBlank with
  | a :: b :: rest =>
    let n := valueOf [a, b]
    if Text.isAsciiDigit a && Text.isAsciiDigit b && 1 ≤ n && n ≤ bound &&
        !(rest.head?.map Text.isAsciiDigit).getD false then
      some (n, rest)
    else none
  | _ => none

/-- Whether a text is a time of the day, with the letter before it and an optional offset. -/
def isClock (s : List Char) : Bool :=
  let shape := s.map fun c => if Text.isAsciiDigit c then '0' else c
  ["T00:00:00", "T00:00:00Z", "T00:00:00+00:00", "T00:00:00-00:00"].any fun form =>
    form.toList = shape

/-- Reads a moment that is the whole of a text. -/
def Moment.parse? (s : List Char) : Option Moment := do
  let (year, afterYear) ← year? s
  match afterYear.dropWhile Text.isBlank with
  | [] => some { year := year }
  | '-' :: rest => do
    let (month, afterMonth) ← twoDigits? 12 rest
    match afterMonth.dropWhile Text.isBlank with
    | [] => some { year := year, month := some month }
    | '-' :: rest => do
      let (day, afterDay) ← twoDigits? 31 rest
      let clock := Text.trim afterDay
      if clock.isEmpty || isClock clock then
        some { year := year, month := some month, day := some day, clock := clock }
      else none
    | _ => none
  | _ => none

/-- The number of days of a month. -/
def daysOf (year : Int) (month : Nat) : Nat :=
  if month = 2 then
    if year % 4 = 0 ∧ (year % 100 ≠ 0 ∨ year % 400 = 0) then 29 else 28
  else if [4, 6, 9, 11].contains month then 30
  else 31

/-- Reads a range that is written as a moment with `X` for the digits that are not known. -/
def unspecified? (s : List Char) : Option Interval :=
  match s.filter (!Text.isBlank ·) with
  | [a, b, 'X', 'X'] => do
    let (century, _) ← year? [a, b, '0', '0']
    some (.between { year := century } { year := century + 99 })
  | [a, b, c, 'X'] => do
    let (decade, _) ← year? [a, b, c, '0']
    some (.between { year := decade } { year := decade + 9 })
  | [a, b, c, d, '-', 'X', 'X'] => do
    let (year, _) ← year? [a, b, c, d]
    some (.between { year := year, month := some 1 } { year := year, month := some 12 })
  | [a, b, c, d, '-', 'X', 'X', '-', 'X', 'X'] => do
    let (year, _) ← year? [a, b, c, d]
    some (.between { year := year, month := some 1, day := some 1 }
      { year := year, month := some 12, day := some 31 })
  | [a, b, c, d, '-', e, f, '-', 'X', 'X'] => do
    let (year, _) ← year? [a, b, c, d]
    let (month, _) ← twoDigits? 12 [e, f]
    some (.between { year := year, month := some month, day := some 1 }
      { year := year, month := some month, day := some (daysOf year month) })
  | _ => none

/-- Whether an end of a range is open. -/
def isOpen (s : List Char) : Bool := Text.isAllBlank s || Text.trim s = ['.', '.']

/-- Reads a range or a moment. -/
def Interval.parse? (s : List Char) : Option Interval :=
  if s.contains 'X' then unspecified? s
  else if s.contains '/' then
    let start := s.takeWhile (· ≠ '/')
    let stop := (s.dropWhile (· ≠ '/')).drop 1
    match isOpen start, isOpen stop with
    | true, true => none
    | false, true => (Moment.parse? start).map .since
    | true, false => (Moment.parse? stop).map .upTo
    | false, false => do
      let first ← Moment.parse? start
      let last ← Moment.parse? stop
      some (.between first last)
  else (Moment.parse? s).map .on

/-- Reads a date from one field. -/
def Date.parse? (s : List Char) : Option Date :=
  let s := Text.trim s
  let (uncertain, approximate) := match s.getLast? with
    | some '?' => (true, false)
    | some '~' => (false, true)
    | some '%' => (true, true)
    | _ => (false, false)
  (Interval.parse? (if uncertain || approximate then s.dropLast else s)).map
    fun interval => { interval := interval, uncertain := uncertain, approximate := approximate }

/-! ## Reading a field each -/

/-- The number that a text starts with, if it is between one and a bound. -/
def leading? (bound : Nat) (s : List Char) : Option Nat :=
  let digits := (s.dropWhile Text.isBlank).takeWhile Text.isAsciiDigit
  let n := valueOf digits
  if !digits.isEmpty && 1 ≤ n && n ≤ bound then some n else none

/-- Reads a month by name or number, and the day that may follow it. -/
def monthAndDay? (s : List Char) : Option (Nat × Option Nat) :=
  let s := s.dropWhile Text.isBlank
  let isPart (c : Char) : Bool := Text.isAlphabetic c || Text.isAsciiDigit c
  let word := s.takeWhile isPart
  let rest := (s.dropWhile isPart).dropWhile fun c => Text.isBlank c || c = '~'
  match monthNumber? (String.ofList word) with
  | some month => some (month, leading? 31 rest)
  | none => (leading? 12 word).map fun month => (month, none)

/-- Reads a date from the fields for the year, the month and the day. A day counts only with its
month. -/
def Date.ofParts? (year : List Char) (month day : Option (List Char)) : Option Date := do
  let (y, _) ← year? year
  match month with
  | none => some { interval := .on { year := y } }
  | some month => do
    let (m, dayOfMonth) ← monthAndDay? month
    let d ← match day with
      | none => some dayOfMonth
      | some day => (leading? 31 day).map some
    some { interval := .on { year := y, month := some m, day := d } }

end DocCite.Bibtex
