import SymSolve.Yaml.Text

/-!
# Dates

A date is written with dashes, and may be followed by a time of day and the distance from
universal time. The form alone does not make a date: the month, the day and the time have to
exist.
-/

namespace SymSolve.Yaml

/-- The time of a day. -/
structure TimeOfDay where
  hour : Nat
  minute : Nat
  second : Nat
  /-- The distance from universal time in minutes, without its sign. -/
  zone : Nat
  deriving DecidableEq, Repr

/-- A date as it is written. -/
structure Timestamp where
  year : Nat
  month : Nat
  day : Nat
  time : Option TimeOfDay
  deriving DecidableEq, Repr

namespace Timestamp

/-- Some digits, at least and at most so many, as many as there are. -/
def digits? (least most : Nat) (cs : List Char) : Option (Nat × List Char) :=
  let run := (cs.take most).takeWhile Char.isDigit
  if run.length < least then none
  else some (run.foldl (fun n d => 10 * n + (d.toNat - '0'.toNat)) 0, cs.drop run.length)

/-- The rest of a text after a mark. -/
def after? (mark : Char) : List Char → Option (List Char)
  | c :: rest => if c = mark then some rest else none
  | [] => none

/-- The distance from universal time, up to the end of the text. -/
def zone? (cs : List Char) : Option Nat :=
  match cs.dropWhile isBlank with
  | [] => if cs.isEmpty then some 0 else none
  | ['Z'] => some 0
  | c :: rest =>
    if c = '+' ∨ c = '-' then
      match digits? 1 2 rest with
      | some (hours, []) => some (60 * hours)
      | some (hours, ':' :: rest) =>
        match digits? 2 2 rest with
        | some (minutes, []) => some (60 * hours + minutes)
        | _ => none
      | _ => none
    else none

/-- The time of a day, up to the end of the text. -/
def time? (cs : List Char) : Option TimeOfDay := do
  let (hour, cs) ← digits? 1 2 cs
  let cs ← after? ':' cs
  let (minute, cs) ← digits? 2 2 cs
  let cs ← after? ':' cs
  let (second, cs) ← digits? 2 2 cs
  let cs := match cs with
    | '.' :: rest => rest.dropWhile Char.isDigit
    | rest => rest
  let zone ← zone? cs
  return ⟨hour, minute, second, zone⟩

/-- What stands between the day and the time: a letter or blanks. -/
def gap? (cs : List Char) : Option (List Char) :=
  match cs with
  | c :: rest =>
    if c = 'T' ∨ c = 't' then some rest
    else if isBlank c then some (rest.dropWhile isBlank)
    else none
  | [] => none

/-- Reads a date. -/
def parse? (cs : List Char) : Option Timestamp := do
  let (year, cs) ← digits? 4 4 cs
  let cs ← after? '-' cs
  let (month, cs) ← digits? 1 2 cs
  let cs ← after? '-' cs
  let (day, cs) ← digits? 1 2 cs
  if cs.isEmpty then return ⟨year, month, day, none⟩
  let time ← time? (← gap? cs)
  return ⟨year, month, day, some time⟩

/-- Whether a text is taken for a date without being called one: without a time, the month and
the day have two digits. -/
def isImplicit (cs : List Char) : Bool :=
  match parse? cs with
  | none => false
  | some t => t.time.isSome || cs.length = 10

/-- Whether a year has a day more. -/
def isLeap (year : Nat) : Bool := year % 4 = 0 && (year % 100 ≠ 0 || year % 400 = 0)

/-- How many days a month has. -/
def daysIn (year month : Nat) : Nat :=
  if month = 2 then if isLeap year then 29 else 28
  else if month = 4 ∨ month = 6 ∨ month = 9 ∨ month = 11 then 30
  else 31

/-- Whether a date exists. -/
def exists? (t : Timestamp) : Bool :=
  1 ≤ t.year && 1 ≤ t.month && t.month ≤ 12 && 1 ≤ t.day && t.day ≤ daysIn t.year t.month &&
    t.time.all fun time =>
      time.hour ≤ 23 && time.minute ≤ 59 && time.second ≤ 59 && time.zone < 24 * 60

end Timestamp

end SymSolve.Yaml
