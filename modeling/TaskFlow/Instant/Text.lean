import TaskFlow.Instant
import TaskFlow.Text

/-!
# The text of instants

Instants are written as RFC 3339 asks, in UTC, with the fewest groups of three fractional digits
that lose nothing. They are read with any offset from UTC and with blanks between the parts.
-/

namespace TaskFlow.Instant

open TaskFlow.Text

/-- The year as written: four digits, and a sign where four digits are not enough. -/
def renderYear (year : Int) : List Char :=
  if 0 ≤ year ∧ year ≤ 9999 then padDigits 4 year.toNat
  else (if year < 0 then '-' else '+') :: padDigits 4 year.natAbs

/-- The fraction of a second as written: nothing, or a point and three, six or nine digits. -/
def renderFraction (nanos : Nat) : List Char :=
  if nanos = 0 then []
  else if nanos % 1000000 = 0 then '.' :: padDigits 3 (nanos / 1000000)
  else if nanos % 1000 = 0 then '.' :: padDigits 6 (nanos / 1000)
  else '.' :: padDigits 9 nanos

def render (t : Instant) : String :=
  String.ofList (renderYear t.year ++ '-' :: padDigits 2 t.month ++ '-' :: padDigits 2 t.day ++
    'T' :: padDigits 2 t.hour ++ ':' :: padDigits 2 t.minute ++ ':' :: padDigits 2 t.second ++
    renderFraction t.nanos ++ ['Z'])

/-- What is left of a text after the blanks at its front. -/
def skipBlanks (cs : List Char) : List Char :=
  cs.dropWhile isBlank

/-- A year: a sign and any number of digits, or no sign and at most four digits. -/
def readYear (cs : List Char) : Option (Int × List Char) :=
  match skipBlanks cs with
  | '-' :: rest => (number? rest.length rest).map fun (n, rest) => (-(n : Int), rest)
  | '+' :: rest => (number? rest.length rest).map fun (n, rest) => ((n : Int), rest)
  | rest => (number? 4 rest).map fun (n, rest) => ((n : Int), rest)

/-- A number of at most two digits, after blanks. -/
def readPair (cs : List Char) : Option (Nat × List Char) :=
  number? 2 (skipBlanks cs)

/-- What follows a given character, which may have blanks before it. -/
def skipMark (mark : Char) (cs : List Char) : Option (List Char) :=
  match skipBlanks cs with
  | c :: rest => if c = mark then some rest else none
  | [] => none

/-- The nanoseconds of an optional fraction; digits after the ninth are dropped. -/
def readFraction (cs : List Char) : Option (Nat × List Char) :=
  match cs with
  | '.' :: rest =>
    match takeDigits 9 rest with
    | ([], _) => none
    | (digits, rest) =>
      some (readDigits digits * Nat.pow 10 (9 - digits.length), rest.dropWhile Char.isDigit)
  | _ => some (0, cs)

/-- An offset from UTC in minutes: a sign, two digits of hours and two of minutes, between which
colons and blanks may stand. -/
def readOffset (cs : List Char) : Option (Int × List Char) :=
  let signed (positive : Bool) (cs : List Char) : Option (Int × List Char) :=
    match cs with
    | h₁ :: h₂ :: rest =>
      match rest.dropWhile (fun c => c = ':' || isBlank c) with
      | m₁ :: m₂ :: rest =>
        if [h₁, h₂, m₁, m₂].all Char.isDigit && digitValue m₁ < 6 then
          let minutes : Int := readDigits [h₁, h₂] * 60 + readDigits [m₁, m₂]
          if minutes < 1440 then some (if positive then minutes else -minutes, rest) else none
        else none
      | _ => none
    | _ => none
  match cs with
  | 'Z' :: rest | 'z' :: rest => some (0, rest)
  | '+' :: rest => signed true rest
  | '-' :: rest | '\u2212' :: rest => signed false rest
  | _ => none

/-- The zone of an instant, in minutes ahead of UTC. -/
def readZone (cs : List Char) : Option (Int × List Char) :=
  let cs := skipBlanks cs
  if (cs.take 3).map Char.toUpper = ['U', 'T', 'C'] then some (0, cs.drop 3) else readOffset cs

/-- Reads an instant; the whole text must be used up, blanks at its end aside. -/
def parse? (s : String) : Option Instant := do
  let (year, cs) ← readYear s.toList
  let (month, cs) ← readPair (← skipMark '-' cs)
  let (day, cs) ← readPair (← skipMark '-' cs)
  let cs ← match cs with
    | 'T' :: cs | 't' :: cs | ' ' :: cs => some cs
    | _ => none
  let (hour, cs) ← readPair cs
  let (minute, cs) ← readPair (← skipMark ':' cs)
  let (second, cs) ← readPair (← skipMark ':' cs)
  let (nanos, cs) ← readFraction cs
  let (ahead, cs) ← readZone cs
  if (skipBlanks cs).isEmpty then
    let here ← make? year month day hour minute second nanos
    if ahead = 0 then some here
    else ofMinutes? year month day (hour * 60 + minute - ahead) second nanos
  else none

end TaskFlow.Instant
