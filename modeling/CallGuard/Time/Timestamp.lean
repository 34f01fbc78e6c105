import CallGuard.Time.Duration

set_option autoImplicit false

namespace CallGuard.Time

def dayOfDate (year : Int) (month day : Nat) : Int :=
  let y := if month ≤ 2 then year - 1 else year
  let era := y.fdiv 400
  let yearOfEra := y - era * 400
  let shifted : Int := if 2 < month then month - 3 else month + 9
  let dayOfYear := (153 * shifted + 2) / 5 + day - 1
  let dayOfEra := yearOfEra * 365 + yearOfEra / 4 - yearOfEra / 100 + dayOfYear
  era * 146097 + dayOfEra - 719468

structure Date where
  year : Int
  month : Nat
  day : Nat
deriving DecidableEq, Repr

def dateOfDay (n : Int) : Date :=
  let z := n + 719468
  let era := z.fdiv 146097
  let dayOfEra := z - era * 146097
  let yearOfEra := (dayOfEra - dayOfEra / 1460 + dayOfEra / 36524 - dayOfEra / 146096) / 365
  let dayOfYear := dayOfEra - (365 * yearOfEra + yearOfEra / 4 - yearOfEra / 100)
  let shifted := (5 * dayOfYear + 2) / 153
  let day := dayOfYear - (153 * shifted + 2) / 5 + 1
  let month := if shifted < 10 then shifted + 3 else shifted - 9
  let year := yearOfEra + era * 400
  ⟨if month ≤ 2 then year + 1 else year, month.toNat, day.toNat⟩

def isLeapYear (year : Int) : Bool :=
  year.fmod 4 == 0 && (year.fmod 100 != 0 || year.fmod 400 == 0)

def daysInMonth (year : Int) (month : Nat) : Nat :=
  if month = 2 then if isLeapYear year then 29 else 28
  else if [4, 6, 9, 11].contains month then 30
  else 31

-- A leap second is counted as a longer second before it.
structure Timestamp where
  seconds : Int
  subseconds : Nat
  offset : Int
deriving DecidableEq, Repr

namespace Timestamp

def nanoseconds (t : Timestamp) : Int := t.seconds * 1_000_000_000 + t.subseconds

def compare (a b : Timestamp) : Ordering :=
  -- Points are compared by their time alone.
  (Ord.compare a.seconds b.seconds).then (Ord.compare a.subseconds b.subseconds)

def localSeconds (t : Timestamp) : Int := t.seconds + t.offset

def localDay (t : Timestamp) : Int := t.localSeconds.fdiv 86400

def secondOfDay (t : Timestamp) : Nat := (t.localSeconds.fmod 86400).toNat

def date (t : Timestamp) : Date := dateOfDay t.localDay

def isInRange (seconds : Int) : Bool :=
  dayOfDate (-262143) 1 1 * 86400 ≤ seconds && seconds < dayOfDate 262143 1 1 * 86400

def shift? (t : Timestamp) (n : Int) : Option Timestamp :=
  let total := t.nanoseconds + n
  let seconds := total.fdiv 1_000_000_000
  if isInRange seconds then some ⟨seconds, (total.fmod 1_000_000_000).toNat, t.offset⟩ else none

def add? (t : Timestamp) (d : Duration) : Option Timestamp := t.shift? d.nanoseconds

def sub? (t : Timestamp) (d : Duration) : Option Timestamp := t.shift? (-d.nanoseconds)

def difference (a b : Timestamp) : Duration := ⟨a.nanoseconds - b.nanoseconds⟩

-- Zero for January.
def monthIndex (t : Timestamp) : Nat := t.date.month - 1

def dayOfYearIndex (t : Timestamp) : Nat := (t.localDay - dayOfDate t.date.year 1 1).toNat

-- Zero for Sunday.
def weekday (t : Timestamp) : Nat := ((t.localDay + 4).fmod 7).toNat

def hour (t : Timestamp) : Nat := t.secondOfDay / 3600

def minute (t : Timestamp) : Nat := t.secondOfDay / 60 % 60

def second (t : Timestamp) : Nat := t.secondOfDay % 60

def milliseconds (t : Timestamp) : Nat := t.subseconds / 1_000_000

def padded (places n : Nat) : String :=
  let digits := Nat.repr n
  String.ofList (List.replicate (places - digits.length) '0') ++ digits

def yearText (year : Int) : String :=
  if 0 ≤ year ∧ year ≤ 9999 then padded 4 year.toNat
  else (if year < 0 then "-" else "+") ++ padded 4 year.natAbs

def fractionText (n : Nat) : String :=
  -- Three, six or nine digits after the point, or no point.
  if n = 0 then ""
  else if n % 1_000_000 = 0 then "." ++ padded 3 (n / 1_000_000)
  else if n % 1000 = 0 then "." ++ padded 6 (n / 1000)
  else "." ++ padded 9 n

def offsetText (offset : Int) : String :=
  let minutes := offset.natAbs / 60
  (if offset < 0 then "-" else "+") ++ padded 2 (minutes / 60) ++ ":" ++ padded 2 (minutes % 60)

def text (t : Timestamp) : String :=
  let d := t.date
  let leap := t.subseconds / 1_000_000_000
  yearText d.year ++ "-" ++ padded 2 d.month ++ "-" ++ padded 2 d.day ++ "T" ++
    padded 2 t.hour ++ ":" ++ padded 2 t.minute ++ ":" ++ padded 2 (t.second + leap) ++
    fractionText (t.subseconds % 1_000_000_000) ++ offsetText t.offset

inductive Unreadable
  | tooShort
  | tooLong
  | invalid
  | outOfRange
deriving DecidableEq, Repr

def Unreadable.message : Unreadable → String
  | tooShort => "premature end of input"
  | tooLong => "trailing input"
  | invalid => "input contains invalid characters"
  | outOfRange => "input is out of range"

abbrev Reading (α : Type) := Except Unreadable (α × List Char)

def digitsLoop : Nat → Nat → List Char → Reading Nat
  | 0, n, cs => .ok (n, cs)
  | _ + 1, _, [] => .error .tooShort
  | k + 1, n, c :: cs =>
    if c.isDigit then digitsLoop k (10 * n + (c.toNat - 48)) cs else .error .invalid

def digits (k : Nat) (cs : List Char) : Reading Nat :=
  if cs.length < k then .error .tooShort else digitsLoop k 0 cs

def within (lo hi : Nat) (r : Reading Nat) : Reading Nat :=
  match r with
  | .ok (n, cs) => if lo ≤ n ∧ n ≤ hi then .ok (n, cs) else .error .outOfRange
  | .error e => .error e

def mark (accepted : List Char) : List Char → Except Unreadable (List Char)
  | [] => .error .tooShort
  | c :: cs => if accepted.contains c then .ok cs else .error .invalid

def readFraction (cs : List Char) : Reading Nat :=
  -- Nine digits after the point count.
  match cs with
  | '.' :: rest =>
    let all := rest.takeWhile Char.isDigit
    let kept := all.take 9
    match all, rest with
    | [], [] => .error .tooShort
    | [], _ => .error .invalid
    | _, _ =>
      let n := kept.foldl (fun n c => 10 * n + (c.toNat - 48)) 0
      .ok (n * Decimal.powTen (9 - kept.length), rest.dropWhile Char.isDigit)
  | cs => .ok (0, cs)

def readOffset (cs : List Char) : Except Unreadable (Int × List Char) :=
  match cs with
  | [] => .error .tooShort
  | 'Z' :: rest => .ok (0, rest)
  | 'z' :: rest => .ok (0, rest)
  | c :: rest =>
    if c = '+' ∨ c = '-' ∨ c = '\u2212' then do
      let (hours, rest) ← digits 2 rest
      let rest ← mark [':'] rest
      match rest with
      | a :: b :: rest =>
        if a.isDigit && b.isDigit then
          if a < '6' then
            let n : Int := (hours * 3600 + ((a.toNat - 48) * 10 + (b.toNat - 48)) * 60 : Nat)
            if 86400 ≤ n then .error .outOfRange
            else .ok (if c = '+' then n else -n, rest)
          else .error .outOfRange
        else .error .invalid
      | _ => .error .tooShort
    else .error .invalid

def ofText (text : String) : Except Unreadable Timestamp := do
  let (year, cs) ← digits 4 text.toList
  let cs ← mark ['-'] cs
  let (month, cs) ← within 1 12 (digits 2 cs)
  let cs ← mark ['-'] cs
  let (day, cs) ← within 1 31 (digits 2 cs)
  let cs ← mark ['T', 't', ' '] cs
  let (hour, cs) ← within 0 23 (digits 2 cs)
  let cs ← mark [':'] cs
  let (minute, cs) ← within 0 59 (digits 2 cs)
  let cs ← mark [':'] cs
  let (second, cs) ← within 0 60 (digits 2 cs)
  let (nanos, cs) ← readFraction cs
  let (shift, cs) ← readOffset cs
  if !cs.isEmpty then throw .tooLong
  if daysInMonth year month < day then throw .outOfRange
  let seconds := dayOfDate year month day * 86400 +
    ((hour * 3600 + minute * 60 + min second 59 : Nat) : Int) - shift
  return ⟨seconds, if second = 60 then nanos + 1_000_000_000 else nanos, shift⟩

end Timestamp

end CallGuard.Time
