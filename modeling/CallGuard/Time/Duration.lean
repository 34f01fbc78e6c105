import CallGuard.Decimal.Double

set_option autoImplicit false

namespace CallGuard.Time

structure Duration where
  nanoseconds : Int
deriving DecidableEq, Repr

namespace Duration

-- The longest span: as many milliseconds as fit 63 bits.
def bound : Int := 0x7fffffffffffffff * 1_000_000

def ofNanoseconds? (n : Int) : Option Duration :=
  if -bound ≤ n ∧ n ≤ bound then some ⟨n⟩ else none

def add? (a b : Duration) : Option Duration := ofNanoseconds? (a.nanoseconds + b.nanoseconds)

def sub? (a b : Duration) : Option Duration := ofNanoseconds? (a.nanoseconds - b.nanoseconds)

def seconds (d : Duration) : Int := d.nanoseconds.fdiv 1_000_000_000

def subseconds (d : Duration) : Int := d.nanoseconds.fmod 1_000_000_000

def isSmall (d : Duration) : Bool :=
  -0x8000000000000000 ≤ d.nanoseconds && d.nanoseconds < 0x8000000000000000

def fractionText (n places : Nat) : String :=
  let whole := toString (n / Decimal.powTen places)
  let digits := (Nat.repr (n % Decimal.powTen places)).toList
  let padded := List.replicate (places - digits.length) '0' ++ digits
  let kept := (padded.reverse.dropWhile (· == '0')).reverse
  if kept.isEmpty then whole else whole ++ "." ++ String.ofList kept

def magnitudeText (n : Nat) : String :=
  -- Below a second the unit is chosen so that the first digit is not zero; otherwise hours, minutes
  -- and seconds are written from the first that is not zero.
  if n = 0 then "0s"
  else if n < 1000 then toString n ++ "ns"
  else if n < 1_000_000 then fractionText n 3 ++ "µs"
  else if n < 1_000_000_000 then fractionText n 6 ++ "ms"
  else
    let minutes := n / 60_000_000_000
    let tail := fractionText (n % 60_000_000_000) 9 ++ "s"
    if minutes = 0 then tail
    else
      let tail := toString (minutes % 60) ++ "m" ++ tail
      if minutes / 60 = 0 then tail else toString (minutes / 60) ++ "h" ++ tail

def text (d : Duration) : String :=
  -- Spans beyond 64 bits of nanoseconds are written as if their seconds were nanoseconds.
  let n := if d.isSmall then d.nanoseconds else Int.tdiv d.nanoseconds 1_000_000_000
  (if n < 0 then "-" else "") ++ magnitudeText n.natAbs

structure Unreadable where
  -- Why a text denotes no span: where it went wrong, and what was expected there.
  rest : List Char
  expected : String

def units : List (String × Nat) :=
  [("ms", 1_000_000), ("us", 1000), ("ns", 1), ("h", 3_600_000_000_000), ("m", 60_000_000_000),
    ("s", 1_000_000_000)]

def unit? (cs : List Char) : Option (Nat × List Char) :=
  match units.find? fun u => cs.take u.1.length = u.1.toList with
  | some (name, n) => some (n, cs.drop name.length)
  | none => none

def digitsOf (cs : List Char) : List Char × List Char :=
  (cs.takeWhile Char.isDigit, cs.dropWhile Char.isDigit)

def lowered (cs : List Char) : String := String.ofList (cs.map Char.toLower)

def wordNumber? (cs : List Char) : Option (Float × List Char) :=
  if lowered (cs.take 3) = "nan" then some (0.0 / 0.0, cs.drop 3)
  else if lowered (cs.take 8) = "infinity" then some (1.0 / 0.0, cs.drop 8)
  else if lowered (cs.take 3) = "inf" then some (1.0 / 0.0, cs.drop 3)
  else none

def number? (cs : List Char) : Except Unreadable (Float × List Char) :=
  let (negative, rest) := match cs with
    | '-' :: rest => (true, rest)
    | '+' :: rest => (false, rest)
    | rest => (false, rest)
  let sign (x : Float) := if negative then -x else x
  let (whole, afterWhole) := digitsOf rest
  let (fraction, afterFraction) := match afterWhole with
    | '.' :: rest =>
      let (fraction, after) := digitsOf rest
      if whole.isEmpty && fraction.isEmpty then ([], afterWhole) else (fraction, after)
    | rest => ([], rest)
  if whole.isEmpty && fraction.isEmpty then
    match wordNumber? rest with
    | some (x, rest) => .ok (sign x, rest)
    | none => .error ⟨cs, "Float"⟩
  else
    let value (e : Int) :=
      let coefficient := (whole ++ fraction).foldl (fun n c => 10 * n + (c.toNat - 48)) 0
      Decimal.toFloat negative coefficient (e - fraction.length)
    match afterFraction with
    | c :: rest =>
      if c = 'e' ∨ c = 'E' then
        let (below, rest) := match rest with
          | '-' :: rest => (true, rest)
          | '+' :: rest => (false, rest)
          | rest => (false, rest)
        let (digits, after) := digitsOf rest
        if digits.isEmpty then .error ⟨rest, "Digit"⟩
        else
          let e : Nat := digits.foldl (fun n c => 10 * n + (c.toNat - 48)) 0
          .ok (value (if below then -(e : Int) else e), after)
      else .ok (value 0, afterFraction)
    | [] => .ok (value 0, [])

def truncated (x : Float) : Int := x.toInt64.toInt

def numberUnit? (cs : List Char) : Except Unreadable (Int × List Char) :=
  match number? cs with
  | .error e => .error e
  | .ok (x, rest) =>
    match unit? rest with
    | none => .error ⟨rest, "Char"⟩
    | some (n, rest) => .ok (truncated (x * Float.ofNat n), rest)

def numberUnits : Nat → Int → List Char → Int
  -- Further numbers as long as they can be read.
  | 0, sum, _ => sum
  | fuel + 1, sum, cs =>
    match numberUnit? cs with
    | .ok (n, rest) => numberUnits fuel (sum + n) rest
    | .error _ => sum

def ofText (text : String) : Except Unreadable Duration :=
  let (negative, cs) := match text.toList with
    | '-' :: rest => (true, rest)
    | cs => (false, cs)
  if cs = ['0'] then .ok ⟨0⟩
  else
    match numberUnit? cs with
    | .error e => .error e
    | .ok (n, rest) =>
      let sum := numberUnits rest.length n rest
      .ok ⟨if negative then -sum else sum⟩

end Duration

end CallGuard.Time
