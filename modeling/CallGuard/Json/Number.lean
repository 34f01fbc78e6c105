import CallGuard.Decimal.Shortest

set_option autoImplicit false

namespace CallGuard.Json

inductive Number
  | integer (value : Int)
  | double (value : Float)

structure Literal where
  -- A literal as it is written; digits are numbers below ten.
  negative : Bool
  whole : List Nat
  fraction : List Nat
  exponent : Option (Bool × List Nat)
deriving DecidableEq, Repr

namespace Literal

def coefficientBound : Nat := 0x10000000000000000

def significant : Nat → List Nat → Nat × Nat
  -- The leading digits as long as they fit a coefficient, and how many did not.
  | n, [] => (n, 0)
  | n, d :: ds =>
    if 10 * n + d < coefficientBound then significant (10 * n + d) ds else (n, ds.length + 1)

def withFraction : Nat → Int → List Nat → Nat × Int
  -- The coefficient goes on with the digits of the fraction as long as they fit; each lowers the
  -- exponent by one, and the others are dropped.
  | n, e, [] => (n, e)
  | n, e, d :: ds =>
    if 10 * n + d < coefficientBound then withFraction (10 * n + d) (e - 1) ds else (n, e)

def exponentBound : Int := 0x80000000

def exponentValue (ds : List Nat) : Option Int :=
  -- The value of exponent digits, or nothing when it does not fit 31 bits.
  let n : Nat := ds.foldl (fun n d => 10 * n + d) 0
  if (n : Int) < exponentBound then some n else none

def saturate (e : Int) : Int := max (-exponentBound) (min (exponentBound - 1) e)

def powerOfTen (n : Nat) : Float := Float.ofScientific 1 false n

def scaled (x : Float) (e : Int) : Nat → Option Float
  | 0 => some x
  | steps + 1 =>
    if e.natAbs ≤ 308 then
      if 0 ≤ e then
        let y := x * powerOfTen e.natAbs
        if y.isInf then none else some y
      else some (x / powerOfTen e.natAbs)
    else if x == 0 then some x
    else if 0 ≤ e then none
    else scaled (x / powerOfTen 308) (e + 308) steps

def double? (negative : Bool) (coefficient : Nat) (e : Int) : Option Number :=
  (scaled (Float.ofNat coefficient) e 1000).map fun x => .double (if negative then -x else x)

def number? (l : Literal) : Option Number :=
  -- The number that a literal denotes, or nothing when it is beyond the greatest double.
  let (n, dropped) := significant 0 l.whole
  if dropped = 0 ∧ l.fraction = [] ∧ l.exponent = none then
    if !l.negative then some (.integer n)
    else if n = 0 ∨ 0x8000000000000000 < n then some (.double (-Float.ofNat n))
    else some (.integer (-n))
  else
    let (n, e) := withFraction n dropped l.fraction
    match l.exponent with
    | none => double? l.negative n e
    | some (below, ds) =>
      match exponentValue ds with
      | some x => double? l.negative n (saturate (if below then e - x else e + x))
      | none =>
        if n ≠ 0 ∧ !below then none
        else some (.double (if l.negative then -0 else 0))

end Literal

def Number.layout : Decimal.Layout :=
  -- Doubles are written without an exponent when the leading digit stands at `10 ^ -5` to `10 ^
  -- 15`, and whole ones keep a zero after the point.
  ⟨fun e => -5 ≤ e && e ≤ 15, ".0", "null", "null"⟩

def Number.text : Number → String
  | .integer i => toString i
  | .double x =>
    match Decimal.parts x with
    | .finite _ => Number.layout.text x
    | _ => "null"

end CallGuard.Json
