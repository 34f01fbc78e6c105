import CallGuard.Decimal.Double

set_option autoImplicit false

namespace CallGuard.Decimal

structure Scaled where
  -- `coefficient * 10 ^ exponent`.
  coefficient : Nat
  exponent : Int
deriving DecidableEq, Repr

-- In quarters of the last place, and whether the ends belong to the interval.
structure Rounding where
  low : Nat
  middle : Nat
  high : Nat
  unit : Int
  closed : Bool

def Binary.rounding (b : Binary) : Rounding :=
  { low := if b.mantissa = 0x10000000000000 ∧ b.exponent ≠ -1074 then 4 * b.mantissa - 1
           else 4 * b.mantissa - 2
    middle := 4 * b.mantissa
    high := 4 * b.mantissa + 2
    unit := b.exponent - 2
    closed := b.mantissa % 2 == 0 }

def onCommonScale (coefficient : Nat) (grid unit : Int) : Nat :=
  coefficient * powTen grid.toNat * powTwo (-unit).toNat

def quartersOnCommonScale (quarters : Nat) (grid unit : Int) : Nat :=
  quarters * powTwo unit.toNat * powTen (-grid).toNat

def Rounding.holds (r : Rounding) (coefficient : Nat) (grid : Int) : Bool :=
  let c := onCommonScale coefficient grid r.unit
  let lo := quartersOnCommonScale r.low grid r.unit
  let hi := quartersOnCommonScale r.high grid r.unit
  if r.closed then lo ≤ c && c ≤ hi else lo < c && c < hi

def Rounding.onGrid (r : Rounding) (grid : Int) : Option Nat :=
  let one := onCommonScale 1 grid r.unit
  let middle := quartersOnCommonScale r.middle grid r.unit
  let below := middle / one
  match r.holds below grid, r.holds (below + 1) grid with
  | true, true => some (roundHalfEven middle one)
  | true, false => some below
  | false, true => some (below + 1)
  | false, false => none

def dropZeros : Nat → Nat → Int → Scaled
  | 0, c, e => ⟨c, e⟩
  | fuel + 1, c, e => if c % 10 = 0 && c ≠ 0 then dropZeros fuel (c / 10) (e + 1) else ⟨c, e⟩

def Binary.shortest (b : Binary) : Scaled :=
  -- Grids of one, two, … seventeen digits are tried in this order.
  let (num, den) := b.fraction
  let leading := leadingExponent num den
  let found := (List.range 17).findSome? fun (n : Nat) =>
    (b.rounding.onGrid (leading - n)).map fun c => (c, leading - (n : Int))
  match found with
  | some (c, e) => dropZeros 20 c e
  | none => ⟨0, 0⟩

structure Layout where
  -- Least and greatest leading exponent written without an exponent.
  positional : Int → Bool
  -- What follows a whole number written without an exponent.
  whole : String
  infinity : String
  nan : String

def zeros (n : Nat) : String := String.ofList (List.replicate n '0')

def positionalText (l : Layout) (d : Scaled) : String :=
  let text := (Nat.repr d.coefficient)
  if 0 ≤ d.exponent then text ++ zeros d.exponent.toNat ++ l.whole
  else
    let places := (-d.exponent).toNat
    let padded := zeros (places + 1 - text.length) ++ text
    let cs := padded.toList
    String.ofList (cs.take (cs.length - places)) ++ "." ++
      String.ofList (cs.drop (cs.length - places))

def exponentText (d : Scaled) : String :=
  let cs := (Nat.repr d.coefficient).toList
  let leading := d.exponent + cs.length - 1
  let mantissa := match cs with
    | [] => "0"
    | [c] => c.toString
    | c :: rest => c.toString ++ "." ++ String.ofList rest
  mantissa ++ "e" ++ toString leading

def Layout.magnitude (l : Layout) (b : Binary) : String :=
  if b.isZero then positionalText l ⟨0, 0⟩
  else
    let d := b.shortest
    if l.positional (d.exponent + digitCount d.coefficient - 1) then positionalText l d
    else exponentText d

def Layout.text (l : Layout) (x : Float) : String :=
  match parts x with
  | .nan => l.nan
  | .infinite negative => (if negative then "-" else "") ++ l.infinity
  | .finite b => (if b.negative then "-" else "") ++ l.magnitude b

end CallGuard.Decimal
