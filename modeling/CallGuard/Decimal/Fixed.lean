import CallGuard.Decimal.Double

set_option autoImplicit false

namespace CallGuard.Decimal

def placePoint (n places : Nat) (keepPoint : Bool) : String :=
  let text := Nat.repr n
  let padded := String.ofList (List.replicate (places + 1 - text.length) '0') ++ text
  let cs := padded.toList
  let whole := String.ofList (cs.take (cs.length - places))
  let fraction := String.ofList (cs.drop (cs.length - places))
  if places = 0 then if keepPoint then whole ++ "." else whole else whole ++ "." ++ fraction

def fixedText (b : Binary) (places : Nat) (keepPoint : Bool) : String :=
  let (num, den) := b.fraction
  placePoint (roundHalfEven (num * powTen places) den) places keepPoint

def scientificDigits (b : Binary) (places : Nat) : Int × Nat :=
  if b.isZero then (0, 0)
  else
    let (num, den) := b.fraction
    let leading := leadingExponent num den
    let (n, d) := scaleTen num den ((places : Int) - leading)
    let rounded := roundHalfEven n d
    if rounded = powTen (places + 1) then (leading + 1, powTen places) else (leading, rounded)

def twoDigitExponent (e : Int) : String :=
  let text := Nat.repr e.natAbs
  (if e < 0 then "-" else "+") ++ (if text.length < 2 then "0" ++ text else text)

def scientificText (b : Binary) (places : Nat) (keepPoint : Bool) : String :=
  let (leading, digits) := scientificDigits b places
  placePoint digits places keepPoint ++ "e" ++ twoDigitExponent leading

def dropTrailingZeros (s : String) : String :=
  if s.toList.contains '.' then
    let cs := (s.toList.reverse.dropWhile (· == '0'))
    String.ofList (match cs with
      | '.' :: rest => rest.reverse
      | cs => cs.reverse)
  else s

def generalText (b : Binary) (digits : Nat) (keepZeros : Bool) : String :=
  let digits := max digits 1
  let (leading, coefficient) := scientificDigits b (digits - 1)
  let trimmed (s : String) := if keepZeros then s else dropTrailingZeros s
  if -4 ≤ leading && leading < digits then
    trimmed (fixedText b (digits - 1 - leading).toNat keepZeros)
  else
    trimmed (placePoint coefficient (digits - 1) keepZeros) ++ "e" ++ twoDigitExponent leading

end CallGuard.Decimal
