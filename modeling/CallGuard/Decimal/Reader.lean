import CallGuard.Decimal.Double

set_option autoImplicit false

namespace CallGuard.Decimal

inductive IntegerFault
  | empty
  | invalidDigit
  | tooLarge
  | tooSmall
deriving DecidableEq, Repr

def IntegerFault.message : IntegerFault → String
  | empty => "cannot parse integer from empty string"
  | invalidDigit => "invalid digit found in string"
  | tooLarge => "number too large to fit in target type"
  | tooSmall => "number too small to fit in target type"

def integerDigits (negative : Bool) (lo hi : Int) : Int → List Char → Except IntegerFault Int
  -- The digits are looked at in turn, so what is found first of a bad digit and a number beyond the
  -- bound is reported.
  | n, [] => .ok n
  | n, c :: cs =>
    if !c.isDigit then .error .invalidDigit
    else
      let d : Int := (c.toNat - 48 : Nat)
      let next := if negative then 10 * n - d else 10 * n + d
      if hi < next then .error .tooLarge
      else if next < lo then .error .tooSmall
      else integerDigits negative lo hi next cs

def integer (lo hi : Int) (text : String) : Except IntegerFault Int :=
  -- An integer from `lo` to `hi` with an optional sign; a minus is a bad digit where no integer is
  -- negative.
  match text.toList with
  | [] => .error .empty
  | '+' :: rest =>
    if rest.isEmpty then .error .invalidDigit else integerDigits false lo hi 0 rest
  | '-' :: rest =>
    if rest.isEmpty || lo = 0 then .error .invalidDigit else integerDigits true lo hi 0 rest
  | cs => integerDigits false lo hi 0 cs

inductive DoubleFault
  | empty
  | invalid
deriving DecidableEq, Repr

def DoubleFault.message : DoubleFault → String
  | empty => "cannot parse float from empty string"
  | invalid => "invalid float literal"

def exponentOf? : List Char → Option Int
  | [] => some 0
  | c :: rest =>
    if c = 'e' ∨ c = 'E' then
      let (negative, digits) := match rest with
        | '-' :: rest => (true, rest)
        | '+' :: rest => (false, rest)
        | rest => (false, rest)
      if digits.isEmpty || !digits.all Char.isDigit then none
      else
        let n : Nat := digits.foldl (fun n c => 10 * n + (c.toNat - 48)) 0
        some (if negative then -(n : Int) else n)
    else none

def double (text : String) : Except DoubleFault Float :=
  match text.toList with
  | [] => .error .empty
  | cs =>
    let (negative, rest) := match cs with
      | '-' :: rest => (true, rest)
      | '+' :: rest => (false, rest)
      | rest => (false, rest)
    let sign (x : Float) : Float := if negative then -x else x
    let word := String.ofList (rest.map Char.toLower)
    if word = "inf" ∨ word = "infinity" then .ok (sign (1.0 / 0.0))
    else if word = "nan" then .ok (0.0 / 0.0)
    else
      let whole := rest.takeWhile Char.isDigit
      let after := rest.dropWhile Char.isDigit
      let (fraction, after) := match after with
        | '.' :: rest => (rest.takeWhile Char.isDigit, rest.dropWhile Char.isDigit)
        | rest => ([], rest)
      if whole.isEmpty && fraction.isEmpty then .error .invalid
      else
        match exponentOf? after with
        | none => .error .invalid
        | some e =>
          let n : Nat := (whole ++ fraction).foldl (fun n c => 10 * n + (c.toNat - 48)) 0
          .ok (toFloat negative n (e - fraction.length))

end CallGuard.Decimal
