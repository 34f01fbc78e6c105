import CallGuard.Lua.Library.Arguments

set_option autoImplicit false

namespace CallGuard.Lua.Library

open Routine

def pi : Float := 3.141592653589793

def numberConstants : List (String × Value) :=
  [("pi", .float pi), ("huge", .float (1 / 0)), ("maxinteger", .int Int64.maxValue),
    ("mininteger", .int Int64.minValue)]

def integral (x : Float) : Value :=
  match exactInt? x with
  | some i => .int i
  | none => .float x

def onFloat (f : Float → Float) (vs : Args) : Routine (List Value) := do
  return [.float (f (← Args.float vs 1))]

def rounded (f : Float → Float) (vs : Args) : Routine (List Value) :=
  -- An integer stays as it is.
  match Args.value vs 1 with
  | .int i => return [.int i]
  | _ => do return [integral (f (← Args.float vs 1))]

def absolute (vs : Args) : Routine (List Value) :=
  match Args.value vs 1 with
  | .int i => return [.int (if i.toInt < 0 then -i else i)]
  | _ => onFloat Float.abs vs

def truncatedRemainder (vs : Args) : Routine (List Value) :=
  -- The remainder of a quotient that is rounded towards zero.
  match Args.value vs 1, Args.value vs 2 with
  | .int a, .int b =>
    if b = 0 then invalid else return [.int (.ofInt (a.toInt.tmod b.toInt))]
  | _, _ => do return [.float (remainder (← Args.float vs 1) (← Args.float vs 2))]

def parts (vs : Args) : Routine (List Value) :=
  match Args.value vs 1 with
  | .int i => return [.int i, .float 0]
  | _ => do
    let x ← Args.float vs 1
    let whole := if x < 0 then x.ceil else x.floor
    return [.float whole, .float (if x == whole then 0 else x - whole)]

def logarithm (vs : Args) : Routine (List Value) := do
  let x ← Args.float vs 1
  if (Args.value vs 2).isNil then return [.float x.log]
  let base ← Args.float vs 2
  return [.float
    (if base == 2 then x.log2 else if base == 10 then x.log10 else x.log / base.log)]

def extreme (before : Value → Value → Option Bool) : Args → Routine (List Value)
  | [] => invalid
  | v :: vs => do
    return [← vs.foldlM (fun best w => do
      return if ← ofOption (before w best) then w else best) v]

def mantissa (vs : Args) : Routine (List Value) := do
  let (m, e) := (← Args.float vs 1).frExp
  return [.float m, .int (.ofInt e)]

def randomBetween (low high : Int64) (word : UInt64) : Routine (List Value) := do
  if high.toInt < low.toInt then invalid
  let n ← draw (Random.upTo (high - low).toUInt64 word)
  return [.int (n.toInt64 + low)]

def random (vs : Args) : Routine (List Value) := do
  let word ← draw Random.next
  match vs with
  | [] => return [.float (Random.fraction word)]
  | [_] => do
    let high ← Args.int vs 1
    if high = 0 then return [.int word.toInt64]
    randomBetween 1 high word
  | [_, _] => do randomBetween (← Args.int vs 1) (← Args.int vs 2) word
  | _ => invalid

def seed (vs : Args) : Routine (List Value) := do
  -- Without arguments the seed is zero.
  let m ← if vs.isEmpty then pure 0 else Args.int vs 1
  let n ← Args.intOr vs 2 0
  discard (draw fun _ => (0, .ofSeed m.toUInt64 n.toUInt64))
  return [.int m, .int n]

def math (f : MathFunction) (vs : Args) : Routine (List Value) :=
  match f with
  | .abs => absolute vs
  | .acos => onFloat Float.acos vs
  | .asin => onFloat Float.asin vs
  | .atan => do
    let y ← Args.float vs 1
    let x ← if (Args.value vs 2).isNil then pure 1 else Args.float vs 2
    return [.float (Float.atan2 y x)]
  | .ceil => rounded Float.ceil vs
  | .cos => onFloat Float.cos vs
  | .cosh => onFloat Float.cosh vs
  | .deg => onFloat (fun x => x * (180 / pi)) vs
  | .exp => onFloat Float.exp vs
  | .floor => rounded Float.floor vs
  | .fmod => truncatedRemainder vs
  | .frexp => mantissa vs
  | .ldexp => do
    let x ← Args.float vs 1
    return [.float (x.scaleB (← Args.int vs 2).toInt)]
  | .log => logarithm vs
  | .log10 => onFloat Float.log10 vs
  | .max => extreme (fun w best => Value.less? best w) vs
  | .min => extreme Value.less? vs
  | .modf => parts vs
  | .pow => do return [.float (Float.pow (← Args.float vs 1) (← Args.float vs 2))]
  | .rad => onFloat (fun x => x * (pi / 180)) vs
  | .random => random vs
  | .randomSeed => seed vs
  | .sin => onFloat Float.sin vs
  | .sinh => onFloat Float.sinh vs
  | .sqrt => onFloat Float.sqrt vs
  | .tan => onFloat Float.tan vs
  | .tanh => onFloat Float.tanh vs
  | .toInteger => do
    let v ← Args.present vs 1
    return [(v.toInt?.map Value.int).getD .nil]
  | .type => do
    return [match ← Args.present vs 1 with
      | .int _ => .text "integer"
      | .float _ => .text "float"
      | _ => .nil]
  | .unsignedLess => do
    let a ← Args.int vs 1
    let b ← Args.int vs 2
    return [.bool (a.toUInt64 < b.toUInt64)]

end CallGuard.Lua.Library
