set_option autoImplicit false

namespace CallGuard.Lua

-- Strings are any bytes.
abbrev Bytes := ByteArray

instance : DecidableEq Bytes := ByteArray.instDecidableEq

def Bytes.ofText (s : String) : Bytes := s.toUTF8

abbrev TableId := Nat

abbrev FunctionId := Nat

abbrev CellId := Nat

inductive StringFunction
  | byte
  | char
  | dump
  | find
  | format
  | gmatch
  | gsub
  | len
  | lower
  | matchFirst
  | pack
  | packSize
  | rep
  | reverse
  | sub
  | unpack
  | upper
deriving DecidableEq, Repr

namespace StringFunction

def names : List (String × StringFunction) :=
  [("byte", byte), ("char", char), ("dump", dump), ("find", find), ("format", format),
    ("gmatch", gmatch), ("gsub", gsub), ("len", len), ("lower", lower), ("match", matchFirst),
    ("pack", pack), ("packsize", packSize), ("rep", rep), ("reverse", reverse), ("sub", sub),
    ("unpack", unpack), ("upper", upper)]

end StringFunction

inductive TableFunction
  | concat
  | insert
  | move
  | pack
  | remove
  | sort
  | unpack
deriving DecidableEq, Repr

namespace TableFunction

def names : List (String × TableFunction) :=
  [("concat", concat), ("insert", insert), ("move", move), ("pack", pack), ("remove", remove),
    ("sort", sort), ("unpack", unpack)]

end TableFunction

inductive MathFunction
  | abs
  | acos
  | asin
  | atan
  | ceil
  | cos
  | cosh
  | deg
  | exp
  | floor
  | fmod
  | frexp
  | ldexp
  | log
  | log10
  | max
  | min
  | modf
  | pow
  | rad
  | random
  | randomSeed
  | sin
  | sinh
  | sqrt
  | tan
  | tanh
  | toInteger
  | type
  | unsignedLess
deriving DecidableEq, Repr

namespace MathFunction

def names : List (String × MathFunction) :=
  [("abs", abs), ("acos", acos), ("asin", asin), ("atan", atan), ("ceil", ceil), ("cos", cos),
    ("cosh", cosh), ("deg", deg), ("exp", exp), ("floor", floor), ("fmod", fmod),
    ("frexp", frexp), ("ldexp", ldexp), ("log", log), ("log10", log10), ("max", max),
    ("min", min), ("modf", modf), ("pow", pow), ("rad", rad), ("random", random),
    ("randomseed", randomSeed), ("sin", sin), ("sinh", sinh), ("sqrt", sqrt), ("tan", tan),
    ("tanh", tanh), ("tointeger", toInteger), ("type", type), ("ult", unsignedLess)]

end MathFunction

inductive BaseFunction
  | assert
  | contains
  | error
  | ipairs
  | next
  | pairs
  | select
  | toNumber
  | toString
  | type
deriving DecidableEq, Repr

namespace BaseFunction

def names : List (String × BaseFunction) :=
  [("assert", assert), ("contains", contains), ("error", error), ("ipairs", ipairs),
    ("next", next), ("pairs", pairs), ("select", select), ("tonumber", toNumber),
    ("tostring", toString), ("type", type)]

end BaseFunction

-- A constant may have taken the place of a function that views rely on.
structure Support where
  canReport : Bool
  canStep : Bool
deriving DecidableEq, Repr

inductive Native
  | base (f : BaseFunction)
  | string (f : StringFunction)
  | table (f : TableFunction)
  | math (f : MathFunction)
  | itemStep
  -- One step through the matches of a pattern. The cells hold where the next one is looked for and
  -- where the last one ended.
  | matchStep (subject pattern : Bytes) (start last : CellId)
  -- Finds what a name stands for that is not bound for a call: an entry of the table, or nothing
  -- for a name that may be absent.
  | lookup (names : TableId) (optional : List String) (support : Support)
  -- Reads the table behind a view. The tables in it are views themselves.
  | viewIndex (source : TableId)
  | viewNewIndex (support : Support)
  | viewLength (source : TableId)
  -- What is gone through is the table behind the view.
  | viewPairs (source : TableId) (support : Support)
  | viewStep (source view : TableId) (support : Support)
deriving DecidableEq

end CallGuard.Lua
