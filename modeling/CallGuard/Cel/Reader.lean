import CallGuard.Cel.Expr
import CallGuard.Cel.Token

set_option autoImplicit false

namespace CallGuard.Cel.Reader

def intBound : Nat := 0x8000000000000000

def intLiteral? (negative : Bool) (n : Nat) (hexadecimal : Bool) : Option Expr :=
  -- An integer literal with its sign; the hexadecimal form takes none.
  if negative then
    if hexadecimal || intBound < n then none else some (.literal (.int (-n)))
  else if intBound ≤ n then none
  else some (.literal (.int n))

def relationOf? : String → Option BinaryOp
  | "<" => some .lt
  | "<=" => some .le
  | ">=" => some .ge
  | ">" => some .gt
  | "==" => some .eq
  | "!=" => some .ne
  | _ => none

def relationToken? : Token → Option BinaryOp
  | .mark m => relationOf? m
  | .word "in" => some .member
  | _ => none

def sumToken? : Token → Option BinaryOp
  | .mark "+" => some .add
  | .mark "-" => some .sub
  | _ => none

def productToken? : Token → Option BinaryOp
  | .mark "*" => some .mul
  | .mark "/" => some .div
  | .mark "%" => some .rem
  | _ => none

def isReserved (name : String) : Bool := ["in", "true", "false", "null"].contains name

def identifier? : Token → Option String
  | .word name => if isReserved name then none else some name
  | _ => none

def fieldName? : Token → Option String
  | .escapedWord name => some name
  | t => identifier? t

def isMark (text : String) : Token → Bool
  | .mark m => m == text
  | _ => false

def messageBody? : List Token → Option (List Token)
  | t :: rest =>
    match identifier? t with
    | none => none
    | some _ =>
      match rest with
      | .mark "\x7b" :: rest => some rest
      | .mark "." :: rest => messageBody? rest
      | _ => none
  | [] => none

def isSigned : List Token → Bool
  | .mark "-" :: .int _ _ :: _ => true
  | .mark "-" :: .double _ :: _ => true
  | _ => false

mutual

def expr? : Nat → List Token → Option (Expr × List Token)
  -- A conditional, whose middle part is not one itself unless in parentheses.
  | 0, _ => none
  | fuel + 1, ts =>
    match or? fuel ts with
    | some (test, .mark "?" :: rest) =>
      match or? fuel rest with
      | some (yes, .mark ":" :: rest) =>
        match expr? fuel rest with
        | some (no, rest) => some (.conditional test yes no, rest)
        | none => none
      | _ => none
    | found => found

def or? : Nat → List Token → Option (Expr × List Token)
  | 0, _ => none
  | fuel + 1, ts =>
    match and? fuel ts with
    | some (left, rest) => orRest? fuel left rest
    | none => none

def orRest? : Nat → Expr → List Token → Option (Expr × List Token)
  | 0, _, _ => none
  | fuel + 1, left, .mark "||" :: rest =>
    match and? fuel rest with
    | some (right, rest) => orRest? fuel (.binary .or left right) rest
    | none => none
  | _ + 1, left, rest => some (left, rest)

def and? : Nat → List Token → Option (Expr × List Token)
  | 0, _ => none
  | fuel + 1, ts =>
    match relation? fuel ts with
    | some (left, rest) => andRest? fuel left rest
    | none => none

def andRest? : Nat → Expr → List Token → Option (Expr × List Token)
  | 0, _, _ => none
  | fuel + 1, left, .mark "&&" :: rest =>
    match relation? fuel rest with
    | some (right, rest) => andRest? fuel (.binary .and left right) rest
    | none => none
  | _ + 1, left, rest => some (left, rest)

def relation? : Nat → List Token → Option (Expr × List Token)
  | 0, _ => none
  | fuel + 1, ts =>
    match sum? fuel ts with
    | some (left, rest) => relationRest? fuel left rest
    | none => none

def relationRest? : Nat → Expr → List Token → Option (Expr × List Token)
  | 0, _, _ => none
  | _ + 1, left, [] => some (left, [])
  | fuel + 1, left, t :: rest =>
    match relationToken? t with
    | none => some (left, t :: rest)
    | some op =>
      match sum? fuel rest with
      | some (right, rest) => relationRest? fuel (.binary op left right) rest
      | none => none

def sum? : Nat → List Token → Option (Expr × List Token)
  | 0, _ => none
  | fuel + 1, ts =>
    match product? fuel ts with
    | some (left, rest) => sumRest? fuel left rest
    | none => none

def sumRest? : Nat → Expr → List Token → Option (Expr × List Token)
  | 0, _, _ => none
  | _ + 1, left, [] => some (left, [])
  | fuel + 1, left, t :: rest =>
    match sumToken? t with
    | none => some (left, t :: rest)
    | some op =>
      match product? fuel rest with
      | some (right, rest) => sumRest? fuel (.binary op left right) rest
      | none => none

def product? : Nat → List Token → Option (Expr × List Token)
  | 0, _ => none
  | fuel + 1, ts =>
    match signed? fuel ts with
    | some (left, rest) => productRest? fuel left rest
    | none => none

def productRest? : Nat → Expr → List Token → Option (Expr × List Token)
  | 0, _, _ => none
  | _ + 1, left, [] => some (left, [])
  | fuel + 1, left, t :: rest =>
    match productToken? t with
    | none => some (left, t :: rest)
    | some op =>
      match signed? fuel rest with
      | some (right, rest) => productRest? fuel (.binary op left right) rest
      | none => none

def signed? : Nat → List Token → Option (Expr × List Token)
  -- A run of signs of one kind counts once, whatever its length.
  | 0, _ => none
  | fuel + 1, ts =>
    if isSigned ts then member? fuel ts
    else
      match ts with
      | .mark "-" :: _ =>
        match member? fuel (ts.dropWhile (isMark "-")) with
        | some (e, rest) => some (.unary .negate e, rest)
        | none => none
      | .mark "!" :: _ =>
        match member? fuel (ts.dropWhile (isMark "!")) with
        | some (e, rest) => some (.unary .not e, rest)
        | none => none
      | ts => member? fuel ts

def member? : Nat → List Token → Option (Expr × List Token)
  | 0, _ => none
  | fuel + 1, ts =>
    match primary? fuel ts with
    | some (e, rest) => memberRest? fuel e rest
    | none => none

def memberRest? : Nat → Expr → List Token → Option (Expr × List Token)
  | 0, _, _ => none
  | fuel + 1, e, .mark "." :: t :: rest =>
    match identifier? t, rest with
    | some name, .mark "(" :: rest =>
      match arguments? fuel rest with
      | none => none
      | some (args, rest) =>
        match e.methodOf? name args with
        | some e => memberRest? fuel e rest
        | none => none
    | _, rest =>
      match fieldName? t with
      | some name => memberRest? fuel (.select e name) rest
      | none => none
  | fuel + 1, e, .mark "[" :: rest =>
    match expr? fuel rest with
    | some (i, .mark "]" :: rest) => memberRest? fuel (.binary .index e i) rest
    | _ => none
  | _ + 1, e, rest => some (e, rest)

def arguments? : Nat → List Token → Option (List Expr × List Token)
  | 0, _ => none
  | fuel + 1, ts =>
    match ts with
    | .mark ")" :: rest => some ([], rest)
    | ts =>
      match items? fuel ts with
      | some (args, .mark ")" :: rest) => some (args, rest)
      | _ => none

def items? : Nat → List Token → Option (List Expr × List Token)
  -- Expressions between commas; a comma that nothing follows is left over.
  | 0, _ => none
  | fuel + 1, ts =>
    match expr? fuel ts with
    | none => none
    | some (e, .mark "," :: rest) =>
      match items? fuel rest with
      | some (es, rest) => some (e :: es, rest)
      | none => some ([e], .mark "," :: rest)
    | some (e, rest) => some ([e], rest)

def entries? : Nat → List Token → Option (List (Expr × Expr) × List Token)
  | 0, _ => none
  | fuel + 1, ts =>
    match expr? fuel ts with
    | some (k, .mark ":" :: rest) =>
      match expr? fuel rest with
      | none => none
      | some (v, .mark "," :: rest) =>
        match entries? fuel rest with
        | some (es, rest) => some ((k, v) :: es, rest)
        | none => some ([(k, v)], .mark "," :: rest)
      | some (v, rest) => some ([(k, v)], rest)
    | _ => none

def fields? : Nat → List Token → Option (List (String × Expr) × List Token)
  | 0, _ => none
  | fuel + 1, ts =>
    match ts with
    | t :: .mark ":" :: rest =>
      match fieldName? t, expr? fuel rest with
      | some name, some (v, .mark "," :: rest) =>
        match fields? fuel rest with
        | some (fs, rest) => some ((name, v) :: fs, rest)
        | none => some ([(name, v)], .mark "," :: rest)
      | some name, some (v, rest) => some ([(name, v)], rest)
      | _, _ => none
    | _ => none

def primary? : Nat → List Token → Option (Expr × List Token)
  | 0, _ => none
  | fuel + 1, ts =>
    match ts with
    | .mark "(" :: rest =>
      match expr? fuel rest with
      | some (e, .mark ")" :: rest) => some (e, rest)
      | _ => none
    | .mark "[" :: rest =>
      match rest with
      | .mark "]" :: rest => some (.list [], rest)
      | .mark "," :: .mark "]" :: rest => some (.list [], rest)
      | rest =>
        match items? fuel rest with
        | some (es, .mark "]" :: rest) => some (.list es, rest)
        | some (es, .mark "," :: .mark "]" :: rest) => some (.list es, rest)
        | _ => none
    | .mark "\x7b" :: rest =>
      match rest with
      | .mark "\x7d" :: rest => some (.map [], rest)
      | .mark "," :: .mark "\x7d" :: rest => some (.map [], rest)
      | rest =>
        match entries? fuel rest with
        | some (es, .mark "\x7d" :: rest) => some (.map es, rest)
        | some (es, .mark "," :: .mark "\x7d" :: rest) => some (.map es, rest)
        | _ => none
    | .mark "-" :: .int n hexadecimal :: rest =>
      (intLiteral? true n hexadecimal).map (·, rest)
    | .mark "-" :: .double x :: rest => some (.literal (.double (-x)), rest)
    | .int n hexadecimal :: rest => (intLiteral? false n hexadecimal).map (·, rest)
    | .uint n :: rest => some (.literal (.uint n), rest)
    | .double x :: rest => some (.literal (.double x), rest)
    | .string s :: rest => some (.literal (.string s), rest)
    | .bytes bs :: rest => some (.literal (.bytes bs), rest)
    | .word "true" :: rest => some (.true, rest)
    | .word "false" :: rest => some (.false, rest)
    | .word "null" :: rest => some (.literal .null, rest)
    | .mark "." :: rest => named? fuel rest
    | ts => named? fuel ts

def named? : Nat → List Token → Option (Expr × List Token)
  -- An identifier, a call or a message. A dot in front of it means nothing.
  | 0, _ => none
  | fuel + 1, ts =>
    match messageBody? ts with
    | some rest =>
      match rest with
      | .mark "\x7d" :: rest => some (.message [], rest)
      | .mark "," :: .mark "\x7d" :: rest => some (.message [], rest)
      | rest =>
        match fields? fuel rest with
        | some (fs, .mark "\x7d" :: rest) => some (.message fs, rest)
        | some (fs, .mark "," :: .mark "\x7d" :: rest) => some (.message fs, rest)
        | _ => none
    | none =>
      match ts with
      | [] => none
      | t :: rest =>
        match identifier? t with
        | none => none
        | some name =>
          match rest with
          | .mark "(" :: rest =>
            match arguments? fuel rest with
            | none => none
            | some (args, rest) => (Expr.callOf? name args).map (·, rest)
          | rest => some (.ident name, rest)

end

end CallGuard.Cel.Reader

namespace CallGuard.Cel

def Expr.ofText? (text : String) : Option Expr :=
  match Token.all? text with
  | none => none
  | some ts =>
    match Reader.expr? (16 * (ts.length + 2)) ts with
    | some (e, []) => some e
    | _ => none

end CallGuard.Cel
