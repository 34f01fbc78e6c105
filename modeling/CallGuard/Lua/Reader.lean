import CallGuard.Lua.Chunk
import CallGuard.Lua.Token

set_option autoImplicit false

namespace CallGuard.Lua

structure Words where
  rest : List Lexeme
  -- The line of the word that was taken last.
  line : Nat

abbrev Parse := StateT Words Option

namespace Parse

def next? : Parse (Option Token) := do
  return (← get).rest.head?.map Lexeme.token

def nextLine : Parse Nat := do
  let words ← get
  return (words.rest.head?.map Lexeme.line).getD words.line

def line : Parse Nat := do
  return (← get).line

def take : Parse Token := do
  match (← get).rest with
  | [] => failure
  | w :: rest =>
    set (Words.mk rest w.line)
    return w.token

def mark : Parse String := do
  match ← next? with
  | some (.symbol s) => return s
  | some (.keyword s) => return s
  | _ => return ""

def accept (text : String) : Parse Bool := do
  if (← mark) = text then
    discard take
    return true
  else return false

def expect (text : String) : Parse Unit := do
  if (← accept text) then return ()
  else failure

def name : Parse String := do
  match ← take with
  | .name n => return n
  | _ => failure

def names : Nat → Parse (List String)
  | 0 => failure
  | fuel + 1 => do
    let n ← name
    if (← accept ",") then return n :: (← names fuel)
    else return [n]

def unaryOp? : String → Option UnaryOp
  | "not" => some .not
  | "-" => some .negate
  | "~" => some .complement
  | "#" => some .length
  | _ => none

def unaryPriority : Nat := 12

def binaryOp? : String → Option (BinaryOp × Nat × Nat)
  -- An operator with how strongly it binds to its left and to its right.
  | "or" => some (.or, 1, 1)
  | "and" => some (.and, 2, 2)
  | "==" => some (.equal, 3, 3)
  | "~=" => some (.notEqual, 3, 3)
  | "<" => some (.less, 3, 3)
  | "<=" => some (.lessEqual, 3, 3)
  | ">" => some (.greater, 3, 3)
  | ">=" => some (.greaterEqual, 3, 3)
  | "|" => some (.bitwise .or, 4, 4)
  | "~" => some (.bitwise .xor, 5, 5)
  | "&" => some (.bitwise .and, 6, 6)
  | "<<" => some (.bitwise .shiftLeft, 7, 7)
  | ">>" => some (.bitwise .shiftRight, 7, 7)
  | ".." => some (.concat, 9, 8)
  | "+" => some (.arith .add, 10, 10)
  | "-" => some (.arith .sub, 10, 10)
  | "*" => some (.arith .mul, 11, 11)
  | "/" => some (.arith .div, 11, 11)
  | "//" => some (.arith .floorDiv, 11, 11)
  | "%" => some (.arith .mod, 11, 11)
  | "^" => some (.arith .pow, 14, 13)
  | _ => none

def atBlockEnd : Parse Bool := do
  match ← next? with
  | none => return true
  | some (.keyword w) => return ["else", "elseif", "end", "until"].contains w
  | _ => return false

-- A name is taken together with the word after it, unless that is an equals sign.
def mergeLines : Parse Unit := modify fun words =>
  match words.rest with
  | a :: b :: rest => { words with rest := { a with line := b.line } :: b :: rest }
  | _ => words

def followedByEquals : Parse Bool := do
  match (← get).rest with
  | _ :: ⟨.symbol "=", _⟩ :: _ => return true
  | _ => return false

def withLine (e : Expr) : Parse Expr := do
  return e.atLine (← line)

def lastAtLine (line : Nat) : List Expr → List Expr
  | [] => []
  | [e] => [e.atLine line]
  | e :: es => e :: lastAtLine line es

def isTarget : Expr → Bool
  | .name _ _ => true
  | .index _ _ _ => true
  | _ => false

def isCall : Expr → Bool
  | .call _ _ _ => true
  | .method _ _ _ _ _ => true
  | _ => false

def kindOfLocal : Parse Attribute := do
  if (← accept "<") then
    let word ← name
    expect ">"
    match word with
    | "const" => return .constant
    | "close" => return .closed
    | _ => failure
  else return .regular

def attributed : Nat → Parse (List (String × Attribute))
  | 0 => failure
  | fuel + 1 => do
    let n ← name
    let a ← kindOfLocal
    if (← accept ",") then return (n, a) :: (← attributed fuel)
    else return [(n, a)]

def params : Nat → Parse (List String × Bool)
  | 0 => failure
  | fuel + 1 => do
    if (← accept "...") then
      expect ")"
      return ([], true)
    else
      let n ← name
      if (← accept ",") then
        let (ns, isVararg) ← params fuel
        return (n :: ns, isVararg)
      else
        expect ")"
        return ([n], false)

def signature (fuel : Nat) : Parse (List String × Bool) := do
  expect "("
  if (← accept ")") then return ([], false)
  else params fuel

mutual

def expr : Nat → Nat → Nat → Parse Expr
  | 0, _, _ => failure
  | _, 0, _ => failure
  | fuel + 1, level + 1, limit => do
    match unaryOp? (← mark) with
    | some op =>
      let here ← nextLine
      discard take
      let e ← expr fuel level unaryPriority
      operators fuel level limit (.unary op e here)
    | none => operators fuel level limit (← simple fuel level)

def operators : Nat → Nat → Nat → Expr → Parse Expr
  | 0, _, _, _ => failure
  | fuel + 1, level, limit, left => do
    match binaryOp? (← mark) with
    | some (op, toLeft, toRight) =>
      if limit < toLeft then
        discard take
        let here ← line
        let right ← expr fuel level toRight
        operators fuel level limit (.binary op (left.atLine here) right here)
      else return left
    | none => return left

def simple : Nat → Nat → Parse Expr
  | 0, _ => failure
  | fuel + 1, level => do
    match ← next? with
    | some (.number n) =>
      discard take
      return .number n
    | some (.string s) =>
      discard take
      return .string s
    | _ =>
      match ← mark with
      | "nil" =>
        discard take
        return .nil
      | "true" =>
        discard take
        return .bool true
      | "false" =>
        discard take
        return .bool false
      | "..." =>
        discard take
        return .varargs
      | "\x7b" => constructor fuel level
      | "function" =>
        discard take
        return .function (← function fuel level [])
      | _ => suffixed fuel level

def suffixed : Nat → Nat → Parse Expr
  | 0, _ => failure
  | fuel + 1, level => do
    if (← accept "(") then
      let e ← expr fuel level 0
      expect ")"
      suffixes fuel level (.paren (← withLine e))
    else
      let n ← name
      suffixes fuel level (.name n (← line))

def suffixes : Nat → Nat → Expr → Parse Expr
  | 0, _, _ => failure
  | fuel + 1, level, e => do
    match ← next? with
    | some (.string _) =>
      let here ← nextLine
      suffixes fuel level (.call e (← args fuel level) here)
    | _ =>
      match ← mark with
      | "." =>
        discard take
        let n ← name
        suffixes fuel level (.index e (.string (.ofText n)) (← line))
      | "[" =>
        discard take
        let key ← expr fuel level 0
        expect "]"
        suffixes fuel level (.index e key (← line))
      | ":" =>
        discard take
        let n ← name
        let nameLine ← line
        let here ← nextLine
        suffixes fuel level (.method (e.atLine nameLine) n (← args fuel level) nameLine here)
      | "(" =>
        let here ← nextLine
        suffixes fuel level (.call e (← args fuel level) here)
      | "\x7b" =>
        let here ← nextLine
        suffixes fuel level (.call e (← args fuel level) here)
      | _ => return e

def args : Nat → Nat → Parse (List Expr)
  | 0, _ => failure
  | fuel + 1, level => do
    match ← next? with
    | some (.string s) =>
      discard take
      return [.string s]
    | _ =>
      match ← mark with
      | "\x7b" => return [← constructor fuel level]
      | _ =>
        expect "("
        if (← accept ")") then return []
        else
          let es ← exprs fuel level
          expect ")"
          return lastAtLine (← line) es

def exprs : Nat → Nat → Parse (List Expr)
  | 0, _ => failure
  | fuel + 1, level => do
    let e ← expr fuel level 0
    if (← accept ",") then
      let e ← withLine e
      return e :: (← exprs fuel level)
    else return [e]

def constructor : Nat → Nat → Parse Expr
  | 0, _ => failure
  | fuel + 1, level => do
    expect "\x7b"
    return .table (← fields fuel level)

def fields : Nat → Nat → Parse (List Field)
  | 0, _ => failure
  | fuel + 1, level => do
    if (← accept "\x7d") then return []
    else
      let f ← field fuel level
      let separated ← (do if (← accept ",") then return true else accept ";")
      if (← accept "\x7d") then return [← itemAtLine f]
      else if separated then
        let f ← itemAtLine f
        return f :: (← fields fuel level)
      else failure

def itemAtLine : Field → Parse Field
  | .item e => do return .item (← withLine e)
  | f => return f

def field : Nat → Nat → Parse Field
  | 0, _ => failure
  | fuel + 1, level => do
    match ← next? with
    | some (.name n) =>
      if (← followedByEquals) then
        discard take
        expect "="
        return .entry (.string (.ofText n)) (← expr fuel level 0)
      else
        mergeLines
        return .item (← expr fuel level 0)
    | _ =>
      if (← accept "[") then
        let key ← expr fuel level 0
        expect "]"
        expect "="
        return .entry key (← expr fuel level 0)
      else return .item (← expr fuel level 0)

def function : Nat → Nat → List String → Parse Function
  -- A function from its parameters on; some may come before the ones that are written.
  | 0, _, _ => failure
  | fuel + 1, level, first => do
    let (names, isVararg) ← signature fuel
    let body ← block fuel level
    expect "end"
    return .mk (first ++ names) isVararg body

def block : Nat → Nat → Parse (List Stmt)
  -- Statements up to the end of a block; after a return there are none.
  | 0, _ => failure
  | fuel + 1, level => do
    if (← atBlockEnd) then return []
    else if (← mark) = "return" then return (← statement fuel level)
    else
      let s ← statement fuel level
      return s ++ (← block fuel level)

def statement : Nat → Nat → Parse (List Stmt)
  -- One statement; an empty one leaves nothing behind.
  | 0, _ => failure
  | _, 0 => failure
  | fuel + 1, level + 1 => do
    match ← mark with
    | ";" =>
      discard take
      return []
    | "if" =>
      discard take
      return [← condition fuel level]
    | "while" =>
      discard take
      let test ← expr fuel level 0
      expect "do"
      let body ← block fuel level
      expect "end"
      return [.whileLoop test body]
    | "do" =>
      discard take
      let body ← block fuel level
      expect "end"
      return [.block body]
    | "for" =>
      discard take
      return [← loop fuel level]
    | "repeat" =>
      discard take
      let body ← block fuel level
      expect "until"
      return [.repeatLoop body (← expr fuel level 0)]
    | "function" => return [← functionStmt fuel level]
    | "local" =>
      discard take
      return [← declaration fuel level]
    | "::" =>
      discard take
      let n ← name
      expect "::"
      return [.label n]
    | "return" =>
      discard take
      let values ← (do
        if (← atBlockEnd) then return []
        else if (← mark) = ";" then return []
        else exprs fuel level)
      discard (accept ";")
      return [.ret values]
    | "break" =>
      discard take
      return [.leave]
    | "goto" =>
      discard take
      return [.goto (← name)]
    | _ => return [← plain fuel level]

def condition : Nat → Nat → Parse Stmt
  | 0, _ => failure
  | fuel + 1, level => do
    let test ← expr fuel level 0
    expect "then"
    let test ← withLine test
    let yes ← block fuel level
    if (← accept "elseif") then return .cond test yes [← condition fuel level]
    else if (← accept "else") then
      let no ← block fuel level
      expect "end"
      return .cond test yes no
    else
      expect "end"
      return .cond test yes []

def loop : Nat → Nat → Parse Stmt
  | 0, _ => failure
  | fuel + 1, level => do
    let n ← name
    if (← accept "=") then
      let start ← expr fuel level 0
      expect ","
      let limit ← expr fuel level 0
      let step ← (do
        if (← accept ",") then return some (← expr fuel level 0)
        else return none)
      expect "do"
      let body ← block fuel level
      expect "end"
      return .forRange n start limit step body
    else
      let more ← (do
        if (← accept ",") then names fuel
        else return [])
      expect "in"
      let here ← nextLine
      let values ← exprs fuel level
      expect "do"
      let body ← block fuel level
      expect "end"
      return .forEach (n :: more) values body here

def functionStmt : Nat → Nat → Parse Stmt
  | 0, _ => failure
  | fuel + 1, level => do
    let here ← nextLine
    discard take
    let n ← name
    let (target, isMethod) ← path fuel (.name n (← line))
    let f ← function fuel level (if isMethod then ["self"] else [])
    return .assign [target] [.function f] here

def path : Nat → Expr → Parse (Expr × Bool)
  -- The fields that follow a name; after a colon there is only one more.
  | 0, _ => failure
  | fuel + 1, e => do
    if (← accept ".") then
      let n ← name
      path fuel (.index e (.string (.ofText n)) (← line))
    else if (← accept ":") then
      let n ← name
      return (.index e (.string (.ofText n)) (← line), true)
    else return (e, false)

def declaration : Nat → Nat → Parse Stmt
  | 0, _ => failure
  | fuel + 1, level => do
    if (← accept "function") then
      let n ← name
      return .localFunction n (← function fuel level [])
    else
      let ns ← attributed fuel
      if (← accept "=") then return .locals ns (← exprs fuel level)
      else return .locals ns []

def plain : Nat → Nat → Parse Stmt
  | 0, _ => failure
  | fuel + 1, level => do
    let e ← suffixed fuel level
    let m ← mark
    if m = "=" ∨ m = "," then
      if !isTarget e then failure
      let more ← targets fuel level
      expect "="
      let values ← exprs fuel level
      return .assign (e :: more) values (← line)
    else if isCall e then return .call e
    else failure

def targets : Nat → Nat → Parse (List Expr)
  -- The further targets of an assignment, each of which is nested in the one before.
  | 0, _ => failure
  | fuel + 1, level => do
    if (← accept ",") then
      let e ← suffixed fuel level
      match level with
      | 0 => failure
      | level + 1 =>
        if isTarget e then return e :: (← targets fuel level)
        else failure
    else return []

end

end Parse

namespace Chunk

def nestingLimit : Nat := 199

def ofText? (text : String) : Option Chunk := do
  let words ← Token.scan text
  let (body, left) ← (Parse.block (20 * words.length + 20) nestingLimit).run ⟨words, 1⟩
  if left.rest.isEmpty then some body else none

end Chunk

end CallGuard.Lua
