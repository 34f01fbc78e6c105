import CallGuard.Regex.Reader

set_option autoImplicit false

namespace CallGuard.Glob

inductive Item
  | anyRun
  | segmentRun
  | char (c : Char)
deriving DecidableEq, Repr

def items : List Char → List Item
  -- Read from the left, two adjacent stars come before one.
  | [] => []
  | '*' :: '*' :: rest => .anyRun :: items rest
  | '*' :: rest => .segmentRun :: items rest
  | c :: rest => .char c :: items rest

def escape (cs : List Char) : List Char :=
  cs.flatMap fun c => if Regex.Reader.isMeta c then ['\\', c] else [c]

def pattern (glob : String) : String :=
  let wide := Text.replaceAll ['\\', '*', '\\', '*'] ['.', '*'] (escape glob.toList)
  let all := Text.replaceAll ['\\', '*'] ['[', '^', '/', ']', '*'] wide
  String.ofList ('^' :: all ++ ['$'])

def regex? [Regex.Engine] (glob : String) : Option Regex := Regex.Engine.compile (pattern glob)

def Item.expr : Item → Regex.Expr
  | anyRun => .star (.chars (.compl (.single '\n')))
  | segmentRun => .star (.chars (.compl (.union .none (.single '/'))))
  | char c => .chars (.single c)

def exprOf (items : List Item) : Regex.Expr :=
  items.foldr (fun i e => .seq i.expr e) (.seq (.anchor .textEnd) .empty)

def toRegex (glob : String) : Regex :=
  ⟨pattern glob, .seq (.anchor .textStart) (exprOf (items glob.toList))⟩

end CallGuard.Glob
