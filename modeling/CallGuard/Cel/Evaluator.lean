import CallGuard.Cel.Eval
import CallGuard.Cel.Reader
import CallGuard.Cel.Scope
import CallGuard.Evaluator

set_option autoImplicit false

namespace CallGuard.Cel

def compile (text : String) : Except Error Expr :=
  match Expr.ofText? text with
  | none => .error (.compile text .elided)
  | some e =>
    match e.firstFree? Variable.isDeclared with
    | some name => .error (.compile text ("undeclared reference to '" ++ name ++ "'" : String))
    | none => .ok e

def valueOf (c : Context) : Variable → Value
  | .request => .ofJson c.requestValue
  | .metadata => .map (c.metadata.entries.map fun (key, text) => (.string key, .string text))
  | .user => .ofJson c.user
  | .isStream => .bool c.isStream
  | .method => .string c.method

def Env.ofContext (c : Context) : Env := Variable.all.map fun v => (v.name, valueOf c v)

def outcomeOf (text : String) : Result Value → Outcome Bool
  -- A rule has to yield a boolean.
  | .ok (.bool b) => .ok b
  | .ok v => .fail (.nonBoolean text v.debug)
  | .error (.fault f) => .fail (.evaluation text f.message)
  | .error .crash => .error .crash

def run [Regex.Engine] (e : Expr) (text : String) (c : Context) : Outcome Bool :=
  if c.deadlinePassed then .fail (.deadline text)
  else outcomeOf text (eval (.ofContext c) e)

def evaluator [Regex.Engine] : Evaluator Expr Unit where
  backend := .cel
  compile
  execute e text c _ := (run e text c, ())

end CallGuard.Cel
