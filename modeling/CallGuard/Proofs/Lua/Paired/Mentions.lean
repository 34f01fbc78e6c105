import CallGuard.Lua.Chunk

set_option autoImplicit false

namespace CallGuard.Lua

inductive Use
  | read
  | assigned
  | bound
  -- Called at the head of a loop, for what the loop goes through.
  | walked
deriving DecidableEq, Repr

structure Mention where
  name : String
  use : Use
deriving DecidableEq, Repr

mutual

def Expr.mentions : Expr → List Mention
  | .nil | .bool _ | .number _ | .string _ | .varargs => []
  | .function f => f.mentions
  | .name n _ => [⟨n, .read⟩]
  | .index base key _ => base.mentions ++ key.mentions
  | .call f args _ => f.mentions ++ Exprs.mentions args
  | .method object _ args _ _ => object.mentions ++ Exprs.mentions args
  | .unary _ e _ => e.mentions
  | .binary _ a b _ => a.mentions ++ b.mentions
  | .paren e => e.mentions
  | .table fields => Fields.mentions fields

def Exprs.mentions : List Expr → List Mention
  | [] => []
  | e :: es => e.mentions ++ Exprs.mentions es

def Fields.mentions : List Field → List Mention
  | [] => []
  | .item e :: fs => e.mentions ++ Fields.mentions fs
  | .entry key value :: fs => key.mentions ++ value.mentions ++ Fields.mentions fs

def Function.mentions : Function → List Mention
  | .mk params _ body => params.map (⟨·, .bound⟩) ++ Block.mentions body

def Targets.mentions : List Expr → List Mention
  | [] => []
  | .name n _ :: es => ⟨n, .assigned⟩ :: Targets.mentions es
  | e :: es => e.mentions ++ Targets.mentions es

def Heads.mentions : List Expr → List Mention
  | [.call (.name n _) args _] => ⟨n, .walked⟩ :: Exprs.mentions args
  | es => Exprs.mentions es

def Stmt.mentions : Stmt → List Mention
  | .assign targets values _ => Targets.mentions targets ++ Exprs.mentions values
  | .call e => e.mentions
  | .block body => Block.mentions body
  | .whileLoop test body => test.mentions ++ Block.mentions body
  | .repeatLoop body test => Block.mentions body ++ test.mentions
  | .cond test yes no => test.mentions ++ Block.mentions yes ++ Block.mentions no
  | .forRange name start limit none body =>
    ⟨name, .bound⟩ :: start.mentions ++ limit.mentions ++ Block.mentions body
  | .forRange name start limit (some step) body =>
    ⟨name, .bound⟩ :: start.mentions ++ limit.mentions ++ step.mentions ++ Block.mentions body
  | .forEach names values body _ =>
    names.map (⟨·, .bound⟩) ++ Heads.mentions values ++ Block.mentions body
  | .locals names values => names.map (⟨·.1, .bound⟩) ++ Exprs.mentions values
  | .localFunction name f => ⟨name, .bound⟩ :: f.mentions
  | .ret values => Exprs.mentions values
  | .leave | .goto _ | .label _ => []

def Block.mentions : List Stmt → List Mention
  | [] => []
  | st :: rest => st.mentions ++ Block.mentions rest

end

end CallGuard.Lua
