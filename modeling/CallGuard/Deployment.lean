import CallGuard.Cel.Evaluator
import CallGuard.Config
import CallGuard.Http.Guard
import CallGuard.Interceptor
import CallGuard.Lua.Evaluator

set_option autoImplicit false

namespace CallGuard

inductive Rules
  | cel (a : RuleAuthorizer Cel.Expr Unit)
  | lua (a : RuleAuthorizer Lua.Chunk (Pool Lua.State))

namespace Rules

def name : Rules → String
  | cel a => a.name
  | lua a => a.name

def debugText : Rules → String
  | cel a => a.debugText
  | lua a => a.debugText

def authorize (c : Context) : Rules → Outcome Decision × Rules
  | cel a =>
    match a.authorize c with
    | (result, a) => (result, cel a)
  | lua a =>
    match a.authorize c with
    | (result, a) => (result, lua a)

def precompile : Rules → Except Error Nat × Rules
  | cel a =>
    match a.precompile with
    | (result, a) => (result, cel a)
  | lua a =>
    match a.precompile with
    | (result, a) => (result, lua a)

def stats : Rules → CacheStats
  | cel a => a.stats
  | lua a => a.stats

instance : Decider Rules where
  name := name
  authorize := authorize
  precompile := precompile
  stats a := some a.stats

def ofCatalog [Regex.Engine] (catalog : Catalog) (fallback : Fallback) (options : Lua.Options) :
    Backend → Except Error Rules
  | .cel => .ok (cel (.ofParts catalog Cel.evaluator () fallback))
  | .lua => do
    let (evaluator, pool) ← Lua.evaluatorOf options
    return lua (.ofParts catalog evaluator pool fallback)

end Rules

namespace Config

def compiled (a : Authorizer Rules) : Except Error (Authorizer Rules) :=
  match a.precompile with
  | (.ok _, a) => .ok a
  | (.error e, _) => .error e

def authorizer [Regex.Engine] (c : Config) (catalog : Catalog) :
    Except Error (Authorizer Rules) := do
  let rules ← Rules.ofCatalog catalog c.fallback c.lua.options c.backend
  if c.precompile then compiled (.single rules) else return .single rules

def interceptor [Regex.Engine] (c : Config) (catalog : Catalog) (extractor : Extractor) :
    Except Error (Interceptor Rules) := do
  -- Selectors are built before the authorizer, so their errors come first.
  let selectors ← SelectorConfig.buildAll c.selectors
  let authorizer ← c.authorizer catalog
  return ⟨.ofList c.whitelist, selectors, extractor, authorizer, 0⟩

def guard [Regex.Engine] (c : Config) (catalog : Catalog) (extractor : Extractor) :
    Except Error (Http.Guard Rules) := do
  return ⟨← c.interceptor catalog extractor, c.maxBodyBytes⟩

end Config

end CallGuard
