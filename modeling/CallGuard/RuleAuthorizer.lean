import CallGuard.Cache
import CallGuard.Catalog
import CallGuard.Decision
import CallGuard.Evaluator

set_option autoImplicit false

namespace CallGuard

structure RuleAuthorizer (P S : Type) where
  catalog : Catalog
  evaluator : Evaluator P S
  fallback : Fallback
  cache : ProgramCache P
  state : S

namespace RuleAuthorizer

variable {P S : Type}

def ofParts (catalog : Catalog) (evaluator : Evaluator P S) (state : S) (fallback : Fallback) :
    RuleAuthorizer P S :=
  ⟨catalog, evaluator, fallback, .empty .byHash, state⟩

def name (a : RuleAuthorizer P S) : String := a.evaluator.backend.name ++ "-rules"

def debugText (a : RuleAuthorizer P S) : String :=
  "RuleAuthorizer \x7b methods: " ++ toString a.catalog.size ++
    ", engine: RuleEngine \x7b backend: " ++ a.evaluator.backend.debugName ++
    ", cache: " ++ a.cache.debugText ++ " \x7d, fallback: " ++ a.fallback.debugName ++ " \x7d"

def fallbackDecision (fallback : Fallback) (catalog : Catalog) (method : String) : Decision :=
  match fallback with
  | .allow => .allowed .unknownAllowed
  | .deny => .refused .unknownMethod
  | .coveredService =>
    if catalog.serviceCovered method then .allowed .serviceCovered else .refused .unknownMethod

def program (a : RuleAuthorizer P S) (rule : String) : Except Error P × RuleAuthorizer P S :=
  match a.cache.getOrCompile rule a.evaluator.compile with
  | (result, cache) => (result, { a with cache })

def run (a : RuleAuthorizer P S) (rule : String) (c : Context) :
    Outcome Bool × RuleAuthorizer P S :=
  match a.program rule with
  | (.error e, a) => (.fail e, a)
  | (.ok p, a) =>
    match a.evaluator.execute p rule c a.state with
    | (result, state) => (result, { a with state })

def runRules (c : Context) :
    Nat → List String → RuleAuthorizer P S → Outcome Decision × RuleAuthorizer P S
  | _, [], a => (.ok (.refused .noRuleMatched), a)
  | index, rule :: rest, a =>
    match a.run rule c with
    | (.error e, a) => (.error e, a)
    | (.ok true, a) => (.ok (.allowed (.rule index)), a)
    | (.ok false, a) => runRules c (index + 1) rest a

def authorize (a : RuleAuthorizer P S) (c : Context) :
    Outcome Decision × RuleAuthorizer P S :=
  match a.catalog.lookup? c.method with
  | none => (.ok (fallbackDecision a.fallback a.catalog c.method), a)
  | some set =>
    if set.isAllowAll then (.ok (.allowed .allowAll), a)
    else runRules c 0 set.rules a

def compileAll : List String → Nat → RuleAuthorizer P S → Except Error Nat × RuleAuthorizer P S
  -- Compiles texts one after another and counts them; the first that fails ends it.
  | [], count, a => (.ok count, a)
  | text :: rest, count, a =>
    match a.program text with
    | (.error e, a) => (.error e, a)
    | (.ok _, a) => compileAll rest (count + 1) a

def precompile (a : RuleAuthorizer P S) : Except Error Nat × RuleAuthorizer P S :=
  compileAll a.catalog.distinctExpressions 0 a

def stats (a : RuleAuthorizer P S) : CacheStats := a.cache.stats

end RuleAuthorizer

end CallGuard
