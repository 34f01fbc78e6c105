import CallGuard.RuleAuthorizer
import CallGuard.Text.Quoted

set_option autoImplicit false

namespace CallGuard

-- Values that decide about calls and may change with each of them.
class Decider (α : Type) where
  name : α → String
  authorize : Context → α → Outcome Decision × α
  precompile : α → Except Error Nat × α
  stats : α → Option CacheStats

instance {P S : Type} : Decider (RuleAuthorizer P S) where
  name a := a.name
  authorize c a := a.authorize c
  precompile a := a.precompile
  stats a := some a.stats

inductive Authorizer (α : Type)
  | single (a : α)
  | chain (links : List (Authorizer α))

namespace Authorizer

variable {α : Type} [Decider α]

mutual

def name : Authorizer α → String
  | single a => Decider.name a
  | chain links => "|".intercalate (names links)

def names : List (Authorizer α) → List String
  | [] => []
  | a :: rest => a.name :: names rest

end

mutual

def authorize (c : Context) : Authorizer α → Outcome Decision × Authorizer α
  | single a =>
    match Decider.authorize c a with
    | (result, a) => (result, single a)
  | chain links =>
    match authorizeLinks c (.refused .noRuleMatched) links with
    | (result, links) => (result, chain links)

def authorizeLinks (c : Context) (last : Decision) :
    List (Authorizer α) → Outcome Decision × List (Authorizer α)
  -- The decision of the links, of which `last` was made before the first.
  | [] => (.ok last, [])
  | a :: rest =>
    match authorize c a with
    | (.error e, a) => (.error e, a :: rest)
    | (.ok d, a) =>
      if d.allow then (.ok d, a :: rest)
      else
        match authorizeLinks c d rest with
        | (result, rest) => (result, a :: rest)

end

mutual

def precompile : Authorizer α → Except Error Nat × Authorizer α
  | single a =>
    match Decider.precompile a with
    | (result, a) => (result, single a)
  | chain links =>
    match precompileLinks links with
    | (result, links) => (result, chain links)

def precompileLinks : List (Authorizer α) → Except Error Nat × List (Authorizer α)
  | [] => (.ok 0, [])
  | a :: rest =>
    match precompile a with
    | (.error e, a) => (.error e, a :: rest)
    | (.ok count, a) =>
      match precompileLinks rest with
      | (.ok more, rest) => (.ok (count + more), a :: rest)
      | (.error e, rest) => (.error e, a :: rest)

end

def stats : Authorizer α → Option CacheStats
  | single a => Decider.stats a
  | chain _ => none

def debugText (links : List (Authorizer α)) : String :=
  "[" ++ ", ".intercalate ((names links).map Text.quoted) ++ "]"

end Authorizer

end CallGuard
