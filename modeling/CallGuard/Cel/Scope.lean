import CallGuard.Cel.Expr

set_option autoImplicit false

namespace CallGuard.Cel.Expr

mutual

-- Targets before arguments, keys before values; of a loop the range, start, result, condition,
-- step.
def firstFree? (bound : String → Bool) : Expr → Option String
  | literal _ => none
  | ident name => if bound name then none else some name
  | select e _ => firstFree? bound e
  | has e _ => firstFree? bound e
  | unary _ e => firstFree? bound e
  | binary _ a b => (firstFree? bound a).or (firstFree? bound b)
  | conditional a b c =>
    ((firstFree? bound a).or (firstFree? bound b)).or (firstFree? bound c)
  | call _ args => firstFreeOfList? bound args
  | method target _ args => (firstFree? bound target).or (firstFreeOfList? bound args)
  | list items => firstFreeOfList? bound items
  | map entries => firstFreeOfEntries? bound entries
  | message fields => firstFreeOfFields? bound fields
  | comprehension item range accu init cond step result =>
    let withAccu (name : String) := name == accu || bound name
    let withItem (name : String) := name == item || withAccu name
    ((((firstFree? bound range).or (firstFree? bound init)).or
      (firstFree? withAccu result)).or (firstFree? withItem cond)).or (firstFree? withItem step)

def firstFreeOfList? (bound : String → Bool) : List Expr → Option String
  | [] => none
  | e :: es => (firstFree? bound e).or (firstFreeOfList? bound es)

def firstFreeOfEntries? (bound : String → Bool) : List (Expr × Expr) → Option String
  | [] => none
  | (k, v) :: rest =>
    ((firstFree? bound k).or (firstFree? bound v)).or (firstFreeOfEntries? bound rest)

def firstFreeOfFields? (bound : String → Bool) : List (String × Expr) → Option String
  | [] => none
  | (_, v) :: rest => (firstFree? bound v).or (firstFreeOfFields? bound rest)

end

end CallGuard.Cel.Expr
