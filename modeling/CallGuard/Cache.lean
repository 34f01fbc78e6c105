set_option autoImplicit false

namespace CallGuard

abbrev shardCount : Nat := 16

-- Any way to spread texts over the shards will do.
abbrev Sharding := String → Fin shardCount

def Sharding.byHash : Sharding := fun text => Fin.ofNat shardCount (hash text).toNat

structure CacheStats where
  entries : Nat
  compiles : Nat
  hits : Nat
deriving DecidableEq, Repr

def CacheStats.debugText (s : CacheStats) : String :=
  "CacheStats \x7b entries: " ++ toString s.entries ++ ", compiles: " ++ toString s.compiles ++
    ", hits: " ++ toString s.hits ++ " \x7d"

structure ProgramCache (P : Type) where
  shardOf : Sharding
  shards : Vector (List (String × P)) shardCount
  compiles : Nat
  hits : Nat

namespace ProgramCache

variable {P ε : Type}

def empty (shardOf : Sharding) : ProgramCache P :=
  ⟨shardOf, Vector.replicate shardCount [], 0, 0⟩

instance : Inhabited (ProgramCache P) := ⟨empty .byHash⟩

def get? (c : ProgramCache P) (text : String) : Option P :=
  (c.shards.get (c.shardOf text)).lookup text

def store (c : ProgramCache P) (text : String) (program : P) : ProgramCache P :=
  -- Puts in an entry, in place of an older one for the same text.
  let shard := c.shardOf text
  let others := (c.shards.get shard).filter fun e => e.1 != text
  { c with shards := c.shards.set shard ((text, program) :: others) }

def countHit (c : ProgramCache P) : ProgramCache P := { c with hits := c.hits + 1 }

def countCompile (c : ProgramCache P) : ProgramCache P := { c with compiles := c.compiles + 1 }

def getOrCompile (c : ProgramCache P) (text : String) (compile : String → Except ε P) :
    Except ε P × ProgramCache P :=
  match c.get? text with
  | some program => (.ok program, c.countHit)
  | none =>
    match compile text with
    | .ok program => (.ok program, c.countCompile.store text program)
    | .error e => (.error e, c)

def size (c : ProgramCache P) : Nat := c.shards.toList.foldl (fun n shard => n + shard.length) 0

def isEmpty (c : ProgramCache P) : Bool := c.size == 0

def stats (c : ProgramCache P) : CacheStats := ⟨c.size, c.compiles, c.hits⟩

def debugText (c : ProgramCache P) : String :=
  "ProgramCache \x7b stats: " ++ c.stats.debugText ++ " \x7d"

end ProgramCache

end CallGuard
