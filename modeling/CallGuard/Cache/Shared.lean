import CallGuard.Cache

set_option autoImplicit false

namespace CallGuard

abbrev stripeCount : Nat := 64

-- Texts share locks, in any way.
abbrev Striping := String → Fin stripeCount

namespace SharedCache

inductive Phase (P ε : Type)
  | outside
  -- Asks for a program and has not looked yet.
  | looking (text : String)
  -- Has not found the program and waits for the lock.
  | waiting (text : String)
  -- Has the lock and looks again.
  | lookingAgain (text : String)
  | compiling (text : String)
  -- Has a program that is not counted yet.
  | compiled (text : String) (program : P)
  -- Has counted its program, which is not stored yet.
  | counted (text : String) (program : P)
  -- Has an answer, and still has the lock.
  | unlocking (text : String) (answer : Except ε P)
  -- Has counted the entries of the shards before one.
  | summing (shard : Nat) (entries : Nat)

end SharedCache

structure SharedCache (P ε : Type) (n : Nat) where
  cache : ProgramCache P
  stripeOf : Striping
  -- The thread that has a lock.
  holder : Fin stripeCount → Option (Fin n)
  phase : Fin n → SharedCache.Phase P ε
  -- What has been answered, the latest first.
  answers : List (String × Except ε P)
  -- What compilations have given, the latest first.
  compilations : List (String × P)
  -- What has been stored, the latest first.
  stored : List (String × P)
  reports : List CacheStats

namespace SharedCache

variable {P ε : Type} {n : Nat}

def initial (shardOf : Sharding) (stripeOf : Striping) : SharedCache P ε n where
  cache := .empty shardOf
  stripeOf
  holder _ := none
  phase _ := .outside
  answers := []
  compilations := []
  stored := []
  reports := []

def enter (s : SharedCache P ε n) (t : Fin n) (p : Phase P ε) : SharedCache P ε n :=
  { s with phase := fun u => if u = t then p else s.phase u }

def setHolder (s : SharedCache P ε n) (text : String) (h : Option (Fin n)) :
    SharedCache P ε n :=
  { s with holder := fun k => if k = s.stripeOf text then h else s.holder k }

def reply (s : SharedCache P ε n) (text : String) (answer : Except ε P) : SharedCache P ε n :=
  { s with answers := (text, answer) :: s.answers }

-- One section of one thread. A compilation may end in any way.
inductive Step (t : Fin n) : SharedCache P ε n → SharedCache P ε n → Prop
  | ask (s : SharedCache P ε n) (text : String) (h : s.phase t = .outside) :
    Step t s (s.enter t (.looking text))
  | hit (s : SharedCache P ε n) (text : String) (program : P) (h : s.phase t = .looking text)
      (found : s.cache.get? text = some program) :
    Step t s
      (({ s with cache := s.cache.countHit }.reply text (.ok program)).enter t .outside)
  | miss (s : SharedCache P ε n) (text : String) (h : s.phase t = .looking text)
      (absent : s.cache.get? text = none) :
    Step t s (s.enter t (.waiting text))
  | lock (s : SharedCache P ε n) (text : String) (h : s.phase t = .waiting text)
      (free : s.holder (s.stripeOf text) = none) :
    Step t s ((s.setHolder text (some t)).enter t (.lookingAgain text))
  | hitAgain (s : SharedCache P ε n) (text : String) (program : P)
      (h : s.phase t = .lookingAgain text) (found : s.cache.get? text = some program) :
    Step t s
      ({ s with cache := s.cache.countHit }.enter t (.unlocking text (.ok program)))
  | missAgain (s : SharedCache P ε n) (text : String) (h : s.phase t = .lookingAgain text)
      (absent : s.cache.get? text = none) :
    Step t s (s.enter t (.compiling text))
  | compile (s : SharedCache P ε n) (text : String) (program : P)
      (h : s.phase t = .compiling text) :
    Step t s
      ({ s with compilations := (text, program) :: s.compilations }.enter t
        (.compiled text program))
  | fail (s : SharedCache P ε n) (text : String) (e : ε) (h : s.phase t = .compiling text) :
    Step t s (s.enter t (.unlocking text (.error e)))
  | count (s : SharedCache P ε n) (text : String) (program : P)
      (h : s.phase t = .compiled text program) :
    Step t s ({ s with cache := s.cache.countCompile }.enter t (.counted text program))
  | store (s : SharedCache P ε n) (text : String) (program : P)
      (h : s.phase t = .counted text program) :
    Step t s
      ({ s with
        cache := s.cache.store text program
        stored := (text, program) :: s.stored }.enter t (.unlocking text (.ok program)))
  | unlock (s : SharedCache P ε n) (text : String) (answer : Except ε P)
      (h : s.phase t = .unlocking text answer) :
    Step t s (((s.setHolder text none).reply text answer).enter t .outside)
  | askStats (s : SharedCache P ε n) (h : s.phase t = .outside) :
    Step t s (s.enter t (.summing 0 0))
  | sum (s : SharedCache P ε n) (shard entries : Nat) (h : s.phase t = .summing shard entries)
      (more : shard < shardCount) :
    Step t s
      (s.enter t (.summing (shard + 1) (entries + s.cache.shards[shard].length)))
  | report (s : SharedCache P ε n) (entries : Nat) (h : s.phase t = .summing shardCount entries) :
    Step t s
      ({ s with
        reports := ⟨entries, s.cache.compiles, s.cache.hits⟩ :: s.reports }.enter t .outside)

inductive Reaches : SharedCache P ε n → SharedCache P ε n → Prop
  | refl (s : SharedCache P ε n) : Reaches s s
  | step {s u v : SharedCache P ε n} (t : Fin n) (before : Reaches s u) (next : Step t u v) :
    Reaches s v

end SharedCache

end CallGuard
