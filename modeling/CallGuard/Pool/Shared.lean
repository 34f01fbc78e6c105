import CallGuard.Pool

set_option autoImplicit false

namespace CallGuard

namespace SharedPool

structure Item (α : Type) where
  number : Nat
  content : α

inductive Phase (α : Type)
  | outside
  | looking (timed : Bool)
  | waiting (timed : Bool)
  -- Has been woken and has not looked again.
  | woken (timed : Bool)
  -- Has waited for as long as it may and has not looked again.
  | late
  | making
  -- Is about to give an instance back.
  | returning (item : Item α)
  -- Is about to give up the slot of an instance that is gone or was never made.
  | forgetting
  -- Has given something back and is about to wake a thread.
  | waking

namespace Phase

def looks? {α : Type} : Phase α → Option Bool
  | looking _ => some false
  | woken _ => some false
  | late => some true
  | _ => none

def isTimed {α : Type} : Phase α → Bool
  | looking timed => timed
  | waiting timed => timed
  | woken timed => timed
  | late => true
  | _ => false

end Phase

end SharedPool

structure SharedPool (α : Type) (n : Nat) where
  pool : Pool (SharedPool.Item α)
  phase : Fin n → SharedPool.Phase α
  held : Fin n → List (SharedPool.Item α)
  made : Nat
  -- The numbers of the instances that have been thrown away.
  gone : List Nat
  -- How many instances there were whenever a thread got none.
  refusals : List Nat

namespace SharedPool

variable {α : Type} {n : Nat}

def initial (capacity : Nat) : SharedPool α n where
  pool := .ofCapacity capacity
  phase _ := .outside
  held _ := []
  made := 0
  gone := []
  refusals := []

def enter (s : SharedPool α n) (t : Fin n) (p : Phase α) : SharedPool α n :=
  { s with phase := fun u => if u = t then p else s.phase u }

def setHeld (s : SharedPool α n) (t : Fin n) (items : List (Item α)) : SharedPool α n :=
  { s with held := fun u => if u = t then items else s.held u }

def give (s : SharedPool α n) (t : Fin n) (item : Item α) : SharedPool α n :=
  s.setHeld t (item :: s.held t)

-- Who holds an instance may change it, and a thread that waits may wake up for no reason.
inductive Step (t : Fin n) : SharedPool α n → SharedPool α n → Prop
  | ask (s : SharedPool α n) (timed : Bool) (h : s.phase t = .outside) :
    Step t s (s.enter t (.looking timed))
  | take (s : SharedPool α n) (isLate : Bool) (item : Item α) (rest : List (Item α))
      (h : (s.phase t).looks? = some isLate) (idle : s.pool.idle = item :: rest) :
    Step t s (({ s with pool := { s.pool with idle := rest } }.give t item).enter t .outside)
  | reserve (s : SharedPool α n) (isLate : Bool) (h : (s.phase t).looks? = some isLate)
      (idle : s.pool.idle = []) (room : s.pool.created < s.pool.capacity) :
    Step t s
      ({ s with pool := { s.pool with created := s.pool.created + 1 } }.enter t .making)
  | wait (s : SharedPool α n) (h : (s.phase t).looks? = some false) (idle : s.pool.idle = [])
      (full : s.pool.capacity ≤ s.pool.created) :
    Step t s (s.enter t (.waiting (s.phase t).isTimed))
  | refuse (s : SharedPool α n) (h : (s.phase t).looks? = some true) (idle : s.pool.idle = [])
      (full : s.pool.capacity ≤ s.pool.created) :
    Step t s ({ s with refusals := s.pool.created :: s.refusals }.enter t .outside)
  | expire (s : SharedPool α n) (h : s.phase t = .waiting true) : Step t s (s.enter t .late)
  | stir (s : SharedPool α n) (timed : Bool) (h : s.phase t = .waiting timed) :
    Step t s (s.enter t (.looking timed))
  | make (s : SharedPool α n) (content : α) (h : s.phase t = .making) :
    Step t s
      (({ s with made := s.made + 1 }.give t ⟨s.made, content⟩).enter t .outside)
  | fail (s : SharedPool α n) (h : s.phase t = .making) : Step t s (s.enter t .forgetting)
  | change (s : SharedPool α n) (before after : List (Item α)) (item : Item α) (content : α)
      (h : s.phase t = .outside) (holds : s.held t = before ++ item :: after) :
    Step t s (s.setHeld t (before ++ { item with content } :: after))
  | pass (s : SharedPool α n) (u : Fin n) (before after : List (Item α)) (item : Item α)
      (h : s.phase t = .outside) (holds : s.held t = before ++ item :: after) :
    Step t s ((s.setHeld t (before ++ after)).give u item)
  | release (s : SharedPool α n) (before after : List (Item α)) (item : Item α)
      (h : s.phase t = .outside) (holds : s.held t = before ++ item :: after) :
    Step t s ((s.setHeld t (before ++ after)).enter t (.returning item))
  | discard (s : SharedPool α n) (before after : List (Item α)) (item : Item α)
      (h : s.phase t = .outside) (holds : s.held t = before ++ item :: after) :
    Step t s
      (({ s with gone := item.number :: s.gone }.setHeld t (before ++ after)).enter t .forgetting)
  | putBack (s : SharedPool α n) (item : Item α) (h : s.phase t = .returning item) :
    Step t s ({ s with pool := s.pool.release item }.enter t .waking)
  | forget (s : SharedPool α n) (h : s.phase t = .forgetting) :
    Step t s ({ s with pool := s.pool.discard }.enter t .waking)
  | wake (s : SharedPool α n) (u : Fin n) (timed : Bool) (h : s.phase t = .waking)
      (waits : s.phase u = .waiting timed) :
    Step t s ((s.enter u (.woken timed)).enter t .outside)
  | wakeNone (s : SharedPool α n) (h : s.phase t = .waking)
      (nobody : ∀ u timed, s.phase u ≠ .waiting timed) :
    Step t s (s.enter t .outside)

inductive Reaches : SharedPool α n → SharedPool α n → Prop
  | refl (s : SharedPool α n) : Reaches s s
  | step {s u v : SharedPool α n} (t : Fin n) (before : Reaches s u) (next : Step t u v) :
    Reaches s v

end SharedPool

end CallGuard
