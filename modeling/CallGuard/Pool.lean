import CallGuard.Error

set_option autoImplicit false

namespace CallGuard

structure Pool (α : Type) where
  capacity : Nat
  idle : List α
  created : Nat
  capacity_pos : 0 < capacity

namespace Pool

variable {α : Type}

def ofCapacity (capacity : Nat) : Pool α where
  -- A pool holds at least one instance.
  capacity := max capacity 1
  idle := []
  created := 0
  capacity_pos := by omega

def exhaustedReason (p : Pool α) : String :=
  "no interpreter released before deadline (" ++ toString p.created ++ " in use)"

def acquire (p : Pool α) (make : Except Error α) : Except Error α × Pool α :=
  -- An idle instance, or a new one while there is room. A maker that fails gives its slot back.
  match p.idle with
  | item :: rest => (.ok item, { p with idle := rest })
  | [] =>
    if p.created < p.capacity then
      match make with
      | .ok item => (.ok item, { p with created := p.created + 1 })
      | .error e => (.error e, p)
    else (.error (.pool p.exhaustedReason), p)

def release (p : Pool α) (item : α) : Pool α := { p with idle := item :: p.idle }

def discard (p : Pool α) : Pool α := { p with created := p.created - 1 }

def debugText (p : Pool α) : String :=
  "Pool \x7b capacity: " ++ toString p.capacity ++ ", created: " ++ toString p.created ++
    ", idle: " ++ toString p.idle.length ++ " \x7d"

end Pool

end CallGuard
