import CallGuard.Lua.Heap
import CallGuard.Lua.Random

set_option autoImplicit false

namespace CallGuard.Lua

structure Scope where
  locals : Bindings
  captured : Bindings
  varargs : List Value

namespace Scope

def find? (s : Scope) (name : String) : Option CellId :=
  (s.locals.lookup name).or (s.captured.lookup name)

def bind (s : Scope) (name : String) (c : CellId) : Scope :=
  { s with locals := (name, c) :: s.locals }

def all (s : Scope) : Bindings := s.locals ++ s.captured

def keep (s : Scope) (n : Nat) : Scope := { s with locals := s.locals.drop (s.locals.length - n) }

end Scope

structure CallSite where
  line : Option Nat
  -- Whether the caller waits inside of an operation.
  nested : Bool

namespace CallSite

def onLine (line : Nat) : CallSite := ⟨some line, false⟩

def native : CallSite := ⟨none, true⟩

def inside (s : CallSite) : CallSite := { s with nested := true }

end CallSite

inductive Fault
  -- An error that was asked for. A text gets the place of the caller at a level in front.
  | raised (value : Value) (level : Nat)
  | invalid
  | stackOverflow
  | memory

inductive Completion
  | normal (s : Scope)
  | left
  -- Goes on at a label that is not in the present block.
  | jumped (label : String) (s : Scope)
  | returned (values : List Value)
  -- Returns what a call will return, which takes the place of the caller.
  | called (f : Value) (args : List Value) (line : Nat)

inductive Task
  | whileLoop (test : Expr) (body : List Stmt) (s : Scope)
  | repeatLoop (body : List Stmt) (test : Expr) (s : Scope)
  | count (name : String) (i step : Int64) (left : Nat) (body : List Stmt) (s : Scope)
  | countFloat (name : String) (x step limit : Float) (body : List Stmt) (s : Scope)
  | iterate (names : List String) (f state control : Value) (body : List Stmt) (line : Nat)
      (s : Scope)
  -- The rest of a block to whose labels a jump may lead. Around the block, so many variables of the
  -- function are bound.
  | labelled (block rest : List Stmt) (outer : Nat) (s : Scope)

inductive Turn
  | done (c : Completion) (h : Heap)
  | fail (f : Fault) (h : Heap)
  | call (f : Callable) (args : List Value) (site : CallSite) (h : Heap)
      (resume : List Value → Heap → Turn)
  | enter (t : Task) (h : Heap) (resume : Completion → Heap → Turn)
  -- Goes on with a task in place of the present one.
  | switch (t : Task) (h : Heap)
  | pause (h : Heap) (resume : Heap → Turn)
  | draw (f : Random → UInt64 × Random) (h : Heap) (resume : UInt64 → Heap → Turn)

def Routine (α : Type) : Type := (α → Heap → Turn) → Heap → Turn

namespace Routine

instance : Monad Routine where
  pure a := fun k h => k a h
  bind m f := fun k h => m (fun a h => f a k h) h

variable {α : Type}

def run (r : Routine Completion) (h : Heap) : Turn := r (fun c h => .done c h) h

def fail (f : Fault) : Routine α := fun _ h => .fail f h

def invalid : Routine α := fail .invalid

def read (f : Heap → α) : Routine α := fun k h => k (f h) h

def update (f : Heap → Heap) : Routine Unit := fun k h => k () (f h)

def alloc (f : Heap → α × Heap) : Routine α := fun k h =>
  match f h with
  | (a, h) => k a h

def call (f : Callable) (args : List Value) (site : CallSite) : Routine (List Value) :=
  fun k h => .call f args site h k

def enter (t : Task) : Routine Completion := fun k h => .enter t h k

def switch (t : Task) : Routine α := fun _ h => .switch t h

-- Takes a word from what the machine keeps for numbers that look random.
def draw (f : Random → UInt64 × Random) : Routine UInt64 := fun k h => .draw f h k

-- Gives the machine a chance to look at the clock.
def pause : Routine Unit := fun k h => .pause h (k ())

def pauses : Nat → Routine Unit
  | 0 => return ()
  | n + 1 => do
    pause
    pauses n

-- Work on texts takes time by their size.
def spend (bytes : Nat) : Routine Unit := pauses (bytes / 16)

def ofOption : Option α → Routine α
  | some a => pure a
  | none => invalid

end Routine

end CallGuard.Lua
