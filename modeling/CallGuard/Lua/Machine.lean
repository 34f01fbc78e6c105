import CallGuard.Lua.Eval
import CallGuard.Lua.Library

set_option autoImplicit false

namespace CallGuard.Lua

open Routine

inductive Frame
  | call (site : CallSite) (resume : List Value → Heap → Turn)
  | task (resume : Completion → Heap → Turn)

namespace Frame

def site? : Frame → Option CallSite
  | call site _ => some site
  | task _ => none

def isNested (f : Frame) : Bool := (f.site?.map CallSite.nested).getD false

end Frame

def floatIsBeyond (x step limit : Float) : Bool := !(if 0 < step then x ≤ limit else limit ≤ x)

def afterBody (next : Routine Completion) : Completion → Routine Completion
  | .normal _ => next
  | c => return c

def Task.round : Task → Routine Completion
  | .whileLoop test body s => do
    let t ← single (eval s test)
    if !t.truth then return .normal s
    afterBody (switch (.whileLoop test body s)) (← execBlock s body)
  | .repeatLoop body test s => do
    match ← execBlock s body with
    | .normal inner =>
      let t ← single (eval inner test)
      if t.truth then return .normal s
      switch (.repeatLoop body test s)
    | c => return c
  | .count _ _ _ 0 _ s => return .normal s
  | .count name i step (left + 1) body s => do
    let inner ← bindAll [name] [.int i] s
    afterBody (switch (.count name (i + step) step left body s)) (← execBlock inner body)
  | .countFloat name x step limit body s => do
    let inner ← bindAll [name] [.float x] s
    let next := x + step
    let goOn := if floatIsBeyond next step limit then return .normal s
      else switch (.countFloat name next step limit body s)
    afterBody goOn (← execBlock inner body)
  | .iterate names f state control body line s => do
    let vs ← f.call [state, control] (.onLine line)
    let first := firstOf vs
    if first.isNil then return .normal s
    let inner ← bindAll names (adjust names.length vs) s
    afterBody (switch (.iterate names f state first body line s)) (← execBlock inner body)
  | .labelled block rest outer s => do
    match ← execAll s rest with
    | .jumped label now =>
      match Stmt.afterLabel? label block with
      | none => return .jumped label now
      | some target =>
        let bound := outer + (Stmt.declared block - Stmt.declared target)
        switch (.labelled block target outer (now.keep bound))
    | c => return c

def Closure.body (c : Closure) (args : List Value) : Routine Completion :=
  match c.function with
  | .mk params isVararg body => do
    let rest := if isVararg then args.drop params.length else []
    let s ← bindAll params args ⟨[], c.captured, rest⟩
    execBlock s body

def Callable.run (args : List Value) (h : Heap) : Callable → Turn
  | .closure c => (c.body args).run h
  | .native n => Library.run n args (fun vs h => .done (.returned vs) h) h

structure Machine where
  frames : List Frame
  -- How many calls wait, and how many of those inside of operations.
  depth : Nat
  nested : Nat
  random : Random

namespace Machine

def initial (random : Random) : Machine := ⟨[], 0, 0, random⟩

def depthLimit : Nat := 195000

def nestingLimit : Nat := 195

def push (m : Machine) (f : Frame) : Machine := { m with
  frames := f :: m.frames
  depth := m.depth + (if f.site?.isSome then 1 else 0)
  nested := m.nested + (if f.isNested then 1 else 0) }

def pop (m : Machine) : Machine :=
  match m.frames with
  | [] => m
  | f :: rest => { m with
      frames := rest
      depth := m.depth - (if f.site?.isSome then 1 else 0)
      nested := m.nested - (if f.isNested then 1 else 0) }

def place (m : Machine) (level : Nat) : String :=
  -- The place of the caller at a level: of the running function's caller at level one.
  match (m.frames.filterMap Frame.site?)[level - 1]? with
  | some ⟨some line, _⟩ => "rule:" ++ toString line ++ ": "
  | _ => ""

inductive Ending
  | returned (values : List Value)
  | raised (text : Bytes)
  | failed
  | outOfMemory

def endingOf (m : Machine) : Fault → Ending
  | .raised (.string s) level =>
    .raised (if level = 0 then s else .ofText (m.place level) ++ s)
  | .raised v _ => .raised v.display
  | .invalid => .failed
  | .stackOverflow => .failed
  | .memory => .outOfMemory

inductive Progress
  | running (m : Machine) (t : Turn)
  | ended (e : Ending) (h : Heap)

def invoke (m : Machine) (f : Callable) (args : List Value) (site : CallSite)
    (resume : List Value → Heap → Turn) (h : Heap) : Progress :=
  let m := m.push (.call site resume)
  if depthLimit < m.depth || nestingLimit < m.nested then .running m (.fail .stackOverflow h)
  else .running m (f.run args h)

def replace (m : Machine) (f : Value) (args : List Value) (line : Nat) (h : Heap) : Progress :=
  -- A function takes the place of the one that returns what it returns; one that is not written in
  -- Lua is called as usual.
  match f with
  | .function id => .running m ((Callable.closure (h.functions.getD id default)).run args h)
  | .native n =>
    m.invoke (.native n) args (.onLine line) (fun vs h => .done (.returned vs) h) h
  | _ => .running m (.fail .invalid h)

def valuesOf : Completion → List Value
  | .returned vs => vs
  | _ => []

def complete (m : Machine) (c : Completion) (h : Heap) : Progress :=
  match m.frames, c with
  | .task resume :: _, c => .running m.pop (resume c h)
  | _, .called f args line => m.replace f args line h
  | .call _ resume :: _, c => .running m.pop (resume (valuesOf c) h)
  | [], c => .ended (.returned (valuesOf c)) h

def step (m : Machine) : Turn → Progress
  | .done c h => m.complete c h
  | .fail f h => .ended (m.endingOf f) h
  | .call f args site h resume => m.invoke f args site resume h
  | .enter t h resume => .running (m.push (.task resume)) (t.round.run h)
  | .switch t h => .running m (t.round.run h)
  | .pause h resume => .running m (resume h)
  | .draw f h resume =>
    let (word, random) := f m.random
    .running { m with random := random } (resume word h)

def heapOf : Turn → Heap
  | .done _ h => h
  | .fail _ h => h
  | .call _ _ _ h _ => h
  | .enter _ h _ => h
  | .switch _ h => h
  | .pause h _ => h
  | .draw _ h _ => h

def run : Nat → Machine → Turn → Option Ending × Nat × Random × Heap
  | 0, m, t => (none, 0, m.random, heapOf t)
  | fuel + 1, m, t =>
    match m.step t with
    | .running m t => run fuel m t
    | .ended e h => (some e, fuel, m.random, h)

end Machine

end CallGuard.Lua
