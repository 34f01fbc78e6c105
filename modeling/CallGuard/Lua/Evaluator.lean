import CallGuard.Evaluator
import CallGuard.Lua.Scoping
import CallGuard.Lua.State
import CallGuard.Pool
import CallGuard.Text.Blank
import CallGuard.Text.Utf8

set_option autoImplicit false

namespace CallGuard.Lua

def chunkOf? (text : String) : Option Chunk := do
  let chunk ← Chunk.ofText? text
  if chunk.isScoped then chunk else none

def compile (text : String) : Except Error Chunk :=
  -- An expression is wrapped, so that it keeps one value of several.
  match (chunkOf? ("return (" ++ text ++ ")")).or (chunkOf? text) with
  | some chunk => .ok chunk
  | none => .error (.compile text .elided)

-- Time is counted in steps of the machine.
def stepsPerMillisecond : Nat := 20_000

-- No run takes more steps than these before the time is looked at.
def longestRun : Nat := 4_000_000

def timeFor (options : Options) (c : Context) : Option Nat :=
  match options.timeout, c.deadline.map fun t => t.nanoseconds / 1_000_000 with
  | some a, some b => some (min a b)
  | a, b => a.or b

def stepsFor (milliseconds : Nat) : Nat := min longestRun (milliseconds * stepsPerMillisecond)

-- A step takes a few instructions, between which the time is not looked at.
def stepsBetweenLooks (interval : Nat) : Nat := interval / 4

def unlimited : Nat := 0x4000000000000000

-- What a view or the look-up of a name reports, which is worth showing.
def telling : List String := ["undeclared variable '", "attempt to modify read-only value '"]

def reasonOf (text : Bytes) : Message :=
  -- The first line of an error is shown if it says what the rule did wrong.
  let line := text.toList.takeWhile fun b => b != 0 && b != 10
  let shown := "runtime error: " ++ Text.decodeLossy line
  if telling.any fun part => Text.occursIn part.toList shown.toList then ⟨shown, false⟩ else .elided

def outcomeOf (text : String) (late : Bool) : Option Machine.Ending → Outcome Bool
  -- A rule has to return a boolean.
  | none => .fail (.deadline text)
  | some (.returned vs) =>
    match firstOf vs with
    | .bool b => .ok b
    | v => .fail (.nonBoolean text v.kindName)
  | some (.raised bytes) =>
    .fail (if late then .deadline text else .evaluation text (reasonOf bytes))
  | some .failed => .fail (if late then .deadline text else .evaluation text .elided)
  | some .outOfMemory => .fail (if late then .deadline text else .evaluation text .elided)

def isOutOfMemory : Option Machine.Ending → Bool
  | some .outOfMemory => true
  | _ => false

def fuelFor (options : Options) (c : Context) : Nat :=
  match timeFor options c with
  | some ms => max (stepsFor ms) (stepsBetweenLooks options.interval)
  | none => unlimited

def runTimed (options : Options) (chunk : Chunk) (text : String) (c : Context) (s : State) :
    Outcome Bool × Bool × State :=
  let fuel := fuelFor options c
  match s.run chunk c fuel with
  | (ending, left, s) =>
    let late := (timeFor options c).any fun ms => stepsFor ms ≤ fuel - left
    (outcomeOf text late ending, isOutOfMemory ending, s)

def execute (options : Options) (chunk : Chunk) (text : String) (c : Context)
    (pool : Pool State) : Outcome Bool × Pool State :=
  -- A state that has run out of memory does not go back to the pool.
  if c.deadlinePassed then (.fail (.deadline text), pool)
  else
    match pool.acquire (State.ofBuiltins options.builtins) with
    | (.error e, pool) => (.fail e, pool)
    | (.ok s, pool) =>
      match runTimed options chunk text c s with
      | (outcome, true, _) => (outcome, pool.discard)
      | (outcome, false, s) => (outcome, pool.release s)

def evaluatorOf (options : Options) : Except Error (Evaluator Chunk (Pool State) × Pool State) :=
  -- An evaluator and its pool, which is still empty. The options have to allow for a state.
  match State.ofBuiltins options.builtins with
  | .error e => .error e
  | .ok _ => .ok (⟨.lua, compile, execute options⟩, .ofCapacity options.poolSize)

theorem evaluatorOf_eq_ok {options : Options} {ev : Evaluator Chunk (Pool State)}
    {pool : Pool State} (accepted : evaluatorOf options = .ok (ev, pool)) :
    (∃ made, State.ofBuiltins options.builtins = .ok made) ∧
      ev = ⟨.lua, compile, execute options⟩ ∧ pool = .ofCapacity options.poolSize := by
  unfold evaluatorOf at accepted
  cases started : State.ofBuiltins options.builtins with
  | error e => simp [started] at accepted
  | ok made =>
    simp only [started] at accepted
    cases accepted
    exact ⟨⟨made, rfl⟩, rfl, rfl⟩

def timeText (ms : Nat) : String :=
  if ms = 0 then "0ns"
  else if ms < 1000 then toString ms ++ "ms"
  else
    let digits := (toString (1000 + ms % 1000)).toList.drop 1
    let fraction := (digits.reverse.dropWhile (· == '0')).reverse
    toString (ms / 1000) ++ (if fraction.isEmpty then "" else "." ++ String.ofList fraction) ++ "s"

def debugText (options : Options) (pool : Pool State) : String :=
  let timeout := match options.timeout with
    | none => "None"
    | some ms => "Some(" ++ timeText ms ++ ")"
  "LuaEvaluator \x7b pool: " ++ pool.debugText ++ ", eval_timeout: " ++ timeout ++ " \x7d"

end CallGuard.Lua
