import CallGuard.Proofs.Lua.Evaluation
import CallGuard.Proofs.Lua.Library.Natives

set_option autoImplicit false

namespace CallGuard.Lua

open Routine

variable {base : Heap}

theorem ensures_afterBody {next : Routine Completion} {c : Completion}
    (goOn : ∀ s : Scope, c = .normal s → next.Ensures base (Completion.Within base.Shows))
    (ended : c.Within base.Shows) :
    (afterBody next c).Ensures base (Completion.Within base.Shows) := by
  cases c with
  | normal s => exact goOn s rfl
  | _ => exact ensures_pure ended

theorem ensures_body {s : Scope} (scope : s.Within base.Shows) (body : List Stmt) :
    (execBlock s body).Ensures base (Completion.Within base.Shows) :=
  ensures_execBlock scope (ensures_execAll scope body)

theorem ensures_bodyThen {s : Scope} (scope : s.Within base.Shows) (body : List Stmt)
    {next : Routine Completion} (goOn : next.Ensures base (Completion.Within base.Shows)) :
    (execBlock s body >>= afterBody next).Ensures base (Completion.Within base.Shows) :=
  (ensures_body scope body).bind fun _ ended => ensures_afterBody (fun _ _ => goOn) ended

theorem Task.ensures_round (t : Task) (within : t.Within base.Shows) :
    t.round.Ensures base (Completion.Within base.Shows) := by
  cases t with
  | whileLoop test body s =>
    refine (ensures_single (ensures_eval within test)).bind fun v _ => ?_
    exact ensures_ite (ensures_pure within) (ensures_bodyThen within body (ensures_switch within))
  | repeatLoop body test s =>
    refine (ensures_body within body).bind fun c ended => ?_
    cases c with
    | normal inner =>
      refine (ensures_single (ensures_eval ended test)).bind fun v _ => ?_
      exact ensures_ite (ensures_pure within) (ensures_switch within)
    | _ => exact ensures_pure ended
  | count name i step left body s =>
    cases left with
    | zero => exact ensures_pure within
    | succ left =>
      refine (ensures_bindAll [name] (by simp) within).bind fun inner scope => ?_
      exact ensures_bodyThen scope body (ensures_switch within)
  | countFloat name x step limit body s =>
    refine (ensures_bindAll [name] (by simp) within).bind fun inner scope => ?_
    exact ensures_bodyThen scope body (ensures_ite (ensures_pure within) (ensures_switch within))
  | iterate names f state control body line s =>
    obtain ⟨function, state', control', outer⟩ := within
    have args : Values.Within base.Shows [state, control] := by simpa using ⟨state', control'⟩
    refine (Value.ensures_call (.onLine line) function args).bind fun vs values => ?_
    refine ensures_ite (ensures_pure outer) ?_
    refine (ensures_bindAll names (values.adjust _) outer).bind fun inner scope => ?_
    exact ensures_bodyThen scope body (ensures_switch ⟨function, state', values.firstOf, outer⟩)
  | labelled block rest outer s =>
    refine (ensures_execAll within rest).bind fun c ended => ?_
    cases c with
    | jumped label now =>
      dsimp only
      split
      · exact ensures_pure ended
      · exact ensures_switch ended
    | _ => exact ensures_pure ended

theorem Closure.ensures_body (c : Closure) {args : List Value}
    (within : Values.Within base.Shows args) :
    (c.body args).Ensures base (Completion.Within base.Shows) := by
  obtain ⟨⟨params, isVararg, body⟩, captured⟩ := c
  let rest := if isVararg then args.drop params.length else []
  have scope : Scope.Within base.Shows ⟨[], captured, rest⟩ := by
    change Values.Within base.Shows rest
    by_cases vararg : isVararg
    · simpa [rest, vararg] using within.drop params.length
    · simp [rest, vararg]
  exact (ensures_bindAll params within scope).bind fun s scope => Lua.ensures_body scope body

theorem Callable.run_contained (f : Callable) {args : List Value} {h : Heap}
    (callee : f.Within base.Shows) (within : Values.Within base.Shows args)
    (ext : h.Extends base) : (f.run args h).Contained base := by
  cases f with
  | closure c => exact (c.ensures_body within).run ext
  | native n =>
    exact Library.ensures_run n callee within _ h ext fun _ _ results ext => ⟨results, ext⟩

def Frame.Contained (base : Heap) : Frame → Prop
  | .call _ resume =>
    ∀ vs h, Values.Within base.Shows vs → h.Extends base → (resume vs h).Contained base
  | .task resume =>
    ∀ c h, c.Within base.Shows → h.Extends base → (resume c h).Contained base

namespace Machine

def Contained (base : Heap) (m : Machine) : Prop := ∀ f ∈ m.frames, f.Contained base

def Progress.Contained (base : Heap) : Progress → Prop
  | .running m t => m.Contained base ∧ t.Contained base
  | .ended e h => e ≠ .outOfMemory ∧ h.Extends base

variable {m : Machine}

theorem initial_contained (random : Random) : (initial random).Contained base := by
  simp [Contained, initial]

theorem push_contained (machine : m.Contained base) {f : Frame} (frame : f.Contained base) :
    (m.push f).Contained base := by
  simpa [Contained, push] using And.intro frame machine

theorem pop_contained (machine : m.Contained base) : m.pop.Contained base := by
  intro f member
  unfold pop at member
  split at member
  · exact machine f member
  · next top rest frames => exact machine f (frames ▸ List.mem_cons_of_mem top member)

theorem invoke_contained (machine : m.Contained base) {f : Callable} {args : List Value}
    (site : CallSite) {resume : List Value → Heap → Turn} {h : Heap}
    (callee : f.Within base.Shows) (within : Values.Within base.Shows args) (ext : h.Extends base)
    (goOn : ∀ vs h', Values.Within base.Shows vs → h'.Extends base →
      (resume vs h').Contained base) :
    (m.invoke f args site resume h).Contained base := by
  have pushed : (m.push (.call site resume)).Contained base := push_contained machine goOn
  simp only [invoke]
  split
  · exact ⟨pushed, by simp, ext⟩
  · exact ⟨pushed, f.run_contained callee within ext⟩

theorem replace_contained (machine : m.Contained base) {f : Value} {args : List Value} (line : Nat)
    {h : Heap} (callee : f.Within base.Shows) (within : Values.Within base.Shows args)
    (ext : h.Extends base) : (m.replace f args line h).Contained base := by
  cases f with
  | function id => exact ⟨machine, Callable.run_contained _ trivial within ext⟩
  | native n =>
    exact invoke_contained machine _ callee within ext fun _ _ results ext => ⟨results, ext⟩
  | _ => exact ⟨machine, by simp, ext⟩

theorem valuesOf_within {P : TableId → Prop} {c : Completion} (within : c.Within P) :
    Values.Within P (valuesOf c) := by
  cases c with
  | returned vs => exact within
  | _ => exact no_values_within

theorem complete_contained (machine : m.Contained base) {c : Completion} {h : Heap}
    (ended : c.Within base.Shows) (ext : h.Extends base) : (m.complete c h).Contained base := by
  have popped := pop_contained machine
  unfold complete
  split
  · next resume _ frames =>
    have frame : (Frame.task resume).Contained base := machine _ (frames ▸ List.mem_cons_self)
    exact ⟨popped, frame _ h ended ext⟩
  · exact replace_contained machine _ ended.1 ended.2 ext
  · next site resume _ frames _ =>
    have frame : (Frame.call site resume).Contained base := machine _ (frames ▸ List.mem_cons_self)
    exact ⟨popped, frame _ h (valuesOf_within ended) ext⟩
  · exact ⟨by simp, ext⟩

theorem endingOf_ne_outOfMemory (m : Machine) {f : Fault} (other : f ≠ .memory) :
    m.endingOf f ≠ .outOfMemory := by
  cases f with
  | raised v level => cases v <;> simp [endingOf]
  | memory => exact absurd rfl other
  | _ => simp [endingOf]

theorem step_contained (machine : m.Contained base) {t : Turn} (turn : t.Contained base) :
    (m.step t).Contained base := by
  cases t with
  | done c h => exact complete_contained machine turn.1 turn.2
  | fail f h => exact ⟨endingOf_ne_outOfMemory m turn.1, turn.2⟩
  | call f args site h resume =>
    obtain ⟨callee, within, ext, goOn⟩ := turn
    exact invoke_contained machine site callee within ext goOn
  | enter t h resume =>
    obtain ⟨task, ext, goOn⟩ := turn
    exact ⟨push_contained machine goOn, (t.ensures_round task).run ext⟩
  | switch t h => exact ⟨machine, (t.ensures_round turn.1).run turn.2⟩
  | pause h resume => exact ⟨machine, turn.2 h turn.1⟩
  | draw f h resume => exact ⟨machine, turn.2 _ h turn.1⟩

theorem run_contained (fuel : Nat) (machine : m.Contained base) {t : Turn}
    (turn : t.Contained base) {ending : Option Ending} {left : Nat} {random : Random} {h : Heap}
    (result : run fuel m t = (ending, left, random, h)) :
    ending ≠ some .outOfMemory ∧ h.Extends base := by
  induction fuel generalizing m t with
  | zero =>
    -- out of steps: the turn still holds the heap as it is now
    cases result
    exact ⟨by simp, turn.heapOf⟩
  | succ fuel ih =>
    have next := step_contained machine turn
    unfold run at result
    split at result
    · next running =>
      rw [running] at next
      exact ih next.1 next.2 result
    · next ended =>
      rw [ended] at next
      cases result
      exact ⟨fun same => next.1 (Option.some.inj same), next.2⟩

def draws : Nat → Machine → Turn → Bool
  | 0, _, _ => false
  | _ + 1, _, .draw _ _ _ => true
  | fuel + 1, m, t =>
    match m.step t with
    | .running m t => draws fuel m t
    | .ended _ _ => false

def reseed (m : Machine) (r : Random) : Machine := { m with random := r }

def Progress.reseed (r : Random) : Progress → Progress
  | .running m t => .running (m.reseed r) t
  | .ended e h => .ended e h

@[simp] theorem reseed_frames (m : Machine) (r : Random) : (m.reseed r).frames = m.frames := rfl

@[simp] theorem reseed_depth (m : Machine) (r : Random) : (m.reseed r).depth = m.depth := rfl

@[simp] theorem reseed_nested (m : Machine) (r : Random) : (m.reseed r).nested = m.nested := rfl

@[simp] theorem push_reseed (m : Machine) (r : Random) (f : Frame) :
    (m.reseed r).push f = (m.push f).reseed r := rfl

@[simp] theorem pop_reseed (m : Machine) (r : Random) : (m.reseed r).pop = m.pop.reseed r := by
  obtain ⟨_ | ⟨f, rest⟩, _, _, _⟩ := m <;> rfl

theorem endingOf_reseed (m : Machine) (r : Random) (f : Fault) :
    (m.reseed r).endingOf f = m.endingOf f := by
  cases f with
  | raised v level => cases v <;> rfl
  | _ => rfl

@[simp] theorem invoke_reseed (m : Machine) (r : Random) (f : Callable) (args : List Value)
    (site : CallSite) (resume : List Value → Heap → Turn) (h : Heap) :
    (m.reseed r).invoke f args site resume h = (m.invoke f args site resume h).reseed r := by
  simp only [invoke, push_reseed, reseed_depth, reseed_nested, apply_ite (Progress.reseed r)]
  rfl

@[simp] theorem replace_reseed (m : Machine) (r : Random) (f : Value) (args : List Value)
    (line : Nat) (h : Heap) :
    (m.reseed r).replace f args line h = (m.replace f args line h).reseed r := by
  cases f with
  | native n => exact invoke_reseed _ _ _ _ _ _ _
  | _ => rfl

@[simp] theorem complete_reseed (m : Machine) (r : Random) (c : Completion) (h : Heap) :
    (m.reseed r).complete c h = (m.complete c h).reseed r := by
  simp only [complete, reseed_frames, pop_reseed, replace_reseed]
  split <;> rfl

theorem step_reseed (m : Machine) (r : Random) {t : Turn} (still : ∀ f h k, t ≠ .draw f h k) :
    (m.reseed r).step t = (m.step t).reseed r := by
  cases t with
  | done c h => exact complete_reseed m r c h
  | fail f h => simp [step, endingOf_reseed, Progress.reseed]
  | call f args site h resume => exact invoke_reseed m r f args site resume h
  | draw f h resume => exact absurd rfl (still f h resume)
  | _ => rfl

theorem draws_succ {fuel : Nat} {m : Machine} {t : Turn} (quiet : draws (fuel + 1) m t = false) :
    (∀ f h k, t ≠ .draw f h k) ∧
      ∀ m' t', m.step t = .running m' t' → draws fuel m' t' = false := by
  refine ⟨fun f h k same => ?_, fun m' t' next => ?_⟩
  · subst same
    cases quiet
  · cases t with
    | draw => cases quiet
    | _ =>
      simp only [draws, next] at quiet
      exact quiet

theorem run_reseed (fuel : Nat) (m : Machine) (r : Random) {t : Turn}
    (quiet : draws fuel m t = false) {ending : Option Ending} {left : Nat} {random : Random}
    {h : Heap} (result : run fuel m t = (ending, left, random, h)) :
    run fuel (m.reseed r) t = (ending, left, r, h) := by
  induction fuel generalizing m t with
  | zero =>
    cases result
    rfl
  | succ fuel ih =>
    obtain ⟨still, later⟩ := draws_succ quiet
    unfold run at result ⊢
    rw [step_reseed m r still]
    split at result
    · next m' t' next =>
      rw [next]
      exact ih m' (later m' t' next) result
    · next next =>
      rw [next]
      cases result
      rfl

end Machine

end CallGuard.Lua
