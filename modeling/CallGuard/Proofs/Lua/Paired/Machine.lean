import CallGuard.Proofs.Lua.Paired.Tasks
import Mathlib.Data.List.Forall2
import Mathlib.Logic.Relation

set_option autoImplicit false

namespace CallGuard.Lua

open Relation

variable {p : Pairing}

namespace Machine

variable {m m' : Machine} {t t' : Turn} {e : Ending}

def Next (c d : Machine × Turn) : Prop := c.1.step c.2 = .running d.1 d.2

abbrev Reaches (m : Machine) (t : Turn) (m' : Machine) (t' : Turn) : Prop :=
  ReflTransGen Next (m, t) (m', t')

theorem reaches_next (step : m.step t = .running m' t') : Reaches m t m' t' := .single step

inductive Ends : Nat → Machine → Turn → Ending → Prop
  | now {m : Machine} {t : Turn} {e : Ending} {h : Heap} (step : m.step t = .ended e h) :
    Ends 0 m t e
  | later {n : Nat} {m m' : Machine} {t t' : Turn} {e : Ending}
      (step : m.step t = .running m' t') (rest : Ends n m' t' e) : Ends (n + 1) m t e

theorem run_eq_some_iff (fuel : Nat) :
    (run fuel m t).1 = some e ↔ ∃ n < fuel, Ends n m t e := by
  induction fuel generalizing m t with
  | zero => simp [run]
  | succ fuel ih =>
    cases next : m.step t with
    | running m' t' =>
      have step : (run (fuel + 1) m t).1 = (run fuel m' t').1 := by simp only [run, next]
      rw [step, ih]
      constructor
      · rintro ⟨n, bound, ends⟩
        exact ⟨n + 1, Nat.succ_lt_succ bound, .later next ends⟩
      · rintro ⟨n, bound, ends⟩
        cases ends with
        | now step => rw [next] at step; cases step
        | later step rest =>
          rw [next] at step
          cases step
          exact ⟨_, Nat.lt_of_succ_lt_succ bound, rest⟩
    | ended e' h =>
      have last : (run (fuel + 1) m t).1 = some e' := by simp only [run, next]
      rw [last]
      constructor
      · intro same
        cases same
        exact ⟨0, Nat.succ_pos fuel, .now next⟩
      · rintro ⟨n, -, ends⟩
        cases ends with
        | now step => rw [next] at step; cases step; rfl
        | later step => rw [next] at step; cases step

theorem Ends.unique {n k : Nat} {e' : Ending} (ends : Ends n m t e) (other : Ends k m t e') :
    e = e' := by
  induction ends generalizing k with
  | now step =>
    cases other with
    | now step' =>
      rw [step] at step'
      cases step'
      rfl
    | later step' =>
      rw [step] at step'
      cases step'
  | later step _ ih =>
    cases other with
    | now step' =>
      rw [step] at step'
      cases step'
    | later step' rest =>
      rw [step] at step'
      cases step'
      exact ih rest

theorem Ends.after {n : Nat} (ends : Ends n m t e) (reaches : Reaches m t m' t') :
    ∃ k ≤ n, Ends k m' t' e := by
  have all : ∀ d : Machine × Turn, ReflTransGen Next (m, t) d → ∃ k ≤ n, Ends k d.1 d.2 e := by
    intro d reaches
    induction reaches with
    | refl => exact ⟨n, Nat.le_refl n, ends⟩
    | tail _ next ih =>
      obtain ⟨k, bound, ends⟩ := ih
      cases ends with
      | now step => rw [Next, step] at next; cases next
      | later step rest =>
        rw [Next, step] at next
        cases next
        exact ⟨_, Nat.le_of_succ_le bound, rest⟩
  exact all (m', t') reaches

theorem Ends.before {n : Nat} (ends : Ends n m' t' e) (reaches : Reaches m t m' t') :
    ∃ k, Ends k m t e := by
  have all : ∀ c : Machine × Turn, ReflTransGen Next c (m', t') → ∃ k, Ends k c.1 c.2 e := by
    intro c reaches
    induction reaches using ReflTransGen.head_induction_on with
    | refl => exact ⟨n, ends⟩
    | head next _ ih =>
      obtain ⟨k, ends⟩ := ih
      exact ⟨k + 1, .later next ends⟩
  exact all (m, t) reaches

def StaysClear (avoids : Native → List Value → Heap → Prop) (m : Machine) (t : Turn) : Prop :=
  ∀ m' t', Reaches m t m' t' → ¬ t'.Strays avoids

theorem StaysClear.after {avoids : Native → List Value → Heap → Prop}
    (clear : StaysClear avoids m t) (reaches : Reaches m t m' t') : StaysClear avoids m' t' :=
  fun _ _ later => clear _ _ (reaches.trans later)

def NeverMakes (calls : Native → List Value → Heap → Prop) (m : Machine) (t : Turn) : Prop :=
  ∀ m' t', Reaches m t m' t' → ¬ t'.Makes calls

theorem NeverMakes.after {calls : Native → List Value → Heap → Prop}
    (never : NeverMakes calls m t) (reaches : Reaches m t m' t') : NeverMakes calls m' t' :=
  fun _ _ later => never _ _ (reaches.trans later)

theorem StaysClear.neverMakes {avoids : Native → List Value → Heap → Prop}
    (clear : StaysClear avoids m t) : NeverMakes avoids m t :=
  fun m' t' reaches makes => clear m' t' reaches makes.strays

theorem step_returned (m : Machine) (site : CallSite) (resume : List Value → Heap → Turn)
    (vs : List Value) (h : Heap) :
    (m.push (.call site resume)).step (.done (.returned vs) h) = .running m (resume vs h) := by
  simp only [step, complete, push, valuesOf]
  simp [pop]

def isFull (m : Machine) : Bool := depthLimit < m.depth || nestingLimit < m.nested

theorem step_call (f : Callable) (args : List Value) (site : CallSite) (h : Heap)
    (resume : List Value → Heap → Turn) :
    m.step (.call f args site h resume) =
      if (m.push (.call site resume)).isFull then
        .running (m.push (.call site resume)) (.fail .stackOverflow h)
      else .running (m.push (.call site resume)) (f.run args h) := rfl

theorem reaches_settles {vs : List Value} {g : Heap} (settles : t.Settles vs g) :
    Reaches m t m (.done (.returned vs) g) := by
  induction settles with
  | done => exact .refl
  | @pause h _ resume _ _ ih =>
    have next : Reaches m (.pause h resume) m (resume h) := reaches_next rfl
    exact next.trans ih

theorem StaysClear.notFull {avoids : Native → List Value → Heap → Prop} {f : Callable}
    {args : List Value} {site : CallSite} {h : Heap} {resume : List Value → Heap → Turn}
    (clear : StaysClear avoids m (.call f args site h resume)) :
    (m.push (.call site resume)).isFull = false := by
  by_contra full
  have fails : m.step (.call f args site h resume) =
      .running (m.push (.call site resume)) (.fail .stackOverflow h) := by
    rw [step_call, if_pos (by simpa using full)]
  exact clear _ _ (reaches_next fails) trivial

theorem reaches_body {n : Native} {args : List Value} {site : CallSite} {h : Heap}
    {resume : List Value → Heap → Turn} (free : (m.push (.call site resume)).isFull = false) :
    Reaches m (.call (.native n) args site h resume) (m.push (.call site resume))
      (Library.run n args Library.answered h) := by
  refine reaches_next ?_
  rw [step_call, free]
  rfl

theorem reaches_yields {avoids : Native → List Value → Heap → Prop} {vs : List Value}
    {g : Heap} (yields : t.Yields vs g) (clear : StaysClear avoids m t) :
    Reaches m t m (.done (.returned vs) g) := by
  induction yields generalizing m with
  | done => exact .refl
  | @pause h _ resume _ _ ih =>
    have next : Reaches m (.pause h resume) m (resume h) := reaches_next rfl
    exact next.trans (ih (clear.after next))
  | @call n args ws vs site h g g' resume _ _ body rest =>
    have called : Reaches m (.call (.native n) args site h resume) _ _ :=
      reaches_body clear.notFull
    have answered := called.trans (body (clear.after called))
    have resumed := answered.trans (reaches_next (step_returned m site resume _ _))
    exact resumed.trans (rest (clear.after resumed))

theorem reaches_answer {avoids : Native → List Value → Heap → Prop} {n : Native}
    {args vs : List Value} {site : CallSite} {h g : Heap} {resume : List Value → Heap → Turn}
    (body : (Library.run n args Library.answered h).Yields vs g)
    (clear : StaysClear avoids m (.call (.native n) args site h resume)) :
    Reaches m (.call (.native n) args site h resume) m (resume vs g) ∧
      StaysClear avoids m (resume vs g) := by
  have called : Reaches m (.call (.native n) args site h resume) _ _ := reaches_body clear.notFull
  have answered := called.trans (reaches_yields body (clear.after called))
  have resumed := answered.trans (reaches_next (step_returned m site resume vs g))
  exact ⟨resumed, clear.after resumed⟩

end Machine

inductive Frame.Paired (p : Pairing) : Frame → Frame → Prop
  | call {site : CallSite} {resume resume' : List Value → Heap → Turn}
      (rest : ∀ vs g g', Values.Fits p vs → p.Alike g g' →
        (resume vs g).Paired p (resume' (Values.rename p.move vs) g')) :
    Paired p (.call site resume) (.call site resume')
  | task {resume resume' : Completion → Heap → Turn}
      (rest : ∀ (c : Completion) g g', c.Fits p → p.Alike g g' →
        (resume c g).Paired p (resume' (c.rename p.move) g')) :
    Paired p (.task resume) (.task resume')

namespace Machine

variable {m m' : Machine}

structure Paired (p : Pairing) (m m' : Machine) : Prop where
  frames : List.Forall₂ (Frame.Paired p) m.frames m'.frames
  depth : m'.depth = m.depth
  nested : m'.nested = m.nested
  random : m'.random = m.random

def Ending.rename (move : TableId → TableId) : Ending → Ending
  | .returned vs => .returned (Values.rename move vs)
  | e => e

inductive Progress.Paired (p : Pairing) : Progress → Progress → Prop
  | running {m m' : Machine} {t t' : Turn} (machine : m.Paired p m') (turn : t.Paired p t') :
    Paired p (.running m t) (.running m' t')
  | ended {e : Ending} {h h' : Heap} : Paired p (.ended e h) (.ended (e.rename p.move) h')

theorem paired_initial (random : Random) : (initial random).Paired p (initial random) :=
  ⟨.nil, rfl, rfl, rfl⟩

namespace Paired

variable (machine : m.Paired p m')

include machine

theorem push {f f' : Frame} (frame : f.Paired p f') : (m.push f).Paired p (m'.push f') := by
  have site : f'.site? = f.site? := by cases frame <;> rfl
  have nested : f'.isNested = f.isNested := by rw [Frame.isNested, Frame.isNested, site]
  refine ⟨.cons frame machine.frames, ?_, ?_, machine.random⟩
  · simp only [Machine.push, site, machine.depth]
  · simp only [Machine.push, nested, machine.nested]

theorem pop {f f' : Frame} {rest rest' : List Frame} (frames : m.frames = f :: rest)
    (frames' : m'.frames = f' :: rest') : m.pop.Paired p m'.pop := by
  obtain ⟨related, depth, nested, random⟩ := machine
  rw [frames, frames'] at related
  cases related with
  | cons frame rest =>
    have site : f'.site? = f.site? := by cases frame <;> rfl
    simp only [Machine.pop, frames, frames', Frame.isNested, site, depth, nested]
    exact ⟨rest, rfl, rfl, random⟩

theorem isFull (site : CallSite) (resume resume' : List Value → Heap → Turn) :
    (m'.push (.call site resume')).isFull = (m.push (.call site resume)).isFull := by
  have pushed (m : Machine) (resume : List Value → Heap → Turn) :
      (m.push (.call site resume)).isFull =
        (decide (depthLimit < m.depth + 1) ||
          decide (nestingLimit < m.nested + if site.nested then 1 else 0)) := rfl
  rw [pushed, pushed, machine.depth, machine.nested]

theorem place (level : Nat) : m'.place level = m.place level := by
  have sites : m'.frames.filterMap Frame.site? = m.frames.filterMap Frame.site? := by
    have frames := machine.frames
    generalize m.frames = fs, m'.frames = fs' at frames
    induction frames with
    | nil => rfl
    | cons frame _ ih =>
      have site : ∀ {f f' : Frame}, f.Paired p f' → f'.site? = f.site? := fun frame => by
        cases frame <;> rfl
      simp only [List.filterMap_cons, site frame, ih]
  rw [Machine.place, Machine.place, sites]

theorem endingOf {f : Fault} (other : ∀ id level, f ≠ .raised (.table id) level) :
    m'.endingOf (f.rename p.move) = (m.endingOf f).rename p.move := by
  cases f with
  | raised v level =>
    cases v with
    | table id => exact absurd rfl (other id level)
    | string s => simp only [Fault.rename, Value.rename, Machine.endingOf, machine.place]; rfl
    | _ => rfl
  | _ => rfl

theorem invoke {f f' : Callable} {args args' : List Value} (site : CallSite) {h h' : Heap}
    {resume resume' : List Value → Heap → Turn} (alike : p.Alike h h')
    (body : (f.run args h).Paired p (f'.run args' h'))
    (rest : ∀ vs g g', Values.Fits p vs → p.Alike g g' →
      (resume vs g).Paired p (resume' (Values.rename p.move vs) g')) :
    (m.invoke f args site resume h).Paired p (m'.invoke f' args' site resume' h') := by
  have pushed := machine.push (.call rest : (Frame.call site resume).Paired p _)
  have full := machine.isFull site resume resume'
  by_cases exceeds : (m.push (.call site resume)).isFull
  · have here : m.invoke f args site resume h =
        .running (m.push (.call site resume)) (.fail .stackOverflow h) := if_pos exceeds
    have there : m'.invoke f' args' site resume' h' =
        .running (m'.push (.call site resume')) (.fail .stackOverflow h') :=
      if_pos (full.trans exceeds)
    rw [here, there]
    exact .running pushed (.fail alike)
  · have here : m.invoke f args site resume h =
        .running (m.push (.call site resume)) (f.run args h) := if_neg exceeds
    have there : m'.invoke f' args' site resume' h' =
        .running (m'.push (.call site resume')) (f'.run args' h') :=
      if_neg fun other => exceeds (full.symm.trans other)
    rw [here, there]
    exact .running pushed body

end Paired

section

variable (lawful : p.Lawful) (machine : m.Paired p m')

include lawful machine

omit machine in
theorem closure_paired {c : Closure} {args : List Value} {h h' : Heap} (callee : c.Fits p)
    (fits : Values.Fits p args) (alike : p.Alike h h') :
    ((Callable.closure c).run args h).Paired p
      ((Callable.closure c).run (Values.rename p.move args) h') :=
  (c.paired_body lawful callee fits).run alike

omit machine in
theorem native_paired {n : Native} {args : List Value} {h h' : Heap} (callee : n.Fits p)
    (fits : Values.Fits p args) (takes : n.Takes p args) (alike : p.Alike h h') :
    ((Callable.native n).run args h).Paired p
      ((Callable.native (n.rename p.move)).run (Values.rename p.move args) h') := by
  refine Library.paired_run lawful callee fits takes _ _ h h' alike ?_
  rintro vs _ g g' ⟨results, rfl⟩ alike'
  exact .done results alike'

theorem replace_paired {f : Value} {args : List Value} (line : Nat) {h h' : Heap}
    (callee : f.Fits p) (fits : Values.Fits p args) (alike : p.Alike h h')
    (clear : ¬ (Turn.done (.called f args line) h).Makes p.Avoids) :
    (m.replace f args line h).Paired p
      (m'.replace (f.rename p.move) (Values.rename p.move args) line h') := by
  cases f with
  | function id =>
    refine .running machine ?_
    rw [alike.functions]
    exact closure_paired lawful (alike.closure id) fits alike
  | native n =>
    refine machine.invoke _ alike (native_paired lawful callee fits ?_ alike)
      fun vs g g' results alike => .done results alike
    exact lawful.clear alike n args callee fits clear
  | _ => exact .running machine (.fail alike)

theorem complete_paired {c : Completion} {h h' : Heap} (fits : c.Fits p) (alike : p.Alike h h')
    (clear : ¬ (Turn.done c h).Makes p.Avoids) :
    (m.complete c h).Paired p (m'.complete (c.rename p.move) h') := by
  have values : Values.Fits p (valuesOf c) ∧
      valuesOf (c.rename p.move) = Values.rename p.move (valuesOf c) := by
    cases c with
    | returned vs => exact ⟨fits, rfl⟩
    | _ => exact ⟨no_values_fit, rfl⟩
  have called : ∀ f args line, c = .called f args line →
      (m.replace f args line h).Paired p
        (m'.replace (f.rename p.move) (Values.rename p.move args) line h') := by
    rintro f args line rfl
    exact replace_paired lawful machine line fits.1 fits.2 alike clear
  have frames := machine.frames
  cases here : m.frames with
  | nil =>
    rw [here] at frames
    cases there : m'.frames with
    | cons => rw [there] at frames; cases frames
    | nil =>
      simp only [complete, here, there]
      cases c with
      | called f args line => exact called f args line rfl
      | _ => exact .ended
  | cons top rest =>
    rw [here] at frames
    cases there : m'.frames with
    | nil => rw [there] at frames; cases frames
    | cons top' rest' =>
      rw [there] at frames
      have popped := machine.pop here there
      cases frames with
      | cons frame _ =>
        cases frame with
        | task rest =>
          simp only [complete, here, there]
          exact .running popped (rest c h h' fits alike)
        | call rest =>
          simp only [complete, here, there]
          cases c with
          | called f args line => exact called f args line rfl
          | _ => exact .running popped (values.2 ▸ rest _ h h' values.1 alike)

theorem meet_again {t t' : Turn} (turn : t.Paired p t') (never : NeverMakes p.Avoids m t)
    (clear : p.Detours → StaysClear p.Avoids m t) :
    ∃ u u', Reaches m t m u ∧ Reaches m' t' m' u' ∧ (¬ p.Detours → u = t ∧ u' = t') ∧
      ((m.step u).Paired p (m'.step u') ∨
        ∃ id level h h', u = .fail (.raised (.table id) level) h ∧
          u' = .fail (.raised (.table (p.move id)) level) h') := by
  induction turn with
  | done fits alike =>
    exact ⟨_, _, .refl, .refl, fun _ => ⟨rfl, rfl⟩,
      .inl (complete_paired lawful machine fits alike (never _ _ .refl))⟩
  | @fail f h h' alike =>
    refine ⟨_, _, .refl, .refl, fun _ => ⟨rfl, rfl⟩, ?_⟩
    by_cases shown : ∃ id level, f = .raised (.table id) level
    · obtain ⟨id, level, rfl⟩ := shown
      exact .inr ⟨id, level, h, h', rfl, rfl⟩
    · have ending := machine.endingOf fun id level same => shown ⟨id, level, same⟩
      refine .inl ?_
      simp only [step, ending]
      exact .ended
  | closure callee fits alike rest =>
    exact ⟨_, _, .refl, .refl, fun _ => ⟨rfl, rfl⟩,
      .inl (machine.invoke _ alike (closure_paired lawful callee fits alike) rest)⟩
  | native callee fits takes alike rest =>
    exact ⟨_, _, .refl, .refl, fun _ => ⟨rfl, rfl⟩,
      .inl (machine.invoke _ alike (native_paired lawful callee fits takes alike) rest)⟩
  | answer alike body rest =>
    exact ⟨_, _, .refl, .refl, fun _ => ⟨rfl, rfl⟩, .inl (machine.invoke _ alike body rest)⟩
  | enter task alike rest =>
    exact ⟨_, _, .refl, .refl, fun _ => ⟨rfl, rfl⟩, .inl
      (.running (machine.push (.task rest)) ((Task.paired_round lawful task).run alike))⟩
  | switch task alike =>
    exact ⟨_, _, .refl, .refl, fun _ => ⟨rfl, rfl⟩,
      .inl (.running machine ((Task.paired_round lawful task).run alike))⟩
  | pause rest => exact ⟨_, _, .refl, .refl, fun _ => ⟨rfl, rfl⟩, .inl (.running machine rest)⟩
  | @draw f h h' resume resume' rest =>
    refine ⟨_, _, .refl, .refl, fun _ => ⟨rfl, rfl⟩, .inl ?_⟩
    have there : m'.step (.draw f h' resume') = .running { m' with random := (f m.random).2 }
        (resume' (f m.random).1 h') := by
      rw [← machine.random]
      rfl
    rw [there]
    exact .running ⟨machine.frames, machine.depth, machine.nested, rfl⟩ (rest (f m.random).1)
  | @skip n args vs site h g resume _ detours body rest ih =>
    obtain ⟨here, resumed⟩ := reaches_answer body (clear detours)
    obtain ⟨u, u', left, right, -, paired⟩ := ih resumed.neverMakes fun _ => resumed
    exact ⟨u, u', here.trans left, right, absurd detours, paired⟩
  | @meet n n' args args' vs vs' site h h' g g' resume resume' detours body other rest ih =>
    obtain ⟨here, resumed⟩ := reaches_answer body (clear detours)
    have free : (m'.push (.call site resume')).isFull = false :=
      (machine.isFull site resume resume').trans (clear detours).notFull
    have answered := (reaches_body free).trans (reaches_settles other)
    have there := answered.trans (reaches_next (step_returned m' site resume' vs' g'))
    obtain ⟨u, u', left, right, -, paired⟩ := ih resumed.neverMakes fun _ => resumed
    exact ⟨u, u', here.trans left, there.trans right, absurd detours, paired⟩
  | stray makes => exact absurd makes (never _ _ .refl)

theorem meet_clear {t t' : Turn} (turn : t.Paired p t') (clear : StaysClear p.Avoids m t) :
    ∃ u u', Reaches m t m u ∧ Reaches m' t' m' u' ∧ (m.step u).Paired p (m'.step u') := by
  obtain ⟨u, u', left, right, -, progress⟩ :=
    meet_again lawful machine turn clear.neverMakes fun _ => clear
  rcases progress with paired | ⟨id, level, h, h', rfl, -⟩
  · exact ⟨u, u', left, right, paired⟩
  · exact absurd trivial (clear _ _ left)

omit machine in
theorem ends_paired {n : Nat} {m m' : Machine} (machine : m.Paired p m') {t t' : Turn}
    (turn : t.Paired p t') (clear : StaysClear p.Avoids m t) {e : Ending} (ends : Ends n m t e) :
    ∃ k, Ends k m' t' (e.rename p.move) := by
  induction n using Nat.strongRecOn generalizing m m' t t' with
  | _ n ih =>
    obtain ⟨u, u', left, right, progress⟩ := meet_clear lawful machine turn clear
    obtain ⟨k, bound, ends⟩ := ends.after left
    suffices ∃ k, Ends k m' u' (e.rename p.move) from this.elim fun _ later => later.before right
    cases ends with
    | now last =>
      rw [last] at progress
      generalize next : m'.step u' = progress' at progress
      cases progress
      exact ⟨0, .now next⟩
    | @later k _ m₁ _ t₁ _ step rest =>
      have resumed := clear.after (left.trans (reaches_next step))
      rw [step] at progress
      generalize next : m'.step u' = progress' at progress
      cases progress with
      | running machine turn =>
        obtain ⟨k', ends'⟩ := ih k bound machine turn resumed rest
        exact ⟨k' + 1, .later next ends'⟩

omit machine in
theorem paired_ends {n : Nat} {m m' : Machine} (machine : m.Paired p m') {t t' : Turn}
    (turn : t.Paired p t') (clear : StaysClear p.Avoids m t) {e' : Ending}
    (ends : Ends n m' t' e') : ∃ e k, e' = e.rename p.move ∧ Ends k m t e := by
  induction n using Nat.strongRecOn generalizing m m' t t' with
  | _ n ih =>
    obtain ⟨u, u', left, right, progress⟩ := meet_clear lawful machine turn clear
    obtain ⟨k, bound, ends⟩ := ends.after right
    suffices ∃ e k, e' = e.rename p.move ∧ Ends k m u e from by
      obtain ⟨e, k, same, ends⟩ := this
      exact ⟨e, (ends.before left).imp fun _ ends => ⟨same, ends⟩⟩
    cases ends with
    | now last =>
      rw [last] at progress
      generalize next : m.step u = progress' at progress
      cases progress
      exact ⟨_, 0, rfl, .now next⟩
    | @later k _ m₁ _ t₁ _ step rest =>
      rw [step] at progress
      generalize next : m.step u = progress' at progress
      cases progress with
      | running machine turn =>
        have resumed := clear.after (left.trans (reaches_next next))
        obtain ⟨e, k', same, ends'⟩ := ih k bound machine turn resumed rest
        exact ⟨e, k' + 1, same, .later next ends'⟩

theorem run_paired {t t' : Turn} (turn : t.Paired p t') (clear : StaysClear p.Avoids m t)
    (e' : Ending) :
    (∃ fuel, (run fuel m' t').1 = some e') ↔
      ∃ e fuel, e' = e.rename p.move ∧ (run fuel m t).1 = some e := by
  constructor
  · rintro ⟨fuel, ended⟩
    obtain ⟨n, -, ends⟩ := (run_eq_some_iff fuel).1 ended
    obtain ⟨e, k, same, ends⟩ := paired_ends lawful machine turn clear ends
    exact ⟨e, k + 1, same, (run_eq_some_iff _).2 ⟨k, Nat.lt_succ_self k, ends⟩⟩
  · rintro ⟨e, fuel, rfl, ended⟩
    obtain ⟨n, -, ends⟩ := (run_eq_some_iff fuel).1 ended
    obtain ⟨k, ends⟩ := ends_paired lawful machine turn clear ends
    exact ⟨k + 1, (run_eq_some_iff _).2 ⟨k, Nat.lt_succ_self k, ends⟩⟩

inductive Ending.Paired (p : Pairing) : Ending → Ending → Prop
  | same (e : Ending) : Paired p e (e.rename p.move)
  | shown (id : TableId) :
    Paired p (.raised (Value.table id).display) (.raised (Value.table (p.move id)).display)

omit machine in
theorem run_in_step (straight : ¬ p.Detours) (fuel : Nat) {m m' : Machine}
    (machine : m.Paired p m') {t t' : Turn} (turn : t.Paired p t')
    (never : NeverMakes p.Avoids m t) :
    Option.Rel (Ending.Paired p) (run fuel m t).1 (run fuel m' t').1 ∧
      (run fuel m' t').2.1 = (run fuel m t).2.1 ∧
        (run fuel m' t').2.2.1 = (run fuel m t).2.2.1 := by
  induction fuel generalizing m m' t t' with
  | zero => exact ⟨.none, rfl, machine.random⟩
  | succ fuel ih =>
    obtain ⟨u, u', -, -, same, progress⟩ :=
      meet_again lawful machine turn never fun detours => absurd detours straight
    obtain ⟨rfl, rfl⟩ := same straight
    rcases progress with paired | ⟨id, level, h, h', rfl, rfl⟩
    · generalize next : m.step u = progress at paired
      generalize next' : m'.step u' = progress' at paired
      cases paired with
      | running machine turn =>
        simp only [run, next, next']
        exact ih machine turn (never.after (reaches_next next))
      | ended =>
        simp only [run, next, next']
        exact ⟨.some (.same _), trivial, machine.random⟩
    · exact ⟨.some (.shown id), rfl, machine.random⟩

end

end Machine

end CallGuard.Lua
