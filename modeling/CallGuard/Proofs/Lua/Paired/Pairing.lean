import CallGuard.Proofs.Lua.Contained
import CallGuard.Proofs.Lua.Paired.Mentions
import CallGuard.Proofs.Lua.Paired.Renaming

set_option autoImplicit false

namespace CallGuard.Lua

def Scope.rename (move : TableId → TableId) (s : Scope) : Scope :=
  { s with varargs := Values.rename move s.varargs }

def Fault.rename (move : TableId → TableId) : Fault → Fault
  | .raised v level => .raised (v.rename move) level
  | f => f

def Completion.rename (move : TableId → TableId) : Completion → Completion
  | .normal s => .normal (s.rename move)
  | .left => .left
  | .jumped label s => .jumped label (s.rename move)
  | .returned vs => .returned (Values.rename move vs)
  | .called f args line => .called (f.rename move) (Values.rename move args) line

def Task.rename (move : TableId → TableId) : Task → Task
  | .whileLoop test body s => .whileLoop test body (s.rename move)
  | .repeatLoop body test s => .repeatLoop body test (s.rename move)
  | .count name i step left body s => .count name i step left body (s.rename move)
  | .countFloat name x step limit body s => .countFloat name x step limit body (s.rename move)
  | .iterate names f state control body line s =>
    .iterate names (f.rename move) (state.rename move) (control.rename move) body line
      (s.rename move)
  | .labelled block rest outer s => .labelled block rest outer (s.rename move)

structure Pairing where
  move : TableId → TableId
  -- The tables that are the same on both sides up to names.
  Mirrored : TableId → Prop
  -- The tables that a program may hold.
  Shows : TableId → Prop
  -- From here on, tables are made by the program. The other heap has some more before them.
  fresh : Nat
  more : Nat
  -- The table of the global variables, and the cell where it is found.
  env : TableId
  envCell : CellId
  Says : Mention → Prop
  -- Whether a program may hold the function that loops over tables start with.
  HoldsPairs : Prop
  -- How the tables are related that are not mirrored.
  Beside : Array Table → Array Table → Prop
  -- The functions that step through a table, where they differ.
  Steps : Value → Value → Value → Prop
  -- The calls that a program does not make.
  Avoids : Native → List Value → Heap → Prop
  -- Whether one run may make calls that the other one does not.
  Detours : Prop

namespace Pairing

variable (p : Pairing)

def Speaks (mentions : List Mention) : Prop := ∀ m ∈ mentions, p.Says m

def Binds (bindings : Bindings) : Prop :=
  ∀ b ∈ bindings, b.1 = environmentName ↔ b.2 = p.envCell

end Pairing

variable {p : Pairing}

def Native.Fits (p : Pairing) : Native → Prop
  | .base .pairs => p.HoldsPairs
  | .matchStep _ _ start last => start ≠ p.envCell ∧ last ≠ p.envCell
  | .lookup _ _ _ => False
  | .viewIndex source => p.Mirrored source
  | .viewLength source => p.Mirrored source
  | .viewPairs source _ => p.Mirrored source
  | .viewStep source view _ => p.Mirrored source ∧ p.Shows view
  | _ => True

def Value.Fits (p : Pairing) : Value → Prop
  | .table id => p.Shows id
  | .native n => n.Fits p
  | _ => True

def Values.Fits (p : Pairing) (vs : List Value) : Prop := ∀ v ∈ vs, v.Fits p

abbrev Key.Fits (p : Pairing) (k : Key) : Prop := k.toValue.Fits p

@[simp] theorem nil_fits : Value.nil.Fits p := trivial

@[simp] theorem bool_fits (b : Bool) : (Value.bool b).Fits p := trivial

@[simp] theorem int_fits (i : Int64) : (Value.int i).Fits p := trivial

@[simp] theorem float_fits (x : Float) : (Value.float x).Fits p := trivial

@[simp] theorem string_fits (s : Bytes) : (Value.string s).Fits p := trivial

@[simp] theorem text_fits (s : String) : (Value.text s).Fits p := trivial

@[simp] theorem function_fits (id : FunctionId) : (Value.function id).Fits p := trivial

@[simp] theorem no_values_fit : Values.Fits p [] := by simp [Values.Fits]

@[simp] theorem values_cons_fit (v : Value) (vs : List Value) :
    Values.Fits p (v :: vs) ↔ v.Fits p ∧ Values.Fits p vs := by
  simp [Values.Fits]

@[simp] theorem values_append_fit (vs ws : List Value) :
    Values.Fits p (vs ++ ws) ↔ Values.Fits p vs ∧ Values.Fits p ws := by
  simp [Values.Fits, or_imp, forall_and]

theorem admits_fits : Value.Admits (Value.Fits p) := ⟨nil_fits, int_fits⟩

theorem Value.Plain.fits {v : Value} (plain : v.Plain) : v.Fits p := by
  cases v with
  | table id => exact plain.elim
  | native n => exact plain.elim
  | _ => trivial

theorem Values.Plain.fits {vs : List Value} (plain : Values.Plain vs) : Values.Fits p vs :=
  fun v member => (plain v member).fits

namespace Values.Fits

variable {vs : List Value}

theorem sublist (fits : Values.Fits p vs) {ws : List Value} (part : ∀ v ∈ ws, v ∈ vs) :
    Values.Fits p ws :=
  fun v member => fits v (part v member)

theorem drop (fits : Values.Fits p vs) (n : Nat) : Values.Fits p (vs.drop n) :=
  fits.sublist fun _ member => List.mem_of_mem_drop member

theorem tail (fits : Values.Fits p vs) : Values.Fits p vs.tail :=
  fits.sublist fun _ member => List.mem_of_mem_tail member

theorem reverse (fits : Values.Fits p vs) : Values.Fits p vs.reverse :=
  fits.sublist fun _ member => List.mem_reverse.1 member

theorem firstOf (fits : Values.Fits p vs) : (firstOf vs).Fits p := by
  cases vs with
  | nil => trivial
  | cons v rest => exact fits v List.mem_cons_self

theorem adjust (fits : Values.Fits p vs) (n : Nat) : Values.Fits p (Lua.adjust n vs) := by
  induction n generalizing vs with
  | zero => simp [Lua.adjust]
  | succ n ih =>
    cases vs with
    | nil => simpa [Lua.adjust] using ih fits
    | cons v rest =>
      rw [values_cons_fit] at fits
      simpa [Lua.adjust] using And.intro fits.1 (ih fits.2)

end Values.Fits

theorem Value.Fits.toKey? {v : Value} (fits : v.Fits p) {k : Key} (key : v.toKey? = some k) :
    k.Fits p := by
  cases v with
  | nil => simp [Value.toKey?] at key
  | float x =>
    simp only [Value.toKey?] at key
    split at key
    · simp at key
    · split at key <;> (cases key; trivial)
  | _ =>
    cases key
    exact fits

structure Handlers.Fits (p : Pairing) (h : Handlers) : Prop where
  index : ∀ n, h.index = some n → n.Fits p
  newIndex : ∀ n, h.newIndex = some n → n.Fits p
  length : ∀ n, h.length = some n → n.Fits p
  pairs : ∀ n, h.pairs = some n → n.Fits p

theorem no_handlers_fit : Handlers.none.Fits p := by
  constructor <;> simp [Handlers.none]

structure Table.Fits (p : Pairing) (t : Table) : Prop where
  entries : t.Holds (Value.Fits p)
  handlers : t.handlers.Fits p

theorem Table.ofSizes_fits (items others : Nat) : (Table.ofSizes items others).Fits p :=
  ⟨Table.ofSizes_holds nil_fits items others, no_handlers_fit⟩

theorem Table.Fits.set {t : Table} (fits : t.Fits p) {k : Key} {v : Value} (key : k.Fits p)
    (value : v.Fits p) : (t.set k v).Fits p :=
  ⟨fits.entries.set admits_fits key value, Table.set_handlers t k v ▸ fits.handlers⟩

def Value.isTable : Value → Bool
  | .table _ => true
  | _ => false

def Native.Takes (p : Pairing) : Native → List Value → Prop
  | .base .toString, vs => (Library.Args.value vs 1).isTable = false
  | .string .format, vs => ∀ v ∈ vs, v.isTable = false
  | .viewNewIndex _, vs => (Library.Args.value vs 2).isTable = false
  | .base .next, vs => ∀ id, Library.Args.value vs 1 = .table id → p.Mirrored id
  | .base .pairs, vs => ∀ id, Library.Args.value vs 1 = .table id → p.Mirrored id
  | _, _ => True

structure Scope.Fits (p : Pairing) (s : Scope) : Prop where
  locals : p.Binds s.locals
  captured : p.Binds s.captured
  varargs : Values.Fits p s.varargs

structure Closure.Fits (p : Pairing) (c : Closure) : Prop where
  function : p.Speaks c.function.mentions
  captured : p.Binds c.captured

def Completion.Fits (p : Pairing) : Completion → Prop
  | .normal s => s.Fits p
  | .left => True
  | .jumped _ s => s.Fits p
  | .returned vs => Values.Fits p vs
  | .called f args _ => f.Fits p ∧ Values.Fits p args

def Task.Fits (p : Pairing) : Task → Prop
  | .whileLoop test body s => p.Speaks test.mentions ∧ p.Speaks (Block.mentions body) ∧ s.Fits p
  | .repeatLoop body test s => p.Speaks test.mentions ∧ p.Speaks (Block.mentions body) ∧ s.Fits p
  | .count name _ _ _ body s => p.Says ⟨name, .bound⟩ ∧ p.Speaks (Block.mentions body) ∧ s.Fits p
  | .countFloat name _ _ _ body s =>
    p.Says ⟨name, .bound⟩ ∧ p.Speaks (Block.mentions body) ∧ s.Fits p
  | .iterate names f state control body _ s =>
    p.Speaks (names.map (⟨·, .bound⟩)) ∧ f.Fits p ∧ state.Fits p ∧ control.Fits p ∧
      p.Speaks (Block.mentions body) ∧ s.Fits p
  | .labelled block rest _ s =>
    p.Speaks (Block.mentions block) ∧ p.Speaks (Block.mentions rest) ∧ s.Fits p

inductive Task.Paired (p : Pairing) : Task → Task → Prop
  | same {t : Task} (fits : t.Fits p) : Paired p t (t.rename p.move)
  | steps {names : List String} {f f' state control : Value} {body : List Stmt} {line : Nat}
      {s : Scope} (bound : p.Speaks (names.map (⟨·, .bound⟩))) (steps : p.Steps f f' state)
      (table : state.Fits p) (key : control.Fits p) (inside : p.Speaks (Block.mentions body))
      (scope : s.Fits p) :
    Paired p (.iterate names f state control body line s)
      (.iterate names f' (state.rename p.move) (control.rename p.move) body line
        (s.rename p.move))

structure Pairing.Alike (p : Pairing) (h h' : Heap) : Prop where
  mirrored : ∀ id, p.Mirrored id →
    h'.tables[p.move id]? = h.tables[id]?.map (Table.rename p.move)
  fits : ∀ id, p.Mirrored id → ∀ t, h.tables[id]? = some t → t.Fits p
  fresh : p.fresh ≤ h.tables.size
  size : h'.tables.size = h.tables.size + p.more
  beside : p.Beside h.tables h'.tables
  functions : h'.functions = h.functions
  closures : ∀ c ∈ h.functions, c.Fits p
  cellCount : h'.cells.size = h.cells.size
  cells : ∀ c, c ≠ p.envCell → (h.cell c).Fits p ∧ h'.cell c = (h.cell c).rename p.move
  envCell : p.envCell < h.cells.size
  env : h.cell p.envCell = .table p.env ∧ h'.cell p.envCell = .table (p.move p.env)
  stringMethods : p.Mirrored h.stringMethods ∧ h'.stringMethods = p.move h.stringMethods

namespace Library

def answered (vs : List Value) (h : Heap) : Turn := .done (.returned vs) h

end Library

inductive Turn.Yields : Turn → List Value → Heap → Prop
  | done {vs : List Value} {h : Heap} : Yields (.done (.returned vs) h) vs h
  | pause {h g : Heap} {resume : Heap → Turn} {vs : List Value} (rest : (resume h).Yields vs g) :
    Yields (.pause h resume) vs g
  | call {n : Native} {args vs ws : List Value} {site : CallSite} {h g g' : Heap}
      {resume : List Value → Heap → Turn}
      (body : (Library.run n args Library.answered h).Yields ws g)
      (rest : (resume ws g).Yields vs g') :
    Yields (.call (.native n) args site h resume) vs g'

inductive Turn.Settles : Turn → List Value → Heap → Prop
  | done {vs : List Value} {h : Heap} : Settles (.done (.returned vs) h) vs h
  | pause {h g : Heap} {resume : Heap → Turn} {vs : List Value} (rest : (resume h).Settles vs g) :
    Settles (.pause h resume) vs g

def Turn.Makes (calls : Native → List Value → Heap → Prop) : Turn → Prop
  | .done (.called (.native n) args _) h => calls n args h
  | .call (.native n) args _ h _ => calls n args h
  | _ => False

-- It calls what it avoids, or fails in a way that shows where a table is.
def Turn.Strays (avoids : Native → List Value → Heap → Prop) : Turn → Prop
  | .done (.called (.native n) args _) h => avoids n args h
  | .call (.native n) args _ h _ => avoids n args h
  | .fail (.raised (.table _) _) _ => True
  | .fail .stackOverflow _ => True
  | _ => False

theorem Turn.Makes.strays {calls : Native → List Value → Heap → Prop} {t : Turn}
    (makes : t.Makes calls) : t.Strays calls := by
  unfold Turn.Makes at makes
  split at makes
  · exact makes
  · exact makes
  · exact makes.elim

-- Up to calls that only one of the two runs needs, as long as the first avoids none.
inductive Turn.Paired (p : Pairing) : Turn → Turn → Prop
  | done {c : Completion} {h h' : Heap} (fits : c.Fits p) (alike : p.Alike h h') :
    Paired p (.done c h) (.done (c.rename p.move) h')
  | fail {f : Fault} {h h' : Heap} (alike : p.Alike h h') :
    Paired p (.fail f h) (.fail (f.rename p.move) h')
  | closure {c : Closure} {args : List Value} {site : CallSite} {h h' : Heap}
      {resume resume' : List Value → Heap → Turn} (callee : c.Fits p)
      (fits : Values.Fits p args) (alike : p.Alike h h')
      (rest : ∀ vs g g', Values.Fits p vs → p.Alike g g' →
        Paired p (resume vs g) (resume' (Values.rename p.move vs) g')) :
    Paired p (.call (.closure c) args site h resume)
      (.call (.closure c) (Values.rename p.move args) site h' resume')
  | native {n : Native} {args : List Value} {site : CallSite} {h h' : Heap}
      {resume resume' : List Value → Heap → Turn} (callee : n.Fits p) (fits : Values.Fits p args)
      (takes : n.Takes p args) (alike : p.Alike h h')
      (rest : ∀ vs g g', Values.Fits p vs → p.Alike g g' →
        Paired p (resume vs g) (resume' (Values.rename p.move vs) g')) :
    Paired p (.call (.native n) args site h resume)
      (.call (.native (n.rename p.move)) (Values.rename p.move args) site h' resume')
  -- Functions that the program does not hold, or that are given what it does not hold.
  | answer {n n' : Native} {args args' : List Value} {site : CallSite} {h h' : Heap}
      {resume resume' : List Value → Heap → Turn}
      (alike : p.Alike h h')
      (body : Paired p (Library.run n args Library.answered h)
        (Library.run n' args' Library.answered h'))
      (rest : ∀ vs g g', Values.Fits p vs → p.Alike g g' →
        Paired p (resume vs g) (resume' (Values.rename p.move vs) g')) :
    Paired p (.call (.native n) args site h resume) (.call (.native n') args' site h' resume')
  | enter {t t' : Task} {h h' : Heap} {resume resume' : Completion → Heap → Turn}
      (task : t.Paired p t') (alike : p.Alike h h')
      (rest : ∀ (c : Completion) g g', c.Fits p → p.Alike g g' →
        Paired p (resume c g) (resume' (c.rename p.move) g')) :
    Paired p (.enter t h resume) (.enter t' h' resume')
  | switch {t t' : Task} {h h' : Heap} (task : t.Paired p t') (alike : p.Alike h h') :
    Paired p (.switch t h) (.switch t' h')
  | pause {h h' : Heap} {resume resume' : Heap → Turn} (rest : Paired p (resume h) (resume' h')) :
    Paired p (.pause h resume) (.pause h' resume')
  | draw {f : Random → UInt64 × Random} {h h' : Heap} {resume resume' : UInt64 → Heap → Turn}
      (rest : ∀ word, Paired p (resume word h) (resume' word h')) :
    Paired p (.draw f h resume) (.draw f h' resume')
  -- A call that the other run does not need.
  | skip {n : Native} {args vs : List Value} {site : CallSite} {h g : Heap}
      {resume : List Value → Heap → Turn} {other : Turn} (detours : p.Detours)
      (body : (Library.run n args Library.answered h).Yields vs g)
      (rest : Paired p (resume vs g) other) :
    Paired p (.call (.native n) args site h resume) other
  -- Calls with results that need not be the same.
  | meet {n n' : Native} {args args' vs vs' : List Value} {site : CallSite} {h h' g g' : Heap}
      {resume resume' : List Value → Heap → Turn} (detours : p.Detours)
      (body : (Library.run n args Library.answered h).Yields vs g)
      (other : (Library.run n' args' Library.answered h').Settles vs' g')
      (rest : Paired p (resume vs g) (resume' vs' g')) :
    Paired p (.call (.native n) args site h resume) (.call (.native n') args' site h' resume')
  | stray {t other : Turn} (makes : t.Makes p.Avoids) : Paired p t other

def Routine.Paired {α β : Type} (p : Pairing) (r : Routine α) (r' : Routine β)
    (Q : α → β → Prop) : Prop :=
  ∀ k k' h h', p.Alike h h' →
    (∀ a b g g', Q a b → p.Alike g g' → (k a g).Paired p (k' b g')) →
      (r k h).Paired p (r' k' h')

def Carried {α β : Type} (move : α → β) (Q : α → Prop) (a : α) (b : β) : Prop := Q a ∧ b = move a

namespace Pairing

variable (p : Pairing)

abbrev ofValue : Value → Value → Prop := Carried (Value.rename p.move) (Value.Fits p)

abbrev ofValues : List Value → List Value → Prop :=
  Carried (Values.rename p.move) (Values.Fits p)

abbrev ofCompletion : Completion → Completion → Prop :=
  Carried (Completion.rename p.move) (Completion.Fits p)

end Pairing

namespace Routine

variable {α β γ δ : Type} {Q : α → β → Prop} {R : γ → δ → Prop}

theorem paired_pure {a : α} {b : β} (related : Q a b) :
    (pure a : Routine α).Paired p (pure b : Routine β) Q :=
  fun _ _ h h' alike next => next a b h h' related alike

theorem paired_same (a : α) : (pure a : Routine α).Paired p (pure a) Eq := paired_pure rfl

theorem Paired.mono {r : Routine α} {r' : Routine β} {Q' : α → β → Prop} (paired : r.Paired p r' Q)
    (weaker : ∀ a b, Q a b → Q' a b) : r.Paired p r' Q' :=
  fun k k' h h' alike next => paired k k' h h' alike fun a b g g' related =>
    next a b g g' (weaker a b related)

theorem Paired.bindAny {m : Routine α} {m' : Routine β} {f : α → Routine γ} {f' : β → Routine δ}
    (first : m.Paired p m' Q) (rest : ∀ a b, Q a b → (f a).Paired p (f' b) R) :
    (m >>= f).Paired p (m' >>= f') R :=
  fun k k' h h' alike next => first _ _ h h' alike fun a b g g' related alike' =>
    rest a b related k k' g g' alike' next

theorem Paired.bind {m : Routine α} {m' : Routine β} {move : α → β} {P : α → Prop}
    {f : α → Routine γ} {f' : β → Routine δ} (first : m.Paired p m' (Carried move P))
    (rest : ∀ a, P a → (f a).Paired p (f' (move a)) R) : (m >>= f).Paired p (m' >>= f') R :=
  first.bindAny fun a _ carried => carried.2 ▸ rest a carried.1

theorem Paired.next {m m' : Routine α} {f : α → Routine γ} {f' : α → Routine δ}
    (first : m.Paired p m' Eq) (rest : ∀ a, (f a).Paired p (f' a) R) :
    (m >>= f).Paired p (m' >>= f') R :=
  first.bindAny fun a _ same => same ▸ rest a

theorem Paired.discard {m : Routine α} {m' : Routine β} (paired : m.Paired p m' Q) :
    (discard m).Paired p (discard m') Eq :=
  paired.bindAny fun _ _ _ => paired_same ()

theorem paired_fail (f : Fault) :
    (fail f : Routine α).Paired p (fail (f.rename p.move) : Routine β) Q :=
  fun _ _ _ _ alike _ => .fail alike

theorem paired_invalid : (invalid : Routine α).Paired p (invalid : Routine β) Q :=
  paired_fail .invalid

theorem paired_ite {c c' : Prop} [Decidable c] [Decidable c'] {yes no : Routine α}
    {yes' no' : Routine β} (same : c ↔ c') (first : yes.Paired p yes' Q)
    (second : no.Paired p no' Q) :
    (if c then yes else no).Paired p (if c' then yes' else no') Q := by
  by_cases holds : c
  · rw [if_pos holds, if_pos (same.1 holds)]
    exact first
  · rw [if_neg holds, if_neg fun other => holds (same.2 other)]
    exact second

theorem paired_unless {c c' : Prop} [Decidable c] [Decidable c'] {r : Routine α} {r' : Routine β}
    (same : c ↔ c') (rest : r.Paired p r' Q) :
    (if c then invalid >>= fun _ : PUnit => r else r).Paired p
      (if c' then invalid >>= fun _ : PUnit => r' else r') Q :=
  paired_ite same (paired_fail .invalid) rest

theorem paired_ofOption {move : α → β} {P : α → Prop} {o : Option α} {o' : Option β}
    (fits : ∀ a, o = some a → P a) (same : o' = o.map move) :
    (ofOption o).Paired p (ofOption o') (Carried move P) := by
  subst same
  cases o with
  | none => exact paired_invalid
  | some a => exact paired_pure ⟨fits a rfl, rfl⟩

theorem paired_sameOption {o o' : Option α} (same : o' = o) :
    (ofOption o).Paired p (ofOption o') Eq := by
  rw [same]
  cases o with
  | none => exact paired_invalid
  | some a => exact paired_same a

theorem paired_read {f : Heap → α} {f' : Heap → β}
    (related : ∀ h h', p.Alike h h' → Q (f h) (f' h')) : (read f).Paired p (read f') Q :=
  fun _ _ h h' alike next => next (f h) (f' h') h h' (related h h' alike) alike

theorem paired_update {f f' : Heap → Heap} (kept : ∀ h h', p.Alike h h' → p.Alike (f h) (f' h')) :
    (update f).Paired p (update f') Eq :=
  fun _ _ h h' alike next => next () () (f h) (f' h') rfl (kept h h' alike)

theorem paired_alloc {f : Heap → α × Heap} {f' : Heap → β × Heap}
    (made : ∀ h h', p.Alike h h' → Q (f h).1 (f' h').1 ∧ p.Alike (f h).2 (f' h').2) :
    (alloc f).Paired p (alloc f') Q :=
  fun _ _ h h' alike next =>
    next (f h).1 (f' h').1 (f h).2 (f' h').2 (made h h' alike).1 (made h h' alike).2

theorem paired_closure {c : Closure} {args : List Value} (site : CallSite) (callee : c.Fits p)
    (fits : Values.Fits p args) :
    (call (.closure c) args site).Paired p
      (call (.closure c) (Values.rename p.move args) site) p.ofValues :=
  fun _ _ _ _ alike next => .closure callee fits alike fun vs g g' results =>
    next vs _ g g' ⟨results, rfl⟩

theorem paired_answer {n n' : Native} {args args' : List Value} (site : CallSite)
    (body : (Library.run n args).Paired p (Library.run n' args') p.ofValues) :
    (call (.native n) args site).Paired p (call (.native n') args' site) p.ofValues := by
  intro k k' h h' alike next
  refine .answer alike (body _ _ h h' alike ?_) fun vs g g' results => next vs _ g g' ⟨results, rfl⟩
  rintro vs _ g g' ⟨results, rfl⟩ alike'
  exact .done results alike'

theorem paired_enter {t t' : Task} (task : t.Paired p t') :
    (enter t).Paired p (enter t') p.ofCompletion :=
  fun _ _ _ _ alike next => .enter task alike fun c g g' fits => next c _ g g' ⟨fits, rfl⟩

theorem paired_switch {t t' : Task} (task : t.Paired p t') :
    (switch t : Routine α).Paired p (switch t' : Routine β) Q :=
  fun _ _ _ _ alike _ => .switch task alike

theorem paired_draw (f : Random → UInt64 × Random) : (draw f).Paired p (draw f) Eq :=
  fun _ _ h h' alike next => .draw fun word => next word word h h' rfl alike

theorem paired_pause : pause.Paired p pause Eq :=
  fun _ _ h h' alike next => .pause (next () () h h' rfl alike)

theorem paired_pauses (n : Nat) : (pauses n).Paired p (pauses n) Eq := by
  induction n with
  | zero => exact paired_same ()
  | succ n ih => exact paired_pause.next fun _ => ih

theorem paired_spend {n n' : Nat} (same : n' = n) : (spend n).Paired p (spend n') Eq :=
  same ▸ paired_pauses _

theorem paired_mapM {f : α → Routine γ} (each : ∀ a, (f a).Paired p (f a) Eq) (as : List α) :
    (as.mapM f).Paired p (as.mapM f) Eq := by
  induction as with
  | nil => exact paired_same []
  | cons a as ih =>
    rw [List.mapM_cons]
    exact (each a).next fun _ => ih.next fun _ => paired_same _

theorem Paired.run {r r' : Routine Completion} (paired : r.Paired p r' p.ofCompletion)
    {h h' : Heap} (alike : p.Alike h h') : (r.run h).Paired p (r'.run h') := by
  refine paired _ _ h h' alike ?_
  rintro c _ g g' ⟨fits, rfl⟩ alike'
  exact .done fits alike'

end Routine

end CallGuard.Lua
