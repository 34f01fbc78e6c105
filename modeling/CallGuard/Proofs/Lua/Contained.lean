import CallGuard.Proofs.Lua.Extends

set_option autoImplicit false

namespace CallGuard.Lua

variable {P : TableId → Prop}

-- The cells of variables are reached through the heap.
def Scope.Within (P : TableId → Prop) (s : Scope) : Prop := Values.Within P s.varargs

def Completion.Within (P : TableId → Prop) : Completion → Prop
  | .normal s => s.Within P
  | .left => True
  | .jumped _ s => s.Within P
  | .returned vs => Values.Within P vs
  | .called f args _ => f.Within P ∧ Values.Within P args

def Task.Within (P : TableId → Prop) : Task → Prop
  | .whileLoop _ _ s => s.Within P
  | .repeatLoop _ _ s => s.Within P
  | .count _ _ _ _ _ s => s.Within P
  | .countFloat _ _ _ _ _ s => s.Within P
  | .iterate _ f state control _ _ s =>
    f.Within P ∧ state.Within P ∧ control.Within P ∧ s.Within P
  | .labelled _ _ _ s => s.Within P

def Callable.Within (P : TableId → Prop) : Callable → Prop
  | .closure _ => True
  | .native n => n.Within P

@[simp] theorem bind_within (s : Scope) (name : String) (c : CellId) :
    (s.bind name c).Within P ↔ s.Within P := Iff.rfl

def Turn.Contained (base : Heap) : Turn → Prop
  | .done c h => c.Within base.Shows ∧ h.Extends base
  | .fail f h => f ≠ .memory ∧ h.Extends base
  | .call f args _ h resume =>
    f.Within base.Shows ∧ Values.Within base.Shows args ∧ h.Extends base ∧
      ∀ vs h', Values.Within base.Shows vs → h'.Extends base → (resume vs h').Contained base
  | .enter t h resume =>
    t.Within base.Shows ∧ h.Extends base ∧
      ∀ c h', c.Within base.Shows → h'.Extends base → (resume c h').Contained base
  | .switch t h => t.Within base.Shows ∧ h.Extends base
  | .pause h resume =>
    h.Extends base ∧ ∀ h', h'.Extends base → (resume h').Contained base
  | .draw _ h resume =>
    h.Extends base ∧ ∀ w h', h'.Extends base → (resume w h').Contained base

theorem Turn.Contained.heapOf {base : Heap} {t : Turn} (contained : t.Contained base) :
    (Machine.heapOf t).Extends base := by
  cases t with
  | done => exact contained.2
  | fail => exact contained.2
  | call => exact contained.2.2.1
  | enter => exact contained.2.1
  | switch => exact contained.2
  | pause => exact contained.1
  | draw => exact contained.1

namespace Routine

variable {α β : Type} {base : Heap} {Q : α → Prop} {R : β → Prop}

instance : LawfulMonad Routine :=
  LawfulMonad.mk' Routine (fun _ => rfl) (fun _ _ => rfl) (fun _ _ _ => rfl)

def Ensures (base : Heap) (r : Routine α) (Q : α → Prop) : Prop :=
  ∀ k h, h.Extends base → (∀ a h', Q a → h'.Extends base → (k a h').Contained base) →
    (r k h).Contained base

-- For results that no table can be reached from.
abbrev Safe (base : Heap) (r : Routine α) : Prop := r.Ensures base fun _ => True

theorem Ensures.run {r : Routine Completion}
    (ensures : r.Ensures base (Completion.Within base.Shows)) {h : Heap} (ext : h.Extends base) :
    (r.run h).Contained base :=
  ensures _ h ext fun _ _ within ext => ⟨within, ext⟩

theorem ensures_pure {a : α} (holds : Q a) : (pure a : Routine α).Ensures base Q :=
  fun _ h ext next => next a h holds ext

theorem Ensures.bind {m : Routine α} {f : α → Routine β} (first : m.Ensures base Q)
    (rest : ∀ a, Q a → (f a).Ensures base R) : (m >>= f).Ensures base R :=
  fun k h ext next => first _ h ext fun a h' holds ext' => rest a holds k h' ext' next

theorem Ensures.discard {m : Routine α} (ensures : m.Ensures base Q) :
    (discard m).Safe base :=
  ensures.bind fun _ _ => ensures_pure trivial

theorem ensures_fail {f : Fault} (other : f ≠ .memory) : (fail f : Routine α).Ensures base Q :=
  fun _ _ ext _ => ⟨other, ext⟩

theorem ensures_invalid : (invalid : Routine α).Ensures base Q := ensures_fail (by simp)

theorem ensures_ite {c : Prop} [Decidable c] {yes no : Routine α} (first : yes.Ensures base Q)
    (second : no.Ensures base Q) : (if c then yes else no).Ensures base Q := by
  split
  · exact first
  · exact second

theorem ensures_unless {c : Prop} [Decidable c] {r : Routine α} (rest : r.Ensures base Q) :
    (if c then invalid >>= fun _ : PUnit => r else r).Ensures base Q :=
  ensures_ite (ensures_fail (by simp)) rest

theorem ensures_ofOption {o : Option α} (holds : ∀ a, o = some a → Q a) :
    (ofOption o).Ensures base Q := by
  cases o with
  | none => exact ensures_invalid
  | some a => exact ensures_pure (holds a rfl)

theorem safe_ofOption (o : Option α) : (ofOption o).Safe base := ensures_ofOption fun _ _ => trivial

theorem ensures_read {f : Heap → α} (holds : ∀ h, h.Extends base → Q (f h)) :
    (read f).Ensures base Q :=
  fun _ h ext next => next (f h) h (holds h ext) ext

theorem safe_read (f : Heap → α) : (read f).Safe base := ensures_read fun _ _ => trivial

theorem safe_update {f : Heap → Heap} (kept : ∀ h, h.Extends base → (f h).Extends base) :
    (update f).Safe base :=
  fun _ h ext next => next () (f h) trivial (kept h ext)

theorem ensures_alloc {f : Heap → α × Heap}
    (made : ∀ h, h.Extends base → Q (f h).1 ∧ (f h).2.Extends base) : (alloc f).Ensures base Q :=
  fun _ h ext next => next (f h).1 (f h).2 (made h ext).1 (made h ext).2

theorem ensures_call {f : Callable} {args : List Value} (site : CallSite)
    (callee : f.Within base.Shows) (within : Values.Within base.Shows args) :
    (call f args site).Ensures base (Values.Within base.Shows) :=
  fun _ _ ext next => ⟨callee, within, ext, next⟩

theorem ensures_callNative {n : Native} {args : List Value} (site : CallSite)
    (callee : n.Within base.Shows) (within : Values.Within base.Shows args) :
    (call (.native n) args site).Ensures base (Values.Within base.Shows) :=
  ensures_call site callee within

theorem ensures_enter {t : Task} (task : t.Within base.Shows) :
    (enter t).Ensures base (Completion.Within base.Shows) :=
  fun _ _ ext next => ⟨task, ext, next⟩

theorem ensures_switch {t : Task} (task : t.Within base.Shows) :
    (switch t : Routine α).Ensures base Q :=
  fun _ _ ext _ => ⟨task, ext⟩

theorem safe_draw (f : Random → UInt64 × Random) : (draw f).Safe base :=
  fun _ _ ext next => ⟨ext, fun w h' => next w h' trivial⟩

theorem safe_pause : pause.Safe base :=
  fun _ _ ext next => ⟨ext, fun h' => next () h' trivial⟩

theorem safe_pauses (n : Nat) : (pauses n).Safe base := by
  induction n with
  | zero => exact ensures_pure trivial
  | succ n ih => exact safe_pause.bind fun _ _ => ih

theorem safe_spend (bytes : Nat) : (spend bytes).Safe base := safe_pauses _

theorem ensures_mapM {f : α → Routine β} (each : ∀ a, (f a).Ensures base R) (as : List α) :
    (as.mapM f).Ensures base fun bs => ∀ b ∈ bs, R b := by
  induction as with
  | nil => exact ensures_pure (by simp)
  | cons a as ih =>
    rw [List.mapM_cons]
    refine (each a).bind fun b holds => ih.bind fun bs all => ensures_pure ?_
    simpa using ⟨holds, all⟩

theorem ensures_foldlM {f : β → α → Routine β} (as : List α)
    (each : ∀ b a, a ∈ as → R b → (f b a).Ensures base R) {b : β} (holds : R b) :
    (as.foldlM f b).Ensures base R := by
  induction as generalizing b with
  | nil => exact ensures_pure holds
  | cons a as ih =>
    rw [List.foldlM_cons]
    exact (each b a List.mem_cons_self holds).bind fun c later =>
      ih (fun c a member => each c a (List.mem_cons_of_mem _ member)) later

end Routine

end CallGuard.Lua
