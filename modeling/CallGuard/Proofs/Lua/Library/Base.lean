import CallGuard.Proofs.Lua.Operations

set_option autoImplicit false

namespace CallGuard.Lua.Library

open Routine

variable {base : Heap} {vs : Args}

theorem ensures_toNumber (within : Values.Within base.Shows vs) :
    (toNumber vs).Ensures base (Value.Within base.Shows) := by
  have number : ∀ o : Option Num, ((o.map Value.ofNum).getD .nil).Within base.Shows := by
    rintro (_ | n)
    · trivial
    · exact (Value.ofNum_plain n).within
  have integer : ∀ o : Option Int64, ((o.map Value.int).getD .nil).Within base.Shows := by
    rintro (_ | i) <;> trivial
  unfold toNumber
  split
  · exact (Args.ensures_present within 1).bind fun v _ => ensures_pure (number _)
  · refine (Args.safe_int vs 2).bind fun radix _ => ?_
    split
    · exact ensures_unless (ensures_pure (integer _))
    · exact ensures_invalid

theorem ensures_selectFrom (vs : Args) {rest : List Value}
    (within : Values.Within base.Shows rest) :
    (select.selectFrom vs rest).Ensures base (Values.Within base.Shows) := by
  refine (Args.safe_int vs 1).bind fun n _ => ?_
  dsimp only
  split <;> exact ensures_unless (ensures_pure (within.drop _))

theorem ensures_select (within : Values.Within base.Shows vs) :
    (select vs).Ensures base (Values.Within base.Shows) := by
  have rest := ensures_selectFrom vs (within.drop 1)
  unfold select
  dsimp only
  split
  · split
    · exact ensures_pure (by simp)
    · exact rest
  · exact rest

theorem ensures_containsFrom {t : Value} (list : t.Within base.Shows) (v : Value) (fuel : Nat)
    (i : Int64) : (containsFrom t v fuel i).Ensures base (Value.Within base.Shows) := by
  induction fuel generalizing i with
  | zero => exact ensures_pure trivial
  | succ fuel ih =>
    refine safe_pause.bind fun _ _ => (ensures_item list i).bind fun w _ => ?_
    split
    · exact ensures_pure trivial
    · split
      · exact ensures_pure trivial
      · exact ih (i + 1)

def FoundWithin (P : TableId → Prop) (found : Option (Option (Key × Value))) : Prop :=
  ∀ key v, found = some (some (key, v)) → key.Within P ∧ v.Within P

theorem ensures_found (found : Option (Option (Key × Value))) :
    FoundWithin base.Shows found →
      (match found with
        | none => invalid
        | some none => return [.nil]
        | some (some (key, v)) => return [key.toValue, v] : Routine (List Value)).Ensures base
          (Values.Within base.Shows) := by
  intro entries
  rcases found with _ | _ | ⟨key, v⟩
  · exact ensures_invalid
  · exact ensures_pure (by simp)
  · exact ensures_pure (by simpa using entries key v rfl)

theorem ensures_nextEntry (id : TableId) (k : Value) :
    (nextEntry id k).Ensures base (Values.Within base.Shows) := by
  have entry : ∀ key, (read fun h => (h.tables.getD id .empty).next? key).Ensures base
      (FoundWithin base.Shows) :=
    fun key => ensures_read fun h ext found v is => (ext.within.table id).next? is
  unfold nextEntry
  dsimp only
  split
  · exact (entry none).bind ensures_found
  · split
    · exact ensures_found none (by simp [FoundWithin])
    · exact (entry _).bind ensures_found

theorem ensures_itemStep (within : Values.Within base.Shows vs) :
    (itemStep vs).Ensures base (Values.Within base.Shows) := by
  refine (Args.safe_int vs 2).bind fun i _ => ?_
  refine (ensures_item (Args.value_within within 1) (i + 1)).bind fun v value => ensures_pure ?_
  split
  · simp
  · simpa using value

theorem atMost_within {P : TableId → Prop} {ws : List Value} (within : Values.Within P ws)
    (n : Nat) : Values.Within P (Library.base.atMost n ws) := by
  refine Values.Within.take ?_ n
  rw [values_append_within]
  refine ⟨within, fun v member => ?_⟩
  rw [List.eq_of_mem_replicate member]
  trivial

theorem ensures_walk {v : Value} (value : v.Within base.Shows) (found : Option Native) :
    (∀ n, found = some n → n.Within base.Shows) →
      (match found with
        | some n => do return Library.base.atMost 3 (← call (.native n) [v] .native)
        | none => return [.native (.base .next), v, .nil] : Routine (List Value)).Ensures base
          (Values.Within base.Shows) := by
  intro callee
  cases found with
  | none => exact ensures_pure (by simpa [Native.Within] using value)
  | some n =>
    refine (ensures_callNative .native (callee n rfl) (by simpa using value)).bind ?_
    exact fun ws results => ensures_pure (atMost_within results 3)

theorem ensures_pairs (within : Values.Within base.Shows vs) :
    (Library.base .pairs vs).Ensures base (Values.Within base.Shows) := by
  refine (Args.ensures_present within 1).bind fun v value => ?_
  dsimp only
  split
  · next id => exact (Value.ensures_handler id Handlers.Within.pairs).bind (ensures_walk value)
  · exact ensures_walk value none nofun

theorem ensures_base (f : BaseFunction) (within : Values.Within base.Shows vs) :
    (Library.base f vs).Ensures base (Values.Within base.Shows) := by
  cases f with
  | assert =>
    refine (Args.ensures_present within 1).bind fun v _ => ?_
    split
    · exact ensures_pure within
    · split <;> exact ensures_fail (by simp)
  | contains =>
    have argument := Args.value_within within 1
    simp only [Library.base]
    split
    · next id is =>
      rw [is] at argument
      exact (ensures_containsFrom argument _ _ _).bind fun v value =>
        ensures_pure (by simpa using value)
    · exact ensures_pure (by simp)
  | error => exact (Args.safe_intOr vs 2 1).bind fun _ _ => ensures_fail (by simp)
  | ipairs =>
    exact (Args.ensures_present within 1).bind fun v value =>
      ensures_pure (by simpa [Native.Within] using value)
  | next =>
    simp only [Library.base]
    split
    · exact ensures_nextEntry _ _
    · exact ensures_invalid
  | pairs => exact ensures_pairs within
  | select => exact ensures_select within
  | toNumber =>
    exact (ensures_toNumber within).bind fun v value => ensures_pure (by simpa using value)
  | toString => exact (Args.ensures_present within 1).bind fun _ _ => ensures_pure (by simp)
  | type => exact (Args.ensures_present within 1).bind fun _ _ => ensures_pure (by simp)

theorem ensures_report {α : Type} {Q : α → Prop} (support : Support) (start : String) (k : Value) :
    (report support start k).Ensures base Q := by
  unfold report
  split
  · exact ensures_fail (by simp)
  · exact ensures_invalid

theorem ensures_lookup (names : TableId) (optional : List String) (support : Support) (k : Value) :
    (lookup names optional support k).Ensures base (Value.Within base.Shows) := by
  refine (Value.ensures_rawIndex names k).bind fun v value => ?_
  have answer : ∀ isOptional : Bool, Ensures base
      (if !v.isNil || isOptional then return v else report support "undeclared variable '" k)
      (Value.Within base.Shows) := by
    intro isOptional
    split
    · exact ensures_pure value
    · exact ensures_report _ _ _
  cases k <;> exact answer _

theorem ensures_viewStep (source : TableId) {view : TableId} (shown : base.Shows view)
    (support : Support) (k : Value) :
    (viewStep source view support k).Ensures base (Values.Within base.Shows) := by
  have step : (do
      let key := firstOf (← nextEntry source k)
      if key.isNil then return [.nil]
      else return [key, ← (Value.table view).index key .native] : Routine (List Value)).Ensures base
        (Values.Within base.Shows) := by
    refine (ensures_nextEntry source k).bind fun entry within => ?_
    dsimp only
    split
    · exact ensures_pure (by simp)
    · have object : (Value.table view).Within base.Shows := shown
      refine (Value.ensures_index .native object within.firstOf).bind fun v value =>
        ensures_pure ?_
      simpa using And.intro within.firstOf value
  exact ensures_unless step

end CallGuard.Lua.Library
