import CallGuard.Proofs.Lua.Library.Base
import CallGuard.Proofs.Lua.Library.Strings
import CallGuard.Proofs.Lua.Library.Tables

set_option autoImplicit false

namespace CallGuard.Lua.Library

open Routine

variable {base : Heap} {vs : Args}

theorem integral_within {P : TableId → Prop} (x : Float) : (integral x).Within P := by
  unfold integral
  split <;> trivial

theorem ensures_onFloat (f : Float → Float) (vs : Args) :
    (onFloat f vs).Ensures base (Values.Within base.Shows) :=
  (Args.safe_float vs 1).bind fun _ _ => ensures_pure (by simp)

theorem ensures_rounded (f : Float → Float) (vs : Args) :
    (rounded f vs).Ensures base (Values.Within base.Shows) := by
  unfold rounded
  split
  · exact ensures_pure (by simp)
  · exact (Args.safe_float vs 1).bind fun x _ => ensures_pure (by simp [integral_within])

theorem ensures_absolute (vs : Args) :
    (absolute vs).Ensures base (Values.Within base.Shows) := by
  unfold absolute
  split
  · exact ensures_pure (by simp)
  · exact ensures_onFloat _ vs

theorem ensures_truncatedRemainder (vs : Args) :
    (truncatedRemainder vs).Ensures base (Values.Within base.Shows) := by
  unfold truncatedRemainder
  split
  · split
    · exact ensures_invalid
    · exact ensures_pure (by simp)
  · exact (Args.safe_float vs 1).bind fun _ _ => (Args.safe_float vs 2).bind fun _ _ =>
      ensures_pure (by simp)

theorem ensures_parts (vs : Args) : (parts vs).Ensures base (Values.Within base.Shows) := by
  unfold parts
  split
  · exact ensures_pure (by simp)
  · exact (Args.safe_float vs 1).bind fun _ _ => ensures_pure (by simp)

theorem ensures_logarithm (vs : Args) :
    (logarithm vs).Ensures base (Values.Within base.Shows) := by
  refine (Args.safe_float vs 1).bind fun x _ => ?_
  split
  · exact ensures_pure (by simp)
  · exact (Args.safe_float vs 2).bind fun _ _ => ensures_pure (by simp)

theorem ensures_extreme (before : Value → Value → Option Bool)
    (within : Values.Within base.Shows vs) :
    (extreme before vs).Ensures base (Values.Within base.Shows) := by
  cases vs with
  | nil => exact ensures_invalid
  | cons v vs =>
    rw [values_cons_within] at within
    refine Ensures.bind (ensures_foldlM vs (fun best w member kept => ?_) within.1)
      fun best value => ensures_pure (by simpa using value)
    refine (safe_ofOption _).bind fun first _ => ensures_pure ?_
    split
    · exact within.2 w member
    · exact kept

theorem ensures_randomBetween (low high : Int64) (word : UInt64) :
    (randomBetween low high word).Ensures base (Values.Within base.Shows) :=
  ensures_unless ((safe_draw _).bind fun _ _ => ensures_pure (by simp))

theorem ensures_random (vs : Args) : (random vs).Ensures base (Values.Within base.Shows) := by
  refine (safe_draw _).bind fun word _ => ?_
  split
  · exact ensures_pure (by simp)
  · refine (Args.safe_int _ 1).bind fun high _ => ?_
    split
    · exact ensures_pure (by simp)
    · exact ensures_randomBetween _ _ _
  · exact (Args.safe_int _ 1).bind fun _ _ => (Args.safe_int _ 2).bind fun _ _ =>
      ensures_randomBetween _ _ _
  · exact ensures_invalid

theorem ensures_seed (vs : Args) : (seed vs).Ensures base (Values.Within base.Shows) := by
  have rest : ∀ m, Ensures base (do
      let n ← Args.intOr vs 2 0
      discard (draw fun _ => (0, .ofSeed m.toUInt64 n.toUInt64))
      return [.int m, .int n] : Routine (List Value)) (Values.Within base.Shows) :=
    fun m => (Args.safe_intOr vs 2 0).bind fun n _ => (safe_draw _).discard.bind fun _ _ =>
      ensures_pure (by simp)
  unfold seed
  dsimp only
  split
  · exact rest 0
  · exact (Args.safe_int vs 1).bind fun m _ => rest m

theorem ensures_math (f : MathFunction) (within : Values.Within base.Shows vs) :
    (Library.math f vs).Ensures base (Values.Within base.Shows) := by
  cases f with
  | abs => exact ensures_absolute vs
  | ceil => exact ensures_rounded _ vs
  | floor => exact ensures_rounded _ vs
  | fmod => exact ensures_truncatedRemainder vs
  | log => exact ensures_logarithm vs
  | max => exact ensures_extreme _ within
  | min => exact ensures_extreme _ within
  | modf => exact ensures_parts vs
  | random => exact ensures_random vs
  | randomSeed => exact ensures_seed vs
  | atan =>
    refine (Args.safe_float vs 1).bind fun y _ => ?_
    dsimp only
    split
    · exact ensures_pure (by simp)
    · exact (Args.safe_float vs 2).bind fun _ _ => ensures_pure (by simp)
  | frexp => exact (Args.safe_float vs 1).bind fun _ _ => ensures_pure (by simp)
  | ldexp =>
    exact (Args.safe_float vs 1).bind fun _ _ => (Args.safe_int vs 2).bind fun _ _ =>
      ensures_pure (by simp)
  | pow =>
    exact (Args.safe_float vs 1).bind fun _ _ => (Args.safe_float vs 2).bind fun _ _ =>
      ensures_pure (by simp)
  | toInteger =>
    refine (Args.ensures_present within 1).bind fun v _ => ensures_pure ?_
    cases v.toInt? <;> simp
  | type =>
    refine (Args.ensures_present within 1).bind fun v _ => ?_
    split <;> exact ensures_pure (by simp)
  | unsignedLess =>
    exact (Args.safe_int vs 1).bind fun _ _ => (Args.safe_int vs 2).bind fun _ _ =>
      ensures_pure (by simp)
  | _ => exact ensures_onFloat _ vs

theorem ensures_perform (n : Native) (callee : n.Within base.Shows)
    (within : Values.Within base.Shows vs) :
    (perform n vs).Ensures base (Values.Within base.Shows) := by
  cases n with
  | base f => exact ensures_base f within
  | string f => exact ensures_string f within
  | table f => exact ensures_table f within
  | math f => exact ensures_math f within
  | itemStep => exact ensures_itemStep within
  | matchStep => exact ensures_stepMatch _ _ _ _
  | lookup =>
    exact (ensures_lookup _ _ _ _).bind fun v value => ensures_pure (by simpa using value)
  | viewIndex =>
    exact (Value.ensures_rawIndex _ _).bind fun v value => ensures_pure (by simpa using value)
  | viewNewIndex =>
    exact Ensures.bind (ensures_report (Q := Value.Within base.Shows) _ _ _) fun v value =>
      ensures_pure (by simpa using value)
  | viewLength => exact (safe_read _).bind fun _ _ => ensures_pure (by simp)
  | viewPairs =>
    have argument := Args.value_within within 1
    simp only [perform]
    split
    · next view is =>
      rw [is] at argument
      exact ensures_pure (by simpa [Native.Within] using argument)
    · exact ensures_invalid
  | viewStep source view support => exact ensures_viewStep source callee support _

theorem ensures_run (n : Native) (callee : n.Within base.Shows)
    (within : Values.Within base.Shows vs) :
    (Library.run n vs).Ensures base (Values.Within base.Shows) :=
  (ensures_perform n callee within).bind fun _ results =>
    (safe_spend _).bind fun _ _ => ensures_pure results

end CallGuard.Lua.Library
