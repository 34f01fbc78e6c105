import CallGuard.Proofs.Lua.Paired.Library.Base
import CallGuard.Proofs.Lua.Paired.Library.Strings
import CallGuard.Proofs.Lua.Paired.Library.Tables

set_option autoImplicit false

namespace CallGuard.Lua.Library

open Routine

variable {p : Pairing} {vs : Args}

theorem integral_plain (x : Float) : (integral x).Plain := by
  unfold integral
  split <;> trivial

theorem paired_onFloat (f : Float → Float) (vs : Args) :
    (onFloat f vs).Paired p (onFloat f (Values.rename p.move vs)) p.ofValues :=
  (Args.paired_float vs 1).next fun _ => paired_return (float_fits _)

theorem paired_rounded (f : Float → Float) (vs : Args) :
    (rounded f vs).Paired p (rounded f (Values.rename p.move vs)) p.ofValues := by
  have float : (do return [integral (f (← Args.float vs 1))]).Paired p
      (do return [integral (f (← Args.float (Values.rename p.move vs) 1))]) p.ofValues :=
    (Args.paired_float vs 1).next fun x => paired_pure_plains (by simp [integral_plain])
  unfold rounded
  rw [Args.value_rename]
  cases Args.value vs 1 with
  | int i => exact paired_return (int_fits i)
  | _ => exact float

theorem paired_absolute (vs : Args) :
    (absolute vs).Paired p (absolute (Values.rename p.move vs)) p.ofValues := by
  have float := paired_onFloat (p := p) Float.abs vs
  unfold absolute
  rw [Args.value_rename]
  cases Args.value vs 1 with
  | int i => exact paired_return (int_fits _)
  | _ => exact float

theorem paired_truncatedRemainder (vs : Args) :
    (truncatedRemainder vs).Paired p (truncatedRemainder (Values.rename p.move vs))
      p.ofValues := by
  have float : (do
      return [Value.float (remainder (← Args.float vs 1) (← Args.float vs 2))]).Paired p
      (do return [Value.float (remainder (← Args.float (Values.rename p.move vs) 1)
        (← Args.float (Values.rename p.move vs) 2))]) p.ofValues :=
    (Args.paired_float vs 1).next fun _ => (Args.paired_float vs 2).next fun _ =>
      paired_return (float_fits _)
  unfold truncatedRemainder
  rw [Args.value_rename, Args.value_rename]
  cases Args.value vs 1 with
  | int a =>
    cases Args.value vs 2 with
    | int b => exact paired_ite Iff.rfl paired_invalid (paired_return (int_fits _))
    | _ => exact float
  | _ => exact float

theorem paired_parts (vs : Args) :
    (parts vs).Paired p (parts (Values.rename p.move vs)) p.ofValues := by
  unfold parts
  rw [Args.value_rename]
  cases Args.value vs 1 with
  | int i => exact paired_pure_plains (by simp)
  | _ => exact (Args.paired_float vs 1).next fun _ => paired_pure_plains (by simp)

theorem paired_logarithm (vs : Args) :
    (logarithm vs).Paired p (logarithm (Values.rename p.move vs)) p.ofValues := by
  refine (Args.paired_float vs 1).next fun x => ?_
  refine paired_ite (by simp) (paired_return (float_fits _)) ?_
  exact (Args.paired_float vs 2).next fun _ => paired_return (float_fits _)

theorem paired_extreme {before : Value → Value → Option Bool}
    (same : ∀ a b : Value, before (a.rename p.move) (b.rename p.move) = before a b)
    (fits : Values.Fits p vs) :
    (extreme before vs).Paired p (extreme before (Values.rename p.move vs)) p.ofValues := by
  cases vs with
  | nil => exact paired_invalid
  | cons v vs =>
    rw [values_cons_fit] at fits
    obtain ⟨first, rest⟩ := fits
    refine paired_wrapped ?_
    induction vs generalizing v with
    | nil => exact paired_pure ⟨first, rfl⟩
    | cons w vs ih =>
      rw [values_cons_fit] at rest
      rw [List.map_cons, List.foldlM_cons, List.foldlM_cons, same]
      have chosen : (do return if ← ofOption (before w v) then w else v).Paired p
          (do return if ← ofOption (before w v) then w.rename p.move else v.rename p.move)
          p.ofValue := by
        refine (paired_sameOption rfl).next fun sooner => paired_pure ?_
        cases sooner with
        | true => exact ⟨rest.1, rfl⟩
        | false => exact ⟨first, rfl⟩
      exact chosen.bind fun best value => ih best value rest.2

theorem paired_randomBetween (low high : Int64) (word : UInt64) :
    (randomBetween low high word).Paired p (randomBetween low high word) p.ofValues :=
  paired_unless Iff.rfl ((paired_draw _).next fun _ => paired_return (int_fits _))

theorem paired_random (vs : Args) :
    (random vs).Paired p (random (Values.rename p.move vs)) p.ofValues := by
  refine (paired_draw _).next fun word => ?_
  rcases vs with _ | ⟨a, _ | ⟨b, _ | ⟨c, rest⟩⟩⟩
  · exact paired_return (float_fits _)
  · exact (Args.paired_int [a] 1).next fun high =>
      paired_ite Iff.rfl (paired_return (int_fits _)) (paired_randomBetween _ _ _)
  · exact (Args.paired_int [a, b] 1).next fun low => (Args.paired_int [a, b] 2).next fun high =>
      paired_randomBetween _ _ _
  · exact paired_invalid

theorem paired_seed (vs : Args) :
    (seed vs).Paired p (seed (Values.rename p.move vs)) p.ofValues := by
  have rest : ∀ m, (do
      let n ← Args.intOr vs 2 0
      discard (draw fun _ => (0, .ofSeed m.toUInt64 n.toUInt64))
      return [.int m, .int n] : Routine (List Value)).Paired p (do
      let n ← Args.intOr (Values.rename p.move vs) 2 0
      discard (draw fun _ => (0, .ofSeed m.toUInt64 n.toUInt64))
      return [.int m, .int n] : Routine (List Value)) p.ofValues :=
    fun m => (Args.paired_intOr vs 2 0).next fun n => (paired_draw _).discard.next fun _ =>
      paired_pure_plains (by simp)
  unfold seed
  dsimp only
  rw [List.isEmpty_map]
  split
  · exact rest 0
  · exact (Args.paired_int vs 1).next fun m => rest m

theorem paired_math (f : MathFunction) (fits : Values.Fits p vs) :
    (math f vs).Paired p (math f (Values.rename p.move vs)) p.ofValues := by
  cases f with
  | abs => exact paired_absolute vs
  | ceil => exact paired_rounded _ vs
  | floor => exact paired_rounded _ vs
  | fmod => exact paired_truncatedRemainder vs
  | log => exact paired_logarithm vs
  | max => exact paired_extreme (fun a b => Value.less?_rename b a) fits
  | min => exact paired_extreme Value.less?_rename fits
  | modf => exact paired_parts vs
  | random => exact paired_random vs
  | randomSeed => exact paired_seed vs
  | atan =>
    refine (Args.paired_float vs 1).next fun y => ?_
    dsimp only
    rw [Args.value_rename, Value.isNil_rename]
    split
    · exact paired_return (float_fits _)
    · exact (Args.paired_float vs 2).next fun _ => paired_return (float_fits _)
  | frexp => exact (Args.paired_float vs 1).next fun _ => paired_pure_plains (by simp)
  | ldexp =>
    exact (Args.paired_float vs 1).next fun _ => (Args.paired_int vs 2).next fun _ =>
      paired_return (float_fits _)
  | pow =>
    exact (Args.paired_float vs 1).next fun _ => (Args.paired_float vs 2).next fun _ =>
      paired_return (float_fits _)
  | toInteger =>
    refine (Args.paired_present fits 1).bind fun v _ => ?_
    rw [Value.toInt?_rename]
    cases v.toInt? with
    | none => exact paired_return nil_fits
    | some i => exact paired_return (int_fits i)
  | type =>
    refine (Args.paired_present fits 1).bind fun v _ => ?_
    cases v with
    | int i => exact paired_return (text_fits _)
    | float x => exact paired_return (text_fits _)
    | _ => exact paired_return nil_fits
  | unsignedLess =>
    exact (Args.paired_int vs 1).next fun _ => (Args.paired_int vs 2).next fun _ =>
      paired_return (bool_fits _)
  | _ => exact paired_onFloat _ vs

theorem paired_perform (lawful : p.Lawful) {n : Native} (callee : n.Fits p)
    (fits : Values.Fits p vs) (takes : n.Takes p vs) :
    (perform n vs).Paired p (perform (n.rename p.move) (Values.rename p.move vs)) p.ofValues := by
  cases n with
  | base f => exact paired_base lawful f fits takes
  | string f => exact paired_string lawful f fits takes
  | table f => exact paired_table lawful f fits
  | math f => exact paired_math f fits
  | itemStep => exact paired_itemStep lawful fits
  | matchStep => exact paired_stepMatch _ _ callee.1 callee.2
  | lookup => exact callee.elim
  | viewIndex source =>
    simp only [perform, Native.rename, Args.value_rename]
    exact paired_wrapped (Value.paired_rawIndex lawful callee _)
  | viewNewIndex support =>
    simp only [perform, Native.rename, Args.value_rename]
    exact paired_wrapped (paired_report support _ takes)
  | viewLength source =>
    have size : (read fun h => (h.tables.getD source .empty).length).Paired p
        (read fun h => (h.tables.getD (p.move source) .empty).length) Eq :=
      paired_read fun h h' alike => by
        rw [(alike.table source callee).2, Table.length_rename lawful.injective]
    exact size.next fun n => paired_return (int_fits _)
  | viewPairs source support =>
    have argument := Args.value_fits fits 1
    simp only [perform, Native.rename, Args.value_rename]
    cases view : Args.value vs 1 with
    | table id =>
      rw [view] at argument
      refine paired_pure ⟨?_, rfl⟩
      simp only [values_cons_fit]
      exact ⟨⟨callee, argument⟩, argument, trivial, no_values_fit⟩
    | _ => exact paired_invalid
  | viewStep source view support =>
    simp only [perform, Native.rename, Args.value_rename]
    exact paired_viewStep lawful callee.1 callee.2 support _

theorem paired_run (lawful : p.Lawful) {n : Native} (callee : n.Fits p)
    (fits : Values.Fits p vs) (takes : n.Takes p vs) :
    (run n vs).Paired p (run (n.rename p.move) (Values.rename p.move vs)) p.ofValues :=
  paired_spent (byteCounts_rename vs) (paired_perform lawful callee fits takes)

end CallGuard.Lua.Library
