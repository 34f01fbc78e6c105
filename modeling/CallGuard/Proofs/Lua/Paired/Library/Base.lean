import CallGuard.Proofs.Lua.Paired.Operations

set_option autoImplicit false

namespace CallGuard.Lua

open Routine

variable {p : Pairing}

theorem Value.display_rename {v : Value} (shown : v.isTable = false) (move : TableId → TableId) :
    (v.rename move).display = v.display := by
  cases v with
  | table id => cases shown
  | _ => rfl

namespace Library

variable {vs : Args}

theorem paired_spent {n n' : Native} {vs vs' : Args} (same : byteCounts vs' = byteCounts vs)
    (performed : (perform n vs).Paired p (perform n' vs') p.ofValues) :
    (run n vs).Paired p (run n' vs') p.ofValues := by
  refine performed.bind fun results found => ?_
  refine (paired_spend ?_).next fun _ => paired_pure ⟨found, rfl⟩
  rw [same, byteCounts_rename]

theorem paired_toNumber (fits : Values.Fits p vs) :
    (toNumber vs).Paired p (toNumber (Values.rename p.move vs)) p.ofValue := by
  have number : ∀ o : Option Num, ((o.map Value.ofNum).getD .nil).Plain := by
    rintro (_ | n)
    · trivial
    · exact Value.ofNum_plain n
  have integer : ∀ o : Option Int64, ((o.map Value.int).getD .nil).Plain := by
    rintro (_ | i) <;> trivial
  unfold toNumber
  refine paired_ite (by simp) ?_ ?_
  · refine (Args.paired_present fits 1).bind fun v _ => ?_
    rw [Value.toNum?_rename]
    exact paired_pure_plain (number _)
  · refine (Args.paired_int vs 2).next fun radix => ?_
    rw [Args.value_rename]
    cases Args.value vs 1 with
    | string s => exact paired_unless Iff.rfl (paired_pure_plain (integer _))
    | _ => exact paired_invalid

theorem paired_selectFrom (vs : Args) {rest : List Value} (fits : Values.Fits p rest) :
    (select.selectFrom vs rest).Paired p
      (select.selectFrom (Values.rename p.move vs) (Values.rename p.move rest)) p.ofValues := by
  have dropped : ∀ n, (pure (rest.drop n) : Routine (List Value)).Paired p
      (pure ((Values.rename p.move rest).drop n)) p.ofValues :=
    fun n => paired_pure ⟨fits.drop n, List.map_drop.symm⟩
  refine (Args.paired_int vs 1).next fun n => ?_
  dsimp only
  rw [List.length_map]
  split <;> exact paired_unless Iff.rfl (dropped _)

theorem paired_select (fits : Values.Fits p vs) :
    (select vs).Paired p (select (Values.rename p.move vs)) p.ofValues := by
  have rest := paired_selectFrom vs (fits.drop 1)
  simp only [Values.rename, List.map_drop] at rest
  unfold select
  dsimp only
  rw [Args.value_rename]
  cases Args.value vs 1 with
  | string s =>
    refine paired_ite Iff.rfl ?_ rest
    rw [List.length_drop, List.length_drop, List.length_map]
    exact paired_return (int_fits _)
  | _ => exact rest

def entryAfter (id : TableId) (key : Option Key) : Routine (List Value) := do
  match ← read fun h => (h.tables.getD id .empty).next? key with
  | none => invalid
  | some none => return [.nil]
  | some (some (key, v)) => return [key.toValue, v]

theorem nextEntry_eq (id : TableId) {k : Value} (present : k.isNil = false) :
    nextEntry id k =
      match k.toKey? with
      | none => invalid
      | some key => entryAfter id (some key) := by
  cases k with
  | nil => cases present
  | float x =>
    simp only [nextEntry]
    cases (Value.float x).toKey? <;> rfl
  | _ => rfl

section

variable (lawful : p.Lawful)

include lawful

theorem paired_containsFrom {t v : Value} (list : t.Fits p) (fuel : Nat)
    (i : Int64) :
    (containsFrom t v fuel i).Paired p
      (containsFrom (t.rename p.move) (v.rename p.move) fuel i) p.ofValue := by
  induction fuel generalizing i with
  | zero => exact paired_pure_plain trivial
  | succ fuel ih =>
    refine paired_pause.next fun _ => (paired_item lawful list i).bind fun w _ => ?_
    refine paired_ite (by rw [Value.isNil_rename]) (paired_pure_plain trivial) ?_
    exact paired_ite (by rw [Value.same_rename lawful.injective]) (paired_pure_plain trivial)
      (ih (i + 1))

theorem paired_entryAfter {id : TableId} (mirrored : p.Mirrored id) (key : Option Key) :
    (entryAfter id key).Paired p (entryAfter (p.move id) (key.map (Key.rename p.move)))
      p.ofValues := by
  have found : (read fun h => (h.tables.getD id .empty).next? key).Paired p
      (read fun h => (h.tables.getD (p.move id) .empty).next? (key.map (Key.rename p.move)))
      (Carried (Option.map (Option.map (Entry.rename p.move))) fun found =>
        ∀ k v, found = some (some (k, v)) → k.Fits p ∧ v.Fits p) :=
    paired_read fun h h' alike => by
      obtain ⟨fits, same⟩ := alike.table id mirrored
      rw [same, Table.next?_rename lawful.injective]
      exact ⟨fun k v found => fits.entries.next? admits_fits found, rfl⟩
  refine found.bind fun entry entries => ?_
  rcases entry with _ | _ | ⟨k, v⟩
  · exact paired_invalid
  · exact paired_return nil_fits
  · refine paired_pure ⟨by simpa using entries k v rfl, ?_⟩
    simp [Value.toValue_rename]

theorem paired_nextEntry {id : TableId} (mirrored : p.Mirrored id) (k : Value) :
    (nextEntry id k).Paired p (nextEntry (p.move id) (k.rename p.move)) p.ofValues := by
  cases absent : k.isNil with
  | true =>
    rw [Value.eq_nil_of_isNil absent]
    exact paired_entryAfter lawful mirrored none
  | false =>
    rw [nextEntry_eq id absent, nextEntry_eq _ (by rwa [Value.isNil_rename]),
      Value.toKey?_rename]
    cases k.toKey? with
    | none => exact paired_invalid
    | some key => exact paired_entryAfter lawful mirrored (some key)

theorem paired_itemStep (fits : Values.Fits p vs) :
    (itemStep vs).Paired p (itemStep (Values.rename p.move vs)) p.ofValues := by
  refine (Args.paired_int vs 2).next fun i => ?_
  rw [Args.value_rename]
  refine (paired_item lawful (Args.value_fits fits 1) (i + 1)).bind fun v value => ?_
  rw [Value.isNil_rename]
  split
  · exact paired_return nil_fits
  · exact paired_pure ⟨by simpa using value, rfl⟩

omit lawful in
theorem atMost_rename (move : TableId → TableId) (n : Nat) (ws : List Value) :
    base.atMost n (Values.rename move ws) = Values.rename move (base.atMost n ws) := by
  simp [base.atMost, List.map_take, Value.rename]

omit lawful in
theorem atMost_fits {ws : List Value} (fits : Values.Fits p ws) (n : Nat) :
    Values.Fits p (base.atMost n ws) := by
  have more : Values.Fits p (ws ++ List.replicate n .nil) :=
    (values_append_fit _ _).2 ⟨fits, fun v member => List.eq_of_mem_replicate member ▸ nil_fits⟩
  exact more.sublist fun v member => List.mem_of_mem_take member

theorem paired_walk {v : Value} (value : v.Fits p) (found : Option Native) :
    (∀ n, found = some n → n.Fits p) →
      (match found with
        | some n => do return base.atMost 3 (← call (.native n) [v] .native)
        | none => return [.native (.base .next), v, .nil] : Routine (List Value)).Paired p
      (match found.map (Native.rename p.move) with
        | some n => do return base.atMost 3 (← call (.native n) [v.rename p.move] .native)
        | none => return [.native (.base .next), v.rename p.move, .nil] : Routine (List Value))
      p.ofValues := by
  intro callee
  cases found with
  | none =>
    refine paired_pure ⟨?_, rfl⟩
    simp only [values_cons_fit]
    exact ⟨trivial, value, trivial, no_values_fit⟩
  | some n =>
    have args : Values.Fits p [v] := by simpa using value
    exact (paired_native lawful .native (callee n rfl) args).bind fun ws results =>
      paired_pure ⟨atMost_fits results 3, atMost_rename p.move 3 ws⟩

theorem paired_pairs (fits : Values.Fits p vs)
    (mirrored : ∀ id, Args.value vs 1 = .table id → p.Mirrored id) :
    (base .pairs vs).Paired p (base .pairs (Values.rename p.move vs)) p.ofValues := by
  refine (Args.paired_presentValue fits 1).bind fun v ⟨value, is⟩ => ?_
  cases v with
  | table id =>
    exact (Value.paired_handler (mirrored id is) Handlers.Fits.pairs fun _ => rfl).bind
      (paired_walk lawful value)
  | _ => exact paired_walk lawful value none nofun

theorem paired_base (f : BaseFunction) (fits : Values.Fits p vs)
    (takes : (Native.base f).Takes p vs) :
    (base f vs).Paired p (base f (Values.rename p.move vs)) p.ofValues := by
  cases f with
  | assert =>
    refine (Args.paired_present fits 1).bind fun v _ => ?_
    refine paired_ite (by rw [Value.truth_rename]) (paired_pure ⟨fits, rfl⟩) ?_
    rw [Args.get?_rename]
    cases Args.get? vs 2 with
    | none => exact paired_fail (.raised (.text "assertion failed!") 1)
    | some message => exact paired_fail (.raised message 1)
  | contains =>
    have argument := Args.value_fits fits 1
    simp only [base, Args.value_rename]
    cases list : Args.value vs 1 with
    | table id =>
      exact paired_wrapped (paired_containsFrom lawful (list ▸ argument) longestList 1)
    | _ => exact paired_return (bool_fits false)
  | error =>
    refine (Args.paired_intOr vs 2 1).next fun level => ?_
    rw [Args.value_rename]
    exact paired_fail (.raised (Args.value vs 1) level.toInt.toNat)
  | ipairs =>
    refine (Args.paired_present fits 1).bind fun v value => paired_pure ⟨?_, rfl⟩
    simp only [values_cons_fit]
    exact ⟨trivial, value, trivial, no_values_fit⟩
  | next =>
    simp only [base, Args.value_rename]
    cases list : Args.value vs 1 with
    | table id => exact paired_nextEntry lawful (takes id list) (Args.value vs 2)
    | _ => exact paired_invalid
  | pairs => exact paired_pairs lawful fits takes
  | select => exact paired_select fits
  | toNumber => exact paired_wrapped (paired_toNumber fits)
  | toString =>
    refine (Args.paired_presentValue fits 1).bind fun v given => ?_
    rw [Value.display_rename (given.2 ▸ takes)]
    exact paired_return (string_fits _)
  | type =>
    refine (Args.paired_present fits 1).bind fun v _ => ?_
    rw [Value.typeName_rename]
    exact paired_return (text_fits _)

omit lawful in
theorem paired_report {α β : Type} {Q : α → β → Prop} (support : Support) (start : String)
    {k : Value} (shown : k.isTable = false) :
    (report support start k).Paired p (report support start (k.rename p.move)) Q := by
  unfold report
  rw [Value.display_rename shown]
  exact paired_ite Iff.rfl (paired_fail _) paired_invalid

theorem paired_viewStep {source view : TableId} (mirrored : p.Mirrored source)
    (shows : p.Shows view) (support : Support) (k : Value) :
    (viewStep source view support k).Paired p
      (viewStep (p.move source) (p.move view) support (k.rename p.move)) p.ofValues := by
  refine paired_unless Iff.rfl ((paired_nextEntry lawful mirrored k).bind fun entry fits => ?_)
  dsimp only
  refine paired_ite (by rw [firstOf_rename, Value.isNil_rename]) (paired_return nil_fits) ?_
  have object : (Value.table view).Fits p := shows
  rw [firstOf_rename]
  refine (Value.paired_index lawful .native object fits.firstOf).bind fun v value =>
    paired_pure ⟨?_, rfl⟩
  simpa using And.intro fits.firstOf value

end

end Library

end CallGuard.Lua
