import CallGuard.Proofs.Lua.Accesses
import CallGuard.Proofs.Lua.Views.Pairing

set_option autoImplicit false

namespace CallGuard.Lua

open Routine

namespace Library

variable {n : Native} {args ws : List Value} {h : Heap}

theorem settles_pauses (count : Nat) (ws : List Value) (h : Heap) :
    (pauses count (fun _ => answered ws) h).Settles ws h := by
  induction count with
  | zero => exact .done
  | succ count ih => exact .pause ih

theorem settles_run (performed : ∀ k, perform n args k h = k ws h) :
    (run n args answered h).Settles ws h := by
  show (perform n args _ h).Settles ws h
  rw [performed]
  exact settles_pauses _ ws h

theorem pairs_apply {args : Args} {id : TableId} (first : Args.value args 1 = .table id)
    (h : Heap) (K : List Value → Heap → Turn) :
    perform (.base .pairs) args K h =
      match (h.handlers id).pairs with
      | some n => .call (.native n) [.table id] .native h fun ws g => K (base.atMost 3 ws) g
      | none => K [.native (.base .next), .table id, .nil] h := by
  have given : Args.get? args 1 = some (.table id) := by
    unfold Args.value at first
    cases got : Args.get? args 1 with
    | none => rw [got] at first; cases first
    | some v => rw [got] at first; exact congrArg some first
  show Args.present args 1 _ h = _
  unfold Args.present
  rw [given]
  show (match (h.handlers id).pairs with
    | some n => do return base.atMost 3 (← call (.native n) [.table id] .native)
    | none => return [.native (.base .next), .table id, .nil] : Routine (List Value)) K h = _
  cases (h.handlers id).pairs <;> rfl

theorem entryAfter_apply {id : TableId} {t : Table} (found : h.tables[id]? = some t)
    (key : Option Key) (K : List Value → Heap → Turn) :
    entryAfter id key K h =
      match t.next? key with
      | none => .fail .invalid h
      | some none => K [.nil] h
      | some (some (k, v)) => K [k.toValue, v] h := by
  show (match (h.tables.getD id .empty).next? key with
    | none => invalid
    | some none => return [.nil]
    | some (some (k, v)) => return [k.toValue, v] : Routine (List Value)) K h = _
  rw [Heap.getD_tables found]
  rcases t.next? key with _ | _ | ⟨k, v⟩ <;> rfl

theorem perform_viewIndex (source : TableId) (o k : Value) (h : Heap)
    (K : List Value → Heap → Turn) :
    perform (.viewIndex source) [o, k] K h = K [h.found source k] h := by
  show Value.rawIndex source k _ h = _
  rw [Value.rawIndex_apply]
  rfl

end Library

theorem Turn.Settles.yields {t : Turn} {vs : List Value} {h : Heap} (settles : t.Settles vs h) :
    t.Yields vs h := by
  induction settles with
  | done => exact .done
  | pause _ ih => exact .pause ih

namespace State.Placement

variable {s : State} {name : String} {j : Json} (c : s.Placement name j) {env : Nat}

namespace Seen

variable {c} {i : Nat} {t : Table} {h h' : Heap} (seen : c.Seen env i t h h')

include seen

theorem found (k : Value) :
    (h.found (c.start + 2 * i) k).Fits (c.pairing env) ∧
      h'.found (c.size + i) (k.rename c.move) =
        (h.found (c.start + 2 * i) k).rename c.move := by
  unfold Heap.found
  rw [Value.toKey?_rename]
  cases k.toKey? with
  | none => exact ⟨trivial, rfl⟩
  | some key =>
    simp only [Option.map_some, Heap.rawGet_eq seen.source, Heap.rawGet_eq seen.copy]
    exact ⟨seen.entries.get nil_fits key, Table.get_rename c.move_injective t key⟩

theorem viewHandlers :
    h.handlers (c.start + 2 * i + 1) = (Table.view (c.start + 2 * i) c.support).handlers := by
  exact Heap.handlers_eq seen.view

theorem copyHandlers : h'.handlers (c.size + i) = .none := by
  rw [Heap.handlers_eq seen.copy]
  simp [Table.rename, seen.handlers, Handlers.rename, Handlers.none]

theorem viewEmpty (k : Value) : h.found (c.start + 2 * i + 1) k = .nil := by
  unfold Heap.found
  cases k.toKey? with
  | none => rfl
  | some key => exact Heap.IsView.rawGet ⟨_, _, seen.view⟩ key

theorem read (k : Value) (site : CallSite) {K : Value → Heap → Turn} {other : Turn}
    (next : (K (h.found (c.start + 2 * i) k) h).Paired (c.pairing env) other) :
    ((Value.table (c.start + 2 * i + 1)).index k site K h).Paired (c.pairing env) other := by
  have here : (Value.table (c.start + 2 * i + 1)).index k site K h =
      .call (.native (.viewIndex (c.start + 2 * i))) [.table (c.start + 2 * i + 1), k] site.inside
        h fun vs g => K (firstOf vs) g := by
    rw [Value.index_apply, seen.viewEmpty, seen.viewHandlers]
    rfl
  rw [here]
  exact .skip trivial (Library.settles_run fun _ => Library.perform_viewIndex _ _ k h _).yields next

theorem index (k : Value) (site : CallSite) {K K' : Value → Heap → Turn}
    (next : (K (h.found (c.start + 2 * i) k) h).Paired (c.pairing env)
      (K' ((h.found (c.start + 2 * i) k).rename c.move) h')) :
    ((Value.table (c.start + 2 * i + 1)).index k site K h).Paired (c.pairing env)
      ((Value.table (c.size + i)).index (k.rename c.move) site K' h') := by
  have there : (Value.table (c.size + i)).index (k.rename c.move) site K' h' =
      K' ((h.found (c.start + 2 * i) k).rename c.move) h' := by
    rw [Value.index_apply, seen.copyHandlers, (seen.found k).2]
    cases value : (h.found (c.start + 2 * i) k).rename c.move <;> rfl
  rw [there]
  exact seen.read k site next

theorem length (site : CallSite) {K K' : Value → Heap → Turn}
    (next : (K (.int (.ofNat t.length)) h).Paired (c.pairing env)
      (K' (.int (.ofNat t.length)) h')) :
    ((Value.table (c.start + 2 * i + 1)).length site K h).Paired (c.pairing env)
      ((Value.table (c.size + i)).length site K' h') := by
  have behind : h.tables.getD (c.start + 2 * i) .empty = t := Heap.getD_tables seen.source
  have copied : h'.tables.getD (c.size + i) .empty = t.rename c.move := Heap.getD_tables seen.copy
  have here : (Value.table (c.start + 2 * i + 1)).length site K h =
      .call (.native (.viewLength (c.start + 2 * i))) [.table (c.start + 2 * i + 1)] site.inside
        h fun vs g => K (firstOf vs) g := by
    rw [Value.length_apply, seen.viewHandlers]
    rfl
  have there : (Value.table (c.size + i)).length site K' h' =
      K' (.int (.ofNat t.length)) h' := by
    rw [Value.length_apply, seen.copyHandlers, copied, Table.length_rename c.move_injective]
    rfl
  have performed (k : List Value → Heap → Turn) :
      Library.perform (.viewLength (c.start + 2 * i)) [.table (c.start + 2 * i + 1)] k h =
        k [.int (.ofNat t.length)] h := by
    rw [← behind]
    rfl
  rw [here, there]
  exact .skip trivial (Library.settles_run performed).yields next

theorem setIndex (k v : Value) (site : CallSite) (K : Unit → Heap → Turn) (other : Turn) :
    ((Value.table (c.start + 2 * i + 1)).setIndex k v site K h).Paired (c.pairing env) other := by
  have here : (Value.table (c.start + 2 * i + 1)).setIndex k v site K h =
      .call (.native (.viewNewIndex c.support)) [.table (c.start + 2 * i + 1), k, v] site.inside
        h fun _ g => K () g := by
    rw [Value.setIndex_apply, seen.viewEmpty, seen.viewHandlers]
    rfl
  rw [here]
  exact .stray rfl

theorem walk (site : CallSite) {args : List Value}
    (first : Library.Args.value args 1 = .table (c.start + 2 * i + 1))
    (moved : Library.Args.value (Values.rename c.move args) 1 = .table (c.size + i))
    {K K' : List Value → Heap → Turn}
    (next : (K [.native (.viewStep (c.start + 2 * i) (c.start + 2 * i + 1) c.support),
        .table (c.start + 2 * i + 1), .nil] h).Paired (c.pairing env)
      (K' [.native (.base .next), .table (c.size + i), .nil] h')) :
    (Turn.call (.native (.base .pairs)) args site h K).Paired (c.pairing env)
      (.call (.native (.base .pairs)) (Values.rename c.move args) site h' K') := by
  have body : (Library.run (.base .pairs) args Library.answered h).Yields
      [.native (.viewStep (c.start + 2 * i) (c.start + 2 * i + 1) c.support),
        .table (c.start + 2 * i + 1), .nil] h := by
    show (Library.perform (.base .pairs) args _ h).Yields _ h
    rw [Library.pairs_apply first, seen.viewHandlers]
    have handler : (Library.run (.viewPairs (c.start + 2 * i) c.support)
        [.table (c.start + 2 * i + 1)] Library.answered h).Yields
        [.native (.viewStep (c.start + 2 * i) (c.start + 2 * i + 1) c.support),
          .table (c.start + 2 * i + 1), .nil] h :=
      (Library.settles_run fun _ => rfl).yields
    exact .call handler (Library.settles_pauses _ _ h).yields
  have other : (Library.run (.base .pairs) (Values.rename c.move args) Library.answered h').Settles
      [.native (.base .next), .table (c.size + i), .nil] h' := by
    refine Library.settles_run fun k => ?_
    rw [Library.pairs_apply moved, seen.copyHandlers]
    rfl
  exact .meet trivial body other next

theorem step (key : Option Key) {K K' : List Value → Heap → Turn}
    (alike : (c.pairing env).Alike h h')
    (next : ∀ vs, Values.Fits (c.pairing env) vs →
      (K vs h).Paired (c.pairing env) (K' (Values.rename c.move vs) h')) :
    ((do
      let first := firstOf (← Library.entryAfter (c.start + 2 * i) key)
      if first.isNil then return [.nil]
      else return [first, ← (Value.table (c.start + 2 * i + 1)).index first .native]
      : Routine (List Value)) K h).Paired (c.pairing env)
      (Library.entryAfter (c.size + i) (key.map (Key.rename c.move)) K' h') := by
  show (Library.entryAfter (c.start + 2 * i) key _ h).Paired _ _
  rw [Library.entryAfter_apply seen.source, Library.entryAfter_apply seen.copy,
    Table.next?_rename c.move_injective]
  cases entry : t.next? key with
  | none => exact .fail alike
  | some entry? =>
    cases entry? with
    | none => exact next [.nil] (by simp)
    | some e =>
      obtain ⟨k, v⟩ := e
      obtain ⟨value, present⟩ := seen.distinct.next?_get seen.narrow entry
      obtain ⟨key, fits⟩ := seen.entries.next? admits_fits entry
      -- A key of the table is read back as itself.
      have again : h.found (c.start + 2 * i) k.toValue = v := by
        have back : k.toValue.toKey? = some k := by
          cases k with
          | float bits =>
            rw [seen.floats bits] at value
            rw [← value] at present
            cases present
          | _ => rfl
        rw [Heap.found, back]
        exact (Heap.rawGet_eq seen.source k).trans value
      have going : k.toValue.isNil = false := by cases k <;> rfl
      have both := next [k.toValue, v] (by simpa using And.intro key fits)
      have left : ((Value.table (c.start + 2 * i + 1)).index k.toValue .native
          (fun w g => K [k.toValue, w] g) h).Paired (c.pairing env)
          (K' [(k.rename c.move).toValue, v.rename c.move] h') := by
        refine seen.read _ _ ?_
        rw [again, Value.toValue_rename]
        exact both
      simp only [firstOf, List.headD_cons, going, Bool.false_eq_true, if_false]
      exact left

end Seen

end State.Placement

end CallGuard.Lua
