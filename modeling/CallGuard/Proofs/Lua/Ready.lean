import CallGuard.Proofs.CachedRules
import CallGuard.Proofs.Lua.Documents
import CallGuard.Proofs.Lua.Isolation
import CallGuard.Proofs.Lua.Paired.Machine
import CallGuard.Proofs.Lua.Parsing

set_option autoImplicit false

namespace CallGuard.Lua

open Routine Rules

namespace State

variable {builtins : Keyed Json} {s : State} {names : Nat}

theorem constant_grows (builtins : Keyed Json) (name : String) (h : Heap) :
    h.Grows (constant builtins name h).2 := by
  unfold constant
  split
  · exact .refl h
  · split
    · next j _ =>
      have both : Heap.CopiedValue False (Builtins.support builtins) h h 0
          (h.viewOfJson (Builtins.support builtins) j) (h.ofJson j) :=
        Heap.copied_ofJson j nofun (Heap.copied_none h h)
      obtain ⟨n, -, copied, -⟩ := both
      have size := copied.size
      exact ⟨by omega, copied.old⟩
    · exact .refl h

theorem addConstants_others (builtins : Keyed Json) (keys : List String) {h : Heap} {t : Table}
    (found : h.tables[names]? = some t) (tidy : t.Tidy 0) :
    ∃ u, (addConstants builtins names keys h).tables[names]? = some u ∧
      ∀ k, (∀ name ∈ keys, k ≠ .named name) → u.get k = t.get k := by
  induction keys generalizing h t with
  | nil => exact ⟨t, found, fun _ _ => rfl⟩
  | cons name rest ih =>
    have still := (constant_grows builtins name h).found found
    obtain ⟨kept, law⟩ := tidy.set (k := .named name) (by decide)
      (fun _ same => Key.noConfusion same) (constant builtins name h).1
    obtain ⟨u, last, others⟩ := ih (Heap.setText_self still name _) kept
    refine ⟨u, last, fun k other => ?_⟩
    obtain ⟨first, later⟩ := List.forall_mem_cons.1 other
    rw [others k later, law, if_neg first]

structure Naming (s : State) where
  names : TableId
  optional : List String
  support : Support
  table : Table
  lookup : s.names = .lookup names optional support
  found : s.heap.tables[names]? = some table
  helper : table.get (.named Builtins.containsName) = .native (.base .contains)
  unset : ∀ v : Variable, table.get (.named v.name) = .nil ∧ v.name ∈ optional

theorem ofBuiltins_naming (started : ofBuiltins builtins = .ok s) : Nonempty s.Naming := by
  have checked := started_of_ok started
  let support := Builtins.support builtins
  let entries := (standard support .empty).1
  have once : (entries.map Prod.fst).Nodup := by
    show (BaseFunction.names.map Prod.fst ++ ["string", "table", "math"]).Nodup
    decide
  have listed : (Builtins.containsName, .native (.base .contains)) ∈ entries := by
    show _ ∈ BaseFunction.names.map (fun e => (e.1, Value.native (.base e.2))) ++ _
    simp [BaseFunction.names, Builtins.containsName]
  have tidy := (tableOf_get entries).1
  obtain ⟨u, found, others⟩ := addConstants_others builtins builtins.keys
    (((standard support .empty).2).newTable_self (tableOf entries)) tidy
  rw [checked.made]
  refine ⟨⟨6, _, support, u, rfl, found, ?_, fun v => ⟨?_, ?_⟩⟩⟩
  · rw [others _ fun name member same => ?_]
    · exact tableOf_member once listed
    · exact (checked.free member).2 (Key.named_injective same).symm
  · rw [others _ fun name member same => ?_]
    · refine tableOf_other fun e member same => ?_
      have other : v.name ∉ entries.map Prod.fst := by
        show v.name ∉ BaseFunction.names.map Prod.fst ++ ["string", "table", "math"]
        cases v <;> decide
      exact other (Key.named_injective same ▸ List.mem_map_of_mem member)
    · have declared := (checked.free member).1
      rw [← Key.named_injective same] at declared
      cases v <;> cases declared
  · refine List.mem_append_left _ (List.mem_map_of_mem ?_)
    cases v <;> decide

end State

-- Variables stand for the documents of the call, other names are looked up in the state.
structure Ready (s : State) (c : Context) (h : Heap) where
  naming : s.Naming
  cell : CellId
  env : TableId
  table : Table
  inCell : h.cell cell = .table env
  found : h.tables[env]? = some table
  handlers : table.handlers = { Handlers.none with index := some s.names }
  bound : ∀ v : Variable, h.Represents (c.document v) (table.get (.named v.name))
  others : ∀ k, (∀ v : Variable, k ≠ .named v.name) → table.get k = .nil
  names : h.tables[naming.names]? = some naming.table

namespace Ready

variable {s : State} {c : Context} {h : Heap} (ready : Ready s c h)

def scope : Scope := ⟨[], [(environmentName, ready.cell)], []⟩

theorem ownVariable?_none (e : Expr) : e.ownVariable? ready.scope = none := by
  unfold Expr.ownVariable?
  split <;> rfl

theorem readName_eq {name : String} (other : name ≠ environmentName) (line : Nat)
    (k : Value → Heap → Turn) :
    readName ready.scope name line k h =
      (Value.table ready.env).index (.text name) (.onLine line) k h := by
  have absent : ready.scope.find? name = none := by
    have differs : (name == environmentName) = false := by simpa using other
    simp [Scope.find?, scope, List.lookup_cons, differs]
  have found : ready.scope.find? environmentName = some ready.cell := by
    simp [Scope.find?, scope]
  simp only [readName, absent, environment, found]
  show (h.cell ready.cell).index (.text name) (.onLine line) k h = _
  rw [ready.inCell]

theorem eval_name {name : String} (other : name ≠ environmentName)
    (present : (ready.table.get (.named name)).isNil = false) (line : Nat)
    (k : List Value → Heap → Turn) :
    eval ready.scope (.name name line) k h = k [ready.table.get (.named name)] h := by
  rw [eval]
  show readName ready.scope name line (fun v h => k [v] h) h = _
  have key : (Value.text name).toKey? = some (.named name) := rfl
  rw [ready.readName_eq other, Value.index_apply, Heap.found_eq ready.found key, present,
    if_neg Bool.false_ne_true]

theorem eval_name_absent {name : String} (other : name ≠ environmentName)
    (absent : ready.table.get (.named name) = .nil) (line : Nat)
    (k : List Value → Heap → Turn) :
    eval ready.scope (.name name line) k h =
      .call (.native s.names) [.table ready.env, .text name] (CallSite.onLine line).inside h
        fun vs h => k [firstOf vs] h := by
  rw [eval]
  show readName ready.scope name line (fun v h => k [v] h) h = _
  have key : (Value.text name).toKey? = some (.named name) := rfl
  rw [ready.readName_eq other, Value.index_apply, Heap.found_eq ready.found key, absent,
    Heap.handlers_eq ready.found, ready.handlers]
  rfl

theorem eval_index {base key : Expr} {id : TableId} {t : Table} {v : Value} {place : Key}
    (first : ∀ k, eval ready.scope base k h = k [.table id] h)
    (second : ∀ k, eval ready.scope key k h = k [v] h) (found : h.tables[id]? = some t)
    (handlers : t.handlers = .none) (isKey : v.toKey? = some place) (line : Nat)
    (k : List Value → Heap → Turn) :
    eval ready.scope (.index base key line) k h = k [t.get place] h := by
  rw [eval, operand, ready.ownVariable?_none]
  show eval ready.scope base _ h = _
  rw [first]
  show eval ready.scope key _ h = _
  rw [second]
  exact Value.index_plain found isKey handlers _ _

theorem eval_follows {v : Variable} {path : List Json.Step} {e : Expr} {j : Json}
    (follows : e.Follows v.name path) (found : (c.document v).at? path = some j)
    (present : c.document v ≠ .null) :
    ∃ w, h.Represents j w ∧ ∀ k, eval ready.scope e k h = k [w] h := by
  induction follows generalizing j with
  | name line =>
    cases found
    have shows := ready.bound v
    have set : (ready.table.get (.named v.name)).isNil = false := by
      rw [← Bool.not_eq_true, shows.isNil]
      exact present
    exact ⟨_, shows, ready.eval_name (by cases v <;> decide) set line⟩
  | key before name line ih =>
    rw [Json.at?_append] at found
    obtain ⟨parent, there, last⟩ := Option.bind_eq_some_iff.1 found
    obtain ⟨w, shows, first⟩ := ih there
    obtain ⟨child, entry, same⟩ := Option.bind_eq_some_iff.1 last
    cases same
    cases shows with
    | obj found handlers entries =>
      have second : ∀ k, eval ready.scope (.string (.ofText name)) k h =
          k [.string (.ofText name)] h := fun k => by rw [eval]; rfl
      exact ⟨_, entries name j entry, ready.eval_index first second found handlers rfl line⟩
    | _ => cases entry
  | position before i line ih =>
    rw [Json.at?_append] at found
    obtain ⟨parent, there, last⟩ := Option.bind_eq_some_iff.1 found
    obtain ⟨w, shows, first⟩ := ih there
    obtain ⟨child, entry, same⟩ := Option.bind_eq_some_iff.1 last
    cases same
    cases shows with
    | arr found handlers narrow entries =>
      have second : ∀ k, eval ready.scope (.number (.int (.ofNat (1 + i)))) k h =
          k [.int (.ofNat (1 + i))] h := fun k => by rw [eval]; rfl
      have item := entries i j entry
      rw [Nat.add_comm] at item
      exact ⟨_, item, ready.eval_index first second found handlers rfl line⟩
    | _ => cases entry

end Ready

theorem State.start_ready {builtins : Keyed Json} {s : State} {c : Context}
    (started : ofBuiltins builtins = .ok s) (narrow : c.user.isNarrow ∧ c.requestValue.isNarrow)
    (keyed : c.user.IsKeyed ∧ c.requestValue.IsKeyed) :
    ∃ (h : Heap) (ready : Ready s c h), ∀ chunk : Chunk,
      s.start chunk c = (execBlock ready.scope chunk).run h := by
  obtain ⟨naming⟩ := ofBuiltins_naming started
  obtain ⟨grows, bound, others⟩ := bindings_represent s.heap narrow keyed
  let table : Table :=
    { (bindings c s.heap).1 with handlers := { Handlers.none with index := some s.names } }
  let h := (bindings c s.heap).2.newTable table
  have added := Heap.grows_newTable (bindings c s.heap).2 table
  have celled : h.2.Grows (h.2.newCell (.table h.1)).2 := ⟨Nat.le_refl _, fun _ _ => rfl⟩
  have entries (k : Key) : table.get k = (bindings c s.heap).1.get k := by
    cases k <;> rfl
  exact ⟨(h.2.newCell (.table h.1)).2, {
    naming
    cell := (h.2.newCell (.table h.1)).1
    env := h.1
    table
    inCell := by simp [Heap.newCell, Heap.cell]
    found := Heap.newTable_self _ table
    handlers := rfl
    bound := fun v => by
      rw [entries]
      exact ((bound v).grow added).grow celled
    others := fun k other => (entries k).trans (others k other)
    names := added.found (grows.found naming.found) }, fun _ => rfl⟩

open Machine

def Turn.Delays (j : Nat) (t t' : Turn) : Prop :=
  ∀ (m : Machine) (n : Nat) (e : Ending), Ends n m t' e → Ends (n + j) m t e

theorem Turn.Delays.trans {i j : Nat} {t t' t'' : Turn} (first : t.Delays i t')
    (second : t'.Delays j t'') : t.Delays (i + j) t'' := by
  intro m n e ends
  rw [Nat.add_comm i j, ← Nat.add_assoc]
  exact first m _ e (second m n e ends)

theorem delays_pause (h : Heap) (resume : Heap → Turn) :
    (Turn.pause h resume).Delays 1 (resume h) := fun _ _ _ ends => .later rfl ends

theorem delays_pauses (n : Nat) (k : Unit → Heap → Turn) (h : Heap) :
    (pauses n k h).Delays n (k () h) := by
  induction n with
  | zero => exact fun _ _ _ ends => ends
  | succ n ih =>
    show (Turn.pause h (pauses n k)).Delays (n + 1) (k () h)
    rw [Nat.add_comm]
    exact (delays_pause h _).trans ih

theorem delays_call {f : Native} {args vs : List Value} {site : CallSite} {h : Heap}
    {resume : List Value → Heap → Turn} {j : Nat}
    (body : (Library.run f args Library.answered h).Delays j (.done (.returned vs) h))
    {random : Random} {n : Nat} {e : Ending} (ends : Ends n (.initial random) (resume vs h) e) :
    Ends (n + j + 2) (.initial random) (.call (.native f) args site h resume) e := by
  have free : ((Machine.initial random).push (.call site resume)).isFull = false := by
    cases nested : site.nested <;>
      simp [isFull, push, initial, Frame.isNested, Frame.site?, depthLimit, nestingLimit, nested]
  have returned := Ends.later (step_returned (.initial random) site resume vs h) ends
  have called := step_call (m := .initial random) (.native f) args site h resume
  rw [free, if_neg Bool.false_ne_true] at called
  have whole := Ends.later called (body _ _ _ returned)
  rwa [show n + 1 + j + 1 = n + j + 2 by omega] at whole

theorem run_delays {f : Native} {args vs : List Value} {h : Heap} {j : Nat}
    (performed : ∀ k, (Library.perform f args k h).Delays j (k vs h)) :
    (Library.run f args Library.answered h).Delays (j + (byteCounts args + byteCounts vs) / 16)
      (.done (.returned vs) h) := by
  show (Library.perform f args _ h).Delays _ _
  exact (performed _).trans (delays_pauses _ _ h)

theorem lookup_known {names : TableId} {optional : List String} {support : Support} {h : Heap}
    {t : Table} (found : h.tables[names]? = some t) (env : Value) {name : String}
    (known : (t.get (.named name)).isNil = false ∨ name ∈ optional) (k : List Value → Heap → Turn) :
    Library.perform (.lookup names optional support) [env, .text name] k h =
      k [t.get (.named name)] h := by
  have entry : h.rawGet names (.named name) = t.get (.named name) := Heap.rawGet_eq found _
  have listed : name ∈ optional → (optional.any fun m => Bytes.ofText m == .ofText name) = true :=
    fun member => List.any_eq_true.2 ⟨name, member, (Bytes.beq_iff _ _).2 rfl⟩
  rw [Library.lookup_apply, entry, if_pos]
  rcases known with set | member
  · simp [set]
  · simp [listed member]

def Reached (s : String) (items : List Json) : Prop :=
  ∃ before after, items = before ++ .str s :: after ∧ .null ∉ before

theorem not_reached_nil (s : String) : ¬ Reached s [] := by
  rintro ⟨before, after, split, -⟩
  cases before <;> cases split

theorem reached_cons {s : String} {j : Json} {items : List Json} :
    Reached s (j :: items) ↔ j = .str s ∨ j ≠ .null ∧ Reached s items := by
  constructor
  · rintro ⟨before, after, split, plain⟩
    cases before with
    | nil =>
      cases split
      exact .inl rfl
    | cons first before =>
      cases split
      rw [List.mem_cons, not_or] at plain
      exact .inr ⟨Ne.symm plain.1, before, after, rfl, plain.2⟩
  · rintro (rfl | ⟨present, before, after, rfl, plain⟩)
    · exact ⟨[], items, rfl, List.not_mem_nil⟩
    · exact ⟨j :: before, after, rfl, by simpa using ⟨Ne.symm present, plain⟩⟩

theorem containsFrom_round {h : Heap} {id : TableId} {t : Table} (found : h.tables[id]? = some t)
    (handlers : t.handlers = .none) (v : Value) (fuel : Nat) (i : Int64)
    (k : Value → Heap → Turn) :
    (Library.containsFrom (.table id) v (fuel + 1) i k h).Delays 1
      (if (t.get (.int i)).isNil then k (.bool false) h
      else if (t.get (.int i)).same v then k (.bool true) h
      else Library.containsFrom (.table id) v fuel (i + 1) k h) := by
  let look : Routine Value := do
    let w ← Library.item (.table id) i
    if w.isNil then return .bool false
    else if w.same v then return .bool true
    else Library.containsFrom (.table id) v fuel (i + 1)
  have looked : look k h =
      if (t.get (.int i)).isNil then k (.bool false) h
      else if (t.get (.int i)).same v then k (.bool true) h
      else Library.containsFrom (.table id) v fuel (i + 1) k h := by
    show (Value.table id).index (.int i) .native _ h = _
    rw [Value.index_plain found rfl handlers]
    dsimp only
    split
    · rfl
    · split <;> rfl
  rw [← looked, Library.containsFrom]
  exact delays_pause h (look k)

theorem containsFrom_delays {h : Heap} {items : List Json} {id : TableId} {t : Table}
    (found : h.tables[id]? = some t) (handlers : t.handlers = .none)
    (entries : ∀ (i : Nat) (j : Json), items[i]? = some j →
      h.Represents j (t.get (.int (.ofNat (i + 1)))))
    (beyond : t.get (.int (.ofNat (items.length + 1))) = .nil) (s : String) {rest : List Json}
    {i : Nat} (remaining : items.drop i = rest) (inside : i ≤ items.length) {fuel : Nat}
    (enough : rest.length < fuel) :
    ∃ b j, j ≤ rest.length + 1 ∧ (b = true ↔ Reached s rest) ∧
      ∀ k, (Library.containsFrom (.table id) (.string (.ofText s)) fuel (.ofNat (i + 1)) k h).Delays
        j (k (.bool b) h) := by
  induction rest generalizing i fuel with
  | nil =>
    obtain ⟨fuel, rfl⟩ := Nat.exists_eq_succ_of_ne_zero (Nat.ne_of_gt enough)
    have last : i = items.length := Nat.le_antisymm inside (List.drop_eq_nil_iff.1 remaining)
    have round := containsFrom_round found handlers (.string (.ofText s)) fuel (.ofNat (i + 1))
    rw [last, beyond] at round
    exact ⟨false, 1, Nat.le_refl 1, by simp [not_reached_nil], last ▸ round⟩
  | cons j rest ih =>
    obtain ⟨fuel, rfl⟩ := Nat.exists_eq_succ_of_ne_zero (Nat.ne_of_gt (Nat.zero_lt_of_lt enough))
    have bound : i < items.length := by
      rw [← Nat.not_le]
      intro beyond
      rw [List.drop_eq_nil_of_le beyond] at remaining
      cases remaining
    have both : items[i] :: items.drop (i + 1) = j :: rest :=
      (List.drop_eq_getElem_cons bound).symm.trans remaining
    obtain ⟨here, later⟩ := List.cons.inj both
    have shows := entries i j (by rw [List.getElem?_eq_getElem bound, here])
    have round := containsFrom_round found handlers (.string (.ofText s)) fuel (.ofNat (i + 1))
    rw [List.length_cons] at enough ⊢
    by_cases null : j = .null
    · simp only [if_pos (shows.isNil.2 null)] at round
      exact ⟨false, 1, by omega, by simp [reached_cons, null], round⟩
    · simp only [if_neg (mt shows.isNil.1 null)] at round
      by_cases equal : j = .str s
      · simp only [if_pos ((shows.same_text s).2 equal)] at round
        exact ⟨true, 1, by omega, by simp [reached_cons, equal], round⟩
      · simp only [if_neg (mt (shows.same_text s).1 equal)] at round
        obtain ⟨b, n, few, reached, on⟩ := ih later bound (Nat.lt_of_succ_lt_succ enough)
        rw [Int64.ofNat_add] at on
        exact ⟨b, 1 + n, by omega, by simp [reached, reached_cons, null, equal], fun k =>
          (round k).trans (on k)⟩

end CallGuard.Lua
