import CallGuard.Lua.State
import CallGuard.Proofs.Lua.Paired.Renaming

set_option autoImplicit false

namespace CallGuard

namespace Json

-- No list in memory is as long as this.
def longest : Nat := 0x1000000000000000

mutual

def isNarrow : Json → Bool
  | .arr items => items.length < longest && areNarrow items
  | .obj fields => fieldsAreNarrow fields
  | _ => true

def areNarrow : List Json → Bool
  | [] => true
  | j :: js => j.isNarrow && areNarrow js

def fieldsAreNarrow : List (String × Json) → Bool
  | [] => true
  | (_, j) :: fields => j.isNarrow && fieldsAreNarrow fields

end

end Json

namespace Lua

def Value.Viewed (start n : Nat) : Value → Prop
  | .table id => ∃ i : Nat, i < n ∧ id = start + 2 * i + 1
  | .native _ => False
  | _ => True

def unwrap (start copies id : Nat) : Nat := copies + (id - start) / 2

theorem unwrap_view (start copies i : Nat) :
    unwrap start copies (start + 2 * i + 1) = copies + i := by
  unfold unwrap
  omega

theorem Value.Viewed.mono {start n m : Nat} {v : Value} (viewed : v.Viewed start n)
    (more : n ≤ m) : v.Viewed start m := by
  cases v with
  | table id =>
    obtain ⟨i, bound, same⟩ := viewed
    exact ⟨i, Nat.lt_of_lt_of_le bound more, same⟩
  | native _ => exact viewed
  | _ => trivial

theorem admits_viewed (start n : Nat) : Value.Admits (Value.Viewed start n) :=
  ⟨trivial, fun _ => trivial⟩

theorem Value.ofNumber_viewed (start n : Nat) (x : Json.Number) :
    (Value.ofNumber x).Viewed start n := by
  unfold ofNumber
  split
  · split <;> trivial
  · trivial

theorem Value.ofNumber_rename (move : TableId → TableId) (x : Json.Number) :
    (Value.ofNumber x).rename move = .ofNumber x := by
  unfold ofNumber
  split
  · split <;> rfl
  · rfl

structure Table.Document (sized : Prop) (limit start n : Nat) (t : Table) : Prop where
  entries : t.Holds (Value.Viewed start n)
  handlers : t.handlers = .none
  tidy : sized → limit < Json.longest ∧ t.Tidy limit ∧ ∀ bits, t.get (.float bits) = .nil

namespace Table.Document

variable {sized : Prop} {limit start n m : Nat} {t : Table}

theorem empty (narrow : sized → limit < Json.longest) :
    Table.empty.Document sized limit start n :=
  ⟨Table.nothing_holds rfl rfl, rfl, fun small =>
    ⟨narrow small, Table.empty_tidy limit, fun _ => Table.empty_get _⟩⟩

theorem mono (document : t.Document sized limit start n) (more : n ≤ m) :
    t.Document sized limit start m :=
  ⟨document.entries.mono fun _ viewed => viewed.mono more, document.handlers, document.tidy⟩

theorem set (document : t.Document sized limit start n) {k : Key} {v : Value}
    (key : k.toValue.Plain) (float : ∀ bits, k ≠ .float bits) (value : v.Viewed start n)
    (below : sized → ∀ m : Int64, k = .int m → m.toInt ≤ limit) :
    (t.set k v).Document sized limit start n := by
  have viewed : k.toValue.Viewed start n := by
    cases k with
    | table _ => exact key.elim
    | native _ => exact key.elim
    | _ => trivial
  refine ⟨document.entries.set (admits_viewed start n) viewed value, ?_, fun small => ?_⟩
  · rw [Table.set_handlers, document.handlers]
  · obtain ⟨narrow, tidy, floats⟩ := document.tidy small
    have bound := narrow
    unfold Json.longest at bound
    obtain ⟨kept, law⟩ := tidy.set (by omega) (below small) v
    refine ⟨narrow, kept, fun bits => ?_⟩
    rw [law, if_neg (float bits).symm, floats]

end Table.Document

namespace Heap

structure Copied (sized : Prop) (support : Support) (g₀ h₀ : Heap) (n : Nat) (g h : Heap) :
    Prop where
  views : g = { g₀ with tables := g.tables }
  copies : h = { h₀ with tables := h.tables }
  old : ∀ id < g₀.tables.size, g.tables[id]? = g₀.tables[id]?
  oldCopies : ∀ id < h₀.tables.size, h.tables[id]? = h₀.tables[id]?
  size : g.tables.size = g₀.tables.size + 2 * n
  sizeCopies : h.tables.size = h₀.tables.size + n
  made : ∀ i < n, ∃ t limit, t.Document sized limit g₀.tables.size n ∧
    g.tables[g₀.tables.size + 2 * i]? = some t ∧
    g.tables[g₀.tables.size + 2 * i + 1]? =
      some (.view (g₀.tables.size + 2 * i) support) ∧
    h.tables[h₀.tables.size + i]? =
      some (t.rename (unwrap g₀.tables.size h₀.tables.size))

variable {sized : Prop} {support : Support} {g₀ h₀ g h : Heap} {n : Nat}

theorem copied_none (g h : Heap) : Copied sized support g h 0 g h := by
  refine ⟨rfl, rfl, fun _ _ => rfl, fun _ _ => rfl, rfl, rfl, fun i bound => ?_⟩
  exact absurd bound (Nat.not_lt_zero i)

theorem newTable_table (h : Heap) (t : Table) (id : Nat) :
    (h.newTable t).2.tables[id]? = if id = h.tables.size then some t else h.tables[id]? := by
  simp [newTable, Array.getElem?_push]

theorem newTable_size (h : Heap) (t : Table) :
    (h.newTable t).2.tables.size = h.tables.size + 1 := by
  simp [newTable]

theorem Copied.store (copied : Copied sized support g₀ h₀ n g h) {limit : Nat} {t : Table}
    (document : t.Document sized limit g₀.tables.size n) :
    Copied sized support g₀ h₀ (n + 1) ((g.newTable t).2.newView (g.newTable t).1 support).2
      (h.newTable (t.rename (unwrap g₀.tables.size h₀.tables.size))).2 := by
  have size := copied.size
  have sizeCopies := copied.sizeCopies
  have two (u : Table) (id : Nat) : ((g.newTable t).2.newTable u).2.tables[id]? =
      if id = g.tables.size + 1 then some u
      else if id = g.tables.size then some t else g.tables[id]? := by
    rw [newTable_table, newTable_table, newTable_size]
  refine ⟨?_, ?_, ?_, ?_, ?_, ?_, ?_⟩
  · rw [copied.views]
    rfl
  · rw [copied.copies]
    rfl
  · intro id bound
    rw [Heap.newView, two, if_neg (by omega), if_neg (by omega)]
    exact copied.old id bound
  · intro id bound
    rw [newTable_table, if_neg (by omega)]
    exact copied.oldCopies id bound
  · rw [Heap.newView, newTable_size, newTable_size]
    omega
  · rw [newTable_size]
    omega
  · intro i bound
    rw [Heap.newView, two, two, newTable_table]
    rcases Nat.lt_succ_iff_lt_or_eq.1 bound with old | rfl
    · obtain ⟨u, limit, made, source, view, copy⟩ := copied.made i old
      refine ⟨u, limit, made.mono (Nat.le_succ n), ?_, ?_, ?_⟩
      · rw [if_neg (by omega), if_neg (by omega), source]
      · rw [if_neg (by omega), if_neg (by omega), view]
      · rw [if_neg (by omega), copy]
    · refine ⟨t, limit, document.mono (Nat.le_succ i), ?_, ?_, ?_⟩
      · rw [if_neg (by omega), if_pos size.symm]
      · rw [if_pos (by omega)]
        exact congrArg (fun source => some (Table.view source support)) size
      · rw [if_pos sizeCopies.symm]

def CopiedValue (sized : Prop) (support : Support) (g₀ h₀ : Heap) (n : Nat)
    (made made' : Value × Heap) : Prop :=
  ∃ m, n ≤ m ∧ Copied sized support g₀ h₀ m made.2 made'.2 ∧
    made.1.Viewed g₀.tables.size m ∧
    made'.1 = made.1.rename (unwrap g₀.tables.size h₀.tables.size)

def CopiedTable (sized : Prop) (support : Support) (g₀ h₀ : Heap) (limit n : Nat)
    (made made' : Table × Heap) : Prop :=
  ∃ m, n ≤ m ∧ Copied sized support g₀ h₀ m made.2 made'.2 ∧
    made.1.Document sized limit g₀.tables.size m ∧
    made'.1 = made.1.rename (unwrap g₀.tables.size h₀.tables.size)

theorem CopiedTable.store {limit : Nat} {made made' : Table × Heap}
    (copied : CopiedTable sized support g₀ h₀ limit n made made') :
    CopiedValue sized support g₀ h₀ n
      (.table ((made.2.newTable made.1).2.newView (made.2.newTable made.1).1 support).1,
        ((made.2.newTable made.1).2.newView (made.2.newTable made.1).1 support).2)
      (.table (made'.2.newTable made'.1).1, (made'.2.newTable made'.1).2) := by
  obtain ⟨t, g⟩ := made
  obtain ⟨t', h⟩ := made'
  obtain ⟨m, more, copied, document, rfl⟩ := copied
  have size := copied.size
  have view : (g.newTable t).2.tables.size = g₀.tables.size + 2 * m + 1 := by
    rw [newTable_size, size]
  refine ⟨m + 1, by omega, copied.store document, ⟨m, Nat.lt_succ_self m, view⟩, ?_⟩
  have copy : h.tables.size = unwrap g₀.tables.size h₀.tables.size (g.newTable t).2.tables.size := by
    rw [view, unwrap_view, copied.sizeCopies]
  exact congrArg Value.table copy

mutual

theorem copied_ofJson : ∀ (j : Json) {g h : Heap} {n : Nat}, (sized → j.isNarrow) →
    Copied sized support g₀ h₀ n g h →
      CopiedValue sized support g₀ h₀ n (g.viewOfJson support j) (h.ofJson j)
  | .null, g, h, n, _, copied => by
    rw [viewOfJson, ofJson]
    exact ⟨n, Nat.le_refl n, copied, trivial, rfl⟩
  | .bool b, g, h, n, _, copied => by
    rw [viewOfJson, ofJson]
    exact ⟨n, Nat.le_refl n, copied, trivial, rfl⟩
  | .num x, g, h, n, _, copied => by
    rw [viewOfJson, ofJson]
    exact ⟨n, Nat.le_refl n, copied, Value.ofNumber_viewed _ n x, (Value.ofNumber_rename _ x).symm⟩
  | .str s, g, h, n, _, copied => by
    rw [viewOfJson, ofJson]
    exact ⟨n, Nat.le_refl n, copied, trivial, rfl⟩
  | .arr items, g, h, n, narrow, copied => by
    have sizes : sized → items.length < Json.longest ∧ Json.areNarrow items := by
      simpa [Json.isNarrow] using narrow
    rw [viewOfJson, ofJson]
    have items := copied_ofItems items (fun small => (sizes small).2) copied 1
      (fun _ => by omega) (.empty fun small => (sizes small).1)
    rw [Table.empty_rename] at items
    exact items.store
  | .obj fields, g, h, n, narrow, copied => by
    have sizes : sized → Json.fieldsAreNarrow fields := by
      simpa [Json.isNarrow] using narrow
    rw [viewOfJson, ofJson]
    have vacant : sized → 0 < Json.longest := fun _ => by decide
    have fields := copied_ofFields fields sizes copied (.empty vacant)
    rw [Table.empty_rename] at fields
    exact fields.store

theorem copied_ofItems : ∀ (js : List Json) {g h : Heap} {n : Nat}, (sized → Json.areNarrow js) →
    Copied sized support g₀ h₀ n g h → ∀ (i : Nat) {limit : Nat} {t : Table},
      (sized → i + js.length ≤ limit + 1) → t.Document sized limit g₀.tables.size n →
        CopiedTable sized support g₀ h₀ limit n (g.viewItems support i t js)
          (h.ofItems i (t.rename (unwrap g₀.tables.size h₀.tables.size)) js)
  | [], g, h, n, _, copied, i, limit, t, _, document => by
    rw [viewItems, ofItems]
    exact ⟨n, Nat.le_refl n, copied, document, rfl⟩
  | j :: js, g, h, n, narrow, copied, i, limit, t, length, document => by
    have sizes : sized → j.isNarrow ∧ Json.areNarrow js := by
      simpa [Json.areNarrow] using narrow
    obtain ⟨m, more, copied, value, same⟩ := copied_ofJson j (fun small => (sizes small).1) copied
    have grown := (document.mono more).set (k := .int (.ofNat i)) trivial nofun value
    have below : sized → ∀ k : Int64, Key.int (.ofNat i) = .int k → k.toInt ≤ limit := by
      rintro small _ ⟨⟩
      have narrow := (document.tidy small).1
      have inside := length small
      unfold Json.longest at narrow
      rw [List.length_cons] at inside
      rw [Int64.toInt_ofNat_of_lt (by omega)]
      omega
    obtain ⟨l, further, made⟩ := copied_ofItems js (fun small => (sizes small).2) copied (i + 1)
      (fun small => by have := length small; rw [List.length_cons] at this; omega) (grown below)
    rw [← Table.set_rename_of (Table.node?_rename_plain t (k := .int (.ofNat i)) trivial),
      ← same] at made
    rw [viewItems, ofItems]
    exact ⟨l, Nat.le_trans more further, made⟩

theorem copied_ofFields : ∀ (fields : List (String × Json)) {g h : Heap} {n : Nat},
    (sized → Json.fieldsAreNarrow fields) → Copied sized support g₀ h₀ n g h →
      ∀ {limit : Nat} {t : Table}, t.Document sized limit g₀.tables.size n →
        CopiedTable sized support g₀ h₀ limit n (g.viewFields support t fields)
          (h.ofFields (t.rename (unwrap g₀.tables.size h₀.tables.size)) fields)
  | [], g, h, n, _, copied, limit, t, document => by
    rw [viewFields, ofFields]
    exact ⟨n, Nat.le_refl n, copied, document, rfl⟩
  | (name, j) :: fields, g, h, n, narrow, copied, limit, t, document => by
    have sizes : sized → j.isNarrow ∧ Json.fieldsAreNarrow fields := by
      simpa [Json.fieldsAreNarrow] using narrow
    obtain ⟨m, more, copied, value, same⟩ := copied_ofJson j (fun small => (sizes small).1) copied
    have grown := (document.mono more).set (k := .string (.ofText name)) trivial nofun value nofun
    obtain ⟨l, further, made⟩ := copied_ofFields fields (fun small => (sizes small).2) copied grown
    rw [← Table.set_rename_of (Table.node?_rename_plain t (k := .string (.ofText name)) trivial),
      ← same] at made
    rw [viewFields, ofFields]
    exact ⟨l, Nat.le_trans more further, made⟩

end

end Heap

end Lua

end CallGuard
