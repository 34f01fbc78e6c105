import CallGuard.Proofs.Json.Paths
import CallGuard.Proofs.Lua.Accesses
import CallGuard.Proofs.Lua.Views.Constants
import CallGuard.Proofs.Rules.Spelling

set_option autoImplicit false

namespace CallGuard

namespace Json

theorem isNarrow_of_mem {items : List Json} (narrow : areNarrow items) {j : Json}
    (member : j ∈ items) : j.isNarrow := by
  induction items with
  | nil => cases member
  | cons first rest ih =>
    have both : first.isNarrow ∧ areNarrow rest := by simpa [areNarrow] using narrow
    rcases List.mem_cons.1 member with rfl | later
    · exact both.1
    · exact ih both.2 later

theorem isNarrow_of_lookup {fields : List (String × Json)} (narrow : fieldsAreNarrow fields)
    {name : String} {j : Json} (found : Keyed.lookupList name fields = some j) : j.isNarrow := by
  induction fields with
  | nil => cases found
  | cons f rest ih =>
    have both : f.2.isNarrow ∧ fieldsAreNarrow rest := by simpa [fieldsAreNarrow] using narrow
    unfold Keyed.lookupList at found
    split at found
    · cases found
      exact both.1
    · exact ih both.2 found

theorem isNarrow_child {j k : Json} {step : Step} (narrow : j.isNarrow)
    (child : j.child? step = some k) : k.isNarrow ∧ ∀ i, step = .position i → i < longest := by
  cases step with
  | key name =>
    cases j with
    | obj fields =>
      have inside : fieldsAreNarrow fields := by simpa [isNarrow] using narrow
      exact ⟨isNarrow_of_lookup inside child, nofun⟩
    | _ => cases child
  | position i =>
    cases j with
    | arr items =>
      have sizes : items.length < longest ∧ areNarrow items := by simpa [isNarrow] using narrow
      have found : items[i]? = some k := child
      obtain ⟨bound, -⟩ := List.getElem?_eq_some_iff.1 found
      refine ⟨isNarrow_of_mem sizes.2 (List.mem_of_getElem? found), ?_⟩
      rintro _ ⟨⟩
      exact Nat.lt_trans bound sizes.1
    | _ => cases child

theorem position_lt {j k : Json} {path : List Step} (narrow : j.isNarrow)
    (found : j.at? path = some k) : ∀ i, .position i ∈ path → i < longest := by
  induction path generalizing j with
  | nil => simp
  | cons step path ih =>
    obtain ⟨child, here, later⟩ := Option.bind_eq_some_iff.1 found
    obtain ⟨inside, small⟩ := isNarrow_child narrow here
    intro i member
    rcases List.mem_cons.1 member with same | later'
    · exact small i same.symm
    · exact ih inside later i later'

end Json

theorem Context.document_isNarrow {c : Context} (narrow : c.user.isNarrow ∧ c.requestValue.isNarrow)
    (v : Variable) : (c.document v).isNarrow := by
  cases v with
  | user => exact narrow.1
  | request => exact narrow.2
  | metadata =>
    show Json.fieldsAreNarrow (c.metadata.entries.map fun e => (e.1, Json.str e.2)) = true
    induction c.metadata.entries with
    | nil => rfl
    | cons e rest ih => simpa [Json.fieldsAreNarrow, Json.isNarrow] using ih
  | _ => rfl

namespace Lua

namespace Heap

variable {h h' : Heap}

inductive Represents (h : Heap) : Json → Value → Prop
  | null : Represents h .null .nil
  | bool (b : Bool) : Represents h (.bool b) (.bool b)
  | num (n : Json.Number) : Represents h (.num n) (.ofNumber n)
  | str (s : String) : Represents h (.str s) (.text s)
  | arr {items : List Json} {id : TableId} {t : Table} (found : h.tables[id]? = some t)
      (handlers : t.handlers = .none) (narrow : items.length < Json.longest)
      (entries : ∀ (i : Nat) (j : Json), items[i]? = some j →
        Represents h j (t.get (.int (.ofNat (i + 1)))))
      (beyond : t.get (.int (.ofNat (items.length + 1))) = .nil) :
    Represents h (.arr items) (.table id)
  | obj {fields : List (String × Json)} {id : TableId} {t : Table}
      (found : h.tables[id]? = some t) (handlers : t.handlers = .none)
      (entries : ∀ (name : String) (j : Json), Keyed.lookupList name fields = some j →
        Represents h j (t.get (.named name))) :
    Represents h (.obj fields) (.table id)

structure Grows (h h' : Heap) : Prop where
  size : h.tables.size ≤ h'.tables.size
  old : ∀ id < h.tables.size, h'.tables[id]? = h.tables[id]?

theorem Grows.refl (h : Heap) : h.Grows h := ⟨Nat.le_refl _, fun _ _ => rfl⟩

theorem Grows.trans {h'' : Heap} (first : h.Grows h') (second : h'.Grows h'') : h.Grows h'' :=
  ⟨Nat.le_trans first.size second.size, fun id bound =>
    (second.old id (Nat.lt_of_lt_of_le bound first.size)).trans (first.old id bound)⟩

theorem Grows.found (grows : h.Grows h') {id : TableId} {t : Table}
    (found : h.tables[id]? = some t) : h'.tables[id]? = some t :=
  (grows.old id (Array.getElem?_eq_some_iff.1 found).1).trans found

theorem grows_newTable (h : Heap) (t : Table) : h.Grows (h.newTable t).2 := by
  refine ⟨by simp [newTable], fun id bound => ?_⟩
  rw [newTable_table, if_neg (Nat.ne_of_lt bound)]

theorem Represents.grow (grows : h.Grows h') {j : Json} {v : Value}
    (represents : h.Represents j v) : h'.Represents j v := by
  induction represents with
  | null => exact .null
  | bool b => exact .bool b
  | num n => exact .num n
  | str s => exact .str s
  | arr found handlers narrow _ beyond ih =>
    exact .arr (grows.found found) handlers narrow ih beyond
  | obj found handlers _ ih => exact .obj (grows.found found) handlers ih

theorem ofNumber_isNil (n : Json.Number) : (Value.ofNumber n).isNil = false := by
  unfold Value.ofNumber
  split
  · split <;> rfl
  · rfl

theorem Represents.isNil {j : Json} {v : Value} (represents : h.Represents j v) :
    v.isNil = true ↔ j = .null := by
  cases represents with
  | null => simp [Value.isNil]
  | num n => simp [ofNumber_isNil]
  | _ => simp [Value.isNil, Value.text]

theorem Represents.same_text {j : Json} {v : Value} (represents : h.Represents j v) (s : String) :
    v.same (.string (.ofText s)) = true ↔ j = .str s := by
  cases represents with
  | num n =>
    unfold Value.ofNumber
    split
    · split <;> simp [Value.same]
    · simp [Value.same]
  | str t =>
    have equal : Bytes.ofText t = .ofText s ↔ t = s := String.toByteArray_inj
    simp [Value.text, Value.same, Bytes.beq_iff, equal]
  | _ => simp [Value.same]

structure ItemsPut (h : Heap) (i : Nat) (t : Table) (js : List Json)
    (made : Table × Heap) : Prop where
  grows : h.Grows made.2
  handlers : made.1.handlers = t.handlers
  items : ∀ (k : Nat) (j : Json), js[k]? = some j →
    made.2.Represents j (made.1.get (.int (.ofNat (i + k))))
  others : ∀ key : Key, (∀ k < js.length, key ≠ .int (.ofNat (i + k))) →
    made.1.get key = t.get key

structure FieldsPut (h : Heap) (t : Table) (fields : List (String × Json))
    (made : Table × Heap) : Prop where
  grows : h.Grows made.2
  handlers : made.1.handlers = t.handlers
  entries : ∀ (name : String) (j : Json), Keyed.lookupList name fields = some j →
    made.2.Represents j (made.1.get (.named name))
  others : ∀ key : Key, (∀ f ∈ fields, key ≠ .named f.1) → made.1.get key = t.get key

theorem ofNat_injective {m n : Nat} (left : m < 2 ^ 63) (right : n < 2 ^ 63)
    (same : Key.int (.ofNat m) = .int (.ofNat n)) : m = n := by
  have equal := congrArg Int64.toInt (Key.int.inj same)
  rw [Int64.toInt_ofNat_of_lt left, Int64.toInt_ofNat_of_lt right] at equal
  exact Int.ofNat.inj equal

theorem newTable_self (h : Heap) (t : Table) :
    (h.newTable t).2.tables[(h.newTable t).1]? = some t := by
  rw [newTable_table]
  exact if_pos rfl

theorem ItemsPut.store {items : List Json} {made : Table × Heap}
    (put : h.ItemsPut 1 .empty items made) (few : items.length < Json.longest) :
    h.Grows (made.2.newTable made.1).2 ∧ (made.2.newTable made.1).2.Represents (.arr items)
      (.table (made.2.newTable made.1).1) := by
  have bigger := made.2.grows_newTable made.1
  refine ⟨put.grows.trans bigger, .arr (newTable_self _ _) put.handlers few
    (fun i j found => ?_) ?_⟩
  · rw [Nat.add_comm]
    exact (put.items i j found).grow bigger
  · rw [put.others _ fun k bound same => ?_, Table.empty_get]
    unfold Json.longest at few
    have equal := ofNat_injective (by omega) (by omega) same
    omega

theorem FieldsPut.store {fields : List (String × Json)} {made : Table × Heap}
    (put : h.FieldsPut .empty fields made) :
    h.Grows (made.2.newTable made.1).2 ∧ (made.2.newTable made.1).2.Represents (.obj fields)
      (.table (made.2.newTable made.1).1) := by
  have bigger := made.2.grows_newTable made.1
  exact ⟨put.grows.trans bigger, .obj (newTable_self _ _) put.handlers fun name j found =>
    (put.entries name j found).grow bigger⟩

mutual

theorem represents_ofJson : ∀ (j : Json) (h : Heap), j.isNarrow → j.IsKeyed →
    h.Grows (h.ofJson j).2 ∧ (h.ofJson j).2.Represents j (h.ofJson j).1
  | .null, h, _, _ => by
    rw [ofJson]
    exact ⟨.refl h, .null⟩
  | .bool b, h, _, _ => by
    rw [ofJson]
    exact ⟨.refl h, .bool b⟩
  | .num n, h, _, _ => by
    rw [ofJson]
    exact ⟨.refl h, .num n⟩
  | .str s, h, _, _ => by
    rw [ofJson]
    exact ⟨.refl h, .str s⟩
  | .arr items, h, narrow, keyed => by
    have sizes : items.length < Json.longest ∧ Json.areNarrow items := by
      simpa [Json.isNarrow] using narrow
    rw [ofJson]
    exact (ofItems_put items h sizes.2 keyed 1 sizes.1 (by omega) (Nat.le_refl 1)
      (Table.empty_tidy items.length)).store sizes.1
  | .obj fields, h, narrow, keyed => by
    have sizes : Json.fieldsAreNarrow fields := by simpa [Json.isNarrow] using narrow
    rw [ofJson]
    exact (ofFields_put fields h sizes keyed.2 keyed.1 (Table.empty_tidy 0)).store

theorem ofItems_put : ∀ (js : List Json) (h : Heap), Json.areNarrow js → Json.AreKeyed js →
    ∀ (i : Nat) {limit : Nat} {t : Table}, limit < Json.longest → i + js.length ≤ limit + 1 →
      1 ≤ i → t.Tidy limit → h.ItemsPut i t js (h.ofItems i t js)
  | [], h, _, _, i, limit, t, _, _, _, _ => by
    rw [ofItems]
    exact ⟨.refl h, rfl, fun k j found => by simp at found, fun key _ => rfl⟩
  | j :: js, h, narrow, keyed, i, limit, t, few, room, positive, tidy => by
    have sizes : j.isNarrow ∧ Json.areNarrow js := by simpa [Json.areNarrow] using narrow
    rw [List.length_cons] at room
    unfold Json.longest at few
    obtain ⟨grows, value⟩ := represents_ofJson j h sizes.1 keyed.1
    have below : ∀ m : Int64, Key.int (.ofNat i) = .int m → m.toInt ≤ limit := by
      rintro _ ⟨⟩
      rw [Int64.toInt_ofNat_of_lt (by omega)]
      omega
    obtain ⟨kept, law⟩ := tidy.set (by omega) below (h.ofJson j).1
    have put := ofItems_put js (h.ofJson j).2 sizes.2 keyed.2 (i + 1) few (by omega) (by omega)
      kept
    rw [ofItems]
    show h.ItemsPut i t (j :: js)
      ((h.ofJson j).2.ofItems (i + 1) (t.set (.int (.ofNat i)) (h.ofJson j).1) js)
    refine ⟨grows.trans put.grows, ?_, fun k j' found => ?_, fun key other => ?_⟩
    · rw [put.handlers, Table.set_handlers]
    · cases k with
      | zero =>
        cases found
        have same := put.others (.int (.ofNat i)) fun k bound same => by
          have equal := ofNat_injective (by omega) (by omega) same
          omega
        rw [law, if_pos rfl] at same
        exact (congrArg (Represents _ j) same).mpr (value.grow put.grows)
      | succ k =>
        rw [show i + (k + 1) = i + 1 + k by omega]
        exact put.items k j' found
    · have first : key ≠ .int (.ofNat i) := other 0 (Nat.succ_pos _)
      rw [put.others key fun k bound => ?_, law, if_neg first]
      rw [show i + 1 + k = i + (k + 1) by omega]
      exact other (k + 1) (Nat.succ_lt_succ bound)

theorem ofFields_put : ∀ (fields : List (String × Json)) (h : Heap),
    Json.fieldsAreNarrow fields → Json.FieldsAreKeyed fields → Ordered fields →
      ∀ {t : Table}, t.Tidy 0 → h.FieldsPut t fields (h.ofFields t fields)
  | [], h, _, _, _, t, _ => by
    rw [ofFields]
    exact ⟨.refl h, rfl, fun name j found => by simp [Keyed.lookupList] at found, fun key _ => rfl⟩
  | (name, j) :: fields, h, narrow, keyed, ordered, t, tidy => by
    have sizes : j.isNarrow ∧ Json.fieldsAreNarrow fields := by
      simpa [Json.fieldsAreNarrow] using narrow
    obtain ⟨grows, value⟩ := represents_ofJson j h sizes.1 keyed.1
    obtain ⟨kept, law⟩ := tidy.set (k := .named name) (by decide) nofun (h.ofJson j).1
    obtain ⟨later, ordered⟩ := List.pairwise_cons.1 ordered
    have put := ofFields_put fields (h.ofJson j).2 sizes.2 keyed.2 ordered kept
    have fresh : ∀ f ∈ fields, Key.named name ≠ .named f.1 := by
      intro f member same
      have equal := Key.named_injective same
      exact String.lt_irrefl name (equal ▸ later f member)
    rw [ofFields]
    show h.FieldsPut t ((name, j) :: fields)
      ((h.ofJson j).2.ofFields (t.set (.named name) (h.ofJson j).1) fields)
    refine ⟨grows.trans put.grows, ?_, fun key j' found => ?_, fun key other => ?_⟩
    · rw [put.handlers, Table.set_handlers]
    · by_cases same : key = name
      · subst same
        have own : Keyed.lookupList key ((key, j) :: fields) = some j := if_pos rfl
        rw [own] at found
        cases found
        rw [put.others _ fresh, law, if_pos rfl]
        exact value.grow put.grows
      · have other : Keyed.lookupList key ((name, j) :: fields) = Keyed.lookupList key fields :=
          if_neg same
        exact put.entries key j' (other ▸ found)
    · obtain ⟨first, rest⟩ := List.forall_mem_cons.1 other
      rw [put.others key rest, law, if_neg first]

end

end Heap

namespace State

theorem foldl_setText (entries : List (String × Value)) {t : Table} (tidy : t.Tidy 0) :
    (∀ k, (∀ e ∈ entries, k ≠ .named e.1) →
      (entries.foldl (fun t e => t.setText e.1 e.2) t).get k = t.get k) ∧
    ((entries.map Prod.fst).Nodup → ∀ e ∈ entries,
      (entries.foldl (fun t e => t.setText e.1 e.2) t).get (.named e.1) = e.2) := by
  induction entries generalizing t with
  | nil => exact ⟨fun _ _ => rfl, fun _ _ member => by cases member⟩
  | cons e rest ih =>
    obtain ⟨kept, law⟩ := tidy.set (k := .named e.1) (by decide) nofun e.2
    obtain ⟨others, own⟩ := ih kept
    refine ⟨fun k other => ?_, fun once d member => ?_⟩
    · obtain ⟨first, later⟩ := List.forall_mem_cons.1 other
      exact (others k later).trans ((law k).trans (if_neg first))
    · obtain ⟨fresh, once⟩ := List.nodup_cons.1 once
      rcases List.mem_cons.1 member with rfl | later
      · have absent : ∀ f ∈ rest, Key.named d.1 ≠ .named f.1 := fun f member same =>
          fresh (Key.named_injective same ▸ List.mem_map_of_mem member)
        exact (others _ absent).trans ((law _).trans (if_pos rfl))
      · exact own once d later

theorem tableOf_member {entries : List (String × Value)} (once : (entries.map Prod.fst).Nodup)
    {e : String × Value} (member : e ∈ entries) : (tableOf entries).get (.named e.1) = e.2 :=
  (foldl_setText entries (Table.empty_tidy 0)).2 once e member

theorem tableOf_other {entries : List (String × Value)} {k : Key}
    (other : ∀ e ∈ entries, k ≠ .named e.1) : (tableOf entries).get k = .nil :=
  ((foldl_setText entries (Table.empty_tidy 0)).1 k other).trans (Table.empty_get k)

theorem represents_metadata (c : Context) (h : Heap) :
    (h.newTable (tableOf (c.metadata.entries.map fun e => (e.1, .text e.2)))).2.Represents
      (c.document .metadata) (.table h.tables.size) := by
  refine .obj (h.newTable_self _) (tableOf_handlers _) fun name j found => ?_
  have once : ((c.metadata.entries.map fun e => (e.1, Value.text e.2)).map Prod.fst).Nodup := by
    rw [List.map_map]
    show c.metadata.keys.Nodup
    refine c.metadata.keys_ordered.imp ?_
    rintro a _ less rfl
    exact String.lt_irrefl a less
  have listed : (name, j) ∈ c.metadata.entries.map fun e => (e.1, Json.str e.2) := by
    have ordered : Ordered (c.metadata.entries.map fun e => (e.1, Json.str e.2)) :=
      List.pairwise_map.2 c.metadata.ordered
    exact (Keyed.lookupList_eq_some_iff ordered name j).1 found
  obtain ⟨⟨key, text⟩, member, same⟩ := List.mem_map.1 listed
  cases same
  have entry := tableOf_member once (List.mem_map_of_mem member)
  rw [entry]
  exact .str text

theorem bindings_represent {c : Context} (h : Heap)
    (narrow : c.user.isNarrow ∧ c.requestValue.isNarrow)
    (keyed : c.user.IsKeyed ∧ c.requestValue.IsKeyed) :
    h.Grows (bindings c h).2 ∧
      (∀ v : Variable, (bindings c h).2.Represents (c.document v)
        ((bindings c h).1.get (.named v.name))) ∧
      ∀ k, (∀ v : Variable, k ≠ .named v.name) → (bindings c h).1.get k = .nil := by
  obtain ⟨first, user⟩ := Heap.represents_ofJson c.user h narrow.1 keyed.1
  obtain ⟨second, request⟩ := Heap.represents_ofJson c.requestValue (h.ofJson c.user).2
    narrow.2 keyed.2
  have third := ((h.ofJson c.user).2.ofJson c.requestValue).2.grows_newTable
    (tableOf (c.metadata.entries.map fun e => (e.1, .text e.2)))
  let entries : List (String × Value) := [
    (Variable.user.name, (h.ofJson c.user).1),
    (Variable.request.name, ((h.ofJson c.user).2.ofJson c.requestValue).1),
    (Variable.metadata.name, .table ((h.ofJson c.user).2.ofJson c.requestValue).2.tables.size),
    (Variable.isStream.name, .bool c.isStream), (Variable.method.name, .text c.method)]
  have made : (bindings c h).1 = tableOf entries := rfl
  have once : (entries.map Prod.fst).Nodup := by
    show [Variable.user.name, Variable.request.name, Variable.metadata.name,
      Variable.isStream.name, Variable.method.name].Nodup
    decide
  have own : ∀ e ∈ entries, (bindings c h).1.get (.named e.1) = e.2 := fun e member =>
    tableOf_member once member
  simp only [entries, List.forall_mem_cons] at own
  obtain ⟨ownUser, ownRequest, ownMetadata, ownStream, ownMethod, -⟩ := own
  refine ⟨(first.trans second).trans third, fun v => ?_, fun k other => ?_⟩
  · cases v with
    | user =>
      rw [ownUser]
      exact (user.grow second).grow third
    | request =>
      rw [ownRequest]
      exact request.grow third
    | metadata =>
      rw [ownMetadata]
      exact represents_metadata c _
    | isStream =>
      rw [ownStream]
      exact .bool _
    | method =>
      rw [ownMethod]
      exact .str _
  · rw [made]
    refine tableOf_other fun e member same => ?_
    have named : ∃ v : Variable, e.1 = v.name := by
      simp only [entries, List.mem_cons, List.not_mem_nil, or_false] at member
      obtain rfl | rfl | rfl | rfl | rfl := member
      exacts [⟨.user, rfl⟩, ⟨.request, rfl⟩, ⟨.metadata, rfl⟩, ⟨.isStream, rfl⟩, ⟨.method, rfl⟩]
    obtain ⟨v, name⟩ := named
    exact other v (name ▸ same)

end State

end Lua

end CallGuard
