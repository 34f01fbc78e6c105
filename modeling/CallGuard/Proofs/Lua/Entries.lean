import CallGuard.Proofs.Lua.Holding
import Mathlib.Algebra.GroupWithZero.Nat
import Mathlib.Data.List.Nodup

set_option autoImplicit false

namespace CallGuard.Lua.Table

variable {t u : Table} {k : Key} {i : Nat}

def put (t : Table) (e : Key × Value) : Table :=
  match t.slot? e.1 with
  | some i => { t with items := t.items.setIfInBounds i e.2 }
  | none => { t with nodes := t.nodes.push e }

theorem slot?_congr (same : u.items.size = t.items.size) (k : Key) : u.slot? k = t.slot? k := by
  cases k <;> simp [slot?, same]

theorem slot?_eq_some_iff :
    t.slot? k = some i ↔ ∃ n : Int64, k = .int n ∧ n.toInt = i + 1 ∧ i < t.items.size := by
  cases k with
  | int n =>
    simp only [slot?, Key.int.injEq, exists_eq_left']
    split
    · next inside =>
      rw [Option.some.injEq]
      omega
    · next outside =>
      simp only [reduceCtorEq, false_iff]
      omega
  | _ => simp [slot?]

theorem slot?_injective {j k : Key} (here : t.slot? j = some i) (there : t.slot? k = some i) :
    j = k := by
  obtain ⟨m, rfl, first, -⟩ := slot?_eq_some_iff.1 here
  obtain ⟨n, rfl, second, -⟩ := slot?_eq_some_iff.1 there
  rw [Int64.toInt_inj.1 (first.trans second.symm)]

theorem slot?_ofNat (inside : i < t.items.size) (narrow : t.items.size < 2 ^ 63) :
    t.slot? (.int (.ofNat (i + 1))) = some i :=
  slot?_eq_some_iff.2 ⟨_, rfl, Int64.toInt_ofNat_of_lt (by omega), inside⟩

theorem get_slot (slot : t.slot? k = some i) : t.get k = t.items.getD i .nil := by
  simp only [get, slot]

theorem get_absent (slot : t.slot? k = none) (absent : ∀ e ∈ t.nodes, e.1 ≠ k) :
    t.get k = .nil := by
  have none : t.nodes.find? (fun n => n.1 == k) = none := by
    simpa using fun j v member => absent (j, v) member
  simp only [get, slot, none]

structure Distinct (t : Table) : Prop where
  keys : (t.nodes.toList.map Prod.fst).Nodup
  apart : ∀ e ∈ t.nodes, t.slot? e.1 = none

theorem find?_of_nodup {l : List (Key × Value)} (nodup : (l.map Prod.fst).Nodup)
    {e : Key × Value} (member : e ∈ l) : l.find? (fun n => n.1 == e.1) = some e := by
  induction l with
  | nil => cases member
  | cons d rest ih =>
    obtain ⟨fresh, nodup⟩ := List.nodup_cons.1 nodup
    rcases List.mem_cons.1 member with rfl | later
    · simp
    · have differs : d.1 ≠ e.1 := fun same => fresh (same ▸ List.mem_map_of_mem later)
      rw [List.find?_cons_of_neg (by simpa using differs)]
      exact ih nodup later

theorem empty_distinct : empty.Distinct := ⟨by simp [empty], by simp [empty]⟩

namespace Distinct

variable (distinct : t.Distinct)

include distinct

theorem get_node {e : Key × Value} (member : e ∈ t.nodes) : t.get e.1 = e.2 := by
  have found := find?_of_nodup distinct.keys (Array.mem_toList_iff.2 member)
  rw [Array.find?_toList] at found
  simp only [get, distinct.apart e member, found]

theorem get_congr (other : u.Distinct) (slot : u.slot? k = t.slot? k)
    (items : ∀ i, t.slot? k = some i → u.items.getD i .nil = t.items.getD i .nil)
    (nodes : ∀ v, (k, v) ∈ u.nodes ↔ (k, v) ∈ t.nodes) : u.get k = t.get k := by
  cases place : t.slot? k with
  | some i => rw [get_slot place, get_slot (slot.trans place), items i place]
  | none =>
    by_cases present : ∃ v, (k, v) ∈ t.nodes
    · obtain ⟨v, member⟩ := present
      rw [distinct.get_node member, other.get_node ((nodes v).2 member)]
    · have absent : ∀ e ∈ t.nodes, e.1 ≠ k := by
        rintro ⟨j, v⟩ member rfl
        exact present ⟨v, member⟩
      have nowhere : ∀ e ∈ u.nodes, e.1 ≠ k := by
        rintro ⟨j, v⟩ member rfl
        exact present ⟨v, (nodes v).1 member⟩
      rw [get_absent place absent, get_absent (slot.trans place) nowhere]

theorem setNode (found : t.node? k = some i) (v : Value) :
    let u := { t with nodes := t.nodes.setIfInBounds i (k, v) }
    u.Distinct ∧ ∀ j, u.get j = if j = k then v else t.get j := by
  intro u
  obtain ⟨bound, here, -⟩ := Array.findIdx?_eq_some_iff_getElem.1 found
  have key : (t.nodes[i]).1 = k := eq_of_beq here
  have slots : ∀ j, u.slot? j = t.slot? j := slot?_congr rfl
  have members : ∀ e, e ∈ u.nodes → e = (k, v) ∨ e ∈ t.nodes := fun e member =>
    (Array.mem_or_eq_of_mem_setIfInBounds member).symm
  have placed : (k, v) ∈ u.nodes := Array.mem_setIfInBounds bound
  have kept : u.Distinct := by
    refine ⟨?_, fun e member => ?_⟩
    · have same : u.nodes.toList.map Prod.fst = t.nodes.toList.map Prod.fst := by
        have inside : i < (t.nodes.toList.map Prod.fst).length := by simpa using bound
        have own : k = (t.nodes.toList.map Prod.fst)[i] := by simp [key]
        rw [Array.toList_setIfInBounds, List.map_set, own]
        exact List.set_getElem_self _
      rw [same]
      exact distinct.keys
    · rw [slots]
      rcases members e member with rfl | old
      · exact key ▸ distinct.apart t.nodes[i] (Array.getElem_mem bound)
      · exact distinct.apart e old
  refine ⟨kept, fun j => ?_⟩
  split
  · next same =>
    rw [same]
    exact kept.get_node placed
  · next differs =>
    have other : ∀ w, (j, w) ∈ t.nodes → (j, w) ∈ u.nodes := by
      intro w member
      obtain ⟨m, inside, entry⟩ := Array.mem_iff_getElem.1 member
      have elsewhere : i ≠ m := by
        rintro rfl
        rw [entry] at key
        exact differs key
      refine Array.mem_of_getElem? (i := m) ?_
      simp [u, elsewhere, inside, entry]
    refine distinct.get_congr kept (slots j) (fun _ _ => rfl) fun w => ⟨fun member => ?_, other w⟩
    rcases members _ member with same | old
    · exact absurd (congrArg Prod.fst same) differs
    · exact old

theorem setItem (slot : t.slot? k = some i) (v : Value) :
    let u := { t with items := t.items.setIfInBounds i v }
    u.Distinct ∧ ∀ j, u.get j = if j = k then v else t.get j := by
  intro u
  have slots : ∀ j, u.slot? j = t.slot? j := slot?_congr (by simp [u])
  have kept : u.Distinct := ⟨distinct.keys, fun e member => slots e.1 ▸ distinct.apart e member⟩
  obtain ⟨-, -, -, bound⟩ := slot?_eq_some_iff.1 slot
  refine ⟨kept, fun j => ?_⟩
  split
  · next same =>
    rw [same, get_slot ((slots k).trans slot)]
    simp [u, Array.getD_eq_getD_getElem?, bound]
  · next differs =>
    refine distinct.get_congr kept (slots j) (fun m place => ?_) fun _ => Iff.rfl
    have elsewhere : i ≠ m := fun same => differs (slot?_injective (same ▸ place) slot)
    simp [u, Array.getD_eq_getD_getElem?, elsewhere]

theorem pushNode (slot : t.slot? k = none) (absent : ∀ e ∈ t.nodes, e.1 ≠ k) (v : Value) :
    let u := { t with nodes := t.nodes.push (k, v) }
    u.Distinct ∧ ∀ j, u.get j = if j = k then v else t.get j := by
  intro u
  have slots : ∀ j, u.slot? j = t.slot? j := slot?_congr rfl
  have members : ∀ e, e ∈ u.nodes ↔ e ∈ t.nodes ∨ e = (k, v) := fun e => Array.mem_push
  have kept : u.Distinct := by
    refine ⟨?_, fun e member => ?_⟩
    · have fresh : k ∉ t.nodes.toList.map Prod.fst := by
        intro member
        obtain ⟨e, old, same⟩ := List.mem_map.1 member
        exact absent e (Array.mem_toList_iff.1 old) same
      simp only [u, Array.toList_push, List.map_append, List.map_cons, List.map_nil]
      exact List.nodup_append.2 ⟨distinct.keys, List.nodup_singleton k, fun j old j' new same =>
        fresh (by rw [← List.mem_singleton.1 new, ← same]; exact old)⟩
    · rw [slots]
      rcases (members e).1 member with old | rfl
      · exact distinct.apart e old
      · exact slot
  refine ⟨kept, fun j => ?_⟩
  split
  · next same =>
    rw [same]
    exact kept.get_node ((members _).2 (.inr rfl))
  · next differs =>
    refine distinct.get_congr kept (slots j) (fun _ _ => rfl) fun w => ?_
    rw [members]
    exact or_iff_left fun same => differs (congrArg Prod.fst same)

theorem put {e : Key × Value} (absent : ∀ d ∈ t.nodes, d.1 ≠ e.1) :
    (t.put e).Distinct ∧ ∀ j, (t.put e).get j = if j = e.1 then e.2 else t.get j := by
  unfold Table.put
  split
  · next i slot => exact distinct.setItem slot e.2
  · next slot => exact distinct.pushNode slot absent e.2

end Distinct

theorem put_size (t : Table) (e : Key × Value) : (t.put e).items.size = t.items.size := by
  unfold put
  split
  · simp
  · rfl

theorem mem_put {e d : Key × Value} (member : d ∈ (t.put e).nodes) : d ∈ t.nodes ∨ d = e := by
  unfold put at member
  split at member
  · exact .inl member
  · exact Array.mem_push.1 member

theorem Distinct.foldl_put {es : List (Key × Value)} (nodup : (es.map Prod.fst).Nodup)
    (distinct : t.Distinct) (absent : ∀ e ∈ es, ∀ d ∈ t.nodes, d.1 ≠ e.1) :
    (es.foldl Table.put t).Distinct ∧ (es.foldl Table.put t).items.size = t.items.size ∧
      (∀ d ∈ (es.foldl Table.put t).nodes, d ∈ t.nodes ∨ d ∈ es) ∧
      (∀ e ∈ es, (es.foldl Table.put t).get e.1 = e.2) ∧
      ∀ k, (∀ e ∈ es, e.1 ≠ k) → (es.foldl Table.put t).get k = t.get k := by
  induction es generalizing t with
  | nil => exact ⟨distinct, rfl, fun d member => .inl member, List.forall_mem_nil _, fun _ _ => rfl⟩
  | cons e rest ih =>
    obtain ⟨fresh, nodup⟩ := List.nodup_cons.1 nodup
    obtain ⟨here, later⟩ := List.forall_mem_cons.1 absent
    have differs : ∀ d ∈ rest, d.1 ≠ e.1 := fun d member same =>
      fresh (same ▸ List.mem_map_of_mem member)
    obtain ⟨kept, found⟩ := distinct.put here
    obtain ⟨kept, size, members, entries, others⟩ := ih nodup kept fun d member c old => by
      rcases mem_put old with old | rfl
      · exact later d member c old
      · exact (differs d member).symm
    refine ⟨kept, size.trans (t.put_size e), fun d member => ?_, fun d member => ?_, fun k other => ?_⟩
    · rcases members d member with old | new
      · refine (mem_put old).imp_right ?_
        rintro rfl
        exact List.mem_cons_self
      · exact .inr (List.mem_cons_of_mem e new)
    · rcases List.mem_cons.1 member with rfl | new
      · rw [List.foldl_cons, others _ differs, found, if_pos rfl]
      · exact entries d new
    · obtain ⟨first, rest⟩ := List.forall_mem_cons.1 other
      rw [List.foldl_cons, others k rest, found, if_neg first.symm]

def leftover (t : Table) (size : Nat) : List (Key × Value) :=
  (List.range (t.items.size - size)).filterMap fun i =>
    if (t.items.getD (size + i) .nil).isNil then none
    else some (Key.int (.ofNat (size + i + 1)), t.items.getD (size + i) .nil)

def kept (t : Table) : List (Key × Value) := t.nodes.toList.filter fun n => !n.2.isNil

def trimmed (t : Table) (size others : Nat) : Table := { t with
  items := t.items.extract 0 size ++ Array.replicate (size - t.items.size) .nil
  nodes := #[]
  capacity := capacityFor others }

theorem resize_eq (t : Table) (size others : Nat) :
    t.resize size others = (t.leftover size ++ t.kept).foldl put (t.trimmed size others) := rfl

theorem trimmed_size (t : Table) (size others : Nat) :
    (t.trimmed size others).items.size = size := by
  simp only [trimmed, Array.size_append, Array.size_extract, Array.size_replicate]
  omega

theorem trimmed_item (t : Table) {size i : Nat} (others : Nat) (fits : i < size) :
    (t.trimmed size others).items.getD i .nil = t.items.getD i .nil := by
  simp only [trimmed, Array.getD_eq_getD_getElem?]
  by_cases old : i < t.items.size
  · rw [Array.getElem?_append_left (by simp; omega)]
    have both : i < min size t.items.size := Nat.lt_min.2 ⟨fits, old⟩
    simp [old, both]
  · rw [Array.getElem?_append_right (by simp; omega)]
    have beyond : t.items[i]? = none := Array.getElem?_eq_none (by omega)
    simp only [beyond, Array.getElem?_replicate]
    split <;> rfl

theorem leftover_slot {size : Nat} (narrow : t.items.size < 2 ^ 63) {e : Key × Value} {i : Nat}
    (entry : (if (t.items.getD (size + i) .nil).isNil then none
      else some (Key.int (.ofNat (size + i + 1)), t.items.getD (size + i) .nil)) = some e) :
    t.slot? e.1 = some (size + i) ∧ e.2 = t.items.getD (size + i) .nil ∧ e.2.isNil = false := by
  split at entry
  · cases entry
  · next present =>
    cases entry
    refine ⟨slot?_ofNat (by_contra fun outside => present ?_) narrow, rfl, by simpa using present⟩
    rw [Array.getD_eq_getD_getElem?, Array.getElem?_eq_none (by omega)]
    rfl

theorem mem_leftover {size : Nat} (narrow : t.items.size < 2 ^ 63) {e : Key × Value} :
    e ∈ t.leftover size ↔
      ∃ i, size ≤ i ∧ t.slot? e.1 = some i ∧ e.2 = t.items.getD i .nil ∧ e.2.isNil = false := by
  simp only [leftover, List.mem_filterMap, List.mem_range]
  constructor
  · rintro ⟨i, -, entry⟩
    exact ⟨size + i, Nat.le_add_right size i, leftover_slot narrow entry⟩
  · rintro ⟨i, beyond, slot, value, present⟩
    obtain ⟨n, key, count, bound⟩ := slot?_eq_some_iff.1 slot
    have place : size + (i - size) = i := by omega
    refine ⟨i - size, by omega, ?_⟩
    rw [place, ← value, present, ← slot?_injective slot (slot?_ofNat bound narrow)]
    rfl

theorem leftover_nodup (narrow : t.items.size < 2 ^ 63) (size : Nat) :
    ((t.leftover size).map Prod.fst).Nodup := by
  rw [List.Nodup, List.pairwise_map]
  refine List.Pairwise.filterMap _ (fun i j differs d left e right same => differs ?_)
    List.nodup_range
  have slot := (leftover_slot narrow left).1
  rw [same, (leftover_slot narrow right).1, Option.some.injEq] at slot
  omega

theorem Distinct.mem_kept (distinct : t.Distinct) {e : Key × Value} :
    e ∈ t.kept ↔ t.slot? e.1 = none ∧ e.2 = t.get e.1 ∧ e.2.isNil = false := by
  simp only [kept, List.mem_filter, Array.mem_toList_iff, Bool.not_eq_true']
  constructor
  · rintro ⟨member, present⟩
    exact ⟨distinct.apart e member, (distinct.get_node member).symm, present⟩
  · rintro ⟨slot, value, present⟩
    refine ⟨by_contra fun missing => ?_, present⟩
    have absent : ∀ d ∈ t.nodes, d.1 ≠ e.1 := by
      intro d member same
      have other : d.2 = e.2 := by rw [value, ← same, distinct.get_node member]
      exact missing (Prod.ext same other ▸ member)
    rw [value, get_absent slot absent] at present
    cases present

theorem Distinct.listed_nodup (distinct : t.Distinct) (narrow : t.items.size < 2 ^ 63)
    (size : Nat) : ((t.leftover size ++ t.kept).map Prod.fst).Nodup := by
  rw [List.map_append]
  refine List.nodup_append.2 ⟨leftover_nodup narrow size,
    distinct.keys.sublist (List.filter_sublist.map Prod.fst), ?_⟩
  intro j item k node same
  obtain ⟨d, left, rfl⟩ := List.mem_map.1 item
  obtain ⟨e, right, rfl⟩ := List.mem_map.1 node
  obtain ⟨i, -, slot, -⟩ := (mem_leftover narrow).1 left
  rw [same, (distinct.mem_kept.1 right).1] at slot
  cases slot

theorem Distinct.trimmed_get (distinct : t.Distinct) (narrow : t.items.size < 2 ^ 63)
    (size others : Nat) (unlisted : ∀ e ∈ t.leftover size ++ t.kept, e.1 ≠ k) :
    (t.trimmed size others).get k = t.get k := by
  have nil (v : Value) (present : ¬ v.isNil = false) : v = .nil := by
    cases v <;> first | rfl | exact absurd rfl present
  have node : t.slot? k = none → t.get k = .nil := fun slot => nil _ fun present =>
    unlisted (k, t.get k) (List.mem_append_right _ (distinct.mem_kept.2 ⟨slot, rfl, present⟩)) rfl
  have item : ∀ i, size ≤ i → t.slot? k = some i → t.get k = .nil := fun i beyond slot =>
    nil _ fun present => unlisted (k, t.get k) (List.mem_append_left _
      ((mem_leftover narrow).2 ⟨i, beyond, slot, get_slot slot, present⟩)) rfl
  cases place : (t.trimmed size others).slot? k with
  | some i =>
    obtain ⟨n, rfl, count, bound⟩ := slot?_eq_some_iff.1 place
    rw [trimmed_size] at bound
    rw [get_slot place, trimmed_item t others bound]
    cases old : t.slot? (.int n) with
    | some j =>
      obtain ⟨_, same, other, -⟩ := slot?_eq_some_iff.1 old
      cases same
      rw [get_slot old, show j = i by omega]
    | none =>
      have beyond : ¬ i < t.items.size := fun inside => by
        rw [slot?_eq_some_iff.2 ⟨n, rfl, count, inside⟩] at old
        cases old
      rw [node old, Array.getD_eq_getD_getElem?, Array.getElem?_eq_none (by omega)]
      rfl
  | none =>
    rw [get_absent place (by simp [trimmed])]
    cases old : t.slot? k with
    | none => exact (node old).symm
    | some i =>
      refine (item i (Nat.le_of_not_lt fun inside => ?_) old).symm
      obtain ⟨n, rfl, count, -⟩ := slot?_eq_some_iff.1 old
      rw [slot?_eq_some_iff.2 ⟨n, rfl, count, by rwa [trimmed_size]⟩] at place
      cases place

theorem Distinct.resize (distinct : t.Distinct) (narrow : t.items.size < 2 ^ 63)
    (size others : Nat) :
    (t.resize size others).Distinct ∧ (t.resize size others).items.size = size ∧
      (∀ e ∈ (t.resize size others).nodes, e.2.isNil = false) ∧
      ∀ k, (t.resize size others).get k = t.get k := by
  have moved : ∀ e ∈ t.leftover size ++ t.kept, e.2 = t.get e.1 ∧ e.2.isNil = false := by
    intro e member
    rcases List.mem_append.1 member with item | node
    · obtain ⟨i, -, slot, value, present⟩ := (mem_leftover narrow).1 item
      exact ⟨value.trans (get_slot slot).symm, present⟩
    · exact (distinct.mem_kept.1 node).2
  have vacant : (t.trimmed size others).Distinct := ⟨by simp [trimmed], by simp [trimmed]⟩
  obtain ⟨kept, same, members, entries, unmoved⟩ :=
    vacant.foldl_put (distinct.listed_nodup narrow size) (by simp [trimmed])
  rw [resize_eq]
  refine ⟨kept, same.trans (t.trimmed_size size others), fun e member => ?_, fun k => ?_⟩
  · rcases members e member with old | new
    · simp [trimmed] at old
    · exact (moved e new).2
  · by_cases listed : ∃ e ∈ t.leftover size ++ t.kept, e.1 = k
    · obtain ⟨e, member, rfl⟩ := listed
      rw [entries e member, (moved e member).1]
    · have unlisted : ∀ e ∈ t.leftover size ++ t.kept, e.1 ≠ k := fun e member same =>
        listed ⟨e, member, same⟩
      rw [unmoved k unlisted, distinct.trimmed_get narrow size others unlisted]

theorem bestSize_le (keys : List Nat) (fuel size best : Nat) :
    bestSize keys fuel size best ≤ max best (2 * keys.length) := by
  induction fuel generalizing size best with
  | zero => exact Nat.le_max_left _ _
  | succ fuel ih =>
    have count : (keys.filter fun k => k ≤ size).length ≤ keys.length := List.length_filter_le _ _
    rw [bestSize]
    split
    · exact Nat.le_max_left _ _
    · have further := ih (2 * size)
        (if size < 2 * (keys.filter fun k => k ≤ size).length then size else best)
      refine Nat.le_trans further ?_
      split <;> omega

-- No integer keys above the number.
structure Tidy (n : Nat) (t : Table) : Prop where
  distinct : t.Distinct
  ints : ∀ m : Int64, (t.get (.int m)).isNil = false → m.toInt ≤ n
  size : t.items.size ≤ 2 * (n + 1)

theorem empty_get (k : Key) : empty.get k = .nil := by
  refine get_absent ?_ (by simp [empty])
  cases slot : empty.slot? k with
  | none => rfl
  | some i =>
    obtain ⟨_, _, _, bound⟩ := slot?_eq_some_iff.1 slot
    simp [empty] at bound

theorem empty_tidy (n : Nat) : empty.Tidy n := by
  refine ⟨empty_distinct, fun m present => ?_, by simp [empty]⟩
  rw [empty_get] at present
  cases present

def itemKey? : Key × Value → Option Nat
  | (.int i, v) => if 0 < i.toInt && !v.isNil then some i.toInt.toNat else none
  | _ => none

theorem itemKey?_eq_some_iff {e : Key × Value} {m : Nat} :
    itemKey? e = some m ↔
      ∃ i : Int64, e.1 = .int i ∧ 0 < i.toInt ∧ i.toInt.toNat = m ∧ e.2.isNil = false := by
  obtain ⟨k, v⟩ := e
  cases k with
  | int i => simp [itemKey?, and_assoc, and_comm (a := v.isNil = false)]
  | _ => simp [itemKey?]

theorem itemKeys_eq (t : Table) : t.itemKeys =
    ((List.range t.items.size).filter fun i => !(t.items.getD i .nil).isNil).map (· + 1) ++
      t.nodes.toList.filterMap itemKey? := by
  unfold itemKeys
  refine congrArg (fun f => _ ++ t.nodes.toList.filterMap f) ?_
  funext e
  obtain ⟨k, v⟩ := e
  cases k <;> rfl

theorem Tidy.itemKeys_length {n : Nat} (tidy : t.Tidy n) (narrow : 2 * (n + 1) < 2 ^ 63) :
    t.itemKeys.length ≤ n := by
  -- The keys are different numbers from one on, none of which is above the limit.
  have size := tidy.size
  rw [itemKeys_eq]
  have distinct : (((List.range t.items.size).filter fun i =>
      !(t.items.getD i .nil).isNil).map (· + 1) ++ t.nodes.toList.filterMap itemKey?).Nodup := by
    refine List.nodup_append.2 ⟨?_, ?_, ?_⟩
    · exact (List.nodup_range.filter _).map fun a b same => Nat.succ.inj same
    · refine List.Pairwise.filterMap _ (fun d e differs a left b right same => ?_)
        (List.pairwise_map.1 tidy.distinct.keys)
      obtain ⟨i, first, _, rfl, -⟩ := itemKey?_eq_some_iff.1 left
      obtain ⟨j, second, _, rfl, -⟩ := itemKey?_eq_some_iff.1 right
      have equal : i = j := Int64.toInt_inj.1 (by omega)
      exact differs (by rw [first, second, equal])
    · intro a left b right same
      obtain ⟨i, member, rfl⟩ := List.mem_map.1 left
      obtain ⟨e, node, key⟩ := List.mem_filterMap.1 right
      obtain ⟨j, int, positive, rfl, -⟩ := itemKey?_eq_some_iff.1 key
      have inside := List.mem_range.1 (List.mem_filter.1 member).1
      have apart := tidy.distinct.apart e (Array.mem_toList_iff.1 node)
      rw [slot?_eq_some_iff.2 ⟨j, int, by omega, inside⟩] at apart
      cases apart
  have limited : (((List.range t.items.size).filter fun i =>
      !(t.items.getD i .nil).isNil).map (· + 1) ++ t.nodes.toList.filterMap itemKey?) ⊆
        List.range' 1 n := by
    intro m member
    rw [List.mem_range'_1]
    rcases List.mem_append.1 member with item | node
    · obtain ⟨i, found, rfl⟩ := List.mem_map.1 item
      obtain ⟨inside, present⟩ := List.mem_filter.1 found
      have slot := slot?_ofNat (List.mem_range.1 inside) (by omega)
      have limit := tidy.ints (.ofNat (i + 1)) (by rw [get_slot slot]; simpa using present)
      obtain ⟨_, same, count, -⟩ := slot?_eq_some_iff.1 slot
      cases same
      omega
    · obtain ⟨e, found, key⟩ := List.mem_filterMap.1 node
      obtain ⟨i, int, positive, rfl, present⟩ := itemKey?_eq_some_iff.1 key
      have value := tidy.distinct.get_node (Array.mem_toList_iff.1 found)
      have limit := tidy.ints i (by rw [← int, value]; exact present)
      omega
  simpa using distinct.length_le_of_subset limited

theorem rehash_eq (t : Table) (k : Key) :
    ∃ size others, t.rehash k = t.resize size others ∧ size ≤ 2 * (t.itemKeys.length + 1) := by
  refine ⟨_, _, rfl, Nat.le_trans (bestSize_le _ 64 1 0) ?_⟩
  rw [List.length_append]
  have one : ∀ keys : List Nat, keys.length ≤ 1 →
      max 0 (2 * (t.itemKeys.length + keys.length)) ≤ 2 * (t.itemKeys.length + 1) := by
    omega
  apply one
  split
  · split <;> simp
  · simp

theorem Tidy.rehash {n : Nat} (tidy : t.Tidy n) (narrow : 2 * (n + 1) < 2 ^ 63) (k : Key) :
    (t.rehash k).Distinct ∧ (t.rehash k).items.size ≤ 2 * (n + 1) ∧
      (∀ e ∈ (t.rehash k).nodes, e.2.isNil = false) ∧ ∀ j, (t.rehash k).get j = t.get j := by
  have old := tidy.size
  have count := tidy.itemKeys_length narrow
  obtain ⟨size, others, resized, bound⟩ := t.rehash_eq k
  obtain ⟨distinct, same, present, law⟩ := tidy.distinct.resize (by omega) size others
  rw [resized, same]
  exact ⟨distinct, by omega, present, law⟩

theorem Tidy.set {n : Nat} (tidy : t.Tidy n) (narrow : 2 * (n + 1) < 2 ^ 63)
    (below : ∀ m : Int64, k = .int m → m.toInt ≤ n) (v : Value) :
    (t.set k v).Tidy n ∧ ∀ j, (t.set k v).get j = if j = k then v else t.get j := by
  have close : ∀ u : Table, u.Distinct ∧ (∀ j, u.get j = if j = k then v else t.get j) →
      u.items.size ≤ 2 * (n + 1) →
        u.Tidy n ∧ ∀ j, u.get j = if j = k then v else t.get j := by
    rintro u ⟨distinct, law⟩ size
    refine ⟨⟨distinct, fun m present => ?_, size⟩, law⟩
    by_cases same : Key.int m = k
    · exact below m same.symm
    · exact tidy.ints m (by rwa [law, if_neg same] at present)
  unfold Table.set
  cases slot : t.slot? k with
  | some i => exact close _ (tidy.distinct.setItem slot v) (by simpa using tidy.size)
  | none =>
    cases node : t.node? k with
    | some i => exact close _ (tidy.distinct.setNode node v) tidy.size
    | none =>
      have absent : ∀ e ∈ t.nodes, e.1 ≠ k := by
        simpa [node?] using node
      have nil := get_absent slot absent
      dsimp only
      unfold add
      split
      · next unset =>
        have same : v = .nil := by cases v <;> first | rfl | cases unset
        refine ⟨tidy, fun j => ?_⟩
        split
        · next here => rw [here, nil, same]
        · rfl
      · split
        · exact close _ (tidy.distinct.pushNode slot absent v) tidy.size
        · obtain ⟨distinct, size, present, same⟩ := tidy.rehash narrow k
          have vacant : ∀ e ∈ (t.rehash k).nodes, e.1 ≠ k := by
            rintro e member rfl
            have value := distinct.get_node member
            rw [same, nil] at value
            have filled := present e member
            rw [← value] at filled
            cases filled
          obtain ⟨kept, law⟩ := distinct.put (e := (k, v)) vacant
          exact close ((t.rehash k).put (k, v)) ⟨kept, fun j => by rw [law, same]⟩
            (by rwa [put_size])

theorem Distinct.entryFrom_get (distinct : t.Distinct) (narrow : t.items.size < 2 ^ 63)
    {fuel place : Nat} {v : Value} (found : t.entryFrom fuel place = some (k, v)) :
    t.get k = v ∧ v.isNil = false := by
  induction fuel generalizing place with
  | zero => simp [entryFrom] at found
  | succ fuel ih =>
    simp only [entryFrom] at found
    split at found
    · next inside =>
      split at found
      · exact ih found
      · next present =>
        cases found
        rw [get_slot (slot?_ofNat inside narrow), Array.getD, dif_pos inside]
        exact ⟨rfl, by simpa [Array.getD, inside] using present⟩
    · split at found
      · simp at found
      · next node =>
        split at found
        · exact ih found
        · next present =>
          cases found
          exact ⟨distinct.get_node (Array.mem_of_getElem? node), by simpa using present⟩

theorem Distinct.next?_get (distinct : t.Distinct) (narrow : t.items.size < 2 ^ 63)
    {j : Option Key} {v : Value} (found : t.next? j = some (some (k, v))) :
    t.get k = v ∧ v.isNil = false := by
  unfold next? at found
  cases j with
  | none => exact distinct.entryFrom_get narrow (Option.some.inj found)
  | some j =>
    obtain ⟨place, -, entry⟩ := Option.map_eq_some_iff.1 found
    exact distinct.entryFrom_get narrow entry

end CallGuard.Lua.Table
