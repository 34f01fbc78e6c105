set_option autoImplicit false

namespace CallGuard

def Ordered {α : Type} (entries : List (String × α)) : Prop :=
  entries.Pairwise (fun a b => a.1 < b.1)

structure Keyed (α : Type) where
  entries : List (String × α)
  ordered : Ordered entries

namespace Keyed

variable {α β : Type}

instance [BEq α] : BEq (Keyed α) := ⟨fun a b => a.entries == b.entries⟩

def alterList (key : String) (change : Option α → α) : List (String × α) → List (String × α)
  | [] => [(key, change none)]
  | (k, v) :: rest =>
    if key < k then (key, change none) :: (k, v) :: rest
    else if key = k then (k, change (some v)) :: rest
    else (k, v) :: alterList key change rest

def lookupList (key : String) : List (String × α) → Option α
  | [] => none
  | (k, v) :: rest => if key = k then some v else lookupList key rest

theorem lt_of_mem_alterList {key low : String} {change : Option α → α}
    {entries : List (String × α)} (hkey : low < key)
    (h : ∀ e ∈ entries, low < e.1) : ∀ e ∈ alterList key change entries, low < e.1 := by
  induction entries with
  | nil =>
    intro e he
    rw [List.mem_singleton.1 he]
    exact hkey
  | cons e rest ih =>
    have := ih fun e he => h e (by simp [he])
    have := h e (by simp)
    simp only [alterList]
    split
    · grind
    · split <;> grind

theorem ordered_alterList (key : String) (change : Option α → α) {entries : List (String × α)}
    (h : Ordered entries) : Ordered (alterList key change entries) := by
  induction entries with
  | nil => simp [alterList, Ordered]
  | cons e rest ih =>
    obtain ⟨k, v⟩ := e
    have hrest := List.pairwise_cons.1 h
    simp only [alterList]
    split
    · rename_i hlt
      refine List.pairwise_cons.2 ⟨?_, h⟩
      intro e he
      rcases List.mem_cons.1 he with rfl | he
      · exact hlt
      · exact String.lt_trans hlt (hrest.1 e he)
    · split
      · exact List.pairwise_cons.2 ⟨hrest.1, hrest.2⟩
      · rename_i hlt hne
        have hkey : k < key := Std.lt_of_le_of_ne (String.not_lt.1 hlt) (Ne.symm hne)
        exact List.pairwise_cons.2 ⟨lt_of_mem_alterList hkey hrest.1, ih hrest.2⟩

def empty : Keyed α := ⟨[], List.Pairwise.nil⟩

instance : Inhabited (Keyed α) := ⟨empty⟩

def alter (m : Keyed α) (key : String) (change : Option α → α) : Keyed α :=
  ⟨alterList key change m.entries, ordered_alterList key change m.ordered⟩

def insert (m : Keyed α) (key : String) (value : α) : Keyed α := m.alter key fun _ => value

def get? (m : Keyed α) (key : String) : Option α := lookupList key m.entries

def contains (m : Keyed α) (key : String) : Bool := (m.get? key).isSome

def size (m : Keyed α) : Nat := m.entries.length

def isEmpty (m : Keyed α) : Bool := m.entries.isEmpty

def keys (m : Keyed α) : List String := m.entries.map (·.1)

def values (m : Keyed α) : List α := m.entries.map (·.2)

def ofList (entries : List (String × α)) : Keyed α :=
  -- Of two entries with one key the later counts.
  entries.foldl (fun m (key, value) => m.insert key value) empty

def map (f : α → β) (m : Keyed α) : Keyed β :=
  ⟨m.entries.map fun (k, v) => (k, f v), by
    rw [Ordered, List.pairwise_map]
    exact m.ordered⟩

theorem lookupList_alterList_self (key : String) (change : Option α → α)
    (entries : List (String × α)) (h : Ordered entries) :
    lookupList key (alterList key change entries) = some (change (lookupList key entries)) := by
  induction entries with
  | nil => simp [alterList, lookupList]
  | cons e rest ih =>
    obtain ⟨k, v⟩ := e
    have hrest := List.pairwise_cons.1 h
    have absent : ∀ (l : List (String × α)), (∀ e ∈ l, key < e.1) → lookupList key l = none := by
      intro l hl
      induction l with
      | nil => rfl
      | cons e l ihl =>
        have hne : key ≠ e.1 := fun heq => String.lt_irrefl key (heq ▸ hl e (by simp))
        simp only [lookupList, hne, if_false]
        exact ihl fun e he => hl e (by simp [he])
    simp only [alterList]
    split
    · rename_i hlt
      have hne : key ≠ k := fun heq => String.lt_irrefl key (heq ▸ hlt)
      have hnone := absent rest fun e he => String.lt_trans hlt (hrest.1 e he)
      simp [lookupList, hne, hnone]
    · split
      · rename_i heq
        subst heq
        simp [lookupList]
      · rename_i hne
        simp [lookupList, hne, ih hrest.2]

theorem lookupList_alterList_ne {key other : String} (change : Option α → α)
    (entries : List (String × α)) (hne : other ≠ key) :
    lookupList other (alterList key change entries) = lookupList other entries := by
  induction entries with
  | nil => simp [alterList, lookupList, hne]
  | cons e rest ih =>
    obtain ⟨k, v⟩ := e
    simp only [alterList]
    split
    · simp [lookupList, hne]
    · split
      · rename_i heq
        subst heq
        simp [lookupList, hne]
      · simp [lookupList, ih]

@[simp] theorem get?_alter_self (m : Keyed α) (key : String) (change : Option α → α) :
    (m.alter key change).get? key = some (change (m.get? key)) :=
  lookupList_alterList_self key change m.entries m.ordered

theorem get?_alter_ne (m : Keyed α) {key other : String} (change : Option α → α)
    (hne : other ≠ key) : (m.alter key change).get? other = m.get? other :=
  lookupList_alterList_ne change m.entries hne

@[simp] theorem get?_empty (key : String) : (empty : Keyed α).get? key = none := rfl

theorem get?_insert (m : Keyed α) (key other : String) (value : α) :
    (m.insert key value).get? other = if other = key then some value else m.get? other := by
  by_cases same : other = key
  · subst same
    simp [insert]
  · simp [insert, get?_alter_ne _ _ same, same]

theorem get?_ofList (entries : List (String × α)) (key : String) :
    (ofList entries).get? key = entries.reverse.lookup key := by
  have fold : ∀ m : Keyed α, (entries.foldl (fun m (key, value) => m.insert key value) m).get? key =
      (entries.reverse.lookup key).or (m.get? key) := by
    induction entries with
    | nil => simp
    | cons e rest ih =>
      obtain ⟨k, v⟩ := e
      intro m
      rw [List.foldl_cons, ih, get?_insert, List.reverse_cons, List.lookup_append, Option.or_assoc]
      by_cases same : key = k
      · simp [same]
      · simp [List.lookup_cons, same, beq_eq_false_iff_ne.2 same]
  simpa [ofList] using fold empty

theorem lookupList_map (f : α → β) (key : String) (entries : List (String × α)) :
    lookupList key (entries.map fun e => (e.1, f e.2)) = (lookupList key entries).map f := by
  induction entries with
  | nil => rfl
  | cons e entries ih => by_cases same : key = e.1 <;> simp [lookupList, same, ih]

@[simp] theorem get?_map (f : α → β) (m : Keyed α) (key : String) :
    (m.map f).get? key = (m.get? key).map f :=
  lookupList_map f key m.entries

theorem lookupList_eq_some_iff {entries : List (String × α)} (ordered : Ordered entries)
    (key : String) (value : α) :
    lookupList key entries = some value ↔ (key, value) ∈ entries := by
  induction entries with
  | nil => simp [lookupList]
  | cons e rest ih =>
    obtain ⟨k, v⟩ := e
    obtain ⟨below, ordered⟩ := List.pairwise_cons.1 ordered
    by_cases same : key = k
    · subst same
      have absent : (key, value) ∉ rest := fun member =>
        String.lt_irrefl key (below (key, value) member)
      simp [lookupList, absent, eq_comm]
    · simp [lookupList, same, ih ordered]

theorem mem_entries_iff (m : Keyed α) (key : String) (value : α) :
    (key, value) ∈ m.entries ↔ m.get? key = some value :=
  (lookupList_eq_some_iff m.ordered key value).symm

theorem get?_isSome_iff (m : Keyed α) (key : String) : (m.get? key).isSome ↔ key ∈ m.keys := by
  unfold get? keys
  induction m.entries with
  | nil => simp [lookupList]
  | cons e rest ih =>
    by_cases same : key = e.1
    · simp [lookupList, same]
    · simp [lookupList, same, ih]

theorem keys_ordered (m : Keyed α) : m.keys.Pairwise (· < ·) := List.pairwise_map.2 m.ordered

theorem ext_get? {m n : Keyed α} (same : ∀ key, m.get? key = n.get? key) : m = n := by
  have distinct : ∀ k : Keyed α, k.entries.Nodup := fun k =>
    List.Pairwise.imp (fun {a b} below (equal : a = b) =>
      String.lt_irrefl a.1 (equal ▸ below : a.1 < a.1)) k.ordered
  have listed : ∀ e, e ∈ m.entries ↔ e ∈ n.entries := fun ⟨key, value⟩ => by
    rw [mem_entries_iff, mem_entries_iff, same]
  have permuted := (List.perm_ext_iff_of_nodup (distinct m) (distinct n)).2 listed
  have entries : m.entries = n.entries :=
    permuted.eq_of_pairwise (fun a b _ _ below above =>
      absurd (String.lt_trans below above) (String.lt_irrefl a.1)) m.ordered n.ordered
  cases m
  cases n
  cases entries
  rfl

end Keyed

end CallGuard
