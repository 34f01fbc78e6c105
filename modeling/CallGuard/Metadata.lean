import CallGuard.Keyed

set_option autoImplicit false

namespace CallGuard

structure Metadata where
  values : Keyed (List String)

namespace Metadata

def empty : Metadata := ⟨.empty⟩

instance : Inhabited Metadata := ⟨empty⟩

def append (m : Metadata) (key value : String) : Metadata :=
  ⟨m.values.alter key fun old => (old.getD []) ++ [value]⟩

def ofPairs (pairs : List (String × String)) : Metadata :=
  pairs.foldl (fun m (key, value) => m.append key value) empty

def getAll (m : Metadata) (key : String) : List String := (m.values.get? key).getD []

def get? (m : Metadata) (key : String) : Option String := (m.getAll key).head?

def isEmpty (m : Metadata) : Bool := m.values.isEmpty

-- One text for each key: its values with commas between them.
def normalized (m : Metadata) : Keyed String := m.values.map (",".intercalate ·)

instance : BEq Metadata := ⟨fun a b => a.values == b.values⟩

@[simp] theorem getAll_append_self (m : Metadata) (key value : String) :
    (m.append key value).getAll key = m.getAll key ++ [value] := by
  simp [append, getAll]

theorem getAll_append_ne (m : Metadata) {key other : String} (value : String)
    (hne : other ≠ key) : (m.append key value).getAll other = m.getAll other := by
  simp [append, getAll, Keyed.get?_alter_ne _ _ hne]

theorem get?_append (m : Metadata) (key value name : String) :
    (m.append key value).values.get? name =
      if name = key then some (m.getAll key ++ [value]) else m.values.get? name := by
  by_cases same : name = key
  · subst same
    simp [append, getAll]
  · simp [append, Keyed.get?_alter_ne _ _ same, same]

theorem get?_normalized (m : Metadata) (key : String) :
    m.normalized.get? key = (m.values.get? key).map (",".intercalate ·) :=
  Keyed.get?_map _ m.values key

def arrived (pairs : List (String × String)) (name : String) : List String :=
  pairs.filterMap fun pair => if pair.1 = name then some pair.2 else none

theorem mem_arrived_iff (pairs : List (String × String)) (name value : String) :
    value ∈ arrived pairs name ↔ (name, value) ∈ pairs := by
  simp only [arrived, List.mem_filterMap, Option.ite_none_right_eq_some, Option.some.injEq,
    Prod.exists]
  constructor
  · rintro ⟨key, v, member, rfl, rfl⟩
    exact member
  · exact fun member => ⟨name, value, member, rfl, rfl⟩

theorem arrived_filterMap {β : Type} (read : β → Option String) (fields : List (String × β))
    (name : String) :
    arrived (fields.filterMap fun field => (read field.2).map (field.1, ·)) name =
      fields.filterMap fun field => if field.1 = name then read field.2 else none := by
  rw [arrived, List.filterMap_filterMap]
  refine congrArg fields.filterMap (funext fun field => ?_)
  cases found : read field.2 <;> simp

theorem get?_ofPairs (pairs : List (String × String)) (name : String) :
    (ofPairs pairs).values.get? name =
      if arrived pairs name = [] then none else some (arrived pairs name) := by
  have fold : ∀ m : Metadata,
      (pairs.foldl (fun m (key, value) => m.append key value) m).values.get? name =
        if arrived pairs name = [] then m.values.get? name
        else some (m.getAll name ++ arrived pairs name) := by
    induction pairs with
    | nil => simp [arrived]
    | cons pair rest ih =>
      obtain ⟨key, value⟩ := pair
      intro m
      rw [List.foldl_cons, ih, get?_append]
      by_cases same : key = name
      · subst same
        have first : arrived ((key, value) :: rest) key = value :: arrived rest key := by
          simp [arrived]
        by_cases last : arrived rest key = [] <;> simp [first, last]
      · have skipped : arrived ((key, value) :: rest) name = arrived rest name := by
          simp [arrived, same]
        have other := m.getAll_append_ne value (Ne.symm same)
        rw [skipped, other, if_neg (Ne.symm same)]
  simpa [ofPairs, empty, getAll] using fold empty

theorem getAll_ofPairs (pairs : List (String × String)) (name : String) :
    (ofPairs pairs).getAll name = arrived pairs name := by
  rw [getAll, get?_ofPairs]
  split <;> simp [*]

end Metadata

end CallGuard
