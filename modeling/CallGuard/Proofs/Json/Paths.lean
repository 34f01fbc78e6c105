import CallGuard.Json.Raw

set_option autoImplicit false

namespace CallGuard.Json

inductive Step
  | key (name : String)
  -- Positions are counted from zero.
  | position (i : Nat)
deriving DecidableEq, Repr

def child? (j : Json) : Step → Option Json
  | .key name => j.field? name
  | .position i => j.items?.bind fun items => items[i]?

def at? (j : Json) : List Step → Option Json
  | [] => some j
  | s :: rest => (j.child? s).bind fun k => k.at? rest

theorem at?_append (j : Json) (first second : List Step) :
    j.at? (first ++ second) = (j.at? first).bind fun k => k.at? second := by
  induction first generalizing j with
  | nil => rfl
  | cons s rest ih => cases child : j.child? s <;> simp [at?, child, ih]

theorem at?_null {path : List Step} {k : Json} (found : null.at? path = some k) : path = [] := by
  cases path with
  | nil => rfl
  | cons step path =>
    obtain ⟨child, first, -⟩ := Option.bind_eq_some_iff.1 found
    cases step <;> cases first

mutual

def IsKeyed : Json → Prop
  | .arr items => AreKeyed items
  | .obj fields => Ordered fields ∧ FieldsAreKeyed fields
  | _ => True

def AreKeyed : List Json → Prop
  | [] => True
  | j :: js => j.IsKeyed ∧ AreKeyed js

def FieldsAreKeyed : List (String × Json) → Prop
  | [] => True
  | (_, j) :: fields => j.IsKeyed ∧ FieldsAreKeyed fields

end

theorem fieldsAreKeyed_iff {fields : List (String × Json)} :
    FieldsAreKeyed fields ↔ ∀ f ∈ fields, f.2.IsKeyed := by
  induction fields with
  | nil => simp [FieldsAreKeyed]
  | cons f fields ih => simp [FieldsAreKeyed, ih]

theorem mem_ofList {α : Type} {entries : List (String × α)} {e : String × α}
    (member : e ∈ (Keyed.ofList entries).entries) : e ∈ entries := by
  obtain ⟨key, value⟩ := e
  have found := (Keyed.lookupList_eq_some_iff (Keyed.ofList entries).ordered key value).2 member
  have last := (Keyed.get?_ofList entries key).symm.trans found
  obtain ⟨before, after, split, -⟩ := List.lookup_eq_some_iff.1 last
  have reversed : (key, value) ∈ entries.reverse := by simp [split]
  exact List.mem_reverse.1 reversed

theorem isKeyed_ofFields {fields : List (String × Json)} (keyed : FieldsAreKeyed fields) :
    (ofFields fields).IsKeyed := by
  refine ⟨(Keyed.ofList fields).ordered, fieldsAreKeyed_iff.2 fun f member => ?_⟩
  exact fieldsAreKeyed_iff.1 keyed f (mem_ofList member)

namespace Raw

mutual

theorem isKeyed_of_toJson? : ∀ (r : Raw) {depth : Nat} {j : Json},
    toJson? depth r = some j → j.IsKeyed
  | .null, _, _, read => by
    cases read
    trivial
  | .bool _, _, _, read => by
    cases read
    trivial
  | .num _, _, _, read => by
    obtain ⟨n, -, rfl⟩ := Option.map_eq_some_iff.1 read
    trivial
  | .str _, _, _, read => by
    obtain ⟨s, -, rfl⟩ := Option.map_eq_some_iff.1 read
    trivial
  | .arr items, depth, _, read => by
    cases depth with
    | zero => cases read
    | succ depth =>
      obtain ⟨js, all, rfl⟩ := Option.map_eq_some_iff.1 read
      exact areKeyed_of_itemsToJson? items all
  | .obj fields, depth, _, read => by
    cases depth with
    | zero => cases read
    | succ depth =>
      obtain ⟨fs, all, rfl⟩ := Option.map_eq_some_iff.1 read
      exact isKeyed_ofFields (fieldsAreKeyed_of_fieldsToJson? fields all)

theorem areKeyed_of_itemsToJson? : ∀ (rs : List Raw) {depth : Nat} {js : List Json},
    itemsToJson? depth rs = some js → AreKeyed js
  | [], _, _, read => by
    cases read
    trivial
  | r :: rs, depth, _, read => by
    simp only [itemsToJson?] at read
    split at read
    · next first rest =>
      cases read
      exact ⟨isKeyed_of_toJson? r first, areKeyed_of_itemsToJson? rs rest⟩
    · cases read

theorem fieldsAreKeyed_of_fieldsToJson? : ∀ (rs : List (Option String × Raw)) {depth : Nat}
    {fs : List (String × Json)}, fieldsToJson? depth rs = some fs → FieldsAreKeyed fs
  | [], _, _, read => by
    cases read
    trivial
  | (none, _) :: _, _, _, read => by
    simp [fieldsToJson?] at read
  | (some name, r) :: rest, depth, _, read => by
    simp only [fieldsToJson?] at read
    split at read
    · next first more =>
      cases read
      exact ⟨isKeyed_of_toJson? r first, fieldsAreKeyed_of_fieldsToJson? rest more⟩
    · cases read

end

end Raw

end CallGuard.Json
