import CallGuard.Config
import Mathlib

set_option autoImplicit false

namespace CallGuard

namespace Json.Raw

def HasUnknown (names : List String) : Raw → Prop
  | .obj fields => ∃ f ∈ fields, ∀ name ∈ names, f.1 ≠ some name
  | _ => False

def valuesOf (names : List String) (name : String) : Raw → List Raw
  | .obj fields => (fields.filter fun f => f.1 == some name).map (·.2)
  | .arr items => items[names.idxOf name]?.toList
  | _ => []

def itemsOf : Raw → List Raw
  | .arr items => items
  | _ => []

def isKnown (names : List String) (f : Option String × Raw) : Bool := f.1.all names.contains

def keep (names : List String) : Raw → Raw
  | .obj fields => .obj (fields.filter (isKnown names))
  | r => r

def changeField (name : String) (change : Raw → Raw) (f : Option String × Raw) :
    Option String × Raw :=
  if f.1 = some name then (f.1, change f.2) else f

def mapField (names : List String) (name : String) (change : Raw → Raw) : Raw → Raw
  | .obj fields => .obj (fields.map (changeField name change))
  | .arr items => .arr (items.modify (names.idxOf name) change)
  | r => r

def mapItems (change : Raw → Raw) : Raw → Raw
  | .arr items => .arr (items.map change)
  | r => r

variable {names : List String} {name : String} {strict : Bool} {change : Raw → Raw}

theorem mapM_eq_some_iff {α β : Type} {f : α → Option β} {as : List α} {bs : List β} :
    as.mapM f = some bs ↔ List.Forall₂ (fun a b => f a = some b) as bs := by
  induction as generalizing bs with
  | nil => simp [eq_comm]
  | cons a as ih =>
    simp only [List.mapM_cons, Option.bind_eq_bind, Option.bind_eq_some_iff, Option.pure_def,
      Option.some.injEq, ih, List.forall₂_cons_left_iff]
    constructor
    · rintro ⟨b, first, rest, later, rfl⟩
      exact ⟨b, rest, first, later, rfl⟩
    · rintro ⟨b, rest, first, later, rfl⟩
      exact ⟨b, first, rest, later, rfl⟩

theorem mapM_congr {α β : Type} {f g : α → Option β} {as : List α} (same : ∀ a ∈ as, f a = g a) :
    as.mapM f = as.mapM g := by
  induction as with
  | nil => rfl
  | cons a as ih =>
    obtain ⟨first, later⟩ := List.forall_mem_cons.1 same
    simp only [List.mapM_cons, first, ih later]

theorem mapM_modify {β : Type} {f f' : String → Option β} {g : β → β} (distinct : names.Nodup)
    (known : name ∈ names) (changed : f' name = (f name).map g)
    (same : ∀ other, other ≠ name → f' other = f other) :
    names.mapM f' = (names.mapM f).map fun values => values.modify (names.idxOf name) g := by
  induction names with
  | nil => cases known
  | cons first rest ih =>
    obtain ⟨fresh, distinct⟩ := List.nodup_cons.1 distinct
    by_cases here : first = name
    · subst here
      have later : rest.mapM f' = rest.mapM f :=
        mapM_congr fun other member => same other fun repeated => fresh (repeated ▸ member)
      simp only [List.mapM_cons, changed, later, List.idxOf_cons_self]
      cases f first <;> cases rest.mapM f <;> simp
    · have there : name ∈ rest := List.mem_of_ne_of_mem (Ne.symm here) known
      have place : (first :: rest).idxOf name = rest.idxOf name + 1 :=
        List.idxOf_cons_ne _ here
      simp only [List.mapM_cons, same first here, ih distinct there, place]
      cases f first <;> cases rest.mapM f <;> simp

def isAccepted (strict : Bool) (names : List String) (f : Option String × Raw) : Bool :=
  match f.1 with
  | none => false
  | some name => !strict || names.contains name

theorem record?_obj (strict : Bool) (names : List String) (fields : List (Option String × Raw)) :
    record? strict names (.obj fields) =
      if fields.all (isAccepted strict names) then names.mapM fun name => fieldOnce? name fields
      else none :=
  rfl

theorem changeField_fst (f : Option String × Raw) : (changeField name change f).1 = f.1 := by
  unfold changeField
  split <;> rfl

theorem fieldOnce?_filter {keeps : Option String × Raw → Bool} {fields : List (Option String × Raw)}
    (kept : ∀ f ∈ fields, f.1 = some name → keeps f = true) :
    fieldOnce? name (fields.filter keeps) = fieldOnce? name fields := by
  have same : (fields.filter keeps).filter (fun f => f.1 == some name) =
      fields.filter fun f => f.1 == some name := by
    rw [List.filter_filter]
    apply List.filter_congr
    intro f member
    by_cases named : f.1 = some name
    · simp [named, kept f member named]
    · simp [named]
  unfold fieldOnce?
  rw [same]

theorem fieldOnce?_changed (fields : List (Option String × Raw)) :
    fieldOnce? name (fields.map (changeField name change)) =
      (fieldOnce? name fields).map (Option.map change) := by
  have found : (fields.map (changeField name change)).filter (fun f => f.1 == some name) =
      (fields.filter fun f => f.1 == some name).map fun f => (f.1, change f.2) := by
    rw [List.filter_map]
    simp only [Function.comp_def, changeField_fst]
    apply List.map_congr_left
    intro f member
    have named : f.1 = some name := by simpa using (List.mem_filter.1 member).2
    exact if_pos named
  unfold fieldOnce?
  rw [found]
  generalize fields.filter (fun f => f.1 == some name) = given
  rcases given with _ | ⟨f, _ | ⟨g, rest⟩⟩ <;> rfl

theorem fieldOnce?_unchanged (fields : List (Option String × Raw)) {other : String}
    (differs : other ≠ name) :
    fieldOnce? other (fields.map (changeField name change)) = fieldOnce? other fields := by
  have found : (fields.map (changeField name change)).filter (fun f => f.1 == some other) =
      fields.filter fun f => f.1 == some other := by
    rw [List.filter_map]
    simp only [Function.comp_def, changeField_fst]
    refine Eq.trans (List.map_congr_left fun f member => ?_) (List.map_id _)
    have named : f.1 = some other := by simpa using (List.mem_filter.1 member).2
    exact if_neg (by simpa [named] using differs)
  unfold fieldOnce?
  rw [found]

theorem record?_eq_none_of_hasUnknown {r : Raw} (unknown : r.HasUnknown names) :
    r.record? true names = none := by
  cases r with
  | obj fields =>
    obtain ⟨f, member, differs⟩ := unknown
    have refused : isAccepted true names f = false := by
      unfold isAccepted
      split
      next => rfl
      next name key =>
        have absent : name ∉ names := fun known => differs name known key
        simp [absent]
    rw [record?_obj, if_neg]
    intro all
    rw [List.all_eq_true.1 all f member] at refused
    cases refused
  | _ => cases unknown

theorem length_of_record? {r : Raw} {values : List (Option Raw)}
    (read : r.record? strict names = some values) : values.length = names.length := by
  cases r with
  | obj fields =>
    rw [record?_obj, Option.ite_none_right_eq_some, mapM_eq_some_iff] at read
    exact read.2.length_eq.symm
  | arr items =>
    simp only [record?, Option.ite_none_right_eq_some, Option.some.injEq] at read
    obtain ⟨few, rfl⟩ := read
    simp only [List.length_append, List.length_map, List.length_replicate]
    omega
  | _ => cases read

theorem value_of_record? (name : String) {r : Raw} {values : List (Option Raw)}
    (read : r.record? strict names = some values) (known : name ∈ names) :
    ∃ value, values[names.idxOf name]? = some value ∧ r.valuesOf names name = value.toList := by
  have place : names.idxOf name < names.length := List.idxOf_lt_length_of_mem known
  have length := length_of_record? read
  cases r with
  | obj fields =>
    rw [record?_obj, Option.ite_none_right_eq_some, mapM_eq_some_iff] at read
    have found := read.2.get place (length ▸ place)
    simp only [List.get_eq_getElem, List.getElem_idxOf] at found
    refine ⟨_, List.getElem?_eq_getElem (length ▸ place), ?_⟩
    unfold fieldOnce? at found
    split at found
    next absent => simp [valuesOf, absent, ← Option.some.inj found]
    next once => simp [valuesOf, once, ← Option.some.inj found]
    next => cases found
  | arr items =>
    simp only [record?, Option.ite_none_right_eq_some, Option.some.injEq] at read
    obtain ⟨few, rfl⟩ := read
    refine ⟨items[names.idxOf name]?, ?_, rfl⟩
    by_cases given : names.idxOf name < items.length
    · rw [List.getElem?_append_left (by simpa using given), List.getElem?_map,
        List.getElem?_eq_getElem given]
      rfl
    · have later : items.length ≤ names.idxOf name := Nat.le_of_not_lt given
      rw [List.getElem?_append_right (by simpa using later), List.getElem?_eq_none later,
        List.length_map, List.getElem?_replicate, if_pos (by omega)]
  | _ => cases read

theorem record?_keep (r : Raw) : (r.keep names).record? false names = r.record? false names := by
  cases r with
  | obj fields =>
    have accepted : (fields.filter (isKnown names)).all (isAccepted false names) =
        fields.all (isAccepted false names) := by
      rw [List.all_filter]
      apply List.all_congr rfl
      intro f
      unfold isAccepted isKnown
      cases f.1 <;> simp
    have same : (names.mapM fun name => fieldOnce? name (fields.filter (isKnown names))) =
        names.mapM fun name => fieldOnce? name fields := by
      apply mapM_congr
      intro name known
      apply fieldOnce?_filter
      intro f member key
      simp [isKnown, key, known]
    rw [keep, record?_obj, record?_obj, accepted, same]
  | _ => rfl

theorem record?_mapField (distinct : names.Nodup) (known : name ∈ names) (r : Raw) :
    (r.mapField names name change).record? strict names =
      (r.record? strict names).map fun values =>
        values.modify (names.idxOf name) (Option.map change) := by
  cases r with
  | obj fields =>
    have accepted : (fields.map (changeField name change)).all (isAccepted strict names) =
        fields.all (isAccepted strict names) := by
      rw [List.all_map]
      apply List.all_congr rfl
      intro f
      simp only [Function.comp, isAccepted, changeField_fst]
    rw [mapField, record?_obj, record?_obj, accepted]
    split
    · exact mapM_modify distinct known (fieldOnce?_changed fields)
        fun other differs => fieldOnce?_unchanged fields differs
    · rfl
  | arr items =>
    simp only [mapField, record?, List.length_modify]
    split
    · simp only [Option.map_some, Option.some.injEq]
      apply List.ext_getElem?
      intro i
      simp only [List.getElem?_append, List.getElem?_map, List.getElem?_modify,
        List.length_map, List.length_modify, List.getElem?_replicate]
      by_cases given : i < items.length
      · simp only [given, if_true, List.getElem?_eq_getElem]
        split <;> simp
      · simp only [given, if_false]
        split
        · split <;> simp
        · simp
    · rfl
  | _ => rfl

theorem list?_mapItems {α : Type} (read : Raw → Option α) (r : Raw) :
    (r.mapItems change).list? read = r.list? fun item => read (change item) := by
  cases r with
  | arr items => exact List.mapM_map
  | _ => rfl

theorem list?_congr {α : Type} {read read' : Raw → Option α} {r : Raw}
    (same : ∀ item ∈ r.itemsOf, read item = read' item) : r.list? read = r.list? read' := by
  cases r with
  | arr items => exact mapM_congr same
  | _ => rfl

theorem list?_eq_none {α : Type} {read : Raw → Option α} {r item : Raw}
    (member : item ∈ r.itemsOf) (refused : read item = none) : r.list? read = none := by
  cases r with
  | arr items =>
    cases all : items.mapM read with
    | none => exact all
    | some values =>
      obtain ⟨i, within, rfl⟩ : ∃ i, ∃ _ : i < items.length, items[i] = item :=
        List.getElem_of_mem member
      have each := mapM_eq_some_iff.1 all
      have found := each.get within (each.length_eq ▸ within)
      rw [List.get_eq_getElem, refused] at found
      cases found
  | _ => cases member

end Json.Raw

open Json (Raw)

namespace Catalog

def ofDocument : Raw → Except Fault Catalog
  | .obj fields =>
    match fieldsOfRaw? fields with
    | some sets => validate (.ofList sets)
    | none => .error .unreadable
  | _ => .error .unreadable

theorem ofText_eq {text : String} {r : Raw} (read : Raw.ofText? text = some r) :
    ofText text = ofDocument r := by
  unfold ofText
  rw [read]
  cases r <;> rfl

def pruneRules (r : Raw) : Raw := r.mapItems (Raw.keep ["expression"])

def pruneSet (r : Raw) : Raw := (r.keep ["rules"]).mapField ["rules"] "rules" pruneRules

def prune : Raw → Raw
  | .obj fields => .obj (fields.map fun (method, set) => (method, pruneSet set))
  | r => r

def HasUnknown : Raw → Prop
  | .obj fields => ∃ f ∈ fields, f.2.HasUnknown ["rules"] ∨
      ∃ rules ∈ f.2.valuesOf ["rules"] "rules",
        ∃ rule ∈ rules.itemsOf, rule.HasUnknown ["expression"]
  | _ => False

theorem ruleOfRaw?_keep (r : Raw) :
    RuleSet.ruleOfRaw? (r.keep ["expression"]) = RuleSet.ruleOfRaw? r := by
  unfold RuleSet.ruleOfRaw?
  rw [Raw.record?_keep]

theorem ofRaw?_pruneSet (r : Raw) : RuleSet.ofRaw? (pruneSet r) = RuleSet.ofRaw? r := by
  have rules (v : Raw) : (pruneRules v).list? RuleSet.ruleOfRaw? = v.list? RuleSet.ruleOfRaw? := by
    rw [pruneRules, Raw.list?_mapItems]
    exact Raw.list?_congr fun rule _ => ruleOfRaw?_keep rule
  unfold RuleSet.ofRaw? pruneSet
  rw [Raw.record?_mapField (by simp) (by simp), Raw.record?_keep]
  cases read : r.record? false ["rules"] with
  | none => rfl
  | some values =>
    have length := Raw.length_of_record? read
    match values, length with
    | [none], _ => rfl
    | [some v], _ => simp [rules]

theorem fieldsOfRaw?_prune (fields : List (Option String × Raw)) :
    fieldsOfRaw? (fields.map fun (method, set) => (method, pruneSet set)) =
      fieldsOfRaw? fields := by
  induction fields with
  | nil => rfl
  | cons f rest ih =>
    obtain ⟨method, set⟩ := f
    cases method with
    | none => rfl
    | some method => simp only [List.map_cons, fieldsOfRaw?, ofRaw?_pruneSet, ih]

theorem ofDocument_prune (r : Raw) : ofDocument (prune r) = ofDocument r := by
  cases r with
  | obj fields => simp only [prune, ofDocument, fieldsOfRaw?_prune]
  | _ => rfl

end Catalog

namespace SelectorConfig

def knownNames? : Raw → Option (List String)
  | .obj fields =>
    match Raw.fieldOnce? "kind" fields with
    | some (some kind) => do
      let name ← kind.text?
      let (names, _) ← shapes.lookup name
      some ("kind" :: names)
    | _ => none
  | _ => none

def prune (r : Raw) : Raw :=
  match knownNames? r with
  | some names => r.keep names
  | none => r

-- What a selector holds under keys that its kind does not define.
def passedOver (r : Raw) : List (Option String × Raw) :=
  match knownNames? r, r with
  | some names, .obj fields => fields.filter fun f => !Raw.isKnown names f
  | _, _ => []

theorem fieldsAreReadable_filter (depth : Nat) (keeps : Option String × Raw → Bool)
    (fields : List (Option String × Raw)) :
    fieldsAreReadable depth fields =
      (fieldsAreReadable depth (fields.filter keeps) &&
        fieldsAreReadable depth (fields.filter fun f => !keeps f)) := by
  unfold fieldsAreReadable
  induction fields with
  | nil => rfl
  | cons f rest ih => cases kept : keeps f <;> simp [kept, ih, Bool.and_assoc, Bool.and_left_comm]

def others (fields : List (Option String × Raw)) : List (Option String × Raw) :=
  fields.filter fun f => f.1 != some "kind"

theorem ofRaw?_obj {depth : Nat} {fields : List (Option String × Raw)} {kind : Raw}
    (one : Raw.fieldOnce? "kind" fields = some (some kind)) :
    ofRaw? (depth + 1) (.obj fields) =
      if fieldsAreReadable depth (others fields) then ofRecord? kind (.obj (others fields))
      else none := by
  simp only [ofRaw?, one]
  rfl

theorem ofRecord?_keep {kind : Raw} {name : String} {names : List String}
    {make : List String → Option SelectorConfig} (text : kind.text? = some name)
    (shape : shapes.lookup name = some (names, make)) (r : Raw) :
    ofRecord? kind (r.keep names) = ofRecord? kind r := by
  simp only [ofRecord?, text, shape, Option.bind_eq_bind, Option.bind_some, Raw.record?_keep]

theorem knownNames?_eq_some {r : Raw} {known : List String} (found : knownNames? r = some known) :
    ∃ fields kind name names make, r = .obj fields ∧
      Raw.fieldOnce? "kind" fields = some (some kind) ∧ kind.text? = some name ∧
      shapes.lookup name = some (names, make) ∧ known = "kind" :: names := by
  cases r with
  | obj fields =>
    simp only [knownNames?] at found
    split at found
    next kind one =>
      simp only [Option.bind_eq_bind, Option.bind_eq_some_iff, Option.some.injEq] at found
      obtain ⟨name, text, ⟨names, make⟩, shape, rfl⟩ := found
      exact ⟨fields, kind, name, names, make, rfl, one, text, shape, rfl⟩
    next => cases found
  | _ => cases found

theorem ofRaw?_prune (depth : Nat) (r : Raw) :
    ofRaw? (depth + 1) r =
      if fieldsAreReadable depth (passedOver r) then ofRaw? (depth + 1) (prune r) else none := by
  cases found : knownNames? r with
  | none => simp [passedOver, prune, found, fieldsAreReadable]
  | some known =>
    obtain ⟨fields, kind, name, names, make, rfl, one, text, shape, rfl⟩ :=
      knownNames?_eq_some found
    have kept : Raw.fieldOnce? "kind" (fields.filter (Raw.isKnown ("kind" :: names))) =
        some (some kind) := by
      rw [Raw.fieldOnce?_filter, one]
      intro f member key
      simp [Raw.isKnown, key]
    have known (f : Option String × Raw) (other : f.1 ≠ some "kind") :
        Raw.isKnown ("kind" :: names) f = Raw.isKnown names f := by
      unfold Raw.isKnown
      cases key : f.1 with
      | none => rfl
      | some key' =>
        have differs : key' ≠ "kind" := fun same => other (by rw [key, same])
        simp [differs]
    have others_kept : others (fields.filter (Raw.isKnown ("kind" :: names))) =
        (others fields).filter (Raw.isKnown names) := by
      simp only [others, List.filter_filter]
      apply List.filter_congr
      intro f member
      by_cases key : f.1 = some "kind"
      · simp [key]
      · simp [known f key, Bool.and_comm]
    have passed : passedOver (.obj fields) =
        (others fields).filter fun f => !Raw.isKnown names f := by
      simp only [passedOver, found, others, List.filter_filter]
      apply List.filter_congr
      intro f member
      by_cases key : f.1 = some "kind"
      · simp [Raw.isKnown, key]
      · simp [key, known f key]
    have pruned : prune (.obj fields) =
        .obj (fields.filter (Raw.isKnown ("kind" :: names))) := by
      simp only [prune, found, Raw.keep]
    have record := ofRecord?_keep text shape (.obj (others fields))
    rw [pruned, ofRaw?_obj one, ofRaw?_obj kept, others_kept, passed,
      fieldsAreReadable_filter depth (Raw.isKnown names) (others fields)]
    simp only [Raw.keep] at record
    rw [record]
    cases fieldsAreReadable depth ((others fields).filter (Raw.isKnown names)) <;> simp

end SelectorConfig

namespace Config

def names : List String :=
  ["backend", "whitelist", "selectors", "fallback", "precompile", "lua", "http"]

def luaNames : List String :=
  ["pool_size", "eval_timeout_ms", "instruction_check_interval", "builtins"]

def httpNames : List String := ["max_body_bytes"]

def ofDocument (r : Raw) : Except Error Config :=
  match ofRaw? r with
  | some c => .ok c
  | none => .error (.config .elided)

theorem ofText_eq {text : String} {r : Raw} (read : Raw.ofText? text = some r) :
    ofText text = ofDocument r := by
  unfold ofText
  rw [read]
  rfl

def HasUnknown (r : Raw) : Prop :=
  r.HasUnknown names ∨ (∃ lua ∈ r.valuesOf names "lua", lua.HasUnknown luaNames) ∨
    ∃ http ∈ r.valuesOf names "http", http.HasUnknown httpNames

def selectorsOf (r : Raw) : List Raw := (r.valuesOf names "selectors").flatMap Raw.itemsOf

def SelectorHasUnknown (r : Raw) : Prop :=
  ∃ s ∈ selectorsOf r, SelectorConfig.passedOver s ≠ []

def pruneSelectors (r : Raw) : Raw := r.mapItems SelectorConfig.prune

def prune (r : Raw) : Raw := r.mapField names "selectors" pruneSelectors

def selectorReadable (s : Raw) : Bool :=
  SelectorConfig.fieldsAreReadable (Raw.depthLimit - 3) (SelectorConfig.passedOver s)

def passedOverReadable (r : Raw) : Bool := (selectorsOf r).all selectorReadable

def readSelectors? : Raw → Option (List SelectorConfig) :=
  Raw.list? (SelectorConfig.ofRaw? (Raw.depthLimit - 2))

def ofValues? : List (Option Raw) → Option Config
  | [backend, whitelist, selectors, fallback, precompile, lua, http] => do
    let backend ← fieldOr standard.backend (Raw.constant? Backend.names) backend
    let whitelist ← fieldOr standard.whitelist (Raw.list? Raw.text?) whitelist
    let selectors ← fieldOr standard.selectors readSelectors? selectors
    let fallback ← fieldOr standard.fallback (Raw.constant? Fallback.names) fallback
    let precompile ← fieldOr standard.precompile Raw.bool? precompile
    let lua ← fieldOr standard.lua (LuaConfig.ofRaw? (Raw.depthLimit - 1)) lua
    let maxBodyBytes ← fieldOr standard.maxBodyBytes maxBodyBytesOfRaw? http
    some { backend, whitelist, selectors, fallback, precompile, lua, maxBodyBytes }
  | _ => none

theorem ofRaw?_eq (r : Raw) : ofRaw? r = (r.record? true names).bind ofValues? := rfl

theorem eq_of_length {values : List (Option Raw)} (length : values.length = 7) :
    ∃ backend whitelist selectors fallback precompile lua http,
      values = [backend, whitelist, selectors, fallback, precompile, lua, http] := by
  match values, length with
  | [_, _, _, _, _, _, _], _ => exact ⟨_, _, _, _, _, _, _, rfl⟩

theorem parts_of_ofValues? {backend whitelist selectors fallback precompile lua http : Option Raw}
    {c : Config}
    (read : ofValues? [backend, whitelist, selectors, fallback, precompile, lua, http] = some c) :
    fieldOr standard.selectors readSelectors? selectors = some c.selectors ∧
      fieldOr standard.lua (LuaConfig.ofRaw? (Raw.depthLimit - 1)) lua = some c.lua ∧
      fieldOr standard.maxBodyBytes maxBodyBytesOfRaw? http = some c.maxBodyBytes := by
  simp only [ofValues?, Option.bind_eq_bind, Option.bind_eq_some_iff, Option.some.injEq] at read
  obtain ⟨_, -, _, -, _, selectors, _, -, _, -, _, lua, _, http, rfl⟩ := read
  exact ⟨selectors, lua, http⟩

theorem luaOfRaw?_of_hasUnknown {depth : Nat} {r : Raw} (unknown : r.HasUnknown luaNames) :
    LuaConfig.ofRaw? depth r = none := by
  have refused : r.record? true luaNames = none := Raw.record?_eq_none_of_hasUnknown unknown
  unfold luaNames at refused
  simp only [LuaConfig.ofRaw?, refused, Option.bind_eq_bind, Option.bind_none]

theorem maxBodyBytesOfRaw?_of_hasUnknown {r : Raw} (unknown : r.HasUnknown httpNames) :
    maxBodyBytesOfRaw? r = none := by
  have refused : r.record? true httpNames = none := Raw.record?_eq_none_of_hasUnknown unknown
  unfold httpNames at refused
  simp only [maxBodyBytesOfRaw?, refused, Option.bind_eq_bind, Option.bind_none]

theorem ofValues?_congr {selectors selectors' : Option Raw}
    (same : fieldOr standard.selectors readSelectors? selectors =
      fieldOr standard.selectors readSelectors? selectors')
    (backend whitelist fallback precompile lua http : Option Raw) :
    ofValues? [backend, whitelist, selectors, fallback, precompile, lua, http] =
      ofValues? [backend, whitelist, selectors', fallback, precompile, lua, http] := by
  simp only [ofValues?, same]

theorem ofRaw?_of_hasUnknown {r : Raw} (unknown : HasUnknown r) : ofRaw? r = none := by
  rw [ofRaw?_eq]
  cases read : r.record? true names with
  | none => rfl
  | some values =>
    obtain ⟨_, _, _, _, _, lua, http, rfl⟩ := eq_of_length (Raw.length_of_record? read)
    apply Option.eq_none_iff_forall_ne_some.2
    intro c whole
    obtain ⟨-, luaRead, httpRead⟩ := parts_of_ofValues? whole
    rcases unknown with here | ⟨v, given, inside⟩ | ⟨v, given, inside⟩
    · rw [Raw.record?_eq_none_of_hasUnknown here] at read
      cases read
    · obtain ⟨value, found, only⟩ := Raw.value_of_record? "lua" read (by decide)
      obtain rfl : lua = value := Option.some.inj found
      rw [only, Option.mem_toList] at given
      rw [given, fieldOr, luaOfRaw?_of_hasUnknown inside] at luaRead
      cases luaRead
    · obtain ⟨value, found, only⟩ := Raw.value_of_record? "http" read (by decide)
      obtain rfl : http = value := Option.some.inj found
      rw [only, Option.mem_toList] at given
      rw [given, fieldOr, maxBodyBytesOfRaw?_of_hasUnknown inside] at httpRead
      cases httpRead

theorem readSelectors?_prune (r : Raw) :
    readSelectors? r =
      if r.itemsOf.all selectorReadable then readSelectors? (pruneSelectors r) else none := by
  have each (s : Raw) := SelectorConfig.ofRaw?_prune (Raw.depthLimit - 3) s
  split
  next readable =>
    rw [readSelectors?, pruneSelectors, Raw.list?_mapItems]
    apply Raw.list?_congr
    intro s member
    exact (each s).trans (if_pos (List.all_eq_true.1 readable s member))
  next unreadable =>
    obtain ⟨s, member, bad⟩ := List.all_eq_false.1 (Bool.eq_false_iff.2 unreadable)
    exact Raw.list?_eq_none member ((each s).trans (if_neg bad))

theorem ofRaw?_prune (r : Raw) :
    ofRaw? r = if passedOverReadable r then ofRaw? (prune r) else none := by
  rw [ofRaw?_eq, ofRaw?_eq, prune, Raw.record?_mapField (by decide) (by decide)]
  cases read : r.record? true names with
  | none => simp
  | some values =>
    obtain ⟨value, found, only⟩ := Raw.value_of_record? "selectors" read (by decide)
    obtain ⟨backend, whitelist, selectors, fallback, precompile, lua, http, rfl⟩ :=
      eq_of_length (Raw.length_of_record? read)
    obtain rfl : selectors = value := Option.some.inj found
    have readable : passedOverReadable r =
        selectors.toList.all fun v => v.itemsOf.all selectorReadable := by
      simp only [passedOverReadable, selectorsOf, only, List.all_flatMap]
    have pruned : (some [backend, whitelist, selectors, fallback, precompile, lua, http]).map
        (fun values => values.modify (names.idxOf "selectors") (Option.map pruneSelectors)) =
        some [backend, whitelist, selectors.map pruneSelectors, fallback, precompile, lua, http] :=
      rfl
    rw [pruned, readable]
    simp only [Option.bind_some]
    cases selectors with
    | none => simp
    | some v =>
      have law := readSelectors?_prune v
      simp only [Option.toList_some, List.all_cons, List.all_nil, Bool.and_true]
      split
      next good =>
        rw [if_pos good] at law
        have same : fieldOr standard.selectors readSelectors? (some v) =
            fieldOr standard.selectors readSelectors? (some (pruneSelectors v)) := law
        exact ofValues?_congr same ..
      next bad =>
        rw [if_neg bad] at law
        apply Option.eq_none_iff_forall_ne_some.2
        intro c whole
        have part := (parts_of_ofValues? whole).1
        rw [fieldOr, law] at part
        cases part

theorem ofDocument_prune (r : Raw) :
    ofDocument r =
      if passedOverReadable r then ofDocument (prune r) else .error (.config .elided) := by
  rw [ofDocument, ofRaw?_prune r]
  by_cases readable : passedOverReadable r = true
  · rw [if_pos readable, if_pos readable, ofDocument]
  · rw [if_neg readable, if_neg readable]

end Config

theorem unknown_keys (text : String) (r : Raw) (read : Raw.ofText? text = some r) :
    (Config.HasUnknown r → Config.ofText text = .error (.config .elided)) ∧
      (Config.ofText text =
        if Config.passedOverReadable r then Config.ofDocument (Config.prune r)
        else .error (.config .elided)) ∧
      Catalog.ofText text = Catalog.ofDocument (Catalog.prune r) := by
  rw [Config.ofText_eq read, Catalog.ofText_eq read, Catalog.ofDocument_prune]
  refine ⟨fun unknown => ?_, Config.ofDocument_prune r, rfl⟩
  rw [Config.ofDocument, Config.ofRaw?_of_hasUnknown unknown]

-- The rules of a method under a key that does not name them.
def misspelt : Raw := .obj [(some "/s.A/m", .obj [(some "rulez", .arr [.str (some "*")])])]

def misspeltText : String := "\x7b\"/s.A/m\":\x7b\"rulez\":[\"*\"]\x7d\x7d"

theorem ofText?_misspeltText : Raw.ofText? misspeltText = some misspelt := by cbv

theorem unknown_keys_misspelt :
    Raw.ofText? misspeltText = some misspelt ∧
      Config.ofText misspeltText = .error (.config .elided) ∧
      Catalog.ofText misspeltText = Catalog.ofDocument (.obj [(some "/s.A/m", .obj [])]) := by
  have law := unknown_keys misspeltText misspelt ofText?_misspeltText
  exact ⟨ofText?_misspeltText, law.1 (.inl ⟨_, List.mem_cons_self, by decide⟩), law.2.2⟩

-- A rule with a condition that no rule has.
def conditional : Raw :=
  .obj [(some "/s.A/m", .obj [(some "rules", .arr [.obj [(some "expression", .str (some "*")),
    (some "when", .str (some "user.admin"))]])])]

def conditionalText : String :=
  "\x7b\"/s.A/m\":\x7b\"rules\":[\x7b\"expression\":\"*\",\"when\":\"user.admin\"\x7d]\x7d\x7d"

-- A selector with a condition that its kind does not have.
def narrowed : Raw :=
  .obj [(some "selectors", .arr [.obj [(some "kind", .str (some "prefix")),
    (some "prefix", .str (some "/s")), (some "key", .str (some "x"))]])]

def narrowedText : String :=
  "\x7b\"selectors\":[\x7b\"kind\":\"prefix\",\"prefix\":\"/s\",\"key\":\"x\"\x7d]\x7d"

theorem unknown_keys_lost :
    (Raw.ofText? misspeltText = some misspelt ∧ Catalog.HasUnknown misspelt ∧
      (Catalog.ofText misspeltText).toOption.map (·.lookup? "/s.A/m") = some (some ⟨[]⟩)) ∧
    (Raw.ofText? conditionalText = some conditional ∧ Catalog.HasUnknown conditional ∧
      (Catalog.ofText conditionalText).toOption.map (·.lookup? "/s.A/m") =
        some (some ⟨["*"]⟩)) ∧
    Raw.ofText? narrowedText = some narrowed ∧ Config.SelectorHasUnknown narrowed ∧
      (Config.ofText narrowedText).toOption.map Config.selectors = some [.beginning "/s"] := by
  refine ⟨⟨ofText?_misspeltText, ?_, by decide +kernel⟩, ⟨by cbv, ?_, by decide +kernel⟩,
    by cbv, ?_, by decide +kernel⟩
  · exact ⟨_, List.mem_cons_self, .inl ⟨_, List.mem_cons_self, by decide⟩⟩
  · exact ⟨_, List.mem_cons_self, .inr ⟨_, List.mem_cons_self, _, List.mem_cons_self, _,
      List.mem_cons_of_mem _ List.mem_cons_self, by decide⟩⟩
  · exact ⟨_, List.mem_cons_self, List.ne_nil_of_length_pos (by decide +kernel)⟩

end CallGuard
