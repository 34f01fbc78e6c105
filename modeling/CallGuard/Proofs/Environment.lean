import CallGuard.Config

set_option autoImplicit false

namespace CallGuard.Config

variable {env : Environment} {c c' : Config}

abbrev Override := String × (String → Config → Except Error Config)

theorem applyOverrides_nil (env : Environment) (c c' : Config) :
    applyOverrides env [] c = (.ok (), c') ↔ c' = c := by
  rw [applyOverrides, Prod.mk.injEq, eq_comm (a := c)]
  exact and_iff_right rfl

theorem applyOverrides_append {before : List Override} (after : List Override)
    (stored : applyOverrides env before c = (.ok (), c')) :
    applyOverrides env (before ++ after) c = applyOverrides env after c' := by
  induction before generalizing c with
  | nil =>
    cases stored
    rfl
  | cons head before ih =>
    obtain ⟨name, override⟩ := head
    rw [applyOverrides] at stored
    rw [List.cons_append, applyOverrides]
    cases found : env name with
    | none =>
      rw [found] at stored
      exact ih stored
    | some text =>
      simp only [found] at stored
      cases read : override text c with
      | ok d =>
        rw [read] at stored
        simp only [read]
        exact ih stored
      | error e =>
        rw [read] at stored
        cases stored

theorem applyOverrides_cases (env : Environment) (steps : List Override) (c : Config) :
    (∃ c', applyOverrides env steps c = (.ok (), c')) ∨
      ∃ before name override after text e c', steps = before ++ (name, override) :: after ∧
        applyOverrides env before c = (.ok (), c') ∧ env name = some text ∧
        override text c' = .error e ∧ applyOverrides env steps c = (.error e, c') := by
  induction steps generalizing c with
  | nil => exact .inl ⟨c, rfl⟩
  | cons head rest ih =>
    obtain ⟨name, override⟩ := head
    -- How the rest goes on from a configuration in which this variable is settled.
    have settled (d : Config)
        (here : ∀ more, applyOverrides env ((name, override) :: more) c =
          applyOverrides env more d) :
        (∃ c', applyOverrides env ((name, override) :: rest) c = (.ok (), c')) ∨
          ∃ before name' override' after text e c',
            (name, override) :: rest = before ++ (name', override') :: after ∧
            applyOverrides env before c = (.ok (), c') ∧ env name' = some text ∧
            override' text c' = .error e ∧
            applyOverrides env ((name, override) :: rest) c = (.error e, c') := by
      rw [here]
      rcases ih d with all | ⟨before, name', override', after, text, e, c', rfl, stored, refused⟩
      · exact .inl all
      · exact .inr ⟨(name, override) :: before, name', override', after, text, e, c', rfl,
          (here before).trans stored, refused⟩
    cases found : env name with
    | none => exact settled c fun more => by simp only [applyOverrides, found]
    | some text =>
      cases read : override text c with
      | ok d => exact settled d fun more => by simp only [applyOverrides, found, read]
      | error e =>
        exact .inr ⟨[], name, override, rest, text, e, c, rfl, rfl, found, read,
          by simp only [applyOverrides, found, read]⟩

structure Field (α : Type) where
  name : String
  read : String → Except Error α
  store : α → Config → Config

namespace Field

variable {α : Type}

def override (f : Field α) : Override :=
  (f.name, fun text c => (f.read text).map fun a => f.store a c)

def reading (f : Field α) (env : Environment) : Except Error (Option α) :=
  match env f.name with
  | none => .ok none
  | some text => (f.read text).map some

def put (f : Field α) : Option α → Config → Config
  | none, c => c
  | some a, c => f.store a c

theorem applyOverrides_ok_iff (f : Field α) (rest : List Override) (c c' : Config) :
    applyOverrides env (f.override :: rest) c = (.ok (), c') ↔
      ∃ value, f.reading env = .ok value ∧
        applyOverrides env rest (f.put value c) = (.ok (), c') := by
  rw [override, applyOverrides, reading]
  cases env f.name with
  | none => simp [put]
  | some text =>
    dsimp only
    cases f.read text <;> simp [Except.map, put]

theorem read_of_reading {f : Field α} {a : α} (given : f.reading env = .ok (some a)) :
    ∃ text, env f.name = some text ∧ f.read text = .ok a := by
  unfold reading at given
  split at given
  · cases given
  · next text found =>
    cases read : f.read text with
    | ok b =>
      rw [read] at given
      cases given
      exact ⟨text, found, read⟩
    | error e =>
      rw [read] at given
      cases given

theorem override_error_iff (f : Field α) (text : String) (c : Config) (e : Error) :
    f.override.2 text c = .error e ↔ f.read text = .error e := by
  rw [override]
  dsimp only
  cases f.read text <;> simp [Except.map]

end Field

def boolean (text : String) : Except Error Bool :=
  match boolean? text with
  | some b => .ok b
  | none => .error (.config ("AUTHZ_PRECOMPILE: '" ++ text ++ "' is not a boolean" : String))

def backendField : Field Backend :=
  ⟨"AUTHZ_BACKEND", Backend.ofText, fun b c => { c with backend := b }⟩

def whitelistField : Field (List String) :=
  ⟨"AUTHZ_WHITELIST", fun text => .ok (listed text), fun l c => { c with whitelist := l }⟩

def fallbackField : Field Fallback :=
  ⟨"AUTHZ_FALLBACK", Fallback.ofText, fun f c => { c with fallback := f }⟩

def poolSizeField : Field Nat :=
  ⟨"AUTHZ_LUA_POOL_SIZE", number "AUTHZ_LUA_POOL_SIZE",
    fun n c => { c with lua := { c.lua with poolSize := some n } }⟩

def timeoutField : Field Nat :=
  ⟨"AUTHZ_EVAL_TIMEOUT_MS", number "AUTHZ_EVAL_TIMEOUT_MS",
    fun n c => { c with lua := { c.lua with timeout := n } }⟩

def precompileField : Field Bool :=
  ⟨"AUTHZ_PRECOMPILE", boolean, fun b c => { c with precompile := b }⟩

theorem overrides_eq :
    overrides = [backendField.override, whitelistField.override, fallbackField.override,
      poolSizeField.override, timeoutField.override, precompileField.override] := by
  simp only [overrides, Field.override, backendField, whitelistField, fallbackField,
    poolSizeField, timeoutField, precompileField, List.cons.injEq, Prod.mk.injEq, true_and,
    and_true]
  refine ⟨?_, rfl, ?_, ?_, ?_, ?_⟩ <;> funext text c
  · cases Backend.ofText text <;> rfl
  · cases Fallback.ofText text <;> rfl
  · cases number "AUTHZ_LUA_POOL_SIZE" text <;> rfl
  · cases number "AUTHZ_EVAL_TIMEOUT_MS" text <;> rfl
  · rw [boolean]
    cases boolean? text <;> rfl

structure Settings where
  backend : Option Backend
  whitelist : Option (List String)
  fallback : Option Fallback
  poolSize : Option Nat
  timeout : Option Nat
  precompile : Option Bool

namespace Settings

structure ReadFrom (s : Settings) (env : Environment) : Prop where
  backend : backendField.reading env = .ok s.backend
  whitelist : whitelistField.reading env = .ok s.whitelist
  fallback : fallbackField.reading env = .ok s.fallback
  poolSize : poolSizeField.reading env = .ok s.poolSize
  timeout : timeoutField.reading env = .ok s.timeout
  precompile : precompileField.reading env = .ok s.precompile

def apply (s : Settings) (c : Config) : Config where
  backend := s.backend.getD c.backend
  whitelist := s.whitelist.getD c.whitelist
  selectors := c.selectors
  fallback := s.fallback.getD c.fallback
  precompile := s.precompile.getD c.precompile
  lua :=
    { poolSize := s.poolSize.or c.lua.poolSize
      timeout := s.timeout.getD c.lua.timeout
      interval := c.lua.interval
      builtins := c.lua.builtins }
  maxBodyBytes := c.maxBodyBytes

theorem apply_eq_put (s : Settings) (c : Config) :
    s.apply c = precompileField.put s.precompile (timeoutField.put s.timeout
      (poolSizeField.put s.poolSize (fallbackField.put s.fallback
        (whitelistField.put s.whitelist (backendField.put s.backend c))))) := by
  obtain ⟨backend, whitelist, fallback, poolSize, timeout, precompile⟩ := s
  cases backend <;> cases whitelist <;> cases fallback <;> cases poolSize <;> cases timeout <;>
    cases precompile <;> rfl

theorem apply_apply (s : Settings) (c : Config) : s.apply (s.apply c) = s.apply c := by
  obtain ⟨backend, whitelist, fallback, poolSize, timeout, precompile⟩ := s
  cases backend <;> cases whitelist <;> cases fallback <;> cases poolSize <;> cases timeout <;>
    cases precompile <;> rfl

end Settings

theorem applyEnvironment_ok_iff (env : Environment) (c c' : Config) :
    c.applyEnvironment env = (.ok (), c') ↔ ∃ s : Settings, s.ReadFrom env ∧ c' = s.apply c := by
  rw [applyEnvironment, overrides_eq]
  simp only [Field.applyOverrides_ok_iff, applyOverrides_nil]
  constructor
  · rintro ⟨b, backend, w, whitelist, f, fallback, p, poolSize, t, timeout, r, precompile, rfl⟩
    let s : Settings := ⟨b, w, f, p, t, r⟩
    exact ⟨s, ⟨backend, whitelist, fallback, poolSize, timeout, precompile⟩,
      (s.apply_eq_put c).symm⟩
  · rintro ⟨s, ⟨backend, whitelist, fallback, poolSize, timeout, precompile⟩, rfl⟩
    exact ⟨_, backend, _, whitelist, _, fallback, _, poolSize, _, timeout, _, precompile,
      s.apply_eq_put c⟩

-- The variable is set to a text that cannot be read, whatever the configuration.
def Refused (env : Environment) (name : String)
    (override : String → Config → Except Error Config) (e : Error) : Prop :=
  ∃ text, env name = some text ∧ ∀ c, override text c = .error e

theorem Field.refused {α : Type} (f : Field α) {name text : String} {e : Error}
    {override : String → Config → Except Error Config} (same : (name, override) = f.override)
    (found : env name = some text) (refused : override text c = .error e) :
    Refused env name override e := by
  rw [Field.override, Prod.mk.injEq] at same
  obtain ⟨rfl, rfl⟩ := same
  exact ⟨text, found, fun d =>
    (f.override_error_iff text d e).mpr ((f.override_error_iff text c e).mp refused)⟩

theorem refused_of_mem {name text : String} {e : Error}
    {override : String → Config → Except Error Config} (mem : (name, override) ∈ overrides)
    (found : env name = some text) (refused : override text c = .error e) :
    Refused env name override e := by
  rw [overrides_eq] at mem
  simp only [List.mem_cons, List.not_mem_nil, or_false] at mem
  rcases mem with same | same | same | same | same | same
  · exact backendField.refused same found refused
  · exact whitelistField.refused same found refused
  · exact fallbackField.refused same found refused
  · exact poolSizeField.refused same found refused
  · exact timeoutField.refused same found refused
  · exact precompileField.refused same found refused

def only (names : List String) (env : Environment) : Environment :=
  fun name => if name ∈ names then env name else none

theorem applyOverrides_congr {env' : Environment} {steps : List Override}
    (agree : ∀ name ∈ steps.map Prod.fst, env name = env' name) (c : Config) :
    applyOverrides env steps c = applyOverrides env' steps c := by
  induction steps generalizing c with
  | nil => rfl
  | cons head rest ih =>
    obtain ⟨name, override⟩ := head
    simp only [List.map_cons, List.forall_mem_cons] at agree
    have rest_eq := ih agree.2
    simp only [applyOverrides, ← agree.1]
    cases env name with
    | none => exact rest_eq c
    | some text =>
      dsimp only
      cases override text c with
      | ok d => exact rest_eq d
      | error e => rfl

theorem applyOverrides_unset {steps : List Override}
    (unset : ∀ name ∈ steps.map Prod.fst, env name = none) (c : Config) :
    applyOverrides env steps c = (.ok (), c) := by
  induction steps with
  | nil => rfl
  | cons head rest ih =>
    obtain ⟨name, override⟩ := head
    simp only [List.map_cons, List.forall_mem_cons] at unset
    simp only [applyOverrides, unset.1]
    exact ih unset.2

theorem overrides_nodup : (overrides.map Prod.fst).Nodup := by decide

theorem applyEnvironment_only {before after : List Override} (split : overrides = before ++ after)
    (stored : applyOverrides env before c = (.ok (), c')) :
    c.applyEnvironment (only (before.map Prod.fst) env) = (.ok (), c') := by
  have disjoint := overrides_nodup
  rw [split, List.map_append, List.nodup_append] at disjoint
  have same : applyOverrides (only (before.map Prod.fst) env) before c = (.ok (), c') := by
    rw [← stored]
    exact applyOverrides_congr (fun name mem => if_pos mem) c
  rw [applyEnvironment, split, applyOverrides_append after same]
  exact applyOverrides_unset
    (fun name mem => if_neg fun other => disjoint.2.2 name other name mem rfl) c'

theorem applyEnvironment_settles (env : Environment) (c : Config) :
    (∃ s : Settings, s.ReadFrom env ∧ c.applyEnvironment env = (.ok (), s.apply c) ∧
        (s.apply c).applyEnvironment env = (.ok (), s.apply c)) ∨
      ∃ before name override after e, ∃ s : Settings,
        overrides = before ++ (name, override) :: after ∧ Refused env name override e ∧
          s.ReadFrom (only (before.map Prod.fst) env) ∧
          c.applyEnvironment env = (.error e, s.apply c) := by
  rcases applyOverrides_cases env overrides c with
    ⟨c', stored⟩ | ⟨before, name, override, after, text, e, c', split, stored, found, refused, left⟩
  · obtain ⟨s, read, rfl⟩ := (applyEnvironment_ok_iff env c c').mp stored
    have again := (applyEnvironment_ok_iff env (s.apply c) (s.apply c)).mpr
      ⟨s, read, (s.apply_apply c).symm⟩
    exact .inl ⟨s, read, stored, again⟩
  · have mem : (name, override) ∈ overrides := by
      rw [split]
      exact List.mem_append_right before List.mem_cons_self
    obtain ⟨s, read, rfl⟩ :=
      (applyEnvironment_ok_iff _ c c').mp (applyEnvironment_only split stored)
    exact .inr ⟨before, name, override, after, e, s, split, refused_of_mem mem found refused, read,
      left⟩

theorem failure_keeps_backend :
    standard.applyEnvironment
        (fun name => [("AUTHZ_BACKEND", "lua"), ("AUTHZ_LUA_POOL_SIZE", "many")].lookup name) =
      (.error (.config "AUTHZ_LUA_POOL_SIZE: 'many' is not a number"),
        { standard with backend := .lua }) ∧
      { standard with backend := .lua } ≠ standard := by
  refine ⟨rfl, fun same => ?_⟩
  have backends : Backend.lua = Backend.cel := congrArg Config.backend same
  cases backends

end CallGuard.Config
