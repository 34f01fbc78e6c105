import CallGuard.Backend
import CallGuard.Lua.Options
import CallGuard.Selector

set_option autoImplicit false

namespace CallGuard

structure LuaConfig where
  poolSize : Option Nat
  -- In milliseconds; zero switches the limit off.
  timeout : Nat
  interval : Nat
  builtins : Keyed Json

structure Config where
  backend : Backend
  whitelist : List String
  selectors : List SelectorConfig
  fallback : Fallback
  precompile : Bool
  lua : LuaConfig
  maxBodyBytes : Nat

namespace LuaConfig

def standard : LuaConfig :=
  ⟨none, Lua.Options.defaultTimeout, Lua.Options.defaultInterval, .empty⟩

def options (c : LuaConfig) : Lua.Options where
  poolSize := c.poolSize.getD Lua.Options.defaultPoolSize
  timeout := if 0 < c.timeout then some c.timeout else none
  interval := c.interval
  builtins := c.builtins

def toJson (c : LuaConfig) : Json :=
  .obj [
    ("builtins", .ofKeyed c.builtins),
    ("eval_timeout_ms", .ofNat c.timeout),
    ("instruction_check_interval", .ofNat c.interval),
    ("pool_size", .ofOption .ofNat c.poolSize)]

def isStandard (c : LuaConfig) : Bool :=
  c.poolSize.isNone && c.timeout == standard.timeout && c.interval == standard.interval &&
    c.builtins.isEmpty

end LuaConfig

def wordBound : Nat := 0x10000000000000000

def fieldOr {α : Type} (default : α) (read : Json.Raw → Option α) : Option Json.Raw → Option α
  | none => some default
  | some r => read r

def builtinsOfRaw? (depth : Nat) (r : Json.Raw) : Option (Keyed Json) :=
  -- Constants are documents, which are one level deep in the record that holds them.
  match r with
  | .obj fields => (Json.Raw.fieldsToJson? depth fields).map .ofList
  | _ => none

def LuaConfig.ofRaw? (depth : Nat) (r : Json.Raw) : Option LuaConfig := do
  let d := LuaConfig.standard
  match ← r.record? true ["pool_size", "eval_timeout_ms", "instruction_check_interval",
      "builtins"] with
  | [poolSize, timeout, interval, builtins] =>
    let poolSize ← fieldOr d.poolSize (Json.Raw.optional? (Json.Raw.natural? wordBound)) poolSize
    let timeout ← fieldOr d.timeout (Json.Raw.natural? wordBound) timeout
    let interval ← fieldOr d.interval (Json.Raw.natural? 0x100000000) interval
    let builtins ← fieldOr d.builtins (builtinsOfRaw? (depth - 2)) builtins
    some ⟨poolSize, timeout, interval, builtins⟩
  | _ => none

namespace Config

def defaultMaxBodyBytes : Nat := 1_048_576

def standard : Config where
  backend := .cel
  whitelist := []
  selectors := []
  fallback := .coveredService
  precompile := true
  lua := .standard
  maxBodyBytes := defaultMaxBodyBytes

def toJson (c : Config) : Json :=
  .obj [
    ("backend", .str c.backend.name),
    ("fallback", .str c.fallback.name),
    ("http", .obj [("max_body_bytes", .ofNat c.maxBodyBytes)]),
    ("lua", c.lua.toJson),
    ("precompile", .bool c.precompile),
    ("selectors", .arr (c.selectors.map SelectorConfig.toJson)),
    ("whitelist", .ofTexts c.whitelist)]

def isStandard (c : Config) : Bool :=
  c.backend == .cel && c.whitelist.isEmpty && c.selectors.isEmpty &&
    c.fallback == .coveredService && c.precompile && c.lua.isStandard &&
    c.maxBodyBytes == defaultMaxBodyBytes

def maxBodyBytesOfRaw? (r : Json.Raw) : Option Nat := do
  match ← r.record? true ["max_body_bytes"] with
  | [field] => fieldOr defaultMaxBodyBytes (Json.Raw.natural? wordBound) field
  | _ => none

def ofRaw? (r : Json.Raw) : Option Config := do
  -- A configuration from a document in which no field is unknown.
  let d := standard
  let depth := Json.Raw.depthLimit - 1
  match ← r.record? true ["backend", "whitelist", "selectors", "fallback", "precompile", "lua",
      "http"] with
  | [backend, whitelist, selectors, fallback, precompile, lua, http] =>
    let backend ← fieldOr d.backend (Json.Raw.constant? Backend.names) backend
    let whitelist ← fieldOr d.whitelist (Json.Raw.list? Json.Raw.text?) whitelist
    let selectors ←
      fieldOr d.selectors (Json.Raw.list? (SelectorConfig.ofRaw? (depth - 1))) selectors
    let fallback ← fieldOr d.fallback (Json.Raw.constant? Fallback.names) fallback
    let precompile ← fieldOr d.precompile Json.Raw.bool? precompile
    let lua ← fieldOr d.lua (LuaConfig.ofRaw? depth) lua
    let maxBodyBytes ← fieldOr d.maxBodyBytes maxBodyBytesOfRaw? http
    some { backend, whitelist, selectors, fallback, precompile, lua, maxBodyBytes }
  | _ => none

def ofText (text : String) : Except Error Config :=
  match (Json.Raw.ofText? text).bind ofRaw? with
  | some c => .ok c
  | none => .error (.config .elided)

abbrev Environment := String → Option String

def boolean? (text : String) : Option Bool :=
  [("1", true), ("true", true), ("yes", true), ("on", true),
    ("0", false), ("false", false), ("no", false), ("off", false)].lookup
    (Text.lowerAscii (Text.trim text))

def number (name text : String) : Except Error Nat :=
  match Text.natural? wordBound (Text.trimList text.toList) with
  | some n => .ok n
  | none => .error (.config (name ++ ": '" ++ text ++ "' is not a number" : String))

def listed (text : String) : List String :=
  ((Text.splitOnChar ',' text).map Text.trim).filter fun item => item != ""

def overrides : List (String × (String → Config → Except Error Config)) :=
  [("AUTHZ_BACKEND", fun text c => do return { c with backend := ← Backend.ofText text }),
    ("AUTHZ_WHITELIST", fun text c => .ok { c with whitelist := listed text }),
    ("AUTHZ_FALLBACK", fun text c => do return { c with fallback := ← Fallback.ofText text }),
    ("AUTHZ_LUA_POOL_SIZE", fun text c => do
      let n ← number "AUTHZ_LUA_POOL_SIZE" text
      return { c with lua := { c.lua with poolSize := some n } }),
    ("AUTHZ_EVAL_TIMEOUT_MS", fun text c => do
      let n ← number "AUTHZ_EVAL_TIMEOUT_MS" text
      return { c with lua := { c.lua with timeout := n } }),
    ("AUTHZ_PRECOMPILE", fun text c =>
      match boolean? text with
      | some b => .ok { c with precompile := b }
      | none =>
        .error (.config ("AUTHZ_PRECOMPILE: '" ++ text ++ "' is not a boolean" : String)))]

-- A configuration that is left when an override fails has the overrides before it.
def applyOverrides (env : Environment) :
    List (String × (String → Config → Except Error Config)) → Config → Except Error Unit × Config
  | [], c => (.ok (), c)
  | (name, override) :: rest, c =>
    match env name with
    | none => applyOverrides env rest c
    | some text =>
      match override text c with
      | .ok c => applyOverrides env rest c
      | .error e => (.error e, c)

def applyEnvironment (env : Environment) (c : Config) : Except Error Unit × Config :=
  applyOverrides env overrides c

def overridden (env : Environment) (c : Config) : Except Error Config :=
  match c.applyEnvironment env with
  | (.ok (), c) => .ok c
  | (.error e, _) => .error e

end Config

end CallGuard
