import CallGuard.Deployment
import CallGuard.Json.Printer

set_option autoImplicit false

namespace CallGuard.Check

structure Arguments where
  catalog : Option String
  config : Option String
  backend : Option String
  validate : Bool
  method : Option String
  user : Option String
  request : Option String
  metadata : Metadata
  isStream : Bool

def Arguments.empty : Arguments :=
  ⟨none, none, none, false, none, none, none, .empty, false⟩

structure Report where
  exit : Nat
  output : String
  errors : String

namespace Report

def usage (program : String) : String :=
  "Usage:\n  " ++ program ++
  " --catalog <file> --validate [--backend cel|lua] [--config <file>]\n  " ++ program ++
  " --catalog <file> --method <name> [--user <json>] [--request <json>] [--metadata k=v]... " ++
  "[--stream] [--backend cel|lua] [--config <file>]\n\nFlags:\n" ++
  "  --catalog <file>     Rule catalog JSON: \x7b\"/pkg.Service/Method\": \x7b\"rules\": " ++
  "[\x7b\"expression\": \"...\"\x7d]\x7d\x7d\n" ++
  "  --config <file>      Authorizer config JSON (AUTHZ_* environment variables still apply)\n" ++
  "  --backend <name>     Expression language, overrides config (cel or lua)\n" ++
  "  --validate           Compile every expression and report the first failure\n" ++
  "  --method <name>      Method identifier to authorize, e.g. " ++
  "/example.ExampleService/RequestMatch\n" ++
  "  --user <json>        User value bound as \x60user\x60 (default null)\n" ++
  "  --request <json>     Request value bound as \x60request\x60 (ignored with --stream)\n" ++
  "  --metadata k=v       Metadata entry; repeat for multiple values\n" ++
  "  --stream             Authorize as a streaming call\n" ++
  "  -h, --help           Show this help\n\nLogging: RUST_LOG=authz=debug\n"

def help (program : String) : Report := ⟨0, "", usage program⟩

def misused (program complaint : String) : Report := ⟨2, "", complaint ++ "\n" ++ usage program⟩

def failed (reason : String) : Report := ⟨3, "", "error: " ++ reason ++ "\n"⟩

def ofDecision (d : Decision) : Report :=
  ⟨if d.allow then 0 else 1, Json.indented 0 d.toJson ++ "\n", ""⟩

end Report

inductive Flag
  | catalog
  | config
  | backend
  | method
  | user
  | request
  | metadata
deriving DecidableEq, Repr

def valued : List (String × Flag) :=
  [("--catalog", .catalog), ("--config", .config), ("--backend", .backend),
    ("--method", .method), ("--user", .user), ("--request", .request), ("--metadata", .metadata)]

def entry? (text : String) : Option (String × String) :=
  -- The key and the value of an entry, around its first equals sign.
  let cs := text.toList
  match cs.dropWhile (· != '=') with
  | [] => none
  | _ :: value =>
    let key := String.ofList (cs.takeWhile (· != '='))
    some (Text.lowerAscii (Text.trim key), String.ofList value)

def Arguments.set (a : Arguments) (value : String) : Flag → Except Report Arguments
  | .catalog => .ok { a with catalog := value }
  | .config => .ok { a with config := value }
  | .backend => .ok { a with backend := value }
  | .method => .ok { a with method := value }
  | .user => .ok { a with user := value }
  | .request => .ok { a with request := value }
  | .metadata =>
    match entry? value with
    | some (key, text) => .ok { a with metadata := a.metadata.append key text }
    | none =>
      .error ⟨2, "", "--metadata expects key=value, got '" ++ value ++ "'\n"⟩

def readArguments (program : String) : Arguments → List String → Except Report Arguments
  -- Arguments are read from left to right, and the first that is wrong ends it.
  | a, [] => .ok a
  | a, [word] =>
    match valued.lookup word with
    | some _ => .error (.misused program (word ++ " requires a value"))
    | none => readSwitch program a word
  | a, word :: value :: rest =>
    match valued.lookup word with
    | some flag =>
      match a.set value flag with
      | .ok a => readArguments program a rest
      | .error r => .error r
    | none =>
      match readSwitch program a word with
      | .ok a => readArguments program a (value :: rest)
      | .error r => .error r
where
  readSwitch (program : String) (a : Arguments) (word : String) : Except Report Arguments :=
    if word = "--validate" then .ok { a with validate := true }
    else if word = "--stream" then .ok { a with isStream := true }
    else if word = "-h" ∨ word = "--help" then .error (.help program)
    else .error (.misused program ("Unrecognized argument: " ++ word))

structure Surroundings where
  catalog : Option String
  config : Option String
  environment : Config.Environment

def describe (e : Error) : Report := .failed e.message.text

def unreadable (path : String) : Message := .cutAfter ("cannot read " ++ path ++ ": ")

def loadCatalog (path : String) (text : Option String) : Except Error Catalog :=
  match text with
  | none => .error (.catalog (unreadable path))
  | some text => (Catalog.ofText text).mapError Catalog.Fault.error

def loadConfig (a : Arguments) (s : Surroundings) : Except Error Config := do
  let c ← match a.config, s.config with
    | none, _ => .ok Config.standard
    | some path, none => .error (.config (unreadable path))
    | some _, some text => Config.ofText text
  let c ← c.overridden s.environment
  match a.backend with
  | none => return c
  | some word => return { c with backend := ← Backend.ofText word }

def validate [Regex.Engine] (path : String) (c : Config) (catalog : Catalog) : Report :=
  match { c with precompile := false }.authorizer catalog with
  | .error e => describe e
  | .ok a =>
    match a.precompile with
    | (.error e, _) => describe e
    | (.ok count, _) =>
      ⟨0, path ++ ": " ++ toString catalog.size ++ " methods, " ++ toString count ++
        " distinct expressions compiled with " ++ c.backend.name ++ "\n", ""⟩

def document (flag text : String) : Except Report Json :=
  match Json.ofText? text with
  | some j => .ok j
  | none => .error (.failed (flag ++ " is not valid JSON: ..."))

def documents (a : Arguments) : Except Report (Json × Option Json) := do
  let user ← match a.user with
    | none => .ok .null
    | some text => document "--user" text
  let request ← match a.request with
    | none => .ok none
    | some text => (document "--request" text).map some
  return (user, request)

def attempt [Regex.Engine] (a : Arguments) (method : String) (c : Config) (catalog : Catalog) :
    Outcome Report :=
  match documents a with
  | .error r => .ok r
  | .ok (user, request) =>
    match c.interceptor catalog fun _ => .ok user with
    | .error e => .ok (describe e)
    | .ok i =>
      match (i.check ⟨method, a.metadata, none⟩ request a.isStream).1 with
      | .ok d => .ok (.ofDecision d)
      | .error (.error e) => .ok (describe e)
      | .error .crash => .error .crash

def run [Regex.Engine] (program : String) (a : Arguments) (s : Surroundings) : Outcome Report :=
  match a.catalog with
  | none => .ok (.misused program "--catalog is required")
  | some path =>
    match loadCatalog path s.catalog with
    | .error e => .ok (describe e)
    | .ok catalog =>
      match loadConfig a s with
      | .error e => .ok (describe e)
      | .ok c =>
        if a.validate then .ok (validate path c catalog)
        else
          match a.method with
          | none => .ok (.misused program "either --validate or --method is required")
          | some method => attempt a method c catalog

end CallGuard.Check
