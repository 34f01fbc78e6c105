import CallGuard.Check

set_option autoImplicit false

namespace CallGuard.Check

def readText (path : String) : IO (Option String) :=
  try
    return some (← IO.FS.readFile path)
  catch _ => return none

def readNamed : Option String → IO (Option String)
  | none => return none
  | some path => readText path

def environment : IO Config.Environment := do
  let mut found := #[]
  for (name, _) in Config.overrides do
    if let some text ← IO.getEnv name then
      found := found.push (name, text)
  let entries := found.toList
  return fun name => entries.lookup name

def report (r : Report) : IO UInt32 := do
  IO.print r.output
  IO.eprint r.errors
  return r.exit.toUInt32

end CallGuard.Check

open CallGuard in
def main (args : List String) : IO UInt32 := do
  let program := "authz_check"
  match Check.readArguments program .empty args with
  | .error r => Check.report r
  | .ok a =>
    let catalog ← Check.readNamed a.catalog
    let config ← Check.readNamed a.config
    match Check.run program a ⟨catalog, config, ← Check.environment⟩ with
    | .ok r => Check.report r
    | .error _ => return 101
