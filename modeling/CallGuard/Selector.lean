import CallGuard.Catalog
import CallGuard.Glob
import CallGuard.Metadata
import CallGuard.Regex.Reader

set_option autoImplicit false

namespace CallGuard

structure Whitelist where
  methods : Keyed Unit

namespace Whitelist

def ofList (methods : List String) : Whitelist := ⟨.ofList (methods.map (·, ()))⟩

def contains (w : Whitelist) (method : String) : Bool := w.methods.contains method

def size (w : Whitelist) : Nat := w.methods.size

def isEmpty (w : Whitelist) : Bool := w.methods.isEmpty

end Whitelist

inductive Selector
  | method (name : String)
  -- Every method of a service, whose name may stand between slashes.
  | service (name : String)
  | beginning (start : String)
  | pattern (regex : Regex)
  | metadataPresent (key : String)
  | metadataEquals (key value : String)
  | custom (test : String → Metadata → Bool)

def dropSlashes (s : String) : String :=
  String.ofList (Text.stripBy (· == '/') s.toList)

namespace Selector

def isMatch (method : String) (metadata : Metadata) : Selector → Bool
  | .method name => name == method
  | .service name =>
    match servicePrefix? method with
    | none => false
    | some start => dropSlashes start == dropSlashes name
  | .beginning start => Text.startsWith start.toList method.toList
  | .pattern regex => regex.isMatch method
  | .metadataPresent key => !(metadata.getAll (Text.lowerAscii key)).isEmpty
  | .metadataEquals key value => (metadata.getAll (Text.lowerAscii key)).contains value
  | .custom test => test method metadata

def debugText : Selector → String
  | .method name => "Method(" ++ name ++ ")"
  | .service name => "Service(" ++ name ++ ")"
  | .beginning start => "Prefix(" ++ start ++ ")"
  | .pattern regex => "Pattern(" ++ regex.source ++ ")"
  | .metadataPresent key => "MetadataPresent(" ++ key ++ ")"
  | .metadataEquals key value => "MetadataEquals(" ++ key ++ "=" ++ value ++ ")"
  | .custom _ => "Custom(..)"

def selects (selectors : List Selector) (method : String) (metadata : Metadata) : Bool :=
  -- Without selectors every call is selected.
  selectors.isEmpty || selectors.any fun s => s.isMatch method metadata

end Selector

inductive SelectorConfig
  | method (name : String)
  | service (name : String)
  | beginning (start : String)
  | pattern (source : String)
  | glob (source : String)
  | metadataPresent (key : String)
  | metadataEquals (key value : String)
deriving DecidableEq, Repr

namespace SelectorConfig

def build [Regex.Engine] : SelectorConfig → Except Error Selector
  | .method name => .ok (.method name)
  | .service name => .ok (.service name)
  | .beginning start => .ok (.beginning start)
  | .pattern source =>
    match Regex.Engine.compile source with
    | some regex => .ok (.pattern regex)
    | none => .error (.config (.cutAfter ("selector pattern '" ++ source ++ "': ")))
  | .glob source =>
    match Glob.regex? source with
    | some regex => .ok (.pattern regex)
    | none => .error (.config (.cutAfter ("selector glob '" ++ source ++ "': ")))
  | .metadataPresent key => .ok (.metadataPresent key)
  | .metadataEquals key value => .ok (.metadataEquals key value)

def buildAll [Regex.Engine] : List SelectorConfig → Except Error (List Selector)
  | [] => .ok []
  | c :: cs =>
    match c.build, buildAll cs with
    | .error e, _ => .error e
    | _, .error e => .error e
    | .ok s, .ok ss => .ok (s :: ss)

def toJson : SelectorConfig → Json
  | .method name => .obj [("kind", .str "method"), ("method", .str name)]
  | .service name => .obj [("kind", .str "service"), ("service", .str name)]
  | .beginning start => .obj [("kind", .str "prefix"), ("prefix", .str start)]
  | .pattern source => .obj [("kind", .str "pattern"), ("pattern", .str source)]
  | .glob source => .obj [("glob", .str source), ("kind", .str "glob")]
  | .metadataPresent key => .obj [("key", .str key), ("kind", .str "metadata_present")]
  | .metadataEquals key value =>
    .obj [("key", .str key), ("kind", .str "metadata_equals"), ("value", .str value)]

def shapes : List (String × List String × (List String → Option SelectorConfig)) :=
  let one (make : String → SelectorConfig) : List String → Option SelectorConfig
    | [a] => some (make a)
    | _ => none
  [("method", ["method"], one .method),
    ("service", ["service"], one .service),
    ("prefix", ["prefix"], one .beginning),
    ("pattern", ["pattern"], one .pattern),
    ("glob", ["glob"], one .glob),
    ("metadata_present", ["key"], one .metadataPresent),
    ("metadata_equals", ["key", "value"], fun values =>
      match values with
      | [key, value] => some (.metadataEquals key value)
      | _ => none)]

def fieldsAreReadable (depth : Nat) (fields : List (Option String × Json.Raw)) : Bool :=
  -- The value of a field is looked at only when the kind has that field, but it must be a document.
  fields.all fun (name, r) => name.isSome && (r.toJson? depth).isSome

def ofRecord? (kind : Json.Raw) (rest : Json.Raw) : Option SelectorConfig := do
  let name ← kind.text?
  let (names, make) ← shapes.lookup name
  let values ← rest.record? false names
  let texts ← values.mapM fun value => value.bind Json.Raw.text?
  make texts

def ofRaw? (depth : Nat) : Json.Raw → Option SelectorConfig
  | .obj fields =>
    match depth with
    | 0 => none
    | depth + 1 =>
      match Json.Raw.fieldOnce? "kind" fields with
      | some (some kind) =>
        let others := fields.filter fun f => f.1 != some "kind"
        if fieldsAreReadable depth others then ofRecord? kind (.obj others) else none
      | _ => none
  | .arr (kind :: items) =>
    match depth with
    | 0 => none
    | depth + 1 =>
      if items.all fun r => (r.toJson? depth).isSome then ofRecord? kind (.arr items) else none
  | _ => none

end SelectorConfig

end CallGuard
