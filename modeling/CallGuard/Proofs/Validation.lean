import CallGuard.Check
import CallGuard.Proofs.CompiledAhead
import CallGuard.Proofs.Interception

set_option autoImplicit false

namespace CallGuard

theorem RuleAuthorizer.halts_of_precompile {P S : Type} {a : RuleAuthorizer P S} {b : Backend}
    (coherent : a.cache.Coherent a.evaluator.compile) {n : Nat} (done : a.precompile.1 = .ok n)
    (halts : ∀ program text c s halt,
      (a.evaluator.execute program text c s).1 = .error halt → b.Halts halt)
    (c : Context) (halt : Halt) :
    ((a.authorize c).1 = .error halt → b.Halts halt) ∧
      ((a.precompile.2.authorize c).1 = .error halt → b.Halts halt) := by
  obtain ⟨-, settled⟩ := (Alike.refl coherent).settled done
  have kept : (a.precompile.2.authorize c).1 = .error halt → b.Halts halt := fun failed => by
    obtain ⟨text, -, program, s, -, reported⟩ := settled.raised [] c halt failed
    exact halts program text c s halt (a.precompile_evaluator ▸ reported)
  have same : (a.precompile.2.authorize c).1 = (a.authorize c).1 := settled.same [] c
  exact ⟨fun failed => kept (same.trans failed), kept⟩

namespace Rules

def Runs (b : Backend) (rules : Rules) : Prop :=
  ∀ c halt, (rules.authorize c).1 = .error halt → b.Halts halt

theorem runs_of_precompile [Regex.Engine] {catalog : Catalog} {fallback : Fallback}
    {options : Lua.Options} {b : Backend} {rules : Rules}
    (made : ofCatalog catalog fallback options b = .ok rules)
    {n : Nat} (done : rules.precompile.1 = .ok n) : Runs b rules ∧ Runs b rules.precompile.2 := by
  cases b with
  | cel =>
    cases made
    have fails := RuleAuthorizer.halts_of_precompile (ProgramCache.empty_coherent _ _) done
      fun _ _ _ _ _ => Cel.run_halts
    exact ⟨fun c halt => (fails c halt).1, fun c halt => (fails c halt).2⟩
  | lua =>
    unfold ofCatalog Lua.evaluatorOf at made
    cases fresh : Lua.State.ofBuiltins options.builtins with
    | error e => simp [fresh] at made
    | ok first =>
      rw [fresh] at made
      cases made
      have fails := RuleAuthorizer.halts_of_precompile (ProgramCache.empty_coherent _ _) done
        fun _ _ _ _ _ => Lua.execute_halts fresh
      exact ⟨fun c halt => (fails c halt).1, fun c halt => (fails c halt).2⟩

end Rules

namespace SelectorConfig

-- The regular expression that a selector is matched with.
def regexText? : SelectorConfig → Option String
  | .pattern source => some source
  | .glob source => some (Glob.pattern source)
  | _ => none

def Unreadable [Regex.Engine] (c : SelectorConfig) : Prop :=
  ∃ text, c.regexText? = some text ∧ Regex.Engine.compile text = none

theorem build_cases [Regex.Engine] (c : SelectorConfig) :
    (¬ c.Unreadable ∧ ∃ s, c.build = .ok s) ∨
      c.Unreadable ∧ ∃ reason, c.build = .error (.config reason) := by
  cases c with
  | pattern source =>
    simp only [Unreadable, regexText?, build, Option.some.injEq, exists_eq_left']
    cases Regex.Engine.compile source <;> simp
  | glob source =>
    simp only [Unreadable, regexText?, build, Glob.regex?, Option.some.injEq, exists_eq_left']
    cases Regex.Engine.compile (Glob.pattern source) <;> simp
  | _ => exact .inl ⟨by simp [Unreadable, regexText?], _, rfl⟩

theorem buildAll_cases [Regex.Engine] (cs : List SelectorConfig) :
    ((∀ c ∈ cs, ¬ c.Unreadable) ∧ ∃ ss, buildAll cs = .ok ss) ∨
      (∃ c ∈ cs, c.Unreadable) ∧ ∃ reason, buildAll cs = .error (.config reason) := by
  induction cs with
  | nil => exact .inl ⟨by simp, [], rfl⟩
  | cons c rest ih =>
    unfold buildAll
    rcases c.build_cases with ⟨readable, s, built⟩ | ⟨unreadable, reason, built⟩
    · rw [built]
      rcases ih with ⟨others, ss, made⟩ | ⟨⟨other, member, unreadable⟩, reason, made⟩
      · rw [made]
        exact .inl ⟨by simpa [readable] using others, s :: ss, rfl⟩
      · rw [made]
        exact .inr ⟨⟨other, List.mem_cons_of_mem c member, unreadable⟩, reason, rfl⟩
    · rw [built]
      exact .inr ⟨⟨c, List.mem_cons_self, unreadable⟩, reason, rfl⟩

end SelectorConfig

namespace Check

-- Validating leaves out what the configuration says of compiling ahead.
theorem validate_exit_iff [Regex.Engine] (path : String) (c : Config) (catalog : Catalog) :
    (validate path c catalog).exit = 0 ↔ ∃ rules n,
      Rules.ofCatalog catalog c.fallback c.lua.options c.backend = .ok rules ∧
        rules.precompile.1 = .ok n := by
  cases made : Rules.ofCatalog catalog c.fallback c.lua.options c.backend with
  | error e =>
    have unmade : { c with precompile := false }.authorizer catalog = .error e := by
      simp only [Config.authorizer, made]
      rfl
    simp [validate, unmade, describe, Report.failed]
  | ok rules =>
    have single : { c with precompile := false }.authorizer catalog = .ok (.single rules) := by
      simp only [Config.authorizer, made]
      rfl
    have compiling : (Authorizer.single rules).precompile =
        (rules.precompile.1, .single rules.precompile.2) := rfl
    cases done : rules.precompile.1 <;>
      simp [validate, single, compiling, done, describe, Report.failed]

theorem authorizer_of_validate [Regex.Engine] {path : String} {c : Config} {catalog : Catalog}
    (valid : (validate path c catalog).exit = 0) :
    ∃ rules, c.authorizer catalog = .ok (.single rules) ∧ rules.Runs c.backend := by
  obtain ⟨rules, n, made, done⟩ := (validate_exit_iff path c catalog).1 valid
  obtain ⟨fresh, kept⟩ := Rules.runs_of_precompile made done
  by_cases ahead : c.precompile = true
  · have compiling : (Authorizer.single rules).precompile =
        (rules.precompile.1, .single rules.precompile.2) := rfl
    refine ⟨rules.precompile.2, ?_, kept⟩
    simp [Config.authorizer, Config.compiled, made, bind, Except.bind, ahead, compiling, done]
  · refine ⟨rules, ?_, fresh⟩
    simp [Config.authorizer, made, bind, Except.bind, pure, Except.pure, ahead]

theorem validate_of_compiles [Regex.Engine] {path : String} {c : Config} {catalog : Catalog}
    (cel : c.backend = .cel)
    (compiles : ∀ text ∈ catalog.distinctExpressions, ∃ e, Cel.compile text = .ok e) :
    (validate path c catalog).exit = 0 := by
  let a := RuleAuthorizer.ofParts catalog Cel.evaluator () c.fallback
  have done : a.precompile.1 = .ok _ :=
    RuleAuthorizer.precompile_ok (ProgramCache.empty_coherent _ _) compiles
  rw [validate_exit_iff, cel]
  exact ⟨.cel a, _, rfl, done⟩

structure Report.Decides (r : Report) (d : Decision) : Prop where
  allowed : d.allow = true → r.exit = 0
  denied : d.allow = false → r.exit = 1
  output : r.output = Json.indented 0 d.toJson ++ "\n"
  errors : r.errors = ""

structure Report.Describes (r : Report) (e : Error) : Prop where
  exit : r.exit = 3
  output : r.output = ""
  errors : r.errors = "error: " ++ e.message.text ++ "\n"

theorem Report.ofDecision_decides (d : Decision) : (ofDecision d).Decides d :=
  ⟨fun allowed => if_pos allowed, fun denied => by simp [ofDecision, denied], rfl, rfl⟩

theorem describe_describes (e : Error) : (describe e).Describes e := ⟨rfl, rfl, rfl⟩

-- How a run ends that has got as far as the rules.
inductive Started (b : Backend) : Outcome Report → Prop
  | decided {d : Decision} {report : Report} (told : report.Decides d) : Started b (.ok report)
  | failed {e : Error} {report : Report} (running : e.OfRunning)
    (code : e.code ∈
      ["evaluation_error", "non_boolean_result", "deadline_exceeded", "pool_exhausted"])
    (told : report.Describes e) : Started b (.ok report)
  | brokenDown (cel : b = .cel) : Started b (.error .crash)

theorem halts_of_check {b : Backend} {rules : Rules} (runs : rules.Runs b)
    {i : Interceptor Rules} (single : i.authorizer = .single rules) {v : Visit} {user : Json}
    (known : i.extractor v.call = .ok user) {halt : Halt}
    (failed : (i.checkVisit v).1 = .error halt) : b.Halts halt := by
  have answers := i.answers_check v
  rw [failed] at answers
  generalize (i.checkVisit v).2 = next at answers
  cases answers with
  | unidentified _ unknown =>
    rw [known] at unknown
    cases unknown
  | @decided _ user _ result authorizer asked =>
    rw [single] at asked
    have ruled := congrArg Prod.fst asked
    exact runs _ halt ruled

theorem started_of_attempt [Regex.Engine] {b : Backend} {rules : Rules} (runs : rules.Runs b)
    {a : Arguments} {method : String} {c : Config} {catalog : Catalog}
    (built : c.authorizer catalog = .ok (.single rules)) {ss : List Selector}
    (selectors : SelectorConfig.buildAll c.selectors = .ok ss) {user : Json} {request : Option Json}
    (given : documents a = .ok (user, request)) : Started b (attempt a method c catalog) := by
  let i : Interceptor Rules := ⟨.ofList c.whitelist, ss, fun _ => .ok user, .single rules, 0⟩
  have made : c.interceptor catalog (fun _ => .ok user) = .ok i := by
    simp only [Config.interceptor, selectors, built]
    rfl
  let v : Visit := ⟨⟨method, a.metadata, none⟩, request, a.isStream⟩
  have halts : ∀ halt, (i.checkVisit v).1 = .error halt → b.Halts halt := fun halt failed =>
    halts_of_check runs rfl rfl failed
  cases result : (i.check ⟨method, a.metadata, none⟩ request a.isStream).1 with
  | ok d =>
    simp only [attempt, given, made, result]
    exact .decided (Report.ofDecision_decides d)
  | error halt =>
    cases halts halt result with
    | error running =>
      simp only [attempt, given, made, result]
      exact .failed running running.code (describe_describes _)
    | crash cel =>
      simp only [attempt, given, made, result]
      exact .brokenDown cel

def Arguments.SameDeployment (a b : Arguments) : Prop :=
  a.catalog = b.catalog ∧ a.config = b.config ∧ a.backend = b.backend

def Arguments.WellFormed (a : Arguments) : Prop :=
  (∀ text, a.user = some text → (Json.ofText? text).isSome) ∧
    ∀ text, a.request = some text → (Json.ofText? text).isSome

theorem document_ok (flag : String) {text : String} (readable : (Json.ofText? text).isSome) :
    ∃ j, document flag text = .ok j := by
  obtain ⟨j, read⟩ := Option.isSome_iff_exists.1 readable
  exact ⟨j, by simp [document, read]⟩

theorem documents_ok {a : Arguments} (wellFormed : a.WellFormed) :
    ∃ user request, documents a = .ok (user, request) := by
  obtain ⟨users, requests⟩ := wellFormed
  cases user : a.user with
  | none =>
    cases request : a.request with
    | none => exact ⟨.null, none, by simp only [documents, user, request]; rfl⟩
    | some text =>
      obtain ⟨j, read⟩ := document_ok "--request" (requests text request)
      exact ⟨.null, some j, by simp only [documents, user, request, read]; rfl⟩
  | some name =>
    obtain ⟨u, named⟩ := document_ok "--user" (users name user)
    cases request : a.request with
    | none => exact ⟨u, none, by simp only [documents, user, request, named]; rfl⟩
    | some text =>
      obtain ⟨j, read⟩ := document_ok "--request" (requests text request)
      exact ⟨u, some j, by simp only [documents, user, request, named, read]; rfl⟩

theorem loadConfig_congr {a b : Arguments} (same : a.SameDeployment b) (s : Surroundings) :
    loadConfig a s = loadConfig b s := by
  obtain ⟨-, config, backend⟩ := same
  rw [loadConfig, config, backend]
  rfl

theorem loaded_of_validate [Regex.Engine] {program : String} {a : Arguments} {s : Surroundings}
    {report : Report} (validating : a.validate = true) (passed : run program a s = .ok report)
    (valid : report.exit = 0) :
    ∃ path catalog c, a.catalog = some path ∧ loadCatalog path s.catalog = .ok catalog ∧
      loadConfig a s = .ok c ∧ (validate path c catalog).exit = 0 := by
  unfold run at passed
  cases named : a.catalog with
  | none =>
    rw [named] at passed
    cases passed
    cases valid
  | some path =>
    rw [named] at passed
    cases catalog : loadCatalog path s.catalog with
    | error e =>
      simp only [catalog] at passed
      cases passed
      cases valid
    | ok loaded =>
      cases config : loadConfig a s with
      | error e =>
        simp only [catalog, config] at passed
        cases passed
        cases valid
      | ok c =>
        simp only [catalog, config, validating, if_true] at passed
        cases passed
        exact ⟨path, loaded, c, rfl, catalog, rfl, valid⟩

-- Validating compiles every rule but builds no selector, so only selectors can still be refused.
theorem validated_starts [Regex.Engine] (program : String) (a b : Arguments) (s : Surroundings)
    {report : Report} (validating : a.validate = true) (passed : run program a s = .ok report)
    (valid : report.exit = 0) (same : a.SameDeployment b) (trying : b.validate = false)
    {method : String} (named : b.method = some method) (wellFormed : b.WellFormed) :
    ∃ c, loadConfig b s = .ok c ∧
      ((∀ selector ∈ c.selectors, ¬ selector.Unreadable) → Started c.backend (run program b s)) ∧
      ((∃ selector ∈ c.selectors, selector.Unreadable) →
        ∃ reason report, run program b s = .ok report ∧ report.Describes (.config reason)) := by
  obtain ⟨path, catalog, c, chosen, found, config, valid⟩ :=
    loaded_of_validate validating passed valid
  rw [loadConfig_congr same] at config
  obtain ⟨rules, built, runs⟩ := authorizer_of_validate valid
  obtain ⟨user, request, given⟩ := documents_ok wellFormed
  have tried : run program b s = attempt b method c catalog := by
    simp [run, ← same.1, chosen, found, config, trying, named]
  rw [tried]
  refine ⟨c, config, ?_⟩
  rcases SelectorConfig.buildAll_cases c.selectors with
    ⟨readable, ss, selectors⟩ | ⟨⟨selector, member, unreadable⟩, reason, selectors⟩
  · refine ⟨fun _ => started_of_attempt runs built selectors given, ?_⟩
    rintro ⟨selector, member, unreadable⟩
    exact absurd unreadable (readable selector member)
  · have unmade : c.interceptor catalog (fun _ => .ok user) = .error (.config reason) := by
      simp only [Config.interceptor, selectors]
      rfl
    have told : attempt b method c catalog = .ok (describe (.config reason)) := by
      simp only [attempt, given, unmade]
    exact ⟨fun readable => absurd unreadable (readable selector member),
      fun _ => ⟨reason, _, told, describe_describes _⟩⟩

def oneRule (config : String) : Surroundings where
  catalog := some "\x7b\"/s.A/m\":\x7b\"rules\":[\x7b\"expression\":\"true\"\x7d]\x7d\x7d"
  config := some config
  environment _ := none

def files : Arguments :=
  { Arguments.empty with catalog := some "c.json", config := some "cfg.json" }

def validating : Arguments := { files with validate := true }

def trying : Arguments := { files with method := some "/s.A/m" }

def patternConfig (pattern : String) : String :=
  "\x7b\"selectors\":[\x7b\"kind\":\"pattern\",\"pattern\":\"" ++ pattern ++ "\"\x7d]\x7d"

theorem oneRule_validated {config : String} {c : Config}
    (loaded : loadConfig validating (oneRule config) = .ok c) (cel : c.backend = .cel) :
    ∃ report, run "authz_check" validating (oneRule config) = .ok report ∧ report.exit = 0 := by
  have texts : (loadCatalog "c.json" (oneRule config).catalog).toOption.map
      Catalog.distinctExpressions = some ["true"] := by
    change (loadCatalog "c.json" (oneRule "").catalog).toOption.map
      Catalog.distinctExpressions = some ["true"]
    decide +kernel
  have compiled : (Cel.compile "true").toOption.isSome := by decide +kernel
  cases catalog : loadCatalog "c.json" (oneRule config).catalog with
  | error e => simp [catalog, Except.toOption] at texts
  | ok read =>
    have one : read.distinctExpressions = ["true"] := by
      simpa [catalog, Except.toOption] using texts
    have compiles : ∃ e, Cel.compile "true" = .ok e := by
      cases result : Cel.compile "true" with
      | error e => simp [result, Except.toOption] at compiled
      | ok e => exact ⟨e, rfl⟩
    have chosen : validating.catalog = some "c.json" := rfl
    have only : validating.validate = true := rfl
    refine ⟨validate "c.json" c read, ?_, validate_of_compiles cel (by simpa [one] using compiles)⟩
    simp only [run, chosen, catalog, loaded, only, if_true]

theorem patternConfig_loaded (a : Arguments) (pattern : String)
    (read : (loadConfig a (oneRule (patternConfig pattern))).toOption.map
      (fun c => (c.backend, c.selectors)) = some (.cel, [.pattern pattern])) :
    ∃ c, loadConfig a (oneRule (patternConfig pattern)) = .ok c ∧ c.backend = .cel ∧
      c.selectors = [.pattern pattern] := by
  cases loaded : loadConfig a (oneRule (patternConfig pattern)) with
  | error e => simp [loaded, Except.toOption] at read
  | ok c => exact ⟨c, rfl, by simpa [loaded, Except.toOption] using read⟩

theorem readable_pattern_starts :
    (∃ report, run "authz_check" validating (oneRule (patternConfig "/s")) = .ok report ∧
      report.exit = 0) ∧
    Started .cel (run "authz_check" trying (oneRule (patternConfig "/s"))) := by
  obtain ⟨c, loaded, cel, selectors⟩ := patternConfig_loaded validating "/s" (by decide +kernel)
  obtain ⟨report, passed, valid⟩ := oneRule_validated loaded cel
  have wellFormed : trying.WellFormed :=
    ⟨fun _ given => (nomatch given), fun _ given => (nomatch given)⟩
  obtain ⟨d, again, starts, -⟩ := validated_starts "authz_check" validating trying
    (oneRule (patternConfig "/s")) rfl passed valid ⟨rfl, rfl, rfl⟩ rfl rfl wellFormed
  have same : d = c := Except.ok.inj (again.symm.trans loaded)
  subst same
  rw [cel] at starts
  refine ⟨⟨report, passed, valid⟩, starts ?_⟩
  have readable : (Regex.Engine.compile "/s").isSome := by decide +kernel
  rintro selector member ⟨text, matched, nothing⟩
  rw [selectors] at member
  cases List.mem_singleton.1 member
  cases matched
  rw [nothing] at readable
  cases readable

theorem unreadable_pattern_validated :
    (∃ report, run "authz_check" validating (oneRule (patternConfig "(")) = .ok report ∧
      report.exit = 0) ∧
    (run "authz_check" trying (oneRule (patternConfig "("))).toOption.map
      (fun report => (report.exit, report.errors)) =
      some (3, "error: authorizer: invalid configuration: selector pattern '(': ...\n") := by
  constructor
  · obtain ⟨c, loaded, cel, -⟩ := patternConfig_loaded validating "(" (by decide +kernel)
    exact oneRule_validated loaded cel
  · decide +kernel

end Check

end CallGuard
