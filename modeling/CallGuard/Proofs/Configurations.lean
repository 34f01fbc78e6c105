import CallGuard.Proofs.Environment
import CallGuard.Proofs.Http.CallTimeout
import CallGuard.Proofs.Json.Printing
import CallGuard.Proofs.UnknownKeys

set_option autoImplicit false

namespace CallGuard

open Json (Raw)

namespace Json.Raw

structure IsRecord (depth : Nat) (entries : List (String × Json))
    (fields : List (Option String × Raw)) : Prop where
  known : ∀ f ∈ fields, ∃ name ∈ entries.map Prod.fst, f.1 = some name
  readable : ∀ f ∈ fields, (f.2.toJson? depth).isSome = true
  given : ∀ e ∈ entries, ∃ r, fieldOnce? e.1 fields = some (some r) ∧
    r.toJson? depth = some e.2 ∧ r.NamesOnce

theorem fieldOnce?_of_mem {fields : List (Option String × Raw)}
    (distinct : (fields.map Prod.fst).Nodup) {f : Option String × Raw} (member : f ∈ fields)
    {name : String} (named : f.1 = some name) : fieldOnce? name fields = some (some f.2) := by
  obtain ⟨before, after, rfl⟩ := List.append_of_mem member
  obtain ⟨key, r⟩ := f
  obtain rfl : key = some name := named
  simp only [List.map_append, List.map_cons, List.nodup_append, List.nodup_cons, List.mem_map,
    List.mem_cons] at distinct
  obtain ⟨-, ⟨later, -⟩, earlier⟩ := distinct
  have one : (before ++ (some name, r) :: after).filter (fun f => f.1 == some name) =
      [(some name, r)] := by
    have noneBefore : before.filter (fun f => f.1 == some name) = [] := by
      refine List.filter_eq_nil_iff.2 fun g inside => ?_
      simpa using earlier g.1 ⟨g, inside, rfl⟩ (some name) (.inl rfl)
    have noneAfter : after.filter (fun f => f.1 == some name) = [] := by
      refine List.filter_eq_nil_iff.2 fun g inside => ?_
      simpa using fun same => later ⟨g, inside, same⟩
    simp [noneBefore, noneAfter]
  simp only [fieldOnce?, one]

theorem isRecord_of_toJson? {r : Raw} (once : r.NamesOnce) {depth : Nat}
    {entries : List (String × Json)} (read : r.toJson? (depth + 1) = some (.obj entries)) :
    ∃ fields, r = .obj fields ∧ IsRecord depth entries fields := by
  cases Raw.toJson?_iff.1 read with
  | @obj _ fs gs _ each last =>
    cases once with
    | obj distinct parts =>
      have names : fs.map Prod.fst = (gs.map Prod.fst).map some := by
        clear read last distinct parts
        induction each with
        | nil => rfl
        | cons first rest ih => simp [first.1, ih]
      have distinct' : (gs.map Prod.fst).Nodup := by
        rw [names] at distinct
        exact List.Nodup.of_map some distinct
      have same (g : String × Json) : g ∈ entries ↔ g ∈ gs := last ▸ mem_ofList_iff distinct' g
      refine ⟨fs, rfl, fun f member => ?_, fun f member => ?_, fun e member => ?_⟩
      · obtain ⟨g, inside, named, -⟩ := exists_right each member
        exact ⟨g.1, List.mem_map_of_mem ((same g).2 inside), named⟩
      · obtain ⟨g, -, -, means⟩ := exists_right each member
        simp [means]
      · obtain ⟨f, inside, named, means⟩ := exists_left each ((same e).1 member)
        exact ⟨f.2, fieldOnce?_of_mem distinct inside named, means, parts f inside⟩

theorem IsRecord.without {depth : Nat} {entries : List (String × Json)}
    {fields : List (Option String × Raw)} (record : IsRecord depth entries fields) (name : String) :
    IsRecord depth (entries.filter fun e => e.1 != name)
      (fields.filter fun f => f.1 != some name) where
  known f member := by
    obtain ⟨inside, other⟩ := List.mem_filter.1 member
    obtain ⟨key, entry, named⟩ := record.known f inside
    obtain ⟨e, present, rfl⟩ := List.mem_map.1 entry
    have kept : (e.1 != name) = true := by simpa [named] using other
    exact ⟨e.1, List.mem_map_of_mem (List.mem_filter.2 ⟨present, kept⟩), named⟩
  readable f member := record.readable f (List.mem_filter.1 member).1
  given e member := by
    obtain ⟨inside, other⟩ := List.mem_filter.1 member
    rw [fieldOnce?_filter fun f _ named => by simpa [named] using other]
    exact record.given e inside

theorem IsRecord.record? {depth : Nat} {entries : List (String × Json)}
    {fields : List (Option String × Raw)} (record : IsRecord depth entries fields) (strict : Bool)
    (names : List String) (known : strict = true → ∀ e ∈ entries, e.1 ∈ names)
    {values : List (Option Raw)}
    (given : List.Forall₂ (fun name value => fieldOnce? name fields = some value) names values) :
    (Raw.obj fields).record? strict names = some values := by
  have accepted : fields.all (isAccepted strict names) = true := by
    refine List.all_eq_true.2 fun f member => ?_
    obtain ⟨name, inside, named⟩ := record.known f member
    obtain ⟨e, entry, rfl⟩ := List.mem_map.1 inside
    cases strict with
    | false => simp [isAccepted, named]
    | true => simp [isAccepted, named, known rfl e entry]
  rw [record?_obj, if_pos accepted]
  exact mapM_eq_some_iff.2 given

variable {depth : Nat} {r : Raw}

theorem text?_of_toJson? {s : String} (read : r.toJson? depth = some (.str s)) :
    r.text? = some s := by
  cases toJson?_iff.1 read
  rfl

theorem bool?_of_toJson? {b : Bool} (read : r.toJson? depth = some (.bool b)) :
    r.bool? = some b := by
  cases toJson?_iff.1 read
  rfl

theorem natural?_of_toJson? {n bound : Nat} (small : n < bound)
    (read : r.toJson? depth = some (.ofNat n)) : r.natural? bound = some n := by
  cases toJson?_iff.1 read with
  | num value => simp [natural?, value, small]

theorem lt_of_natural? {n bound : Nat} (read : r.natural? bound = some n) : n < bound := by
  unfold natural? at read
  split at read
  · split at read
    · split at read
      · cases read
        omega
      · cases read
    · cases read
  · cases read

theorem optional?_of_ne_null {α : Type} (convert : Raw → Option α) (value : r ≠ .null) :
    r.optional? convert = (convert r).map some := by
  cases r with
  | null => exact absurd rfl value
  | _ => rfl

theorem lt_of_optional? {o : Option Nat} {bound : Nat}
    (read : r.optional? (natural? bound) = some o) : ∀ n ∈ o, n < bound := by
  rintro n rfl
  by_cases value : r = .null
  · subst value
    cases read
  · rw [optional?_of_ne_null _ value] at read
    obtain ⟨m, given, same⟩ := Option.map_eq_some_iff.1 read
    cases same
    exact lt_of_natural? given

theorem optional?_of_toJson? {α : Type} {f : α → Json} (convert : Raw → Option α) {o : Option α}
    (present : ∀ a ∈ o, f a ≠ .null) (each : ∀ a ∈ o, r.toJson? depth = some (f a) →
      convert r = some a) (read : r.toJson? depth = some (.ofOption f o)) :
    r.optional? convert = some o := by
  cases o with
  | none =>
    cases toJson?_iff.1 read
    rfl
  | some a =>
    have value : r ≠ .null := by
      rintro rfl
      exact present a rfl (Option.some.inj read).symm
    rw [optional?_of_ne_null _ value, each a rfl read, Option.map_some]

theorem constant?_of_toJson? {α : Type} {names : List (String × α)} {name : String} {a : α}
    (known : names.lookup name = some a) (read : r.toJson? depth = some (.str name)) :
    r.constant? names = some a := by
  cases toJson?_iff.1 read
  exact known

theorem list?_of_toJson? {α : Type} {f : α → Json} {convert : Raw → Option α} {as : List α}
    (once : r.NamesOnce) (each : ∀ r a, r.NamesOnce → r.toJson? depth = some (f a) →
      convert r = some a) (read : r.toJson? (depth + 1) = some (.arr (as.map f))) :
    r.list? convert = some as := by
  cases toJson?_iff.1 read with
  | arr parts =>
    cases once with
    | arr onceEach =>
      rw [List.forall₂_map_right_iff] at parts
      refine mapM_eq_some_iff.2 ?_
      exact ((List.forall₂_and_left _ _).2 ⟨onceEach, parts⟩).imp fun r a given =>
        each r a given.1 given.2

end Json.Raw

theorem of_fieldOr {α : Type} {P : α → Prop} {default a : α} {convert : Raw → Option α}
    {field : Option Raw} (read : fieldOr default convert field = some a) (standard : P default)
    (each : ∀ r, convert r = some a → P a) : P a := by
  cases field with
  | none =>
    cases read
    exact standard
  | some r => exact each r read

namespace SelectorConfig

theorem ofRaw?_of_isRecord {depth : Nat} {entries : List (String × Json)}
    {fields : List (Option String × Raw)} (record : Raw.IsRecord depth entries fields)
    (name : String) (kind : ("kind", .str name) ∈ entries) {names texts : List String}
    {make : List String → Option SelectorConfig} (shape : shapes.lookup name = some (names, make))
    (given : List.Forall₂ (fun n t => n ≠ "kind" ∧ (n, .str t) ∈ entries) names texts) :
    ofRaw? (depth + 1) (.obj fields) = make texts := by
  obtain ⟨r, one, means, -⟩ := record.given _ kind
  have rest : Raw.IsRecord depth _ (others fields) := record.without "kind"
  have readable : fieldsAreReadable depth (others fields) = true := by
    refine List.all_eq_true.2 fun f member => ?_
    obtain ⟨n, -, named⟩ := rest.known f member
    simp [named, rest.readable f member]
  have values : ∃ values, List.Forall₂ (fun n v => Raw.fieldOnce? n (others fields) = some v)
      names values ∧ values.mapM (fun v => v.bind Raw.text?) = some texts := by
    clear shape
    induction given with
    | nil => exact ⟨[], .nil, rfl⟩
    | @cons n t names texts first later ih =>
      obtain ⟨values, found, converted⟩ := ih
      obtain ⟨v, one, means, -⟩ :=
        rest.given (n, .str t) (List.mem_filter.2 ⟨first.2, by simpa using first.1⟩)
      refine ⟨some v :: values, .cons one found, ?_⟩
      simp [Raw.text?_of_toJson? means, converted]
  obtain ⟨values, found, converted⟩ := values
  have taken := rest.record? false names (fun strict => by cases strict) found
  rw [ofRaw?_obj one, if_pos readable]
  simp [ofRecord?, Raw.text?_of_toJson? means, shape, taken, converted]

theorem ofRaw?_of_toJson? {depth : Nat} {r : Raw} {s : SelectorConfig} (once : r.NamesOnce)
    (read : r.toJson? (depth + 1) = some s.toJson) : ofRaw? (depth + 1) r = some s := by
  cases s <;> obtain ⟨fields, rfl, record⟩ := Raw.isRecord_of_toJson? once read
  case method name =>
    exact ofRaw?_of_isRecord record "method" (by simp) rfl
      (.cons (b := name) ⟨by decide, by simp⟩ .nil)
  case service name =>
    exact ofRaw?_of_isRecord record "service" (by simp) rfl
      (.cons (b := name) ⟨by decide, by simp⟩ .nil)
  case beginning start =>
    exact ofRaw?_of_isRecord record "prefix" (by simp) rfl
      (.cons (b := start) ⟨by decide, by simp⟩ .nil)
  case pattern source =>
    exact ofRaw?_of_isRecord record "pattern" (by simp) rfl
      (.cons (b := source) ⟨by decide, by simp⟩ .nil)
  case glob source =>
    exact ofRaw?_of_isRecord record "glob" (by simp) rfl
      (.cons (b := source) ⟨by decide, by simp⟩ .nil)
  case metadataPresent key =>
    exact ofRaw?_of_isRecord record "metadata_present" (by simp) rfl
      (.cons (b := key) ⟨by decide, by simp⟩ .nil)
  case metadataEquals key value =>
    exact ofRaw?_of_isRecord record "metadata_equals" (by simp) rfl
      (.cons (b := key) ⟨by decide, by simp⟩ (.cons (b := value) ⟨by decide, by simp⟩ .nil))

end SelectorConfig

theorem builtinsOfRaw?_iff {depth : Nat} {r : Raw} {m : Keyed Json} :
    builtinsOfRaw? depth r = some m ↔ r.toJson? (depth + 1) = some (.ofKeyed m) := by
  cases r with
  | obj fields =>
    simp only [builtinsOfRaw?, Raw.toJson?, Option.map_eq_some_iff]
    refine exists_congr fun gs => and_congr_right fun _ => ?_
    obtain ⟨entries, ordered⟩ := m
    rw [Json.ofFields, Json.ofKeyed, Json.obj.injEq]
    constructor
    · rintro made
      rw [made]
    · rintro rfl
      rfl
  | _ =>
    refine ⟨fun read => ?_, fun read => ?_⟩
    · cases read
    · cases Raw.toJson?_iff.1 read

namespace LuaConfig

structure IsLoadable (depth : Nat) (c : LuaConfig) : Prop where
  poolSize : ∀ n ∈ c.poolSize, n < wordBound
  timeout : c.timeout < wordBound
  interval : c.interval < 0x100000000
  builtins : Json.Readable (depth + 1) (.ofKeyed c.builtins)

theorem ofRaw?_of_toJson? {depth : Nat} {r : Raw} {c : LuaConfig} (once : r.NamesOnce)
    (loadable : c.IsLoadable depth) (read : r.toJson? (depth + 2) = some c.toJson) :
    ofRaw? (depth + 2) r = some c := by
  obtain ⟨fields, rfl, record⟩ := Raw.isRecord_of_toJson? once read
  obtain ⟨b, bOne, bMeans, -⟩ := record.given ("builtins", .ofKeyed c.builtins) (by simp)
  obtain ⟨t, tOne, tMeans, -⟩ := record.given ("eval_timeout_ms", .ofNat c.timeout) (by simp)
  obtain ⟨i, iOne, iMeans, -⟩ :=
    record.given ("instruction_check_interval", .ofNat c.interval) (by simp)
  obtain ⟨p, pOne, pMeans, -⟩ := record.given ("pool_size", .ofOption .ofNat c.poolSize) (by simp)
  have values := record.record? true Config.luaNames
    (fun _ => by simp [Config.luaNames]) (.cons pOne (.cons tOne (.cons iOne (.cons bOne .nil))))
  have poolSize := Raw.optional?_of_toJson? (Raw.natural? wordBound)
    (by simp [Json.ofNat])
    (fun n given => Raw.natural?_of_toJson? (loadable.poolSize n given)) pMeans
  have timeout := Raw.natural?_of_toJson? loadable.timeout tMeans
  have interval := Raw.natural?_of_toJson? loadable.interval iMeans
  have builtins := builtinsOfRaw?_iff.2 bMeans
  unfold Config.luaNames at values
  simp [ofRaw?, values, fieldOr, poolSize, timeout, interval, builtins]

theorem isLoadable_standard (depth : Nat) : standard.IsLoadable depth where
  poolSize n given := by cases given
  timeout := by decide
  interval := by decide
  builtins := (Json.Readable.obj_iff List.Pairwise.nil).2 (by simp)

theorem isLoadable_of_ofRaw? {depth : Nat} {r : Raw} {c : LuaConfig}
    (read : ofRaw? (depth + 2) r = some c) : c.IsLoadable depth := by
  have standard := isLoadable_standard depth
  simp only [ofRaw?, Option.bind_eq_bind, Option.bind_eq_some_iff] at read
  obtain ⟨values, -, read⟩ := read
  split at read
  · simp only [Option.bind_eq_some_iff, Option.some.injEq] at read
    obtain ⟨poolSize, pRead, timeout, tRead, interval, iRead, builtins, bRead, rfl⟩ := read
    have small := of_fieldOr (P := fun o => ∀ n ∈ o, n < wordBound) pRead standard.poolSize
      fun _ => Raw.lt_of_optional?
    have short := of_fieldOr (P := fun n => n < wordBound) tRead standard.timeout
      fun _ => Raw.lt_of_natural?
    have often := of_fieldOr (P := fun n => n < 0x100000000) iRead standard.interval
      fun _ => Raw.lt_of_natural?
    have constants := of_fieldOr (P := fun m => Json.Readable (depth + 1) (.ofKeyed m)) bRead
      standard.builtins fun r given => ⟨r, builtinsOfRaw?_iff.1 given⟩
    exact ⟨small, short, often, constants⟩
  · cases read

end LuaConfig

namespace Config

structure IsLoadable (c : Config) : Prop where
  lua : c.lua.IsLoadable (Raw.depthLimit - 3)
  maxBodyBytes : c.maxBodyBytes < wordBound

theorem maxBodyBytesOfRaw?_of_toJson? {depth n : Nat} {r : Raw} (once : r.NamesOnce)
    (small : n < wordBound)
    (read : r.toJson? (depth + 1) = some (.obj [("max_body_bytes", .ofNat n)])) :
    maxBodyBytesOfRaw? r = some n := by
  obtain ⟨fields, rfl, record⟩ := Raw.isRecord_of_toJson? once read
  obtain ⟨m, one, means, -⟩ := record.given ("max_body_bytes", .ofNat n) (by simp)
  have values := record.record? true httpNames
    (fun _ => by simp [httpNames]) (.cons one .nil)
  unfold httpNames at values
  simp [maxBodyBytesOfRaw?, values, fieldOr, Raw.natural?_of_toJson? small means]

theorem ofRaw?_of_toJson? {c : Config} (loadable : c.IsLoadable) {r : Raw} (once : r.NamesOnce)
    (read : r.toJson? Raw.depthLimit = some c.toJson) : ofRaw? r = some c := by
  obtain ⟨fields, rfl, record⟩ := Raw.isRecord_of_toJson? once
    (show r.toJson? (126 + 1) = some c.toJson from read)
  obtain ⟨b, bOne, bMeans, -⟩ := record.given ("backend", .str c.backend.name) (by simp)
  obtain ⟨f, fOne, fMeans, -⟩ := record.given ("fallback", .str c.fallback.name) (by simp)
  obtain ⟨h, hOne, hMeans, hOnce⟩ :=
    record.given ("http", .obj [("max_body_bytes", .ofNat c.maxBodyBytes)]) (by simp)
  obtain ⟨l, lOne, lMeans, lOnce⟩ := record.given ("lua", c.lua.toJson) (by simp)
  obtain ⟨p, pOne, pMeans, -⟩ := record.given ("precompile", .bool c.precompile) (by simp)
  obtain ⟨s, sOne, sMeans, sOnce⟩ :=
    record.given ("selectors", .arr (c.selectors.map SelectorConfig.toJson)) (by simp)
  obtain ⟨w, wOne, wMeans, wOnce⟩ := record.given ("whitelist", .ofTexts c.whitelist) (by simp)
  have values := record.record? true names (fun _ => by simp [names])
    (.cons bOne (.cons wOne (.cons sOne (.cons fOne (.cons pOne (.cons lOne (.cons hOne .nil)))))))
  have backend : b.constant? Backend.names = some c.backend :=
    Raw.constant?_of_toJson? (by cases c.backend <;> rfl) bMeans
  have whitelist : w.list? Raw.text? = some c.whitelist :=
    Raw.list?_of_toJson? wOnce (fun _ _ _ => Raw.text?_of_toJson?) wMeans
  have selectors : readSelectors? s = some c.selectors :=
    Raw.list?_of_toJson? sOnce (fun _ _ => SelectorConfig.ofRaw?_of_toJson?) sMeans
  have fallback : f.constant? Fallback.names = some c.fallback :=
    Raw.constant?_of_toJson? (by cases c.fallback <;> rfl) fMeans
  have lua : LuaConfig.ofRaw? (Raw.depthLimit - 1) l = some c.lua :=
    LuaConfig.ofRaw?_of_toJson? lOnce loadable.lua lMeans
  have http := maxBodyBytesOfRaw?_of_toJson? hOnce loadable.maxBodyBytes hMeans
  rw [ofRaw?_eq, values]
  simp [ofValues?, fieldOr, backend, whitelist, selectors, fallback,
    Raw.bool?_of_toJson? pMeans, lua, http]

theorem isLoadable_standard : standard.IsLoadable :=
  ⟨LuaConfig.isLoadable_standard _, by decide⟩

theorem isLoadable_of_ofRaw? {r : Raw} {c : Config} (read : ofRaw? r = some c) : c.IsLoadable := by
  rw [ofRaw?_eq] at read
  obtain ⟨values, record, whole⟩ := Option.bind_eq_some_iff.1 read
  obtain ⟨_, _, _, _, _, lua, http, rfl⟩ := eq_of_length (Raw.length_of_record? record)
  obtain ⟨-, luaRead, httpRead⟩ := parts_of_ofValues? whole
  refine ⟨of_fieldOr luaRead isLoadable_standard.lua fun r => LuaConfig.isLoadable_of_ofRaw?,
    of_fieldOr (P := fun n => n < wordBound) httpRead isLoadable_standard.maxBodyBytes
      fun r given => ?_⟩
  simp only [maxBodyBytesOfRaw?, Option.bind_eq_bind, Option.bind_eq_some_iff] at given
  obtain ⟨values, -, given⟩ := given
  split at given
  · exact of_fieldOr (P := fun n => n < wordBound) given isLoadable_standard.maxBodyBytes
      fun _ => Raw.lt_of_natural?
  · cases given

theorem isLoadable_of_ofText {text : String} {c : Config} (loaded : ofText text = .ok c) :
    c.IsLoadable := by
  unfold ofText at loaded
  split at loaded
  · next d read =>
    cases loaded
    obtain ⟨r, -, made⟩ := Option.bind_eq_some_iff.1 read
    exact isLoadable_of_ofRaw? made
  · cases loaded

theorem lt_of_number {name text : String} {n : Nat} (read : number name text = .ok n) :
    n < wordBound := by
  unfold number at read
  split at read
  · next m found =>
    cases read
    obtain ⟨-, -, -, -, -, small⟩ := (Text.natural?_eq_some_iff _ _ _).1 found
    exact small
  · cases read

theorem isLoadable_apply {c : Config} (loadable : c.IsLoadable) {env : Environment} {s : Settings}
    (read : s.ReadFrom env) : (s.apply c).IsLoadable where
  lua :=
    { poolSize := by
        intro n given
        cases set : s.poolSize with
        | none => exact loadable.lua.poolSize n (by simpa [Settings.apply, set] using given)
        | some m =>
          obtain ⟨text, -, found⟩ := Field.read_of_reading (set ▸ read.poolSize)
          obtain rfl : m = n := by simpa [Settings.apply, set] using given
          exact lt_of_number found
      timeout := by
        cases set : s.timeout with
        | none => simpa [Settings.apply, set] using loadable.lua.timeout
        | some m =>
          obtain ⟨text, -, found⟩ := Field.read_of_reading (set ▸ read.timeout)
          simpa [Settings.apply, set] using lt_of_number found
      interval := loadable.lua.interval
      builtins := loadable.lua.builtins }
  maxBodyBytes := loadable.maxBodyBytes

theorem isLoadable_of_applyEnvironment {env : Environment} {c c' : Config}
    (loadable : c.IsLoadable) (stored : c.applyEnvironment env = (.ok (), c')) : c'.IsLoadable := by
  obtain ⟨s, read, rfl⟩ := (applyEnvironment_ok_iff env c c').1 stored
  exact isLoadable_apply loadable read

-- The standard one, those that are loaded, and what the environment makes of them.
inductive Obtained : Config → Prop
  | standard : Obtained standard
  | loaded {text : String} {c : Config} (read : ofText text = .ok c) : Obtained c
  | overridden {env : Environment} {c c' : Config} (start : Obtained c)
      (stored : c.applyEnvironment env = (.ok (), c')) : Obtained c'

theorem Obtained.isLoadable {c : Config} (obtained : Obtained c) : c.IsLoadable := by
  induction obtained with
  | standard => exact isLoadable_standard
  | loaded read => exact isLoadable_of_ofText read
  | overridden start stored ih => exact isLoadable_of_applyEnvironment ih stored

end Config

namespace SelectorConfig

def fields : SelectorConfig → List (String × Json)
  | method name => [("kind", .str "method"), ("method", .str name)]
  | service name => [("kind", .str "service"), ("service", .str name)]
  | beginning start => [("kind", .str "prefix"), ("prefix", .str start)]
  | pattern source => [("kind", .str "pattern"), ("pattern", .str source)]
  | glob source => [("kind", .str "glob"), ("glob", .str source)]
  | metadataPresent key => [("kind", .str "metadata_present"), ("key", .str key)]
  | metadataEquals key value =>
    [("kind", .str "metadata_equals"), ("key", .str key), ("value", .str value)]

def declared (s : SelectorConfig) : Json := .obj s.fields

theorem toJson_eq (s : SelectorConfig) : s.toJson = .ofFields s.fields := by
  cases s <;> rfl

theorem fields_eq_str (s : SelectorConfig) : ∀ f ∈ s.fields, ∃ text, f.2 = .str text := by
  cases s <;> simp [fields]

theorem readsBack (depth : Nat) (s : SelectorConfig) : Json.ReadsBack (depth + 1) s.toJson := by
  rw [toJson_eq]
  refine .ofFields fun f member => ?_
  obtain ⟨text, same⟩ := s.fields_eq_str f member
  exact same ▸ Json.readsBack_str depth text

theorem declared_rearranges (s : SelectorConfig) : s.declared.Rearranges s.toJson := by
  rw [toJson_eq]
  refine Json.Rearranges.ofFields (by cases s <;> simp [fields]) fun f member => ?_
  obtain ⟨text, same⟩ := s.fields_eq_str f member
  exact same ▸ .str text

end SelectorConfig

namespace LuaConfig

def fields (c : LuaConfig) : List (String × Json) :=
  [("pool_size", .ofOption .ofNat c.poolSize), ("eval_timeout_ms", .ofNat c.timeout),
    ("instruction_check_interval", .ofNat c.interval), ("builtins", .ofKeyed c.builtins)]

def declared (c : LuaConfig) : Json := .obj c.fields

theorem toJson_eq (c : LuaConfig) : c.toJson = .ofFields c.fields := rfl

theorem readsBack {depth : Nat} {c : LuaConfig} (loadable : c.IsLoadable depth)
    (doubles : (Json.ofKeyed c.builtins).DoublesReadBack) :
    Json.ReadsBack (depth + 2) c.toJson := by
  have poolSize : Json.ReadsBack (depth + 1) (.ofOption .ofNat c.poolSize) := by
    cases given : c.poolSize with
    | none => exact Json.readsBack_null _
    | some n => exact Json.readsBack_ofNat _ (loadable.poolSize n given)
  have timeout := Json.readsBack_ofNat (depth + 1) loadable.timeout
  have interval := Json.readsBack_ofNat (depth + 1)
    (Nat.lt_trans loadable.interval (by decide : 0x100000000 < wordBound))
  rw [toJson_eq]
  refine .ofFields ?_
  simp only [fields, List.forall_mem_cons]
  exact ⟨poolSize, timeout, interval, ⟨loadable.builtins, doubles⟩, by simp⟩

theorem declared_rearranges {depth : Nat} {c : LuaConfig} (loadable : c.IsLoadable depth) :
    c.declared.Rearranges c.toJson := by
  obtain ⟨r, read⟩ := loadable.builtins
  have builtins := (Raw.isKeyed_of_toJson? r read).rearranges
  have poolSize : (Json.ofOption .ofNat c.poolSize).Rearranges (.ofOption .ofNat c.poolSize) := by
    cases c.poolSize with
    | none => exact .null
    | some n => exact .num _
  rw [toJson_eq]
  refine Json.Rearranges.ofFields (by simp [fields]) ?_
  simp only [fields, List.forall_mem_cons]
  exact ⟨poolSize, .num _, .num _, builtins, by simp⟩

end LuaConfig

namespace Config

theorem toJson_eq (c : Config) : c.toJson = .ofFields [
    ("backend", .str c.backend.name), ("whitelist", .ofTexts c.whitelist),
    ("selectors", .arr (c.selectors.map SelectorConfig.toJson)),
    ("fallback", .str c.fallback.name), ("precompile", .bool c.precompile),
    ("lua", c.lua.toJson), ("http", .ofFields [("max_body_bytes", .ofNat c.maxBodyBytes)])] := rfl

def declared (c : Config) : Json := .obj [
  ("backend", .str c.backend.name), ("whitelist", .ofTexts c.whitelist),
  ("selectors", .arr (c.selectors.map SelectorConfig.declared)),
  ("fallback", .str c.fallback.name), ("precompile", .bool c.precompile),
  ("lua", c.lua.declared), ("http", .obj [("max_body_bytes", .ofNat c.maxBodyBytes)])]

theorem readsBack {c : Config} (loadable : c.IsLoadable)
    (doubles : (Json.ofKeyed c.lua.builtins).DoublesReadBack) :
    Json.ReadsBack Raw.depthLimit c.toJson := by
  have selectors : Json.ReadsBack 126 (.arr (c.selectors.map SelectorConfig.toJson)) :=
    Json.ReadsBack.arr_iff.2 (List.forall_mem_map.2 fun s _ => s.readsBack 124)
  have lua : Json.ReadsBack 126 c.lua.toJson := LuaConfig.readsBack loadable.lua doubles
  have http : Json.ReadsBack 126 (.ofFields [("max_body_bytes", .ofNat c.maxBodyBytes)]) :=
    .ofFields (by simpa using Json.readsBack_ofNat 125 loadable.maxBodyBytes)
  rw [toJson_eq]
  show Json.ReadsBack (126 + 1) _
  refine Json.ReadsBack.ofFields ?_
  simp only [List.forall_mem_cons]
  exact ⟨Json.readsBack_str _ _, Json.readsBack_ofTexts _ _, selectors, Json.readsBack_str _ _,
    Json.readsBack_bool _ _, lua, http, by simp⟩

theorem toJson_rearranges {c : Config} (loadable : c.IsLoadable)
    (doubles : (Json.ofKeyed c.lua.builtins).DoublesReadBack) : c.toJson.Rearranges c.toJson := by
  obtain ⟨r, read⟩ := (readsBack loadable doubles).readable
  exact (Raw.isKeyed_of_toJson? r read).rearranges

theorem declared_rearranges {c : Config} (loadable : c.IsLoadable) :
    c.declared.Rearranges c.toJson := by
  have texts : (Json.ofTexts c.whitelist).Rearranges (.ofTexts c.whitelist) := by
    have same := Json.Rearranges.arr (c.whitelist.map fun s => (.str s, .str s))
      (List.forall_mem_map.2 fun s _ => .str s)
    simpa [Json.ofTexts, Function.comp_def] using same
  have selectors : Json.Rearranges (.arr (c.selectors.map SelectorConfig.declared))
      (.arr (c.selectors.map SelectorConfig.toJson)) := by
    have same := Json.Rearranges.arr (c.selectors.map fun s => (s.declared, s.toJson))
      (List.forall_mem_map.2 fun s _ => s.declared_rearranges)
    simpa [Function.comp_def] using same
  have http : Json.Rearranges (.obj [("max_body_bytes", .ofNat c.maxBodyBytes)])
      (.ofFields [("max_body_bytes", .ofNat c.maxBodyBytes)]) :=
    .ofFields (by simp) (by simpa using .num _)
  rw [toJson_eq]
  refine Json.Rearranges.obj [("backend", .str c.backend.name, .str c.backend.name),
    ("whitelist", .ofTexts c.whitelist, .ofTexts c.whitelist),
    ("selectors", .arr (c.selectors.map SelectorConfig.declared),
      .arr (c.selectors.map SelectorConfig.toJson)),
    ("fallback", .str c.fallback.name, .str c.fallback.name),
    ("precompile", .bool c.precompile, .bool c.precompile),
    ("lua", c.lua.declared, c.lua.toJson),
    ("http", .obj [("max_body_bytes", .ofNat c.maxBodyBytes)],
      .ofFields [("max_body_bytes", .ofNat c.maxBodyBytes)])] (by simp) ?_
  simp only [List.forall_mem_cons]
  exact ⟨.str _, texts, selectors, .str _, .bool _, LuaConfig.declared_rearranges loadable.lua,
    http, by simp⟩

theorem ofText_of_reads {c : Config} (loadable : c.IsLoadable) {text : String} {r : Raw}
    (read : Raw.ofText? text = some r) (once : r.NamesOnce)
    (means : r.toJson? Raw.depthLimit = some c.toJson) : ofText text = .ok c := by
  simp only [ofText, read, Option.bind_some, ofRaw?_of_toJson? loadable once means]

theorem written_loads_back [Regex.Engine] {c : Config} (obtained : c.Obtained)
    (doubles : (Json.ofKeyed c.lua.builtins).DoublesReadBack) :
    (∀ written : Json, written.Rearranges c.toJson →
      ofText written.text = .ok c ∧
        (ofText written.text).map (fun d => (d.lua.options, SelectorConfig.buildAll d.selectors)) =
          .ok (c.lua.options, SelectorConfig.buildAll c.selectors)) ∧
      c.toJson.Rearranges c.toJson ∧ c.declared.Rearranges c.toJson := by
  have loadable := obtained.isLoadable
  refine ⟨fun written same => ?_, toJson_rearranges loadable doubles, declared_rearranges loadable⟩
  obtain ⟨r, read, means, once⟩ := same.ofText? (readsBack loadable doubles)
  have loaded := ofText_of_reads loadable read once means
  exact ⟨loaded, by rw [loaded]; rfl⟩

-- What `1.5` reads as.
def rate : Float := Float.ofNat 15 / Json.Literal.powerOfTen 1

def ratedText : String :=
  "\x7b\"lua\":\x7b\"builtins\":\x7b\"names\":[\"a\",null],\"limit\":1.5\x7d\x7d," ++
    "\"selectors\":[\x7b\"kind\":\"glob\",\"glob\":\"/s.*/get\"\x7d," ++
    "\x7b\"value\":\"1\",\"key\":\"x\",\"kind\":\"metadata_equals\"\x7d]\x7d"

def ratedDocument : Raw :=
  .obj [(some "lua", .obj [(some "builtins", .obj [
      (some "names", .arr [.str (some "a"), .null]),
      (some "limit", .num ⟨false, [1], [5], none⟩)])]),
    (some "selectors", .arr [
      .obj [(some "kind", .str (some "glob")), (some "glob", .str (some "/s.*/get"))],
      .obj [(some "value", .str (some "1")), (some "key", .str (some "x")),
        (some "kind", .str (some "metadata_equals"))]])]

def rated : Config :=
  { standard with
    selectors := [.glob "/s.*/get", .metadataEquals "x" "1"]
    lua := { LuaConfig.standard with
      builtins := .ofList [("names", .arr [.str "a", .null]), ("limit", .num (.double rate))] } }

def pooled : Config :=
  { rated with backend := .lua, lua := { rated.lua with poolSize := some 3 } }

theorem ofText_ratedText : ofText ratedText = .ok rated := by
  have read : Raw.ofText? ratedText = some ratedDocument := by cbv
  have made : ofRaw? ratedDocument = some rated := rfl
  simp only [ofText, read, Option.bind_some, made]

theorem rated_doublesReadBack : (Json.ofKeyed rated.lua.builtins).DoublesReadBack := by
  have text : (Json.num (.double rate)).text = "1.5" := by decide +kernel
  have back : Json.ofText? (Json.num (.double rate)).text = some (.num (.double rate)) := by
    rw [text]
    rfl
  have names : Json.ReadsBack 2 (.arr [.str "a", .null]) :=
    Json.ReadsBack.arr_iff.2 (by simp [Json.readsBack_str, Json.readsBack_null])
  have all : Json.ReadsBack 3 (.ofFields [("names", .arr [.str "a", .null]),
      ("limit", .num (.double rate))]) :=
    .ofFields (by simpa using ⟨names, Json.readsBack_double 2 back⟩)
  exact all.doubles

theorem written_loads_back_pooled :
    (ofText ratedText = .ok rated ∧
      rated.applyEnvironment (fun name =>
        [("AUTHZ_BACKEND", "lua"), ("AUTHZ_LUA_POOL_SIZE", "3")].lookup name) = (.ok (), pooled)) ∧
      (Json.ofKeyed pooled.lua.builtins).DoublesReadBack ∧
      ofText pooled.declared.text = .ok pooled := by
  have stored : rated.applyEnvironment (fun name =>
      [("AUTHZ_BACKEND", "lua"), ("AUTHZ_LUA_POOL_SIZE", "3")].lookup name) =
        (.ok (), pooled) := rfl
  have obtained : pooled.Obtained := .overridden (.loaded ofText_ratedText) stored
  have law := written_loads_back obtained rated_doublesReadBack
  exact ⟨⟨ofText_ratedText, stored⟩, rated_doublesReadBack, (law.1 _ law.2.2).1⟩

end Config

end CallGuard
