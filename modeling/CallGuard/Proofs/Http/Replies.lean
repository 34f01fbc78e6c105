import CallGuard.Proofs.Http.Bypass
import CallGuard.Proofs.Text.Encoding

set_option autoImplicit false

namespace CallGuard

theorem Text.startsWith_reverse_iff {α : Type} [DecidableEq α] (ending xs : List α) :
    startsWith ending.reverse xs.reverse = true ↔ ending <:+ xs := by
  rw [startsWith_iff, List.reverse_prefix]

theorem Error.isDenial_iff (e : Error) : e.isDenial = true ↔ ∃ method, e = .denied method := by
  cases e <;> simp [isDenial]

theorem Status.http_ne (s : Status) : s.http ≠ 413 ∧ s.http ≠ 400 := by
  cases s <;> decide

namespace Http

def FitsHeader (c : Char) : Prop := c = '\t' ∨ ' ' ≤ c ∧ c ≠ '\x7f'

def IsVisible (c : Char) : Prop := c = '\t' ∨ ' ' ≤ c ∧ c < '\x7f'

instance (c : Char) : Decidable (FitsHeader c) := by
  unfold FitsHeader
  infer_instance

instance (c : Char) : Decidable (IsVisible c) := by
  unfold IsVisible
  infer_instance

theorem fitsHeader_of_long {c : Char} (long : 127 < c.val) : FitsHeader c := by
  refine .inr ⟨UInt32.le_of_lt (UInt32.lt_trans (by decide) long), ?_⟩
  rintro rfl
  exact absurd long (by decide)

theorem IsVisible.le {c : Char} (visible : IsVisible c) : c.val ≤ 127 := by
  rcases visible with rfl | ⟨-, below⟩
  · decide
  · exact UInt32.le_of_lt below

theorem IsVisible.fitsHeader {c : Char} (visible : IsVisible c) : FitsHeader c :=
  visible.imp_right fun ⟨above, below⟩ => ⟨above, Char.ne_of_lt below⟩

theorem value?_eq_some_iff (s : String) (value : List UInt8) :
    value? s = some value ↔ value = s.toUTF8.toList ∧ ∀ c ∈ s.toList, FitsHeader c := by
  have encoded := Text.forall_encoded_iff (p := isAllowed) (P := FitsHeader) true
    (by decide +kernel) (by decide +kernel) fun c long => iff_of_true (fitsHeader_of_long long) rfl
  rw [value?, Option.ite_none_right_eq_some, Text.all_toUTF8_iff encoded, Option.some.injEq,
    and_comm, @eq_comm _ value]

theorem plainText?_eq_some_iff (s text : String) :
    plainText? s.toUTF8.toList = some text ↔ text = s ∧ ∀ c ∈ s.toList, IsVisible c := by
  have encoded := Text.forall_encoded_iff (p := isPlain) (P := IsVisible) false
    (by decide +kernel) (by decide +kernel) fun c long =>
      iff_of_false (fun visible => UInt32.not_le.2 long visible.le) Bool.false_ne_true
  rw [plainText?, Option.ite_none_right_eq_some, Text.all_toUTF8_iff encoded, Option.some.injEq,
    and_comm]
  refine and_congr_left fun visible => ?_
  rw [Text.toUTF8_toList, Text.map_ofNat_encoded fun c member => (visible c member).le,
    String.ofList_toList, eq_comm]

theorem bind_value? (s : String) : (value? s).bind plainText? = plainText? s.toUTF8.toList := by
  ext text
  rw [Option.bind_eq_some_iff]
  constructor
  · rintro ⟨value, fits, plain⟩
    rwa [((value?_eq_some_iff s value).1 fits).1] at plain
  · intro plain
    have visible := ((plainText?_eq_some_iff s text).1 plain).2
    exact ⟨_, (value?_eq_some_iff s _).2 ⟨rfl, fun c member => (visible c member).fitsHeader⟩,
      plain⟩

namespace Headers

-- A value that is not plain text is as good as none.
def shown (h : Headers) (name : String) : String := (h.text? name).getD ""

def OpensStream (h : Headers) : Prop :=
  "application/grpc".toList <+: (h.shown "content-type").toList ∨
    Text.lowerAscii (h.shown "upgrade") = "websocket"

def HoldsDocument (h : Headers) : Prop :=
  ¬ h.OpensStream ∧
    ("application/json".toList <+: (h.shown "content-type").toList ∨
      "+json".toList <:+ (h.shown "content-type").toList)

theorem isGrpc_iff (h : Headers) :
    h.isGrpc = true ↔ "application/grpc".toList <+: (h.shown "content-type").toList :=
  Text.startsWith_iff _ _

theorem isWebsocket_iff (h : Headers) :
    h.isWebsocket = true ↔ Text.lowerAscii (h.shown "upgrade") = "websocket" := by
  unfold isWebsocket shown
  cases h.text? "upgrade" with
  | none =>
    have silent : Text.lowerAscii "" ≠ "websocket" := by decide
    simp [silent]
  | some value => simp

theorem isStream_iff (h : Headers) : h.isStream = true ↔ h.OpensStream := by
  rw [isStream, Bool.or_eq_true, isGrpc_iff, isWebsocket_iff, OpensStream]

instance (h : Headers) : Decidable h.OpensStream := decidable_of_iff _ h.isStream_iff

theorem isJson_iff (h : Headers) :
    h.isJson = true ↔ "application/json".toList <+: (h.shown "content-type").toList ∨
      "+json".toList <:+ (h.shown "content-type").toList := by
  rw [isJson, Bool.or_eq_true, Text.startsWith_iff, Text.startsWith_reverse_iff]
  rfl

theorem holdsDocument_iff (h : Headers) :
    h.HoldsDocument ↔ h.isStream = false ∧ h.isJson = true := by
  rw [HoldsDocument, ← isStream_iff, ← isJson_iff, Bool.not_eq_true]

instance (h : Headers) : Decidable h.HoldsDocument := decidable_of_iff _ h.holdsDocument_iff.symm

def plainValues (h : Headers) (name : String) : List String :=
  h.fields.filterMap fun field => if field.1 = name then plainText? field.2 else none

structure Gathers (h : Headers) (m : Metadata) : Prop where
  values : ∀ name, m.getAll name = h.plainValues name
  named : ∀ name, name ∈ m.values.keys ↔ h.plainValues name ≠ []

theorem Gathers.get? {h : Headers} {m : Metadata} (gathers : h.Gathers m) (name : String) :
    m.values.get? name = if h.plainValues name = [] then none else some (h.plainValues name) := by
  have values := gathers.values name
  have named := gathers.named name
  rw [← Keyed.get?_isSome_iff] at named
  unfold Metadata.getAll at values
  cases found : m.values.get? name with
  | none => simpa [found] using named
  | some listed =>
    rw [found, Option.getD_some] at values
    rw [found, Option.isSome_some] at named
    rw [if_neg (named.1 rfl), values]

theorem get?_metadata (h : Headers) (name : String) :
    h.metadata.values.get? name =
      if h.plainValues name = [] then none else some (h.plainValues name) := by
  have pairs : h.metadata =
      .ofPairs (h.fields.filterMap fun field => (plainText? field.2).map (field.1, ·)) := rfl
  rw [pairs, Metadata.get?_ofPairs, Metadata.arrived_filterMap, plainValues]

theorem gathers_iff (h : Headers) (m : Metadata) : h.Gathers m ↔ m = h.metadata := by
  constructor
  · intro gathers
    have values : m.values = h.metadata.values := Keyed.ext_get? fun name => by
      rw [gathers.get?, get?_metadata]
    cases m
    rw [← Metadata.mk.injEq] at values
    exact values
  · rintro rfl
    refine ⟨fun name => ?_, fun name => ?_⟩
    · rw [Metadata.getAll, get?_metadata]
      split
      · next none => rw [none, Option.getD_none]
      · rfl
    · rw [← Keyed.get?_isSome_iff, get?_metadata]
      split <;> simp_all

end Headers

-- A body that is not to hold a document is not looked at.
inductive Binds (limit : Nat) (r : Request) : Option Json → Prop
  | unread (other : ¬ r.headers.HoldsDocument) : Binds limit r none
  | nothing (unary : r.headers.HoldsDocument) (empty : r.body.size = 0) : Binds limit r none
  | document (unary : r.headers.HoldsDocument) (fits : r.body.size ≤ limit)
    (present : r.body.size ≠ 0) {text : String} (encoded : String.fromUTF8? r.body = some text)
    {document : Json} (parsed : Json.ofText? text = some document) :
    Binds limit r (some document)

def Request.Malformed (r : Request) : Prop :=
  r.body.size ≠ 0 ∧ ∀ text, String.fromUTF8? r.body = some text →
    ∀ document, Json.ofText? text ≠ some document

inductive Grants (h : Headers) : Option Timeout → Prop
  | silent (absent : h.text? "grpc-timeout" = none) : Grants h none
  | stated {text : String} (found : h.text? "grpc-timeout" = some text) {t : Option Timeout}
    (read : Timeout.ofText text = .ok t) : Grants h t

structure Asked {α : Type} [Decider α] (g : Guard α) (r : Request) (result : Outcome Decision)
    (next : Guard α) : Prop where
  answered : ∃ (call : Call) (document : Option Json) (isStream : Bool),
    call.method = pathOf r.target ∧ r.headers.Gathers call.metadata ∧
      Grants r.headers call.deadline ∧ Binds g.maxBodyBytes r document ∧
      (isStream = true ↔ r.headers.OpensStream) ∧
      g.interceptor.enforce call document isStream = (result, next.interceptor)
  sameLimit : next.maxBodyBytes = g.maxBodyBytes

def Headers.NamesGrpc (h : Headers) : Prop :=
  "application/grpc".toList <+: (h.shown "content-type").toList

structure Rejection.Tells (r : Rejection) (e : Error) (h : Headers) : Prop where
  status : r.status = e.status.http
  forbidden : (∃ method, e = .denied method) → r.label = "forbidden"
  failed : (¬ ∃ method, e = .denied method) → r.label = "error"
  code : r.code = some e.code
  message : r.message = e.message
  body : r.body =
    .obj [("code", .str e.code), ("error", .str e.message.text), ("status", .str r.label)]
  grpcStatus : ∀ n, r.grpcStatus = some n ↔ h.NamesGrpc ∧ n = e.status.number
  -- What is left out of a message could still keep it out of the header.
  grpcValue : e.message.complete = true → ∀ value, r.grpcValue? = some value ↔ h.NamesGrpc ∧
    value = e.message.text.toUTF8.toList ∧ ∀ c ∈ e.message.text.toList, FitsHeader c
  grpcMessage : e.message.complete = true → ∀ text, r.grpcMessage? = some text ↔ h.NamesGrpc ∧
    text = e.message.text ∧ ∀ c ∈ e.message.text.toList, IsVisible c

theorem Rejection.ofError_tells (e : Error) (h : Headers) : (ofError e h.isGrpc).Tells e h where
  status := rfl
  forbidden denied := if_pos ((Error.isDenial_iff e).2 denied)
  failed other := if_neg (mt (Error.isDenial_iff e).1 other)
  code := rfl
  message := rfl
  body := rfl
  grpcStatus n := by
    rw [Headers.NamesGrpc, ← Headers.isGrpc_iff, ofError, Option.ite_none_right_eq_some,
      Option.some.injEq, @eq_comm _ n]
  grpcValue _ value := by
    rw [Headers.NamesGrpc, ← Headers.isGrpc_iff, ← value?_eq_some_iff]
    cases grpc : h.isGrpc <;> simp [grpcValue?, ofError]
  grpcMessage _ text := by
    rw [Headers.NamesGrpc, ← Headers.isGrpc_iff, ← plainText?_eq_some_iff, ← bind_value?]
    cases grpc : h.isGrpc <;> simp [grpcMessage?, grpcValue?, ofError]

theorem Rejection.tells_iff (r : Rejection) (e : Error) (h : Headers) :
    r.Tells e h ↔ r = .ofError e h.isGrpc := by
  refine ⟨fun tells => ?_, fun same => same ▸ ofError_tells e h⟩
  have own := ofError_tells e h
  have label : r.label = (ofError e h.isGrpc).label := by
    by_cases denied : ∃ method, e = .denied method
    · rw [tells.forbidden denied, own.forbidden denied]
    · rw [tells.failed denied, own.failed denied]
  have grpcStatus : r.grpcStatus = (ofError e h.isGrpc).grpcStatus :=
    Option.ext fun n => (tells.grpcStatus n).trans (own.grpcStatus n).symm
  cases r
  rw [ofError, Rejection.mk.injEq]
  exact ⟨tells.status, label, tells.code, tells.message, grpcStatus⟩

inductive Reply
  | handled
  | rejected (r : Rejection)
  | brokenDown

def Reply.through {m : Type → Type} [Monad m] {β : Type} (r : Request) (handler : Request → m β) :
    Reply → m (Outcome (Response β))
  | handled => do return .ok (.handled (← handler r))
  | rejected rejection => pure (.ok (.rejected rejection))
  | brokenDown => pure (.error .crash)

theorem Reply.through_injective (r : Request) {a b : Reply}
    (same : ∀ (m : Type → Type) [Monad m] (β : Type) (handler : Request → m β),
      a.through r handler = b.through r handler) : a = b := by
  -- a handler without effects and with one answer tells the three apart
  have plain := same Id Unit fun _ => ()
  cases a with
  | handled => cases b with
    | handled => rfl
    | rejected | brokenDown => cases plain
  | rejected rejection => cases b with
    | rejected other =>
      cases plain
      rfl
    | handled | brokenDown => cases plain
  | brokenDown => cases b with
    | brokenDown => rfl
    | handled | rejected => cases plain

theorem Binds.readable {limit : Nat} {r : Request} {document : Option Json}
    (binds : Binds limit r document) (holds : r.headers.HoldsDocument) :
    r.body.size ≤ limit ∧ ¬ r.Malformed := by
  cases binds with
  | unread other => exact absurd holds other
  | nothing _ empty => exact ⟨by omega, fun malformed => malformed.1 empty⟩
  | document _ fits _ encoded parsed =>
    exact ⟨fits, fun malformed => malformed.2 _ encoded _ parsed⟩

namespace Guard

variable {α : Type}

theorem payload_ok_iff (limit : Nat) (r : Request) (document : Option Json) :
    payload limit r = .ok document ↔ Binds limit r document := by
  constructor
  · intro read
    unfold payload at read
    split at read
    · next passed =>
      cases read
      refine .unread fun holds => ?_
      obtain ⟨unary, json⟩ := (Headers.holdsDocument_iff _).1 holds
      simp [unary, json] at passed
    · next reads =>
      have holds : r.headers.HoldsDocument := by
        rw [Headers.holdsDocument_iff]
        simpa using reads
      split at read
      · cases read
      · next fits =>
        split at read
        · next empty =>
          cases read
          exact .nothing holds empty
        · next present =>
          split at read
          · next parsed =>
            cases read
            obtain ⟨text, encoded, parsed⟩ := Option.bind_eq_some_iff.1 parsed
            exact .document holds (Nat.not_lt.1 fits) present encoded parsed
          · cases read
  · rintro (other | ⟨holds, empty⟩ | ⟨holds, fits, present, encoded, parsed⟩)
    · rw [Headers.holdsDocument_iff] at other
      have passed : (r.headers.isStream || !r.headers.isJson) = true := by
        revert other
        cases r.headers.isStream <;> cases r.headers.isJson <;> simp
      simp [payload, passed]
    · obtain ⟨unary, json⟩ := (Headers.holdsDocument_iff _).1 holds
      simp [payload, unary, json, empty]
    · obtain ⟨unary, json⟩ := (Headers.holdsDocument_iff _).1 holds
      simp [payload, unary, json, Nat.not_lt.2 fits, present, encoded, parsed]

theorem timeout_ok_iff (r : Request) (t : Option Timeout) :
    timeout r = .ok t ↔ Grants r.headers t := by
  unfold timeout
  constructor
  · intro granted
    split at granted
    · next absent =>
      cases granted
      exact .silent absent
    · next found => exact .stated found granted
  · rintro (absent | ⟨found, read⟩)
    · rw [absent]
    · rw [found]
      exact read

variable [Decider α]

theorem asked_iff (g next : Guard α) (r : Request) (result : Outcome Decision) :
    Asked g r result next ↔ ∃ deadline document, timeout r = .ok deadline ∧
      payload g.maxBodyBytes r = .ok document ∧
      g.interceptor.enforce (callOf r deadline) document r.headers.isStream =
        (result, next.interceptor) ∧ next.maxBodyBytes = g.maxBodyBytes := by
  constructor
  · rintro ⟨⟨call, document, isStream, method, gathers, grants, binds, stream, answer⟩, sameLimit⟩
    have same : callOf r call.deadline = call := by
      rw [callOf, ← method, ← (Headers.gathers_iff _ _).1 gathers]
    have kind : r.headers.isStream = isStream := by
      rw [Bool.eq_iff_iff, Headers.isStream_iff, stream]
    refine ⟨call.deadline, document, (timeout_ok_iff _ _).2 grants, (payload_ok_iff _ _ _).2 binds,
      ?_, sameLimit⟩
    rw [same, kind, answer]
  · rintro ⟨deadline, document, granted, read, answer, sameLimit⟩
    have gathers := (Headers.gathers_iff r.headers _).2 rfl
    exact ⟨⟨callOf r deadline, document, r.headers.isStream, rfl, gathers,
      (timeout_ok_iff _ _).1 granted, (payload_ok_iff _ _ _).1 read, Headers.isStream_iff _, answer⟩,
      sameLimit⟩

inductive Treated (g : Guard α) (r : Request) : Reply → Guard α → Prop
  | tooLong (holds : r.headers.HoldsDocument) (long : g.maxBodyBytes < r.body.size) :
    Treated g r (.rejected .bodyTooLong) g
  | unreadable (holds : r.headers.HoldsDocument) (fits : r.body.size ≤ g.maxBodyBytes)
    (malformed : r.Malformed) :
    Treated g r (.rejected .bodyUnreadable) g
  | allowed {d : Decision} {next : Guard α} (asked : Asked g r (.ok d) next) :
    Treated g r .handled next
  | refused {e : Error} {next : Guard α} {rejection : Rejection}
    (asked : Asked g r (.fail e) next) (tells : rejection.Tells e r.headers) :
    Treated g r (.rejected rejection) next
  | brokenDown {next : Guard α} (asked : Asked g r (.error .crash) next) :
    Treated g r .brokenDown next

def Gives (g : Guard α) (r : Request) (reply : Reply) (next : Guard α) : Prop :=
  ∀ (m : Type → Type) [Monad m] (β : Type) (handler : Request → m β),
    g.serve r handler = (reply.through r handler, next)

theorem gives_unique {g : Guard α} {r : Request} {a b : Reply} {g₁ g₂ : Guard α}
    (first : g.Gives r a g₁) (second : g.Gives r b g₂) : a = b ∧ g₁ = g₂ := by
  have both := fun m [Monad m] β handler =>
    Prod.mk.inj ((first m β handler).symm.trans (second m β handler))
  exact ⟨Reply.through_injective r fun m _ β handler => (both m β handler).1,
    (both Id Unit fun _ => ()).2⟩

theorem serve_of_asked {g next : Guard α} {r : Request} {result : Outcome Decision}
    (asked : Asked g r result next) {m : Type → Type} [Monad m] {β : Type}
    (handler : Request → m β) : g.serve r handler = (respond r handler result, next) := by
  obtain ⟨deadline, document, granted, read, answer, sameLimit⟩ := (asked_iff _ _ _ _).1 asked
  have left : { g with interceptor := next.interceptor } = next := by
    rw [← sameLimit]
  simp [serve, granted, read, answer, left]

theorem gives_of_treated {g next : Guard α} {r : Request} {reply : Reply}
    (treated : g.Treated r reply next) : g.Gives r reply next := by
  intro m _ β handler
  cases treated with
  | tooLong holds long =>
    obtain ⟨unary, json⟩ := (Headers.holdsDocument_iff _).1 holds
    exact refuses_of_bodyRefused (.tooLong unary json long) m β handler
  | unreadable holds fits malformed =>
    obtain ⟨unary, json⟩ := (Headers.holdsDocument_iff _).1 holds
    obtain ⟨present, unparsed⟩ := malformed
    refine refuses_of_bodyRefused (.unreadable unary json fits present ?_) m β handler
    exact fun text document encoded => unparsed text encoded document
  | allowed asked => exact serve_of_asked asked handler
  | refused asked tells =>
    rw [(Rejection.tells_iff _ _ _).1 tells]
    exact serve_of_asked asked handler
  | brokenDown asked => exact serve_of_asked asked handler

theorem treated_total (g : Guard α) (r : Request) : ∃ reply next, g.Treated r reply next := by
  obtain ⟨deadline, granted⟩ := timeout_ok r
  cases read : payload g.maxBodyBytes r with
  | error rejection =>
    cases (payload_error_iff _ _ _).1 read with
    | tooLong unary json long =>
      exact ⟨_, _, .tooLong ((Headers.holdsDocument_iff _).2 ⟨unary, json⟩) long⟩
    | unreadable unary json fits present malformed =>
      exact ⟨_, _, .unreadable ((Headers.holdsDocument_iff _).2 ⟨unary, json⟩) fits
        ⟨present, fun text encoded document => malformed text document encoded⟩⟩
  | ok document =>
    obtain ⟨⟨result, interceptor⟩, answer⟩ :
        ∃ p, g.interceptor.enforce (callOf r deadline) document r.headers.isStream = p := ⟨_, rfl⟩
    have asked : Asked g r result { g with interceptor } :=
      (asked_iff _ _ _ _).2 ⟨deadline, document, granted, read, answer, rfl⟩
    match result with
    | .ok d => exact ⟨_, _, .allowed asked⟩
    | .error (.error e) => exact ⟨_, _, .refused asked (Rejection.ofError_tells e r.headers)⟩
    | .error .crash => exact ⟨_, _, .brokenDown asked⟩

theorem treated_of_gives_iff (g next : Guard α) (r : Request) (reply : Reply) :
    g.Gives r reply next ↔ g.Treated r reply next := by
  refine ⟨fun gives => ?_, gives_of_treated⟩
  obtain ⟨_, _, treated⟩ := g.treated_total r
  obtain ⟨rfl, rfl⟩ := gives_unique gives (gives_of_treated treated)
  exact treated

end Guard

end Http

end CallGuard
