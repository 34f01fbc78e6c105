import CallGuard.Proofs.Http.Replies

set_option autoImplicit false

namespace CallGuard

theorem prefix_takeWhile_iff {α : Type} {start : List α} {p : α → Bool}
    (kept : start.all p = true) (xs : List α) : start <+: xs.takeWhile p ↔ start <+: xs := by
  constructor
  · exact fun begins => begins.trans (List.takeWhile_prefix p)
  · rintro ⟨rest, rfl⟩
    rw [List.takeWhile_append_of_pos (List.all_eq_true.1 kept)]
    exact List.prefix_append _ _

theorem suffix_iff_dropWhile {α : Type} {ending : List α} {p : α → Bool}
    (kept : ending.all p = true) (nonempty : ending ≠ []) (xs : List α) :
    ending <:+ xs ↔ xs.dropWhile p = [] ∧ ending <:+ xs.takeWhile p ∨
      ending <:+ xs.dropWhile p := by
  have whole : xs.takeWhile p ++ xs.dropWhile p = xs := List.takeWhile_append_dropWhile
  cases left : xs.dropWhile p with
  | nil =>
    rw [left, List.append_nil] at whole
    simp [whole, nonempty]
  | cons a rest =>
    have stops : p a = false := by
      have first := List.head?_dropWhile_not p xs
      simpa [left] using first
    have tail : a :: rest <:+ xs := left ▸ List.dropWhile_suffix p
    refine ⟨fun ends => .inr ?_, fun ends => ?_⟩
    · rcases List.suffix_or_suffix_of_suffix ends tail with within | beyond
      · exact within
      · have reached := List.all_eq_true.1 kept a (beyond.mem List.mem_cons_self)
        rw [stops] at reached
        cases reached
    · rcases ends with ⟨impossible, _⟩ | within
      · cases impossible
      · exact within.trans tail

namespace Text

theorem suffix_dropWhile {α : Type} {p : α → Bool} {a : α} {ending xs : List α}
    (solid : p a = false) (ends : a :: ending <:+ xs) : a :: ending <:+ xs.dropWhile p := by
  obtain ⟨start, rfl⟩ := ends
  rw [List.dropWhile_append]
  split
  · simp [solid]
  · exact List.suffix_append _ _

theorem suffix_trimList (c last : Char) (inner : List Char) {cs : List Char}
    (solid : isBlank c = false) (closed : isBlank last = false)
    (ends : c :: (inner ++ [last]) <:+ cs) : c :: (inner ++ [last]) <:+ trimList cs := by
  have kept := suffix_dropWhile solid ends
  unfold trimList stripBy
  obtain ⟨start, equal⟩ := kept
  have backwards : (cs.dropWhile isBlank).reverse =
      last :: (inner.reverse ++ c :: start.reverse) := by
    rw [← equal]
    simp
  rw [backwards, List.dropWhile_cons_of_neg (by simp [closed]), ← backwards, List.reverse_reverse]
  exact ⟨start, equal⟩

end Text

namespace Http

namespace Headers

def spelled (value : List UInt8) : List Char := value.map fun b => Char.ofNat b.toNat

def declaredBytes (h : Headers) : List UInt8 := (h.fields.lookup "content-type").getD []

def declared (h : Headers) : List Char := spelled h.declaredBytes

def IsLegible (h : Headers) : Prop := h.declaredBytes.all isPlain = true

def mediaPart (cs : List Char) : List Char := cs.takeWhile (· != ';')

def parameters (cs : List Char) : List Char := cs.dropWhile (· != ';')

def essence (cs : List Char) : List Char := (Text.trimList (mediaPart cs)).map Char.toLower

def NamesDocument (cs : List Char) : Prop :=
  essence cs = "application/json".toList ∨ "+json".toList <:+ essence cs

instance (h : Headers) : Decidable h.IsLegible := inferInstanceAs (Decidable (_ = true))

instance (cs : List Char) : Decidable (NamesDocument cs) :=
  inferInstanceAs (Decidable (_ ∨ _))

theorem shown_of_legible {h : Headers} (legible : h.IsLegible) :
    (h.shown "content-type").toList = h.declared := by
  unfold IsLegible declaredBytes at legible
  unfold shown text? declared declaredBytes spelled
  cases found : h.fields.lookup "content-type" with
  | none => rfl
  | some value =>
    rw [found, Option.getD_some] at legible
    simp [plainText?, legible]

theorem shown_of_illegible {h : Headers} (other : ¬ h.IsLegible) : h.shown "content-type" = "" := by
  unfold IsLegible declaredBytes at other
  unfold shown text?
  cases found : h.fields.lookup "content-type" with
  | none => rfl
  | some value =>
    rw [found, Option.getD_some] at other
    simp [plainText?, other]

theorem namesDocument_of_ends {cs : List Char} (ends : "+json".toList <:+ mediaPart cs) :
    "+json".toList <:+ essence cs := by
  have kept : "+json".toList <:+ Text.trimList (mediaPart cs) :=
    Text.suffix_trimList '+' 'n' ['j', 's', 'o'] (by decide) (by decide) ends
  obtain ⟨start, equal⟩ := kept
  refine ⟨start.map Char.toLower, ?_⟩
  rw [essence, ← equal, List.map_append]
  rfl

theorem starts_iff (cs : List Char) :
    "application/json".toList <+: mediaPart cs ↔ "application/json".toList <+: cs :=
  prefix_takeWhile_iff (by decide) cs

theorem ends_iff (cs : List Char) :
    "+json".toList <:+ cs ↔ parameters cs = [] ∧ "+json".toList <:+ mediaPart cs ∨
      "+json".toList <:+ parameters cs :=
  suffix_iff_dropWhile (by decide) (by decide) cs

-- Taken for what it does not name, or not for what it names.
inductive Misjudged (h : Headers) : Prop
  | illegible (other : ¬ h.IsLegible) (named : NamesDocument h.declared)
  | lookAlike (legible : h.IsLegible) (starts : "application/json".toList <+: mediaPart h.declared)
    (unnamed : ¬ NamesDocument h.declared)
  | parameter (legible : h.IsLegible) (ends : "+json".toList <:+ parameters h.declared)
    (unnamed : ¬ NamesDocument h.declared)
  | respelled (legible : h.IsLegible) (named : NamesDocument h.declared)
    (spelling : essence h.declared ≠ mediaPart h.declared)
    (unseen : ¬ "application/json".toList <+: h.declared ∧ ¬ "+json".toList <:+ h.declared)
  | behind (legible : h.IsLegible) (named : "+json".toList <:+ mediaPart h.declared)
    (parametric : parameters h.declared ≠ [])
    (unseen : ¬ "application/json".toList <+: mediaPart h.declared ∧
      ¬ "+json".toList <:+ parameters h.declared)

theorem holdsDocument_iff_declared {h : Headers} (unary : ¬ h.OpensStream) :
    h.HoldsDocument ↔ h.IsLegible ∧
      ("application/json".toList <+: h.declared ∨ "+json".toList <:+ h.declared) := by
  unfold HoldsDocument
  by_cases legible : h.IsLegible
  · rw [shown_of_legible legible]
    exact ⟨fun holds => ⟨legible, holds.2⟩, fun holds => ⟨unary, holds.2⟩⟩
  · rw [shown_of_illegible legible]
    have neither : ¬ ("application/json".toList <+: "".toList ∨ "+json".toList <:+ "".toList) := by
      decide
    exact ⟨fun holds => absurd holds.2 neither, fun holds => absurd holds.1 legible⟩

theorem judged_iff {h : Headers} (legible : h.IsLegible) :
    ("application/json".toList <+: h.declared ∨ "+json".toList <:+ h.declared ↔
      NamesDocument h.declared) ↔ ¬ h.Misjudged := by
  constructor
  · rintro agree (⟨other, _⟩ | ⟨_, starts, unnamed⟩ | ⟨_, ends, unnamed⟩ | ⟨_, named, _, unseen⟩ |
      ⟨_, named, parametric, unseen⟩)
    · exact other legible
    · exact unnamed (agree.1 (.inl ((starts_iff _).1 starts)))
    · exact unnamed (agree.1 (.inr ((ends_iff _).2 (.inr ends))))
    · exact (not_or.2 unseen) (agree.2 named)
    · rcases agree.2 (.inr (namesDocument_of_ends named)) with starts | ends
      · exact unseen.1 ((starts_iff _).2 starts)
      · rcases (ends_iff _).1 ends with ⟨plain, _⟩ | ends
        · exact parametric plain
        · exact unseen.2 ends
  · intro judged
    constructor
    · rintro (starts | ends)
      · exact Decidable.byContradiction fun unnamed =>
          judged (.lookAlike legible ((starts_iff _).2 starts) unnamed)
      · rcases (ends_iff _).1 ends with ⟨_, ends⟩ | ends
        · exact .inr (namesDocument_of_ends ends)
        · exact Decidable.byContradiction fun unnamed => judged (.parameter legible ends unnamed)
    · intro named
      refine Decidable.byContradiction fun neither => ?_
      have unseen := not_or.1 neither
      by_cases spelling : essence h.declared = mediaPart h.declared
      · unfold NamesDocument at named
        rw [spelling] at named
        rcases named with exactly | ends
        · exact unseen.1 ((starts_iff _).1 (exactly ▸ List.prefix_refl _))
        · have parametric : parameters h.declared ≠ [] := fun plain =>
            unseen.2 ((ends_iff _).2 (.inl ⟨plain, ends⟩))
          exact judged (.behind legible ends parametric ⟨fun starts =>
            unseen.1 ((starts_iff _).1 starts), fun ends => unseen.2 ((ends_iff _).2 (.inr ends))⟩)
      · exact judged (.respelled legible named spelling unseen)

structure ReadsBodies (h : Headers) : Prop where
  binds : ∀ (limit : Nat) (target : String) (body : ByteArray) (text : String) (document : Json),
    body.size ≤ limit → String.fromUTF8? body = some text → Json.ofText? text = some document →
    Guard.payload limit ⟨target, h, body⟩ = .ok (some document)
  limits : ∀ (limit : Nat) (target : String) (body : ByteArray), limit < body.size →
    Guard.payload limit ⟨target, h, body⟩ = .error .bodyTooLong
  refuses : ∀ (limit : Nat) (target : String) (body : ByteArray), body.size ≤ limit →
    Request.Malformed ⟨target, h, body⟩ →
    Guard.payload limit ⟨target, h, body⟩ = .error .bodyUnreadable

def IgnoresBodies (h : Headers) : Prop :=
  ∀ (limit : Nat) (target : String) (body : ByteArray),
    Guard.payload limit ⟨target, h, body⟩ = .ok none

theorem readsBodies_of_holds {h : Headers} (holds : h.HoldsDocument) : h.ReadsBodies where
  binds limit target body text document fits encoded parsed := by
    have present : body.size ≠ 0 := by
      intro empty
      obtain rfl := ByteArray.size_eq_zero_iff.1 empty
      have blank : String.fromUTF8? ByteArray.empty = some "" := by decide +kernel
      obtain rfl := Option.some.inj (blank.symm.trans encoded)
      have nothing : (Json.ofText? "").isNone := by decide +kernel
      simp [parsed] at nothing
    exact (Guard.payload_ok_iff _ _ _).2 (.document holds fits present encoded parsed)
  limits limit target body long := by
    obtain ⟨unary, json⟩ := (holdsDocument_iff _).1 holds
    exact (Guard.payload_error_iff _ _ _).2 (.tooLong unary json long)
  refuses limit target body fits malformed := by
    obtain ⟨unary, json⟩ := (holdsDocument_iff _).1 holds
    obtain ⟨present, unparsed⟩ := malformed
    exact (Guard.payload_error_iff _ _ _).2 (.unreadable unary json fits present
      fun text document encoded => unparsed text encoded document)

theorem ignoresBodies_of_not_holds {h : Headers} (other : ¬ h.HoldsDocument) : h.IgnoresBodies :=
  fun _ _ _ => (Guard.payload_ok_iff _ _ _).2 (.unread other)

theorem readsBodies_iff (h : Headers) : h.ReadsBodies ↔ h.HoldsDocument := by
  refine ⟨fun reads => Classical.byContradiction fun other => ?_, readsBodies_of_holds⟩
  have refused := reads.limits 0 "" ⟨#[0]⟩ (by decide)
  rw [ignoresBodies_of_not_holds other 0 ""] at refused
  cases refused

theorem read_as_named_iff (h : Headers) (unary : ¬ h.OpensStream) :
    (h.ReadsBodies ∨ h.IgnoresBodies) ∧
      ((h.ReadsBodies ↔ NamesDocument h.declared) ↔ ¬ h.Misjudged) ∧
      (h.IsLegible → mediaPart h.declared = "application/json".toList → h.ReadsBodies) := by
  refine ⟨?_, ?_, fun legible exactly => ?_⟩
  · by_cases holds : h.HoldsDocument
    · exact .inl (readsBodies_of_holds holds)
    · exact .inr (ignoresBodies_of_not_holds holds)
  · rw [readsBodies_iff, holdsDocument_iff_declared unary]
    by_cases legible : h.IsLegible
    · rw [← judged_iff legible, and_iff_right legible]
    · have illegible : h.Misjudged ↔ NamesDocument h.declared := by
        refine ⟨?_, .illegible legible⟩
        rintro (⟨_, named⟩ | ⟨plain, _⟩ | ⟨plain, _⟩ | ⟨plain, _⟩ | ⟨plain, _⟩)
        · exact named
        all_goals exact absurd plain legible
      rw [illegible]
      simp [legible]
  · refine (readsBodies_iff h).2 ((holdsDocument_iff_declared unary).2 ⟨legible, .inl ?_⟩)
    exact (starts_iff _).1 (exactly ▸ List.prefix_refl _)

def ofContentType (text : String) : Headers := .ofList [("content-type", text.toUTF8.toList)]

theorem suffixed_type_read :
    ¬ (ofContentType "application/vnd.api+json").OpensStream ∧
      (ofContentType "application/vnd.api+json").ReadsBodies := by
  have unary : ¬ (ofContentType "application/vnd.api+json").OpensStream := by decide +kernel
  have named : NamesDocument (ofContentType "application/vnd.api+json").declared := by
    decide +kernel
  have judged := ((ofContentType "application/vnd.api+json").read_as_named_iff unary).2.1
  refine ⟨unary, (judged.2 ?_).2 named⟩
  rintro (⟨other, _⟩ | ⟨_, _, unnamed⟩ | ⟨_, _, unnamed⟩ | ⟨_, _, spelling, _⟩ |
    ⟨_, _, parametric, _⟩)
  · exact other (by decide +kernel)
  · exact unnamed named
  · exact unnamed named
  · exact spelling (by decide +kernel)
  · exact parametric (by decide +kernel)

theorem capitals_ignored :
    ¬ (ofContentType "Application/JSON").OpensStream ∧
      NamesDocument (ofContentType "Application/JSON").declared ∧
      (ofContentType "Application/JSON").IgnoresBodies := by
  have other : ¬ (ofContentType "Application/JSON").HoldsDocument := by decide +kernel
  exact ⟨by decide +kernel, by decide +kernel, ignoresBodies_of_not_holds other⟩

end Headers

end Http

end CallGuard
