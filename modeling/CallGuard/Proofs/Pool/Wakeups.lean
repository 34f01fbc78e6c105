import CallGuard.Proofs.Pool.Conservation

set_option autoImplicit false

namespace CallGuard.SharedPool

variable {α : Type} {n : Nat}

namespace Phase

def isWaiting : Phase α → Bool
  | waiting _ => true
  | _ => false

def isWoken : Phase α → Bool
  | woken _ => true
  | _ => false

def isWaking : Phase α → Bool
  | waking => true
  | _ => false

-- Whether a thread has been woken, or is about to wake another.
def isAlert : Phase α → Bool
  | woken _ => true
  | waking => true
  | _ => false

end Phase

def available (s : SharedPool α n) : Nat :=
  s.pool.idle.length + (s.pool.capacity - s.pool.created)

def Attended (s : SharedPool α n) : Prop :=
  (∃ t, (s.phase t).isWaiting = true) → s.available ≤ s.count Phase.isAlert

section

variable {s u : SharedPool α n} {t : Fin n}

theorem alert_eq (s : SharedPool α n) :
    s.count Phase.isAlert = s.count Phase.isWoken + s.count Phase.isWaking := by
  simp only [count, Finset.card_filter, ← Finset.sum_add_distrib]
  refine Finset.sum_congr rfl fun t _ => ?_
  cases s.phase t <;> rfl

theorem waits_before {q : Phase α} (calm : q.isWaiting = false)
    (waits : ∃ v, ((s.enter t q).phase v).isWaiting = true) :
    ∃ v, (s.phase v).isWaiting = true := by
  obtain ⟨v, waits⟩ := waits
  by_cases here : v = t
  · simp [enter, here, calm] at waits
  · exact ⟨v, by simpa [enter, here] using waits⟩

theorem count_enter_le (s : SharedPool α n) (t : Fin n) (q : Phase α) (p : Phase α → Bool) :
    s.count p ≤ (s.enter t q).count p + 1 := by
  have exchange := count_enter s t q p
  split at exchange <;> omega

theorem attended_step (sound : Sound s) (attended : Attended s) (next : Step t s u) :
    Attended u := by
  intro waits
  have within := sound.within
  cases next with
  | wait h idle full =>
    -- nothing can be had where a thread begins to wait
    change s.available ≤ _
    simp only [available, idle, List.length_nil]
    omega
  | refuse h idle full =>
    change s.available ≤ _
    simp only [available, idle, List.length_nil]
    omega
  | take isLate item rest h idle =>
    have before := attended (waits_before rfl waits)
    have fewer := count_enter_le s t .outside Phase.isAlert
    simp only [available, idle, List.length_cons] at before
    change rest.length + (s.pool.capacity - s.pool.created) ≤
      (s.enter t .outside).count Phase.isAlert
    omega
  | reserve isLate h idle room =>
    have before := attended (waits_before rfl waits)
    have fewer := count_enter_le s t .making Phase.isAlert
    simp only [available] at before
    change s.pool.idle.length + (s.pool.capacity - (s.pool.created + 1)) ≤
      (s.enter t .making).count Phase.isAlert
    omega
  | putBack item h =>
    have before := attended (waits_before rfl waits)
    have more := count_enter_gain (s := s) (t := t) (p := Phase.isAlert) (q := .waking)
      (by rw [h]; rfl) rfl
    simp only [available] at before
    change s.pool.idle.length + 1 + (s.pool.capacity - s.pool.created) ≤
      (s.enter t .waking).count Phase.isAlert
    omega
  | forget h =>
    have before := attended (waits_before rfl waits)
    have more := count_enter_gain (s := s) (t := t) (p := Phase.isAlert) (q := .waking)
      (by rw [h]; rfl) rfl
    simp only [available] at before
    change s.pool.idle.length + (s.pool.capacity - (s.pool.created - 1)) ≤
      (s.enter t .waking).count Phase.isAlert
    omega
  | wake v timed h asleep =>
    have differs : t ≠ v := by
      rintro rfl
      simp [h] at asleep
    have waking : (s.enter v (.woken timed)).phase t = .waking := by simp [enter, differs, h]
    have woken := count_enter_gain (s := s) (t := v) (p := Phase.isAlert) (q := .woken timed)
      (by rw [asleep]; rfl) rfl
    have done := count_enter_loss (s := s.enter v (.woken timed)) (t := t) (p := Phase.isAlert)
      (q := .outside) (by rw [waking]; rfl) rfl
    have before := attended ⟨v, by rw [asleep]; rfl⟩
    change s.available ≤ _
    omega
  | wakeNone h nobody =>
    obtain ⟨v, waits⟩ := waits_before rfl waits
    cases asleep : s.phase v with
    | waiting timed => exact absurd asleep (nobody v timed)
    | _ => simp [asleep, Phase.isWaiting] at waits
  | change | pass => exact attended waits
  | ask timed h | expire h | stir timed h | make content h | fail h | release _ _ _ h
  | discard _ _ _ h =>
    have before := attended (waits_before rfl waits)
    exact before.trans (Nat.le_of_eq (count_enter_same (by rw [h]; rfl)).symm)

theorem attended_initial (capacity : Nat) : Attended (initial capacity : SharedPool α n) := by
  rintro ⟨t, waits⟩
  simp [initial, Phase.isWaiting] at waits

theorem attended_run (sound : Sound s) (attended : Attended s) (run : Reaches s u) :
    Attended u := by
  induction run with
  | refl => exact attended
  | step t before next ih => exact attended_step (sound_run sound before) ih next

theorem wakeups_under_way (capacity : Nat) (reached : Reaches (initial capacity) s) {timed : Bool}
    (waits : s.phase t = .waiting timed) :
    s.pool.created ≤ s.pool.capacity ∧
    s.pool.idle.length + (s.pool.capacity - s.pool.created) ≤
      s.count Phase.isWoken + s.count Phase.isWaking ∧
    (s.pool.idle ≠ [] ∨ s.pool.created < s.pool.capacity →
      ∃ v, (∃ limit, s.phase v = .woken limit) ∨ s.phase v = .waking) := by
  have sound := sound_run (sound_initial capacity) reached
  have attended := attended_run (sound_initial capacity) (attended_initial capacity) reached
  have enough := attended ⟨t, by rw [waits]; rfl⟩
  refine ⟨sound.within, alert_eq s ▸ enough, fun something => ?_⟩
  have some : 0 < s.available := by
    rcases something with idle | room
    · have := List.length_pos_iff.2 idle
      simp only [available]
      omega
    · simp only [available]
      omega
  obtain ⟨v, alert⟩ := count_pos_iff.1 (Nat.lt_of_lt_of_le some enough)
  refine ⟨v, ?_⟩
  cases h : s.phase v with
  | woken limit => exact .inl ⟨limit, rfl⟩
  | waking => exact .inr rfl
  | _ => simp [h, Phase.isAlert] at alert

end

theorem other_still_waits :
    ∃ s : SharedPool Nat 3, Reaches (initial 1) s ∧ s.phase 2 = .waiting false ∧
      s.phase 1 = .woken false ∧ s.pool.idle = [⟨0, 7⟩] ∧
      s.pool.idle.length + (s.pool.capacity - s.pool.created) ≤
        s.count Phase.isWoken + s.count Phase.isWaking := by
  have run := Reaches.refl (initial 1 : SharedPool Nat 3)
  have run := run.step 0 (.ask _ false rfl)
  have run := run.step 0 (.reserve _ false rfl rfl (by decide))
  have run := run.step 0 (.make _ 7 rfl)
  have run := run.step 1 (.ask _ false rfl)
  have run := run.step 1 (.wait _ rfl rfl (by decide))
  have run := run.step 2 (.ask _ false rfl)
  have run := run.step 2 (.wait _ rfl rfl (by decide))
  have run := run.step 0 (.release _ [] [] ⟨0, 7⟩ rfl rfl)
  have run := run.step 0 (.putBack _ ⟨0, 7⟩ rfl)
  have run := run.step 0 (.wake _ 1 false rfl rfl)
  obtain ⟨-, enough, -⟩ := wakeups_under_way 1 run (show phase _ 2 = .waiting false from rfl)
  exact ⟨_, run, rfl, rfl, rfl, enough⟩

end CallGuard.SharedPool
