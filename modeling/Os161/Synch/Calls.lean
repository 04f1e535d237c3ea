import Os161.Synch.Basic

/-!
# A run of one call of `synch.c`

A call is a function of `synch.c` with its arguments. `Synch.call` runs it once for its caller:
on entry (`fresh`), or again after a wakeup, when the loop around `thread_sleep` tests its
condition anew. `cv_wait` releases its lock and sleeps on its first run, and runs
`lock_acquire` on every later one.

What one run does is said here once for every call. `held` and `holder` keep agreeing
(`call_heldOk`). A run of `lock_acquire_two` or `lock_acquire_three` that sleeps leaves every
lock as it found it (`lockAcquireTwo_false_locks`, `lockAcquireThree_false`). A lock changes
holder only by its caller taking it free or releasing it (`call_holder`). No thread is left asleep on a free lock unless the two locks of
`lock_acquire_two` are one (`call_sleepersHeld`). The calls other than `P` and `V` leave the
semaphores alone (`call_semFrame`).
-/

namespace Os161

/-- The functions of `synch.c` a thread calls, with their arguments. -/
inductive SynchOp (ℓ σ κ : Type)
  | acquire (l : ℓ)
  | acquireTwo (l₁ l₂ : ℓ)
  | acquireThree (l₁ l₂ l₃ : ℓ)
  | release (l : ℓ)
  | releaseTwo (l₁ l₂ : ℓ)
  | releaseThree (l₁ l₂ l₃ : ℓ)
  | cvWait (c : κ) (l : ℓ)
  | cvSignal (c : κ)
  | cvBroadcast (c : κ)
  | P (sem : σ)
  | V (sem : σ)
  deriving DecidableEq, Repr

namespace SynchOp

variable {ℓ σ κ : Type} [DecidableEq ℓ]

/-- The locks a run of the call releases; `cv_wait` releases its lock on its first run. -/
def releases : SynchOp ℓ σ κ → Bool → List ℓ
  | .release l, _ => [l]
  | .releaseTwo l₁ l₂, _ => [l₁, l₂]
  | .releaseThree l₁ l₂ l₃, _ => [l₁, l₂, l₃]
  | .cvWait _ l, true => [l]
  | _, _ => []

/-- The locks of `lock_acquire_two` and `lock_acquire_three`. -/
def takesMany : SynchOp ℓ σ κ → List ℓ
  | .acquireTwo l₁ l₂ => [l₁, l₂]
  | .acquireThree l₁ l₂ l₃ => [l₁, l₂, l₃]
  | _ => []

/-- The locks a run of the call takes when it returns (`ok`); `cv_wait` takes its lock back in
the run that returns. -/
def takes : SynchOp ℓ σ κ → Bool → Bool → List ℓ
  | .acquire l, _, true => [l]
  | .acquireTwo l₁ l₂, _, true => [l₁, l₂]
  | .acquireThree l₁ l₂ l₃, _, true => [l₁, l₂, l₃]
  | .cvWait _ l, false, true => [l]
  | _, _, _ => []

/-- The addresses a run of the call can sleep on. -/
def chans : SynchOp ℓ σ κ → List (Chan ℓ σ κ)
  | .acquire l => [.lock l]
  | .acquireTwo l₁ l₂ => [.lock l₁, .lock l₂]
  | .acquireThree l₁ l₂ l₃ => [.lock l₁, .lock l₂, .lock l₃]
  | .cvWait c l => [.cv c, .lock l]
  | .P sem => [.sem sem]
  | _ => []

omit [DecidableEq ℓ] in
theorem takes_releases_of_mem_takesMany {c : SynchOp ℓ σ κ} {l : ℓ} (hl : l ∈ c.takesMany)
    (fresh : Bool) : c.takes fresh false = [] ∧ c.releases fresh = [] := by
  cases c <;> simp_all [takesMany, takes, releases]

end SynchOp

namespace Synch

set_option linter.unusedSectionVars false

variable {ι ℓ σ κ : Type} [DecidableEq ι] [DecidableEq ℓ] [DecidableEq σ] [DecidableEq κ]

/-- One run of call `c` by `t`, on entry (`fresh`) or after a wakeup: whether the call returns,
and the state after the run. `P` fails its `assert` on a negative count, and `V` overflows. -/
def call (s : Synch ι ℓ σ κ) (t : ι) (fresh : Bool) : SynchOp ℓ σ κ → Option (Bool × Synch ι ℓ σ κ)
  | .acquire l => some (s.lockAcquire t l)
  | .acquireTwo l₁ l₂ => some (s.lockAcquireTwo t l₁ l₂)
  | .acquireThree l₁ l₂ l₃ => some (s.lockAcquireThree t l₁ l₂ l₃)
  | .release l => some (true, s.lockRelease l)
  | .releaseTwo l₁ l₂ => some (true, s.lockReleaseTwo l₁ l₂)
  | .releaseThree l₁ l₂ l₃ => some (true, s.lockReleaseThree l₁ l₂ l₃)
  | .cvWait c l => if fresh then some (false, s.cvWait t c l) else some (s.lockAcquire t l)
  | .cvSignal c => some (true, s.cvSignal c)
  | .cvBroadcast c => some (true, s.cvBroadcast c)
  | .P sem => s.P t sem
  | .V sem => (s.V sem).map ((true, ·))

/-- `held` and `holder` agree: `held == 1` iff `holder != NULL`. -/
def HeldOk (s : Synch ι ℓ σ κ) : Prop := ∀ l, s.held l = true ↔ (s.holder l).isSome

/-- Every thread asleep on a lock's address sleeps on a held lock. -/
def SleepersHeld (s : Synch ι ℓ σ κ) : Prop :=
  ∀ t l, (t, Chan.lock l) ∈ s.sleepers → s.held l = true

variable {s s' : Synch ι ℓ σ κ} {t : ι} {l l₁ l₂ l₃ : ℓ}

/-! ### The acquires, branch by branch -/

theorem lockAcquire_true (h : s.lockAcquire t l = (true, s')) :
    s.held l = false ∧ s' = s.take t l := by
  unfold lockAcquire at h
  split_ifs at h with hl
  · simp at h
  · rw [Prod.mk.injEq] at h
    exact ⟨by simpa using hl, h.2.symm⟩

theorem lockAcquire_false (h : s.lockAcquire t l = (false, s')) :
    s.held l = true ∧ s' = s.threadSleep t (.lock l) := by
  unfold lockAcquire at h
  split_ifs at h with hl
  · rw [Prod.mk.injEq] at h
    exact ⟨hl, h.2.symm⟩
  · simp at h

theorem lockAcquireTwo_true (h : s.lockAcquireTwo t l₁ l₂ = (true, s')) :
    s.held l₁ = false ∧ s.held l₂ = false ∧ l₁ ≠ l₂ ∧ s' = (s.take t l₁).take t l₂ := by
  unfold lockAcquireTwo at h
  dsimp only at h
  split_ifs at h with h₁ h₂
  · simp at h
  · rw [Prod.mk.injEq] at h
    have hne : l₁ ≠ l₂ := by
      rintro rfl
      simp at h₂
    simp only [take_held, Function.update_of_ne hne.symm, Bool.not_eq_true] at h₂
    exact ⟨h₁, h₂, hne, h.2.symm⟩
  · simp at h

theorem lockAcquireTwo_false (h : s.lockAcquireTwo t l₁ l₂ = (false, s')) :
    (s.held l₁ = true ∧ s' = s.threadSleep t (.lock l₁)) ∨
      (s.held l₁ = false ∧ (s.take t l₁).held l₂ = true ∧
        s' = ((s.take t l₁).drop l₁).threadSleep t (.lock l₂)) := by
  unfold lockAcquireTwo at h
  dsimp only at h
  split_ifs at h with h₁ h₂
  · rw [Prod.mk.injEq] at h
    exact .inr ⟨h₁, h₂, h.2.symm⟩
  · simp at h
  · rw [Prod.mk.injEq] at h
    exact .inl ⟨by simpa using h₁, h.2.symm⟩

theorem lockAcquireThree_true (h : s.lockAcquireThree t l₁ l₂ l₃ = (true, s')) :
    s.held l₁ = false ∧ s.held l₂ = false ∧ s.held l₃ = false ∧
      s' = ((s.take t l₁).take t l₂).take t l₃ := by
  unfold lockAcquireThree at h
  split_ifs at h with h₁ h₂ h₃ <;> rw [Prod.mk.injEq] at h
  · exact ⟨h₁, h₂, h₃, h.2.symm⟩
  all_goals simp at h

/-- A run of `lock_acquire_three` that sleeps sleeps on one of its locks that is held, and
takes none. -/
theorem lockAcquireThree_false (h : s.lockAcquireThree t l₁ l₂ l₃ = (false, s')) :
    ∃ l ∈ [l₁, l₂, l₃], s.held l = true ∧ s' = s.threadSleep t (.lock l) := by
  unfold lockAcquireThree at h
  split_ifs at h with h₁ h₂ h₃ <;> rw [Prod.mk.injEq] at h
  · simp at h
  · exact ⟨l₃, by simp, by simpa using h₃, h.2.symm⟩
  · exact ⟨l₂, by simp, by simpa using h₂, h.2.symm⟩
  · exact ⟨l₁, by simp, by simpa using h₁, h.2.symm⟩

/-! ### `held` and `holder` -/

theorem HeldOk.holder_eq_none (hs : s.HeldOk) (hl : s.held l = false) : s.holder l = none := by
  have := hs l
  rw [hl] at this
  simpa using this

theorem HeldOk.take (hs : s.HeldOk) (t : ι) (l : ℓ) : (s.take t l).HeldOk := by
  intro l'
  by_cases hl : l' = l
  · subst hl
    simp
  · simpa [Function.update_of_ne hl] using hs l'

theorem HeldOk.drop (hs : s.HeldOk) (l : ℓ) : (s.drop l).HeldOk := by
  intro l'
  by_cases hl : l' = l
  · subst hl
    simp
  · simpa [Function.update_of_ne hl] using hs l'

theorem HeldOk.of_eq (hs : s.HeldOk) (hh : s'.held = s.held) (ho : s'.holder = s.holder) :
    s'.HeldOk := by
  intro l
  rw [hh, ho]
  exact hs l

/-- A run of `lock_acquire_two` that sleeps leaves every lock as it found it: it gives back the
first lock before it sleeps on the second. -/
theorem lockAcquireTwo_false_locks (hs : s.HeldOk) (h : s.lockAcquireTwo t l₁ l₂ = (false, s')) :
    s'.held = s.held ∧ s'.holder = s.holder := by
  rcases lockAcquireTwo_false h with ⟨-, rfl⟩ | ⟨h₁, -, rfl⟩
  · exact ⟨rfl, rfl⟩
  · have ho := hs.holder_eq_none h₁
    simp only [threadSleep_held, drop_held, take_held, Function.update_idem, threadSleep_holder,
      drop_holder, take_holder]
    exact ⟨Function.update_eq_self_iff.2 h₁.symm, Function.update_eq_self_iff.2 ho.symm⟩

theorem call_heldOk {fresh ok : Bool} {c : SynchOp ℓ σ κ} (hs : s.HeldOk)
    (h : s.call t fresh c = some (ok, s')) : s'.HeldOk := by
  cases c with
  | acquire l =>
    rw [call, Option.some.injEq] at h
    cases ok
    · rcases lockAcquire_false h with ⟨-, rfl⟩
      exact hs.of_eq rfl rfl
    · rcases lockAcquire_true h with ⟨-, rfl⟩
      exact hs.take t l
  | acquireTwo l₁ l₂ =>
    rw [call, Option.some.injEq] at h
    cases ok
    · exact hs.of_eq (lockAcquireTwo_false_locks hs h).1 (lockAcquireTwo_false_locks hs h).2
    · rcases lockAcquireTwo_true h with ⟨-, -, -, rfl⟩
      exact (hs.take t l₁).take t l₂
  | acquireThree l₁ l₂ l₃ =>
    rw [call, Option.some.injEq] at h
    cases ok
    · rcases lockAcquireThree_false h with ⟨l, -, -, rfl⟩
      exact hs.of_eq rfl rfl
    · rcases lockAcquireThree_true h with ⟨-, -, -, rfl⟩
      exact ((hs.take t l₁).take t l₂).take t l₃
  | release l =>
    rw [call, Option.some.injEq, Prod.mk.injEq] at h
    rw [← h.2]
    exact (hs.of_eq rfl rfl).drop l
  | releaseTwo l₁ l₂ =>
    rw [call, Option.some.injEq, Prod.mk.injEq] at h
    rw [← h.2]
    exact ((hs.drop l₁).drop l₂).of_eq rfl rfl
  | releaseThree l₁ l₂ l₃ =>
    rw [call, Option.some.injEq, Prod.mk.injEq] at h
    rw [← h.2]
    exact (((hs.drop l₁).drop l₂).drop l₃).of_eq rfl rfl
  | cvWait c l =>
    unfold call at h
    split_ifs at h
    · rw [Option.some.injEq, Prod.mk.injEq] at h
      rw [← h.2]
      exact ((hs.of_eq rfl rfl).drop l).of_eq rfl rfl
    · rw [Option.some.injEq] at h
      cases ok
      · rcases lockAcquire_false h with ⟨-, rfl⟩
        exact hs.of_eq rfl rfl
      · rcases lockAcquire_true h with ⟨-, rfl⟩
        exact hs.take t l
  | cvSignal c =>
    rw [call, Option.some.injEq, Prod.mk.injEq] at h
    rw [← h.2]
    unfold cvSignal
    split_ifs
    · exact hs.of_eq (threadWakeupSingle_held _ _) (threadWakeupSingle_holder _ _)
    · exact hs
  | cvBroadcast c =>
    rw [call, Option.some.injEq, Prod.mk.injEq] at h
    rw [← h.2]
    exact hs.of_eq rfl rfl
  | P sem =>
    rw [call] at h
    cases ok
    · rcases P_false h with ⟨-, rfl⟩
      exact hs.of_eq rfl rfl
    · rcases P_true h with ⟨-, rfl⟩
      exact hs.of_eq rfl rfl
  | V sem =>
    rw [call] at h
    rcases Option.map_eq_some_iff.1 h with ⟨s₁, hv, hs₁⟩
    rw [Prod.mk.injEq] at hs₁
    rcases V_eq_some hv with ⟨-, -, rfl⟩
    rw [← hs₁.2]
    exact hs.of_eq rfl rfl

/-- What a run does to `holder`: the caller takes the locks of a returning acquire, which were
free, and the locks the call releases are cleared; no other lock changes. -/
theorem call_holder {fresh ok : Bool} {c : SynchOp ℓ σ κ} (hs : s.HeldOk)
    (h : s.call t fresh c = some (ok, s')) :
    (∀ l ∈ c.takes fresh ok, s.held l = false) ∧
      ∀ l, s'.holder l = if l ∈ c.takes fresh ok then some t
        else if l ∈ c.releases fresh then none else s.holder l := by
  cases c with
  | acquire l₀ =>
    rw [call, Option.some.injEq] at h
    cases ok
    · rcases lockAcquire_false h with ⟨-, rfl⟩
      simp [SynchOp.takes, SynchOp.releases]
    · rcases lockAcquire_true h with ⟨hl, rfl⟩
      simp [SynchOp.takes, SynchOp.releases, Function.update_apply, hl]
  | acquireTwo l₁ l₂ =>
    rw [call, Option.some.injEq] at h
    cases ok
    · have := (lockAcquireTwo_false_locks hs h).2
      simp [SynchOp.takes, SynchOp.releases, this]
    · rcases lockAcquireTwo_true h with ⟨h₁, h₂, -, rfl⟩
      refine ⟨by simp [SynchOp.takes, h₁, h₂], fun l => ?_⟩
      simp only [take_holder, Function.update_apply, SynchOp.takes, SynchOp.releases, List.mem_cons,
        List.not_mem_nil, or_false, if_false]
      split_ifs <;> simp_all
  | acquireThree l₁ l₂ l₃ =>
    rw [call, Option.some.injEq] at h
    cases ok
    · rcases lockAcquireThree_false h with ⟨l, -, -, rfl⟩
      simp [SynchOp.takes, SynchOp.releases]
    · rcases lockAcquireThree_true h with ⟨h₁, h₂, h₃, rfl⟩
      refine ⟨by simp [SynchOp.takes, h₁, h₂, h₃], fun l => ?_⟩
      simp only [take_holder, Function.update_apply, SynchOp.takes, SynchOp.releases, List.mem_cons,
        List.not_mem_nil, or_false, if_false]
      split_ifs <;> simp_all
  | release l₀ =>
    rw [call, Option.some.injEq, Prod.mk.injEq] at h
    rw [← h.1, ← h.2]
    simp [lockRelease, SynchOp.takes, SynchOp.releases, Function.update_apply]
  | releaseTwo l₁ l₂ =>
    rw [call, Option.some.injEq, Prod.mk.injEq] at h
    rw [← h.1, ← h.2]
    refine ⟨by simp [SynchOp.takes], fun l => ?_⟩
    simp only [lockReleaseTwo, threadWakeup_holder, drop_holder, Function.update_apply,
      SynchOp.takes, SynchOp.releases, List.mem_cons, List.not_mem_nil, or_false, if_false]
    split_ifs <;> simp_all
  | releaseThree l₁ l₂ l₃ =>
    rw [call, Option.some.injEq, Prod.mk.injEq] at h
    rw [← h.1, ← h.2]
    refine ⟨by simp [SynchOp.takes], fun l => ?_⟩
    simp only [lockReleaseThree, threadWakeup_holder, drop_holder, Function.update_apply,
      SynchOp.takes, SynchOp.releases, List.mem_cons, List.not_mem_nil, or_false, if_false]
    split_ifs <;> simp_all
  | cvWait c l₀ =>
    cases fresh
    · rw [call, if_neg Bool.false_ne_true, Option.some.injEq] at h
      cases ok
      · rcases lockAcquire_false h with ⟨-, rfl⟩
        simp [SynchOp.takes, SynchOp.releases]
      · rcases lockAcquire_true h with ⟨hl, rfl⟩
        simp [SynchOp.takes, SynchOp.releases, Function.update_apply, hl]
    · rw [call, if_pos rfl, Option.some.injEq, Prod.mk.injEq] at h
      rw [← h.1, ← h.2]
      simp [cvWait, lockRelease, SynchOp.takes, SynchOp.releases, Function.update_apply]
  | cvSignal c =>
    rw [call, Option.some.injEq, Prod.mk.injEq] at h
    rw [← h.1, ← h.2]
    unfold cvSignal
    split_ifs <;> simp [SynchOp.takes, SynchOp.releases]
  | cvBroadcast c =>
    rw [call, Option.some.injEq, Prod.mk.injEq] at h
    rw [← h.1, ← h.2]
    simp [cvBroadcast, SynchOp.takes, SynchOp.releases]
  | P sem =>
    rw [call] at h
    cases ok
    · rcases P_false h with ⟨-, rfl⟩
      simp [SynchOp.takes, SynchOp.releases]
    · rcases P_true h with ⟨-, rfl⟩
      simp [SynchOp.takes, SynchOp.releases]
  | V sem =>
    rw [call] at h
    rcases Option.map_eq_some_iff.1 h with ⟨s₁, hv, hs₁⟩
    rw [Prod.mk.injEq] at hs₁
    rcases V_eq_some hv with ⟨-, -, rfl⟩
    rw [← hs₁.1, ← hs₁.2]
    simp [SynchOp.takes, SynchOp.releases]

variable {fresh ok : Bool} {c : SynchOp ℓ σ κ}

theorem call_holder_other (hs : s.HeldOk) (hr : ∀ l ∈ c.releases fresh, s.holder l = some t)
    (h : s.call t fresh c = some (ok, s')) {u : ι} (hu : u ≠ t) (l : ℓ) :
    s'.holder l = some u ↔ s.holder l = some u := by
  obtain ⟨hfree, hh⟩ := call_holder hs h
  rw [hh l]
  split_ifs with h₁ h₂
  · rw [hs.holder_eq_none (hfree l h₁)]
    simp [Ne.symm hu]
  · rw [hr l h₂]
    simp [Ne.symm hu]
  · rfl

theorem call_held (hs : s.HeldOk) (h : s.call t fresh c = some (ok, s')) (l : ℓ) :
    s'.held l = if l ∈ c.takes fresh ok then true
      else if l ∈ c.releases fresh then false else s.held l := by
  apply Bool.eq_iff_iff.2
  rw [call_heldOk hs h l, (call_holder hs h).2 l]
  split_ifs <;> simp [hs l]

/-! ### Sleepers on locks -/

theorem SleepersHeld.of_sub (h : s.SleepersHeld) (hs : ∀ x ∈ s'.sleepers, x ∈ s.sleepers)
    (hh : ∀ l, s.held l = true → s'.held l = true) : s'.SleepersHeld :=
  fun u l hm => hh l (h u l (hs _ hm))

theorem SleepersHeld.threadSleep (h : s.SleepersHeld) {a : Chan ℓ σ κ}
    (ha : ∀ l, a = .lock l → s.held l = true) : (s.threadSleep t a).SleepersHeld := by
  intro u l hm
  rw [threadSleep_sleepers, List.mem_append, List.mem_singleton, Prod.mk.injEq] at hm
  rcases hm with hm | ⟨-, rfl⟩
  · exact h u l hm
  · exact ha l rfl

theorem SleepersHeld.take (h : s.SleepersHeld) (t : ι) (l : ℓ) : (s.take t l).SleepersHeld := by
  refine h.of_sub (fun _ hm => hm) fun l' hl => ?_
  by_cases hl' : l' = l
  · simp [hl']
  · simpa [Function.update_of_ne hl'] using hl

theorem SleepersHeld.lockRelease (h : s.SleepersHeld) (l : ℓ) : (s.lockRelease l).SleepersHeld := by
  intro u l' hm
  simp only [Synch.lockRelease, drop_sleepers, threadWakeup_sleepers, List.mem_filter, ne_eq,
    decide_eq_true_eq, Chan.lock.injEq] at hm
  simpa [Synch.lockRelease, Function.update_of_ne hm.2] using h u l' hm.1

/-- No thread is left asleep on a free lock, as long as the two locks of `lock_acquire_two`
differ. -/
theorem call_sleepersHeld (hs : s.HeldOk) (hsl : s.SleepersHeld) (hd : c.takesMany.Nodup)
    (h : s.call t fresh c = some (ok, s')) : s'.SleepersHeld := by
  cases c with
  | acquire l =>
    rw [call, Option.some.injEq] at h
    cases ok
    · rcases lockAcquire_false h with ⟨hl, rfl⟩
      exact hsl.threadSleep fun _ h => Chan.lock.inj h ▸ hl
    · rcases lockAcquire_true h with ⟨-, rfl⟩
      exact hsl.take t l
  | acquireTwo l₁ l₂ =>
    rw [call, Option.some.injEq] at h
    cases ok
    · have hne : l₁ ≠ l₂ := by simpa [SynchOp.takesMany] using hd
      rcases lockAcquireTwo_false h with ⟨h₁, rfl⟩ | ⟨-, h₂, rfl⟩
      · exact hsl.threadSleep fun _ h => Chan.lock.inj h ▸ h₁
      · have hb := (lockAcquireTwo_false_locks hs h).1
        simp only [threadSleep_held] at hb
        have hsl' : ((s.take t l₁).drop l₁).SleepersHeld := fun u l hm => by
          rw [hb]
          exact hsl u l hm
        refine hsl'.threadSleep fun _ h => ?_
        rw [← Chan.lock.inj h, hb]
        simpa [Function.update_of_ne hne.symm] using h₂
    · rcases lockAcquireTwo_true h with ⟨-, -, -, rfl⟩
      exact (hsl.take t l₁).take t l₂
  | acquireThree l₁ l₂ l₃ =>
    rw [call, Option.some.injEq] at h
    cases ok
    · rcases lockAcquireThree_false h with ⟨l, -, hl, rfl⟩
      exact hsl.threadSleep fun _ h => Chan.lock.inj h ▸ hl
    · rcases lockAcquireThree_true h with ⟨-, -, -, rfl⟩
      exact ((hsl.take t l₁).take t l₂).take t l₃
  | release l =>
    rw [call, Option.some.injEq, Prod.mk.injEq] at h
    rw [← h.2]
    exact hsl.lockRelease l
  | releaseTwo l₁ l₂ =>
    rw [call, Option.some.injEq, Prod.mk.injEq] at h
    rw [← h.2]
    intro u l hm
    simp only [lockReleaseTwo, threadWakeup_sleepers, drop_sleepers, List.mem_filter, ne_eq,
      decide_eq_true_eq, Chan.lock.injEq] at hm
    simpa [lockReleaseTwo, Function.update_of_ne hm.1.2, Function.update_of_ne hm.2] using
      hsl u l hm.1.1
  | releaseThree l₁ l₂ l₃ =>
    rw [call, Option.some.injEq, Prod.mk.injEq] at h
    rw [← h.2]
    intro u l hm
    simp only [lockReleaseThree, threadWakeup_sleepers, drop_sleepers, List.mem_filter, ne_eq,
      decide_eq_true_eq, Chan.lock.injEq] at hm
    simpa [lockReleaseThree, Function.update_of_ne hm.1.1.2, Function.update_of_ne hm.1.2,
      Function.update_of_ne hm.2] using hsl u l hm.1.1.1
  | cvWait c l =>
    cases fresh
    · rw [call, if_neg Bool.false_ne_true, Option.some.injEq] at h
      cases ok
      · rcases lockAcquire_false h with ⟨hl, rfl⟩
        exact hsl.threadSleep fun _ h => Chan.lock.inj h ▸ hl
      · rcases lockAcquire_true h with ⟨-, rfl⟩
        exact hsl.take t l
    · rw [call, if_pos rfl, Option.some.injEq, Prod.mk.injEq] at h
      rw [← h.2]
      exact (hsl.lockRelease l).threadSleep fun _ h => nomatch h
  | cvSignal c =>
    rw [call, Option.some.injEq, Prod.mk.injEq] at h
    rw [← h.2]
    unfold cvSignal
    split_ifs
    · exact hsl.of_sub (fun _ hm => (threadWakeupSingle_sleepers_sublist s _).subset hm)
        fun l hl => by rwa [threadWakeupSingle_held]
    · exact hsl
  | cvBroadcast c =>
    rw [call, Option.some.injEq, Prod.mk.injEq] at h
    rw [← h.2]
    exact hsl.of_sub (fun _ hm => (List.mem_filter.1 hm).1) fun _ hl => hl
  | P sem =>
    rw [call] at h
    cases ok
    · rcases P_false h with ⟨-, rfl⟩
      exact hsl.threadSleep fun _ h => nomatch h
    · rcases P_true h with ⟨-, rfl⟩
      exact hsl
  | V sem =>
    rw [call] at h
    rcases Option.map_eq_some_iff.1 h with ⟨s₁, hv, hs₁⟩
    rw [Prod.mk.injEq] at hs₁
    rcases V_eq_some hv with ⟨-, -, rfl⟩
    rw [← hs₁.2]
    exact hsl.of_sub (fun _ hm => (List.mem_filter.1 hm).1) fun _ hl => hl

/-! ### Semaphores -/

/-- Between `s` and `s'` no semaphore changes and no thread starts sleeping on one. -/
structure SemFrame (s s' : Synch ι ℓ σ κ) : Prop where
  count : s'.count = s.count
  sleepers : ∀ x sem, (x, Chan.sem sem) ∈ s'.sleepers → (x, Chan.sem sem) ∈ s.sleepers

theorem SemFrame.of_sub (hc : s'.count = s.count) (hs : ∀ x ∈ s'.sleepers, x ∈ s.sleepers) :
    SemFrame s s' :=
  ⟨hc, fun x sem => hs (x, .sem sem)⟩

theorem SemFrame.threadSleep (hf : SemFrame s s') {a : Chan ℓ σ κ} (ha : ∀ sem, a ≠ .sem sem) :
    SemFrame s (s'.threadSleep t a) := by
  refine ⟨hf.count, fun x sem hm => ?_⟩
  rw [threadSleep_sleepers, List.mem_append, List.mem_singleton, Prod.mk.injEq] at hm
  rcases hm with hm | ⟨-, h⟩
  · exact hf.sleepers x sem hm
  · exact absurd h.symm (ha sem)

theorem SemFrame.lockAcquire (l : ℓ) : SemFrame s (s.lockAcquire t l).2 := by
  unfold Synch.lockAcquire
  split_ifs
  · exact (SemFrame.of_sub rfl fun _ h => h).threadSleep fun _ h => nomatch h
  · exact .of_sub rfl fun _ h => h

theorem SemFrame.threadWakeup (a : Chan ℓ σ κ) : SemFrame s (s.threadWakeup a) :=
  .of_sub rfl fun _ hm => (List.mem_filter.1 hm).1

theorem SemFrame.lockRelease (l : ℓ) : SemFrame s (s.lockRelease l) :=
  .of_sub rfl fun _ hm => (List.mem_filter.1 hm).1

theorem call_semFrame (hP : ∀ sem, c ≠ .P sem) (hV : ∀ sem, c ≠ .V sem)
    (h : s.call t fresh c = some (ok, s')) : SemFrame s s' := by
  cases c with
  | acquire l =>
    rw [call, Option.some.injEq] at h
    obtain rfl : s' = _ := (congrArg Prod.snd h).symm
    exact .lockAcquire l
  | acquireTwo l₁ l₂ =>
    rw [call, Option.some.injEq] at h
    obtain rfl : s' = _ := (congrArg Prod.snd h).symm
    unfold lockAcquireTwo
    dsimp only
    split_ifs <;> dsimp only
    · have hf : SemFrame s ((s.take t l₁).drop l₁) := .of_sub rfl fun _ h => h
      exact hf.threadSleep fun _ h => nomatch h
    · exact .of_sub rfl fun _ h => h
    · exact (SemFrame.of_sub rfl fun _ h => h).threadSleep fun _ h => nomatch h
  | acquireThree l₁ l₂ l₃ =>
    rw [call, Option.some.injEq] at h
    obtain rfl : s' = _ := (congrArg Prod.snd h).symm
    unfold lockAcquireThree
    split_ifs
    all_goals first
      | exact .of_sub rfl fun _ h => h
      | exact (SemFrame.of_sub rfl fun _ h => h).threadSleep fun _ h => nomatch h
  | release l =>
    rw [call, Option.some.injEq, Prod.mk.injEq] at h
    rw [← h.2]
    exact .lockRelease l
  | releaseTwo l₁ l₂ =>
    rw [call, Option.some.injEq, Prod.mk.injEq] at h
    rw [← h.2]
    exact .of_sub rfl fun _ hm => by
      simp only [lockReleaseTwo, threadWakeup_sleepers, drop_sleepers, List.mem_filter] at hm
      exact hm.1.1
  | releaseThree l₁ l₂ l₃ =>
    rw [call, Option.some.injEq, Prod.mk.injEq] at h
    rw [← h.2]
    exact .of_sub rfl fun _ hm => by
      simp only [lockReleaseThree, threadWakeup_sleepers, drop_sleepers, List.mem_filter] at hm
      exact hm.1.1.1
  | cvWait c l =>
    unfold call at h
    split_ifs at h
    · rw [Option.some.injEq, Prod.mk.injEq] at h
      rw [← h.2]
      exact (SemFrame.lockRelease l).threadSleep fun _ h => nomatch h
    · rw [Option.some.injEq] at h
      obtain rfl : s' = _ := (congrArg Prod.snd h).symm
      exact .lockAcquire l
  | cvSignal c =>
    rw [call, Option.some.injEq, Prod.mk.injEq] at h
    rw [← h.2]
    unfold cvSignal
    split_ifs
    · exact .of_sub (threadWakeupSingle_count _ _)
        fun _ hm => (threadWakeupSingle_sleepers_sublist s _).subset hm
    · exact .of_sub rfl fun _ h => h
  | cvBroadcast c =>
    rw [call, Option.some.injEq, Prod.mk.injEq] at h
    rw [← h.2]
    exact .threadWakeup _
  | P sem => exact absurd rfl (hP sem)
  | V sem => exact absurd rfl (hV sem)

/-! ### The sleep queue and the counts -/

theorem mem_threadSleep {a : Chan ℓ σ κ} {x : ι × Chan ℓ σ κ}
    (hx : x ∈ (s.threadSleep t a).sleepers) : x ∈ s.sleepers ∨ x = (t, a) := by
  simpa using hx

theorem mem_threadWakeup {a : Chan ℓ σ κ} {x : ι × Chan ℓ σ κ}
    (hx : x ∈ (s.threadWakeup a).sleepers) : x ∈ s.sleepers ∧ x.2 ≠ a := by
  simpa using hx

theorem call_sleepers (h : s.call t fresh c = some (ok, s')) {x : ι × Chan ℓ σ κ}
    (hx : x ∈ s'.sleepers) : x ∈ s.sleepers ∨ (ok = false ∧ x.1 = t ∧ x.2 ∈ c.chans) := by
  have hsleep : ∀ {s₁ : Synch ι ℓ σ κ} {a : Chan ℓ σ κ}, (∀ y ∈ s₁.sleepers, y ∈ s.sleepers) →
      ok = false → a ∈ c.chans → x ∈ (s₁.threadSleep t a).sleepers →
        x ∈ s.sleepers ∨ (ok = false ∧ x.1 = t ∧ x.2 ∈ c.chans) := fun hs₁ hok ha hx => by
    rcases mem_threadSleep hx with hx | rfl
    · exact .inl (hs₁ _ hx)
    · exact .inr ⟨hok, rfl, ha⟩
  have hwake : ∀ a : Chan ℓ σ κ, x ∈ (s.threadWakeup a).sleepers → x ∈ s.sleepers :=
    fun a hx => (mem_threadWakeup hx).1
  cases c with
  | acquire l =>
    rw [call, Option.some.injEq] at h
    cases ok
    · rcases lockAcquire_false h with ⟨-, rfl⟩
      exact hsleep (fun _ hy => hy) rfl (by simp [SynchOp.chans]) hx
    · rcases lockAcquire_true h with ⟨-, rfl⟩
      exact .inl hx
  | acquireTwo l₁ l₂ =>
    rw [call, Option.some.injEq] at h
    cases ok
    · rcases lockAcquireTwo_false h with ⟨-, rfl⟩ | ⟨-, -, rfl⟩
      · exact hsleep (fun _ hy => hy) rfl (by simp [SynchOp.chans]) hx
      · exact hsleep (fun _ hy => hy) rfl (by simp [SynchOp.chans]) hx
    · rcases lockAcquireTwo_true h with ⟨-, -, -, rfl⟩
      exact .inl hx
  | acquireThree l₁ l₂ l₃ =>
    rw [call, Option.some.injEq] at h
    cases ok
    · rcases lockAcquireThree_false h with ⟨l, hl, -, rfl⟩
      exact hsleep (fun _ hy => hy) rfl (by simpa [SynchOp.chans] using hl) hx
    · rcases lockAcquireThree_true h with ⟨-, -, -, rfl⟩
      exact .inl hx
  | release l =>
    rw [call, Option.some.injEq, Prod.mk.injEq] at h
    rw [← h.2] at hx
    exact .inl (hwake _ hx)
  | releaseTwo l₁ l₂ =>
    rw [call, Option.some.injEq, Prod.mk.injEq] at h
    rw [← h.2] at hx
    simp only [lockReleaseTwo, threadWakeup_sleepers, drop_sleepers, List.mem_filter] at hx
    exact .inl hx.1.1
  | releaseThree l₁ l₂ l₃ =>
    rw [call, Option.some.injEq, Prod.mk.injEq] at h
    rw [← h.2] at hx
    simp only [lockReleaseThree, threadWakeup_sleepers, drop_sleepers, List.mem_filter] at hx
    exact .inl hx.1.1.1
  | cvWait c l =>
    unfold call at h
    split_ifs at h
    · rw [Option.some.injEq, Prod.mk.injEq] at h
      rw [← h.2] at hx
      exact hsleep (fun _ hy => (mem_threadWakeup hy).1) h.1.symm (by simp [SynchOp.chans]) hx
    · rw [Option.some.injEq] at h
      cases ok
      · rcases lockAcquire_false h with ⟨-, rfl⟩
        exact hsleep (fun _ hy => hy) rfl (by simp [SynchOp.chans]) hx
      · rcases lockAcquire_true h with ⟨-, rfl⟩
        exact .inl hx
  | cvSignal c =>
    rw [call, Option.some.injEq, Prod.mk.injEq] at h
    rw [← h.2] at hx
    unfold cvSignal at hx
    split_ifs at hx
    · exact .inl ((threadWakeupSingle_sleepers_sublist s _).subset hx)
    · exact .inl hx
  | cvBroadcast c =>
    rw [call, Option.some.injEq, Prod.mk.injEq] at h
    rw [← h.2] at hx
    exact .inl (hwake _ hx)
  | P sem =>
    rw [call] at h
    cases ok
    · rcases P_false h with ⟨-, rfl⟩
      exact hsleep (fun _ hy => hy) rfl (by simp [SynchOp.chans]) hx
    · rcases P_true h with ⟨-, rfl⟩
      exact .inl hx
  | V sem =>
    rw [call] at h
    rcases Option.map_eq_some_iff.1 h with ⟨s₁, hv, hs₁⟩
    rw [Prod.mk.injEq] at hs₁
    rcases V_eq_some hv with ⟨-, -, rfl⟩
    rw [← hs₁.2] at hx
    exact .inl (hwake _ hx)

theorem call_count (h : s.call t fresh c = some (ok, s')) (sem : σ) :
    s'.count sem = s.count sem - (if c = .P sem ∧ ok = true then 1 else 0) +
      (if c = .V sem then 1 else 0) := by
  by_cases hP : ∃ sem₀, c = .P sem₀
  · obtain ⟨sem₀, rfl⟩ := hP
    rw [call] at h
    cases ok
    · rcases P_false h with ⟨-, rfl⟩
      simp
    · rcases P_true h with ⟨-, rfl⟩
      by_cases hs : sem = sem₀
      · subst hs
        simp
      · simp [Function.update_of_ne hs, Ne.symm hs]
  by_cases hV : ∃ sem₀, c = .V sem₀
  · obtain ⟨sem₀, rfl⟩ := hV
    rw [call] at h
    rcases Option.map_eq_some_iff.1 h with ⟨s₁, hv, hs₁⟩
    rw [Prod.mk.injEq] at hs₁
    rcases V_eq_some hv with ⟨-, -, rfl⟩
    rw [← hs₁.2]
    by_cases hs : sem = sem₀
    · subst hs
      simp
    · simp [Function.update_of_ne hs, Ne.symm hs]
  have hf := call_semFrame (fun sem h => hP ⟨sem, h⟩) (fun sem h => hV ⟨sem, h⟩) h
  rw [hf.count, if_neg fun h' => hP ⟨sem, h'.1⟩, if_neg fun h' => hV ⟨sem, h'⟩]
  simp

theorem call_count_nonneg (h : s.call t fresh c = some (ok, s')) {sem : σ}
    (hs : 0 ≤ s.count sem) : 0 ≤ s'.count sem := by
  rw [call_count h]
  split_ifs with hP hV
  · obtain ⟨rfl, rfl⟩ := hP
    exact absurd hV (by simp)
  · obtain ⟨rfl, rfl⟩ := hP
    rw [call] at h
    have := (P_true h).1
    omega
  all_goals omega

/-- Nobody is asleep on a semaphore whose count is positive. -/
def SemsAwake (s : Synch ι ℓ σ κ) : Prop :=
  ∀ sem, 0 < s.count sem → ∀ u, (u, Chan.sem sem) ∉ s.sleepers

theorem call_semsAwake (hs : s.SemsAwake) (h : s.call t fresh c = some (ok, s')) :
    s'.SemsAwake := by
  intro sem hpos u hu
  by_cases hV : c = .V sem
  · subst hV
    rw [call] at h
    rcases Option.map_eq_some_iff.1 h with ⟨s₁, hv, hs₁⟩
    rw [Prod.mk.injEq] at hs₁
    rcases V_eq_some hv with ⟨-, -, rfl⟩
    rw [← hs₁.2] at hu
    exact (mem_threadWakeup hu).2 rfl
  rw [call_count h, if_neg hV] at hpos
  rcases call_sleepers h hu with hu | ⟨hok, -, hc⟩
  · split_ifs at hpos
    all_goals exact hs sem (by omega) u hu
  · obtain rfl : c = .P sem := by
      cases c <;> simp [SynchOp.chans] at hc
      rw [hc]
    subst hok
    rcases P_false h with ⟨h0, -⟩
    simp only [Bool.false_eq_true, and_false, if_false] at hpos
    omega

end Synch

end Os161
