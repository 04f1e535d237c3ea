import Mathlib.Data.Option.Basic
import Os161.Synch.Calls
import Os161.Lib.Sys

/-!
# Threads calling into `synch.c`

The threads of a uniprocessor, each inside at most one call of `synch.c` at a time. Any thread
that is not asleep may run next, since a timer interrupt may switch threads anywhere outside the
interrupts-off stretch of a call. A thread either starts a call or, woken, runs the call it slept
in again (`World.step`).

Beside the state of `synch.c` a world keeps two records that no function reads: the locks each
thread is between a returning acquire and its release (`inside`), and the `P`s and `V`s each
semaphore has completed.

Semaphores: from a count `k ≥ 0`, under any interleaving, the count stays nonnegative, the
completed `P`s are `k` plus the completed `V`s less the count, and no thread is asleep in `P`
while the count is positive (`sem_accounting`).

Locks: `lock_acquire_two(l, l)` takes `l` and gives it back to sleep on it, free
(`acquireTwo_same_lock_sleeps_free`). When a thread releases only locks it holds and calls
`lock_acquire_two` and `lock_acquire_three` on distinct locks it does not hold, `held` and
`holder` agree, the holder is the one thread between an acquire and its release, a thread
blocked in a multi-lock acquire holds none of its locks, and nobody sleeps on a free lock
(`locks_safe`).
-/

namespace Os161

/-- The threads `ι` calling into `synch.c`, with what their calls have done so far. -/
structure World (ι ℓ σ κ : Type) where
  synch : Synch ι ℓ σ κ
  /-- the call each thread is in, which it runs again once woken -/
  pending : ι → Option (SynchOp ℓ σ κ)
  /-- the locks each thread is between a returning acquire and its release -/
  inside : ι → ℓ → Bool
  /-- the completed `P`s of each semaphore -/
  doneP : σ → Nat
  /-- the completed `V`s of each semaphore -/
  doneV : σ → Nat

namespace World

set_option linter.unusedSectionVars false

variable {ι ℓ σ κ : Type} [DecidableEq ι] [DecidableEq ℓ] [DecidableEq σ] [DecidableEq κ]

/-- No lock held, nobody asleep, and semaphore `sem` created with count `k sem`. -/
def init (k : σ → Int) : World ι ℓ σ κ where
  synch := { held := fun _ => false, holder := fun _ => none, count := k, sleepers := [] }
  pending _ := none
  inside _ _ := false
  doneP _ := 0
  doneV _ := 0

/-- `t` is not asleep. -/
def runnable (w : World ι ℓ σ κ) (t : ι) : Bool := w.synch.sleepers.all (·.1 ≠ t)

/-- The world after `t`'s run of `c`, on entry (`fresh`) or not, returned (`ok`) or not and left
`s`. -/
def afterRun (w : World ι ℓ σ κ) (t : ι) (c : SynchOp ℓ σ κ) (fresh ok : Bool)
    (s : Synch ι ℓ σ κ) : World ι ℓ σ κ where
  synch := s
  pending := Function.update w.pending t (if ok then none else some c)
  inside := Function.update w.inside t fun l =>
    if l ∈ c.takes fresh ok then true else if l ∈ c.releases fresh then false else w.inside t l
  doneP sem := if c = .P sem ∧ ok = true then w.doneP sem + 1 else w.doneP sem
  doneV sem := if c = .V sem then w.doneV sem + 1 else w.doneV sem

/-- `t` runs `c`: it starts it, or runs again the call it is in. -/
def step (w : World ι ℓ σ κ) (t : ι) (c : SynchOp ℓ σ κ) : Option (World ι ℓ σ κ) := do
  guard (w.runnable t)
  guard (w.pending t = none ∨ w.pending t = some c)
  let (ok, s) ← w.synch.call t (w.pending t).isNone c
  pure (w.afterRun t c (w.pending t).isNone ok s)

/-- `t` releases, and waits with, only locks it holds. -/
def ReleasesHeld (w : World ι ℓ σ κ) (t : ι) (c : SynchOp ℓ σ κ) : Prop :=
  ∀ l ∈ c.releases (w.pending t).isNone, w.synch.holder l = some t

/-- `t` calls `lock_acquire_two` and `lock_acquire_three` on distinct locks it does not hold. -/
def TakesFree (w : World ι ℓ σ κ) (t : ι) (c : SynchOp ℓ σ κ) : Prop :=
  c.takesMany.Nodup ∧ ((w.pending t).isNone = true → ∀ l ∈ c.takesMany, w.synch.holder l ≠ some t)

instance (w : World ι ℓ σ κ) (t : ι) (c : SynchOp ℓ σ κ) : Decidable (w.ReleasesHeld t c) :=
  inferInstanceAs (Decidable (∀ l ∈ _, _))

instance (w : World ι ℓ σ κ) (t : ι) (c : SynchOp ℓ σ κ) : Decidable (w.TakesFree t c) :=
  inferInstanceAs (Decidable (_ ∧ _))

/-- A step that `A` allows. -/
def stepIf (A : World ι ℓ σ κ → ι → SynchOp ℓ σ κ → Prop) [∀ w t c, Decidable (A w t c)]
    (w : World ι ℓ σ κ) (t : ι) (c : SynchOp ℓ σ κ) : Option (World ι ℓ σ κ) :=
  if A w t c then w.step t c else none

/-- The worlds reached from `init k` by steps that `A` allows. -/
def Reachable (A : World ι ℓ σ κ → ι → SynchOp ℓ σ κ → Prop) [∀ w t c, Decidable (A w t c)]
    (k : σ → Int) (w : World ι ℓ σ κ) : Prop :=
  Sys.Reach (· = init k) (fun (tc : ι × SynchOp ℓ σ κ) w w' => w.stepIf A tc.1 tc.2 = some w') w

section Simp

variable (w : World ι ℓ σ κ) (t : ι) (c : SynchOp ℓ σ κ) (fresh ok : Bool) (s : Synch ι ℓ σ κ)

@[simp] theorem afterRun_synch : (w.afterRun t c fresh ok s).synch = s := rfl
@[simp] theorem afterRun_pending :
    (w.afterRun t c fresh ok s).pending = Function.update w.pending t (if ok then none else some c) :=
  rfl
@[simp] theorem afterRun_doneP (sem : σ) :
    (w.afterRun t c fresh ok s).doneP sem =
      if c = .P sem ∧ ok = true then w.doneP sem + 1 else w.doneP sem := rfl
@[simp] theorem afterRun_doneV (sem : σ) :
    (w.afterRun t c fresh ok s).doneV sem = if c = .V sem then w.doneV sem + 1 else w.doneV sem :=
  rfl

end Simp

variable {w w' : World ι ℓ σ κ} {t : ι} {c : SynchOp ℓ σ κ}

theorem afterRun_inside (fresh ok : Bool) (s : Synch ι ℓ σ κ) (u : ι) (l : ℓ) :
    (w.afterRun t c fresh ok s).inside u l = if u = t then
      (if l ∈ c.takes fresh ok then true else if l ∈ c.releases fresh then false else w.inside t l)
      else w.inside u l := by
  by_cases hu : u = t
  · subst hu
    simp [afterRun]
  · simp [afterRun, hu]

theorem step_eq_some (h : w.step t c = some w') :
    w.runnable t = true ∧ (w.pending t = none ∨ w.pending t = some c) ∧
      ∃ ok s, w.synch.call t (w.pending t).isNone c = some (ok, s) ∧
        w' = w.afterRun t c (w.pending t).isNone ok s := by
  unfold step at h
  simp only [bind, Option.bind_eq_some_iff, Option.guard_eq_some', exists_const] at h
  rcases h with ⟨hr, hp, ⟨ok, s⟩, hc, h⟩
  rw [Option.pure_def, Option.some.injEq] at h
  exact ⟨hr, hp, ok, s, hc, h.symm⟩

theorem stepIf_eq_some {A : World ι ℓ σ κ → ι → SynchOp ℓ σ κ → Prop} [∀ w t c, Decidable (A w t c)]
    (h : w.stepIf A t c = some w') : A w t c ∧ w.step t c = some w' := by
  unfold stepIf at h
  split_ifs at h with hA
  exact ⟨hA, h⟩

/-! ### Semaphores -/

/-- The accounting of semaphore `sem`, created with count `k`. -/
structure SemOk (k : Int) (sem : σ) (w : World ι ℓ σ κ) : Prop where
  count_nonneg : 0 ≤ w.synch.count sem
  done : (w.doneP sem : Int) = k + w.doneV sem - w.synch.count sem
  no_sleeper : 0 < w.synch.count sem → ∀ t, (t, Chan.sem sem) ∉ w.synch.sleepers

variable {k : Int} {sem : σ} {fresh ok : Bool} {s : Synch ι ℓ σ κ}

theorem SemOk.init {k : σ → Int} (hk : 0 ≤ k sem) : (init k : World ι ℓ σ κ).SemOk (k sem) sem :=
  ⟨hk, by simp [World.init], fun _ _ h => by simp [World.init] at h⟩

theorem SemOk.afterRun_frame (hw : w.SemOk k sem) (hf : w.synch.SemFrame s)
    (hP : ∀ sem, c ≠ .P sem) (hV : ∀ sem, c ≠ .V sem) :
    (w.afterRun t c fresh ok s).SemOk k sem := by
  refine ⟨?_, ?_, fun hpos x hx => ?_⟩
  · simpa [hf.count] using hw.count_nonneg
  · simpa [hP, hV, hf.count] using hw.done
  · rw [afterRun_synch, hf.count] at hpos
    exact hw.no_sleeper hpos x (hf.sleepers x sem hx)

theorem SemOk.afterRun_P {sem₀ : σ} (hw : w.SemOk k sem)
    (hc : w.synch.call t fresh (.P sem₀) = some (ok, s)) :
    (w.afterRun t (.P sem₀) fresh ok s).SemOk k sem := by
  rw [Synch.call] at hc
  cases ok
  · obtain ⟨h₀, rfl⟩ := Synch.P_false hc
    refine ⟨by simpa using hw.count_nonneg, by simpa using hw.done, fun hpos x hx => ?_⟩
    simp only [afterRun_synch, Synch.threadSleep_count, Synch.threadSleep_sleepers,
      List.mem_append, List.mem_singleton, Prod.mk.injEq, Chan.sem.injEq] at hpos hx
    rcases hx with hx | ⟨-, rfl⟩
    · exact hw.no_sleeper hpos x hx
    · omega
  · obtain ⟨h₀, rfl⟩ := Synch.P_true hc
    by_cases hs : sem = sem₀
    · subst hs
      have := hw.done
      refine ⟨by simp; omega, by simp; omega, fun hpos x hx => ?_⟩
      simp only [afterRun_synch, Function.update_self] at hpos
      exact hw.no_sleeper (by omega) x hx
    · refine ⟨by simpa [hs] using hw.count_nonneg, by simpa [hs, Ne.symm hs] using hw.done,
        fun hpos x hx => ?_⟩
      simp only [afterRun_synch, Function.update_of_ne hs] at hpos
      exact hw.no_sleeper hpos x hx

theorem SemOk.afterRun_V {sem₀ : σ} (hw : w.SemOk k sem)
    (hc : w.synch.call t fresh (.V sem₀) = some (ok, s)) :
    (w.afterRun t (.V sem₀) fresh ok s).SemOk k sem := by
  rw [Synch.call] at hc
  obtain ⟨s₁, hv, hs₁⟩ := Option.map_eq_some_iff.1 hc
  rw [Prod.mk.injEq] at hs₁
  obtain ⟨rfl, rfl⟩ := hs₁
  obtain ⟨-, -, rfl⟩ := Synch.V_eq_some hv
  by_cases hs : sem = sem₀
  · subst hs
    have := hw.done
    have := hw.count_nonneg
    refine ⟨by simp; omega, by simp; omega, fun _ x hx => ?_⟩
    simp at hx
  · refine ⟨by simpa [hs] using hw.count_nonneg, by simpa [hs, Ne.symm hs] using hw.done,
      fun hpos x hx => ?_⟩
    simp only [afterRun_synch, Synch.threadWakeup_count, Function.update_of_ne hs] at hpos
    exact hw.no_sleeper hpos x (List.mem_filter.1 hx).1

theorem SemOk.step (hw : w.SemOk k sem) (h : w.step t c = some w') : w'.SemOk k sem := by
  obtain ⟨-, -, ok, s, hc, rfl⟩ := step_eq_some h
  cases c
  case P sem₀ => exact hw.afterRun_P hc
  case V sem₀ => exact hw.afterRun_V hc
  all_goals exact hw.afterRun_frame (Synch.call_semFrame (by simp) (by simp) hc) (by simp) (by simp)

/-- From count `k ≥ 0`, over every interleaving of the threads' calls: the count stays
nonnegative, the completed `P`s are `k` and the completed `V`s less the count, and while the
count is positive nobody is asleep on the semaphore. -/
theorem sem_accounting {k : σ → Int} (hk : 0 ≤ k sem) {w : World ι ℓ σ κ}
    (h : w.Reachable (fun _ _ _ => True) k) :
    0 ≤ w.synch.count sem ∧ (w.doneP sem : Int) = k sem + w.doneV sem - w.synch.count sem ∧
      (0 < w.synch.count sem → ∀ t, (t, Chan.sem sem) ∉ w.synch.sleepers) := by
  have hw : w.SemOk (k sem) sem := Sys.Reach.induct_inv (fun _ h => h ▸ SemOk.init hk)
    (fun _ _ _ hw hs => hw.step (stepIf_eq_some hs).2) h
  exact ⟨hw.count_nonneg, hw.done, hw.no_sleeper⟩

/-! ### Locks -/

/-- The locks of one world are safe: `held` and `holder` agree, the holder of a
lock is the thread between an acquire of it and its release, nobody sleeps on a free lock, and a
thread blocked in `lock_acquire_two` or `lock_acquire_three` holds none of their locks. -/
structure LocksSafe (w : World ι ℓ σ κ) : Prop where
  held_iff : w.synch.HeldOk
  holder_iff : ∀ t l, w.synch.holder l = some t ↔ w.inside t l = true
  sleepers_held : w.synch.SleepersHeld
  blocked_free : ∀ t c, w.pending t = some c → ∀ l ∈ c.takesMany, w.synch.holder l ≠ some t

theorem LocksSafe.init {k : σ → Int} : (init k : World ι ℓ σ κ).LocksSafe :=
  ⟨fun _ => by simp [World.init], fun _ _ => by simp [World.init],
    fun _ _ h => by simp [World.init] at h, fun _ _ h => by simp [World.init] at h⟩

theorem LocksSafe.step (hw : w.LocksSafe) (hr : w.ReleasesHeld t c) (hf : w.TakesFree t c)
    (h : w.step t c = some w') : w'.LocksSafe := by
  obtain ⟨-, hp, ok, s, hc, rfl⟩ := step_eq_some h
  have hh := (Synch.call_holder hw.held_iff hc).2
  refine ⟨Synch.call_heldOk hw.held_iff hc, fun u l => ?_,
    Synch.call_sleepersHeld hw.held_iff hw.sleepers_held hf.1 hc, fun u c' hu l hl => ?_⟩
  · rw [afterRun_inside, afterRun_synch]
    by_cases hut : u = t
    · subst hut
      rw [if_pos rfl, hh l]
      split_ifs <;> simp [hw.holder_iff]
    · rw [if_neg hut, Synch.call_holder_other hw.held_iff hr hc hut l]
      exact hw.holder_iff u l
  · rw [afterRun_synch]
    by_cases hut : u = t
    · subst hut
      simp only [afterRun_pending, Function.update_self] at hu
      split_ifs at hu with hok
      obtain rfl := Option.some.inj hu
      obtain ⟨htk, hrl⟩ := SynchOp.takes_releases_of_mem_takesMany hl (w.pending u).isNone
      rw [Bool.not_eq_true] at hok
      subst hok
      rw [hh l, htk, hrl]
      simp only [List.not_mem_nil, if_false]
      rcases hp with hp | hp
      · exact hf.2 (by simp [hp]) l hl
      · exact hw.blocked_free u c hp l hl
    · simp only [afterRun_pending, Function.update_of_ne hut] at hu
      rw [Ne, Synch.call_holder_other hw.held_iff hr hc hut l]
      exact hw.blocked_free u c' hu l hl

/-- What `cv_wait`, `cv_signal` and `cv_broadcast` do from a world: `cv_wait` frees its lock
and puts its caller to sleep on the condition variable in one step, a broadcast wakes every
sleeper on it and a signal the first, and `cv_wait` returns holding its lock again. -/
structure CvSafe (w : World ι ℓ σ κ) : Prop where
  wait_sleeps : ∀ t cv l w', w.pending t = none → w.step t (.cvWait cv l) = some w' →
    w'.synch.held l = false ∧ w'.synch.holder l = none ∧ (t, Chan.cv cv) ∈ w'.synch.sleepers ∧
      w'.pending t = some (.cvWait cv l)
  broadcast_wakes : ∀ u cv w', w.step u (.cvBroadcast cv) = some w' →
    ∀ t, (t, Chan.cv cv) ∉ w'.synch.sleepers
  signal_wakes_first : ∀ u cv w' t, w.step u (.cvSignal cv) = some w' →
    (t, Chan.cv cv) ∈ w.synch.sleepers → ∃ pre t₀ post,
      w.synch.sleepers = pre ++ (t₀, Chan.cv cv) :: post ∧ (∀ x ∈ pre, x.2 ≠ Chan.cv cv) ∧
        w'.synch.sleepers = pre ++ post
  wait_returns_holding : ∀ t cv l w', w.pending t = some (.cvWait cv l) →
    w.step t (.cvWait cv l) = some w' → w'.pending t = none →
      w'.synch.holder l = some t ∧ w'.inside t l = true

theorem cvSafe (w : World ι ℓ σ κ) : w.CvSafe where
  wait_sleeps t cv l w' hp h := by
    obtain ⟨-, -, ok, s, hc, rfl⟩ := step_eq_some h
    simp only [hp, Option.isNone_none, Synch.call, if_true, Option.some.injEq,
      Prod.mk.injEq] at hc
    obtain ⟨rfl, rfl⟩ := hc
    simp [Synch.cvWait, Synch.lockRelease, hp]
  broadcast_wakes u cv w' h t := by
    obtain ⟨-, -, ok, s, hc, rfl⟩ := step_eq_some h
    simp only [Synch.call, Option.some.injEq, Prod.mk.injEq] at hc
    obtain ⟨rfl, rfl⟩ := hc
    simp [Synch.cvBroadcast]
  signal_wakes_first u cv w' t h hm := by
    obtain ⟨-, -, ok, s, hc, rfl⟩ := step_eq_some h
    simp only [Synch.call, Option.some.injEq, Prod.mk.injEq] at hc
    obtain ⟨rfl, rfl⟩ := hc
    have hs : w.synch.threadHassleepers (.cv cv) = true :=
      List.any_eq_true.2 ⟨_, hm, by simp⟩
    simpa [Synch.cvSignal, hs] using Synch.threadWakeupSingle_sleepers_of_mem hm
  wait_returns_holding t cv l w' hp h hr := by
    obtain ⟨-, -, ok, s, hc, rfl⟩ := step_eq_some h
    simp only [hp, Option.isNone_some, Synch.call, Bool.false_eq_true, if_false,
      Option.some.injEq] at hc
    simp only [afterRun_pending, Function.update_self, ite_eq_left_iff, reduceCtorEq, imp_false,
      Bool.not_eq_true, Bool.not_eq_false] at hr
    subst hr
    obtain ⟨-, rfl⟩ := Synch.lockAcquire_true hc
    simp [afterRun_inside, hp, SynchOp.takes]

/-- When every thread releases only locks it holds and calls `lock_acquire_two` and
`lock_acquire_three` on distinct locks it does not hold, over every interleaving: the locks are
as `LocksSafe` says, at most one thread is between an acquire of a lock and its release, and the
condition variables are as `CvSafe` says. -/
theorem locks_safe {k : σ → Int} {w : World ι ℓ σ κ}
    (h : w.Reachable (fun w t c => w.ReleasesHeld t c ∧ w.TakesFree t c) k) :
    w.LocksSafe ∧ (∀ t t' l, w.inside t l = true → w.inside t' l = true → t = t') ∧ w.CvSafe := by
  have hw : w.LocksSafe := Sys.Reach.induct_inv (fun _ h => h ▸ LocksSafe.init)
    (fun _ _ _ hw hs => hw.step (stepIf_eq_some hs).1.1 (stepIf_eq_some hs).1.2
      (stepIf_eq_some hs).2) h
  refine ⟨hw, fun t t' l ht ht' => ?_, cvSafe w⟩
  have h₁ := (hw.holder_iff t l).2 ht
  rw [(hw.holder_iff t' l).2 ht', Option.some.injEq] at h₁
  exact h₁.symm

end World

/-- Thread 0 calls `lock_acquire_two(l0, l0)`. -/
def sameLockRun : List (Nat × SynchOp Nat Nat Nat) := [(0, .acquireTwo 0 0)]

theorem acquireTwo_same_lock_sleeps_free : ∃ w : World Nat Nat Nat Nat,
    Sys.exec (fun tc w => w.stepIf World.ReleasesHeld tc.1 tc.2) (World.init fun _ => 0)
      sameLockRun = some w ∧ w.Reachable World.ReleasesHeld (fun _ => 0) ∧
    (0, Chan.lock 0) ∈ w.synch.sleepers ∧ w.synch.held 0 = false := by
  have h : (Sys.exec (fun tc w => World.stepIf World.ReleasesHeld w tc.1 tc.2)
      (World.init fun _ => (0 : Int)) sameLockRun).map (fun w : World Nat Nat Nat Nat =>
        (decide ((0, Chan.lock 0) ∈ w.synch.sleepers), w.synch.held 0)) = some (true, false) := by
    decide
  obtain ⟨w, hw, h⟩ := Option.map_eq_some_iff.1 h
  rw [Prod.mk.injEq, decide_eq_true_eq] at h
  exact ⟨w, hw, Sys.Reach.of_exec (Sys.Reach.init rfl) hw, h⟩

/-- Threads 0 and 1 contend for locks 1 and 2 through `lock_acquire_two`. -/
def twoLockRun : List (Nat × SynchOp Nat Nat Nat) :=
  [(0, .acquireTwo 0 1), (1, .acquireTwo 1 2), (0, .releaseTwo 0 1), (1, .acquireTwo 1 2)]

theorem locks_safe_twoLockRun : ∃ w : World Nat Nat Nat Nat,
    Sys.exec (fun tc w => w.stepIf (fun w t c => w.ReleasesHeld t c ∧ w.TakesFree t c) tc.1 tc.2)
      (World.init fun _ => 0) twoLockRun = some w ∧
    w.LocksSafe ∧ (∀ t t' l, w.inside t l = true → w.inside t' l = true → t = t') ∧ w.CvSafe := by
  obtain ⟨w, hw⟩ := Option.isSome_iff_exists.1 (show (Sys.exec (fun tc w =>
    World.stepIf (fun w t c => World.ReleasesHeld w t c ∧ World.TakesFree w t c) w tc.1 tc.2)
    (World.init fun _ => (0 : Int)) twoLockRun).isSome by decide)
  exact ⟨w, hw, World.locks_safe (Sys.Reach.of_exec (Sys.Reach.init rfl) hw)⟩

/-- Two threads share a semaphore of count 1: the second sleeps in `P` until the first's `V`. -/
def semRun : List (Nat × SynchOp Nat Nat Nat) := [(0, .P 0), (1, .P 0), (0, .V 0), (1, .P 0)]

theorem sem_accounting_run : ∃ w : World Nat Nat Nat Nat,
    Sys.exec (fun tc w => w.stepIf (fun _ _ _ => True) tc.1 tc.2) (World.init fun _ => 1) semRun =
      some w ∧
    0 ≤ w.synch.count 0 ∧ (w.doneP 0 : Int) = 1 + w.doneV 0 - w.synch.count 0 ∧
      (0 < w.synch.count 0 → ∀ t, (t, Chan.sem 0) ∉ w.synch.sleepers) := by
  obtain ⟨w, hw⟩ := Option.isSome_iff_exists.1 (show (Sys.exec (fun tc w =>
    World.stepIf (fun _ _ _ => True) w tc.1 tc.2) (World.init fun _ => (1 : Int)) semRun).isSome
    by decide)
  exact ⟨w, hw, World.sem_accounting (by decide) (Sys.Reach.of_exec (Sys.Reach.init rfl) hw)⟩

end Os161
