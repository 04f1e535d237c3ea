import Mathlib

/-!
# Semaphores, locks and condition variables

`kern/thread/synch.c` over the sleep queue of `thread.c`. A semaphore is its `count`, a lock its
`held` flag and its `holder`, and a condition variable has no state of its own: it is the address
threads sleep on. The sleep queue is the list of sleepers with the address each sleeps on, in the
order they went to sleep: `thread_sleep` appends, `thread_wakeup` takes out every sleeper on the
address, `thread_wakeup_single` the first.

Every function here runs with interrupts off, so each is one atomic step until it sleeps. A
function with a `while` loop around `thread_sleep` returns whether it got through (`true`) or
went to sleep (`false`); the sleeper runs the same function again once it is woken, which is what
the loop does.
-/

namespace Os161

/-- A sleep address: a lock, a semaphore or a condition variable. -/
inductive Chan (ℓ σ κ : Type)
  | lock (l : ℓ)
  | sem (s : σ)
  | cv (c : κ)
  deriving DecidableEq, Repr

/-- The synchronisation objects of threads `ι`, locks `ℓ`, semaphores `σ` and condition
variables `κ`, and the sleep queue. -/
structure Synch (ι ℓ σ κ : Type) where
  /-- `lock->held`, which is only ever 0 or 1 -/
  held : ℓ → Bool
  /-- `lock->holder` -/
  holder : ℓ → Option ι
  /-- `sem->count` -/
  count : σ → Int
  /-- the sleepers, each with its `t_sleepaddr` -/
  sleepers : List (ι × Chan ℓ σ κ)

/-- The largest `int`: a `V` past it overflows. -/
def intMax : Int := 2 ^ 31 - 1

namespace Synch

set_option linter.unusedSectionVars false

variable {ι ℓ σ κ : Type} [DecidableEq ℓ] [DecidableEq σ] [DecidableEq κ]

/-- `thread_sleep(addr)` by `t`. -/
def threadSleep (s : Synch ι ℓ σ κ) (t : ι) (addr : Chan ℓ σ κ) : Synch ι ℓ σ κ :=
  { s with sleepers := s.sleepers ++ [(t, addr)] }

/-- `thread_wakeup(addr)`. -/
def threadWakeup (s : Synch ι ℓ σ κ) (addr : Chan ℓ σ κ) : Synch ι ℓ σ κ :=
  { s with sleepers := s.sleepers.filter (·.2 ≠ addr) }

/-- `thread_wakeup_single(addr)`. -/
def threadWakeupSingle (s : Synch ι ℓ σ κ) (addr : Chan ℓ σ κ) : Synch ι ℓ σ κ :=
  match s.sleepers.findIdx? (·.2 = addr) with
  | some i => { s with sleepers := s.sleepers.eraseIdx i }
  | none => s

/-- `thread_hassleepers(addr)`. -/
def threadHassleepers (s : Synch ι ℓ σ κ) (addr : Chan ℓ σ κ) : Bool :=
  s.sleepers.any (·.2 = addr)

/-- `lock->held = 1; lock->holder = curthread`. -/
def take (s : Synch ι ℓ σ κ) (t : ι) (l : ℓ) : Synch ι ℓ σ κ :=
  { s with held := Function.update s.held l true, holder := Function.update s.holder l (some t) }

/-- `lock->held = 0; lock->holder = NULL`. -/
def drop (s : Synch ι ℓ σ κ) (l : ℓ) : Synch ι ℓ σ κ :=
  { s with held := Function.update s.held l false, holder := Function.update s.holder l none }

/-- `P(sem)` by `t`: sleep while the count is 0, then take one; the `assert` after the loop fails
on a negative count. -/
def P (s : Synch ι ℓ σ κ) (t : ι) (sem : σ) : Option (Bool × Synch ι ℓ σ κ) :=
  if s.count sem = 0 then some (false, s.threadSleep t (.sem sem))
  else if 0 < s.count sem then
    some (true, { s with count := Function.update s.count sem (s.count sem - 1) })
  else none

/-- `V(sem)`: one more, past `INT_MAX` an overflow, then `assert(sem->count>0)`, and every
sleeper on the semaphore woken. -/
def V (s : Synch ι ℓ σ κ) (sem : σ) : Option (Synch ι ℓ σ κ) :=
  if s.count sem < intMax ∧ 0 < s.count sem + 1 then
    some ({ s with count := Function.update s.count sem (s.count sem + 1) }.threadWakeup (.sem sem))
  else none

/-- `lock_acquire(lock)` by `t`. -/
def lockAcquire (s : Synch ι ℓ σ κ) (t : ι) (l : ℓ) : Bool × Synch ι ℓ σ κ :=
  if s.held l then (false, s.threadSleep t (.lock l)) else (true, s.take t l)

/-- `lock_acquire_two(lock1, lock2)` by `t`: `lock1` is taken, and given back before sleeping on
`lock2` when that is held. -/
def lockAcquireTwo (s : Synch ι ℓ σ κ) (t : ι) (l₁ l₂ : ℓ) : Bool × Synch ι ℓ σ κ :=
  if s.held l₁ = false then
    let s := s.take t l₁
    if s.held l₂ then (false, (s.drop l₁).threadSleep t (.lock l₂))
    else (true, s.take t l₂)
  else (false, s.threadSleep t (.lock l₁))

/-- `lock_acquire_three(lock1, lock2, lock3)` by `t`: all three when all are free, else sleep on
the first that is held. -/
def lockAcquireThree (s : Synch ι ℓ σ κ) (t : ι) (l₁ l₂ l₃ : ℓ) : Bool × Synch ι ℓ σ κ :=
  if s.held l₁ = false then
    if s.held l₂ = false then
      if s.held l₃ = false then (true, ((s.take t l₁).take t l₂).take t l₃)
      else (false, s.threadSleep t (.lock l₃))
    else (false, s.threadSleep t (.lock l₂))
  else (false, s.threadSleep t (.lock l₁))

/-- `lock_release(lock)`: the sleepers are woken, then the lock is cleared. -/
def lockRelease (s : Synch ι ℓ σ κ) (l : ℓ) : Synch ι ℓ σ κ :=
  (s.threadWakeup (.lock l)).drop l

/-- `lock_release_two(lock1, lock2)`. -/
def lockReleaseTwo (s : Synch ι ℓ σ κ) (l₁ l₂ : ℓ) : Synch ι ℓ σ κ :=
  (((s.drop l₁).drop l₂).threadWakeup (.lock l₁)).threadWakeup (.lock l₂)

/-- `lock_release_three(lock1, lock2, lock3)`. -/
def lockReleaseThree (s : Synch ι ℓ σ κ) (l₁ l₂ l₃ : ℓ) : Synch ι ℓ σ κ :=
  (((((s.drop l₁).drop l₂).drop l₃).threadWakeup (.lock l₁)).threadWakeup (.lock l₂)).threadWakeup
    (.lock l₃)

/-- `cv_wait(cv, lock)` by `t` up to its sleep: the lock is released and `t` sleeps on `cv`, with
interrupts off throughout. Once woken it calls `lock_acquire(lock)`. -/
def cvWait (s : Synch ι ℓ σ κ) (t : ι) (c : κ) (l : ℓ) : Synch ι ℓ σ κ :=
  (s.lockRelease l).threadSleep t (.cv c)

/-- `cv_signal(cv, lock)`: the first sleeper on `cv`, if there is one. -/
def cvSignal (s : Synch ι ℓ σ κ) (c : κ) : Synch ι ℓ σ κ :=
  if s.threadHassleepers (.cv c) then s.threadWakeupSingle (.cv c) else s

/-- `cv_broadcast(cv, lock)`. -/
def cvBroadcast (s : Synch ι ℓ σ κ) (c : κ) : Synch ι ℓ σ κ :=
  s.threadWakeup (.cv c)

section Simp

variable (s : Synch ι ℓ σ κ)

@[simp] theorem threadSleep_held (t : ι) (a : Chan ℓ σ κ) : (s.threadSleep t a).held = s.held := rfl
@[simp] theorem threadSleep_holder (t : ι) (a : Chan ℓ σ κ) :
    (s.threadSleep t a).holder = s.holder := rfl
@[simp] theorem threadSleep_count (t : ι) (a : Chan ℓ σ κ) : (s.threadSleep t a).count = s.count := rfl
@[simp] theorem threadSleep_sleepers (t : ι) (a : Chan ℓ σ κ) :
    (s.threadSleep t a).sleepers = s.sleepers ++ [(t, a)] := rfl

@[simp] theorem threadWakeup_held (a : Chan ℓ σ κ) : (s.threadWakeup a).held = s.held := rfl
@[simp] theorem threadWakeup_holder (a : Chan ℓ σ κ) : (s.threadWakeup a).holder = s.holder := rfl
@[simp] theorem threadWakeup_count (a : Chan ℓ σ κ) : (s.threadWakeup a).count = s.count := rfl
@[simp] theorem threadWakeup_sleepers (a : Chan ℓ σ κ) :
    (s.threadWakeup a).sleepers = s.sleepers.filter (·.2 ≠ a) := rfl

@[simp] theorem take_held (t : ι) (l : ℓ) : (s.take t l).held = Function.update s.held l true := rfl
@[simp] theorem take_holder (t : ι) (l : ℓ) :
    (s.take t l).holder = Function.update s.holder l (some t) := rfl
@[simp] theorem take_count (t : ι) (l : ℓ) : (s.take t l).count = s.count := rfl
@[simp] theorem take_sleepers (t : ι) (l : ℓ) : (s.take t l).sleepers = s.sleepers := rfl

@[simp] theorem drop_held (l : ℓ) : (s.drop l).held = Function.update s.held l false := rfl
@[simp] theorem drop_holder (l : ℓ) : (s.drop l).holder = Function.update s.holder l none := rfl
@[simp] theorem drop_count (l : ℓ) : (s.drop l).count = s.count := rfl
@[simp] theorem drop_sleepers (l : ℓ) : (s.drop l).sleepers = s.sleepers := rfl

end Simp

theorem threadWakeupSingle_sleepers_sublist (s : Synch ι ℓ σ κ) (a : Chan ℓ σ κ) :
    (s.threadWakeupSingle a).sleepers.Sublist s.sleepers := by
  unfold threadWakeupSingle
  split
  · exact List.eraseIdx_sublist _ _
  · exact List.Sublist.refl _

theorem threadWakeupSingle_sleepers_of_mem {s : Synch ι ℓ σ κ} {t : ι} {a : Chan ℓ σ κ}
    (h : (t, a) ∈ s.sleepers) :
    ∃ pre t₀ post, s.sleepers = pre ++ (t₀, a) :: post ∧ (∀ x ∈ pre, x.2 ≠ a) ∧
      (s.threadWakeupSingle a).sleepers = pre ++ post := by
  obtain ⟨i, hi⟩ : ∃ i, s.sleepers.findIdx? (·.2 = a) = some i :=
    Option.isSome_iff_exists.1 (by simpa using ⟨t, h⟩)
  obtain ⟨hlt, hp, hpre⟩ := List.findIdx?_eq_some_iff_getElem.1 hi
  have ha : s.sleepers[i].2 = a := by simpa using hp
  refine ⟨s.sleepers.take i, s.sleepers[i].1, s.sleepers.drop (i + 1), ?_, ?_, ?_⟩
  · rw [← ha, ← List.drop_eq_getElem_cons hlt, List.take_append_drop]
  · intro x hx
    obtain ⟨j, hj, rfl⟩ := List.mem_take_iff_getElem.1 hx
    simpa using hpre j (by omega)
  · simp [threadWakeupSingle, hi, List.eraseIdx_eq_take_drop_succ]

@[simp] theorem threadWakeupSingle_held (s : Synch ι ℓ σ κ) (a : Chan ℓ σ κ) :
    (s.threadWakeupSingle a).held = s.held := by
  unfold threadWakeupSingle
  split <;> rfl

@[simp] theorem threadWakeupSingle_holder (s : Synch ι ℓ σ κ) (a : Chan ℓ σ κ) :
    (s.threadWakeupSingle a).holder = s.holder := by
  unfold threadWakeupSingle
  split <;> rfl

@[simp] theorem threadWakeupSingle_count (s : Synch ι ℓ σ κ) (a : Chan ℓ σ κ) :
    (s.threadWakeupSingle a).count = s.count := by
  unfold threadWakeupSingle
  split <;> rfl

/-! ### `P` and `V` -/

theorem P_true {s s' : Synch ι ℓ σ κ} {t : ι} {sem : σ} (h : s.P t sem = some (true, s')) :
    0 < s.count sem ∧ s' = { s with count := Function.update s.count sem (s.count sem - 1) } := by
  unfold P at h
  split_ifs at h with h₀ h₁
  · simp at h
  · simp only [Option.some.injEq, Prod.mk.injEq, true_and] at h
    exact ⟨h₁, h.symm⟩

theorem P_false {s s' : Synch ι ℓ σ κ} {t : ι} {sem : σ} (h : s.P t sem = some (false, s')) :
    s.count sem = 0 ∧ s' = s.threadSleep t (.sem sem) := by
  unfold P at h
  split_ifs at h with h₀ h₁
  · simp only [Option.some.injEq, Prod.mk.injEq, true_and] at h
    exact ⟨h₀, h.symm⟩
  · simp at h

theorem V_eq_some {s s' : Synch ι ℓ σ κ} {sem : σ} (h : s.V sem = some s') :
    s.count sem < intMax ∧ 0 < s.count sem + 1 ∧
      s' = ({ s with count := Function.update s.count sem (s.count sem + 1) } :
        Synch ι ℓ σ κ).threadWakeup (.sem sem) := by
  unfold V at h
  split_ifs at h with h₀
  rw [Option.some.injEq] at h
  exact ⟨h₀.1, h₀.2, h.symm⟩

end Synch

end Os161
