import Os161.Thread.Step

/-!
# Runs as lists of kernel calls

`Kernel.call` is `Step` as a function: it takes the entry point and the choices a step leaves
open (which allocation of `thread_fork` fails, the address of a sleep or a wakeup), tests the
step's guard, and runs it. It is sound and complete for `Step` (`call_step`, `step_call`), so
the reachable states are exactly those a list of calls reaches from `thread_bootstrap`
(`reachable_iff_run`), and a concrete run can be evaluated.
-/

namespace Os161

/-- An entry point of the thread system, with what the step leaves open. -/
inductive Call
  | fork (f : Option ForkFault)
  | yield
  | sleep (addr : Nat)
  | wakeup (addr : Nat)
  | wakeupSingle (addr : Nat)
  | exit
  | sysExit (code : Int)
  | waitpid (child : Int)
  | recheck
  | dispatch
  deriving DecidableEq, Repr

/-- The event of a step of `sys_waitpid`: a reply, or none while the caller sleeps. -/
def waitEvent : Option WaitReply → Event
  | none => .tau
  | some r => .waited r

namespace Kernel

instance (k : Kernel) : Decidable k.Interruptible :=
  inferInstanceAs (Decidable (_ ∨ _))

/-- One step, by its entry point; `none` where `Step` has no step. -/
def call (k : Kernel) : Call → Option (Event × Kernel)
  | .fork f =>
    if k.curCtx = some .run then (k.threadFork f).map fun (r, k') => (.forked r, k') else none
  | .yield => if k.curCtx = some .run then k.threadYield.map (.tau, ·) else none
  | .sleep addr =>
    if kseg0 ≤ addr ∧ k.curCtx = some .run then (k.threadSleep addr .sleep).map (.tau, ·)
    else none
  | .wakeup addr => if k.Interruptible then some (.tau, k.threadWakeup addr) else none
  | .wakeupSingle addr => if k.Interruptible then some (.tau, k.threadWakeupSingle addr) else none
  | .exit => if k.curCtx = some .run then k.threadExit.map (.tau, ·) else none
  | .sysExit code => if k.curCtx = some .run then (k.sysExit code).map (.tau, ·) else none
  | .waitpid child =>
    if k.curCtx = some .run then (k.sysWaitpid child).map fun (o, k') => (waitEvent o, k')
    else none
  | .recheck => k.waitpidRecheck.map fun (o, k') => (waitEvent o, k')
  | .dispatch => if k.curthread = none then k.schedule.map (.tau, ·) else none

/-- The calls in turn, from `k`. -/
def run (k : Kernel) : List Call → Option Kernel
  | [] => some k
  | c :: cs => (k.call c).bind fun (_, k') => k'.run cs

theorem run_append (k : Kernel) (cs ds : List Call) :
    k.run (cs ++ ds) = (k.run cs).bind fun k' => k'.run ds := by
  induction cs generalizing k with
  | nil => rfl
  | cons c cs ih =>
    simp only [List.cons_append, run]
    cases k.call c with
    | none => rfl
    | some p => exact ih p.2

end Kernel

/-- A call that runs is a step. -/
theorem call_step {k k' : Kernel} {c : Call} {e : Event} (h : k.call c = some (e, k')) :
    Step k e k' := by
  cases c with
  | fork f =>
    simp only [Kernel.call] at h
    split_ifs at h with hc
    obtain ⟨⟨r, k1⟩, hf, he⟩ := Option.map_eq_some_iff.1 h
    simp only [Prod.mk.injEq] at he
    obtain ⟨rfl, rfl⟩ := he
    exact .fork f r hc hf
  | sleep addr =>
    simp only [Kernel.call] at h
    split_ifs at h with hc
    obtain ⟨k1, hs, he⟩ := Option.map_eq_some_iff.1 h
    simp only [Prod.mk.injEq] at he
    obtain ⟨rfl, rfl⟩ := he
    exact .sleep addr hc.1 hc.2 hs
  | wakeup addr =>
    simp only [Kernel.call] at h
    split_ifs at h with hi
    simp only [Option.some.injEq, Prod.mk.injEq] at h
    obtain ⟨rfl, rfl⟩ := h
    exact .wakeup addr hi
  | wakeupSingle addr =>
    simp only [Kernel.call] at h
    split_ifs at h with hi
    simp only [Option.some.injEq, Prod.mk.injEq] at h
    obtain ⟨rfl, rfl⟩ := h
    exact .wakeupSingle addr hi
  | waitpid child =>
    simp only [Kernel.call] at h
    split_ifs at h with hc
    obtain ⟨⟨o, k1⟩, hw, he⟩ := Option.map_eq_some_iff.1 h
    simp only [Prod.mk.injEq] at he
    obtain ⟨rfl, rfl⟩ := he
    cases o with
    | none => exact .waitpidSleep child hc hw
    | some r => exact .waitpidReturn child r hc hw
  | recheck =>
    simp only [Kernel.call] at h
    obtain ⟨⟨o, k1⟩, hw, he⟩ := Option.map_eq_some_iff.1 h
    simp only [Prod.mk.injEq] at he
    obtain ⟨rfl, rfl⟩ := he
    cases o with
    | none => exact .recheckSleep hw
    | some r => exact .recheckReturn r hw
  | yield | exit | sysExit _ | dispatch =>
    simp only [Kernel.call] at h
    split_ifs at h with hc
    obtain ⟨k1, hs, he⟩ := Option.map_eq_some_iff.1 h
    simp only [Prod.mk.injEq] at he
    obtain ⟨rfl, rfl⟩ := he
    first
      | exact .yield hc hs
      | exact .exit hc hs
      | exact .sysExit _ hc hs
      | exact .dispatch hc hs

/-- Every step is a call. -/
theorem step_call {k k' : Kernel} {e : Event} (h : Step k e k') : ∃ c, k.call c = some (e, k') := by
  induction h with
  | fork f r hc h => exact ⟨.fork f, by simp [Kernel.call, hc, h]⟩
  | yield hc h => exact ⟨.yield, by simp [Kernel.call, hc, h]⟩
  | sleep addr ha hc h => exact ⟨.sleep addr, by simp [Kernel.call, ha, hc, h]⟩
  | wakeup addr hi => exact ⟨.wakeup addr, by simp [Kernel.call, hi]⟩
  | wakeupSingle addr hi => exact ⟨.wakeupSingle addr, by simp [Kernel.call, hi]⟩
  | exit hc h => exact ⟨.exit, by simp [Kernel.call, hc, h]⟩
  | sysExit code hc h => exact ⟨.sysExit code, by simp [Kernel.call, hc, h]⟩
  | waitpidSleep child hc h => exact ⟨.waitpid child, by simp [Kernel.call, hc, h, waitEvent]⟩
  | waitpidReturn child r hc h => exact ⟨.waitpid child, by simp [Kernel.call, hc, h, waitEvent]⟩
  | recheckSleep h => exact ⟨.recheck, by simp [Kernel.call, h, waitEvent]⟩
  | recheckReturn r h => exact ⟨.recheck, by simp [Kernel.call, h, waitEvent]⟩
  | dispatch hc h => exact ⟨.dispatch, by simp [Kernel.call, hc, h]⟩

theorem Reachable.run {k k' : Kernel} {cs : List Call} (h : Reachable k) (hr : k.run cs = some k') :
    Reachable k' := by
  induction cs generalizing k with
  | nil =>
    simp only [Kernel.run, Option.some.injEq] at hr
    exact hr ▸ h
  | cons c cs ih =>
    simp only [Kernel.run] at hr
    obtain ⟨⟨e, k1⟩, hc, hr⟩ := Option.bind_eq_some_iff.1 hr
    exact ih (h.step (call_step hc)) hr

/-- The reachable states are those a list of calls reaches from `thread_bootstrap`. -/
theorem reachable_iff_run (k : Kernel) : Reachable k ↔ ∃ cs, threadBootstrap.run cs = some k := by
  constructor
  · intro h
    induction h with
    | boot => exact ⟨[], rfl⟩
    | step _ hs ih =>
      obtain ⟨cs, hcs⟩ := ih
      obtain ⟨c, hc⟩ := step_call hs
      refine ⟨cs ++ [c], ?_⟩
      rw [Kernel.run_append, hcs]
      simp [Kernel.run, hc]
  · rintro ⟨cs, hcs⟩
    exact Reachable.boot.run hcs

end Os161
