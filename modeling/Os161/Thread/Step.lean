import Os161.Thread.Ops

/-!
# Runs of the thread system

A step is one atomic piece of kernel code: a call the current thread makes with interrupts off
(`thread_fork`, `thread_yield`, `thread_sleep`, `thread_exit`, `sys__exit`, `sys_waitpid`), the
test of `sys_waitpid`'s loop that a waiter makes when it runs again, a `thread_wakeup` or
`thread_wakeup_single` by running code or by an interrupt handler, or the idle `scheduler`
finding a runnable thread. Steps that return to user level carry what they return.

Synchronisation primitives sleep on the address of a kernel object, so above `MIPS_KSEG0`;
`sys_waitpid` sleeps on a pid. Interrupts are off from a waiter's wakeup until its loop test, so
no interrupt handler runs in between.
-/

namespace Os161

/-- What a step hands back to its caller. -/
inductive Event
  | tau
  | forked (r : Except Errno Tid)
  | waited (r : WaitReply)
  deriving DecidableEq, Repr

namespace Kernel

/-- Interrupt handlers may run: the processor is idle or the current thread runs its own code. -/
def Interruptible (k : Kernel) : Prop :=
  k.curthread = none ∨ k.curCtx = some .run

end Kernel

/-- One atomic step of the thread system. -/
inductive Step : Kernel → Event → Kernel → Prop
  | fork {k k' : Kernel} (f : Option ForkFault) (r : Except Errno Tid)
      (hc : k.curCtx = some .run) (h : k.threadFork f = some (r, k')) : Step k (.forked r) k'
  | yield {k k' : Kernel} (hc : k.curCtx = some .run) (h : k.threadYield = some k') :
      Step k .tau k'
  | sleep {k k' : Kernel} (addr : Nat) (ha : kseg0 ≤ addr) (hc : k.curCtx = some .run)
      (h : k.threadSleep addr .sleep = some k') : Step k .tau k'
  | wakeup {k : Kernel} (addr : Nat) (hi : k.Interruptible) : Step k .tau (k.threadWakeup addr)
  | wakeupSingle {k : Kernel} (addr : Nat) (hi : k.Interruptible) :
      Step k .tau (k.threadWakeupSingle addr)
  | exit {k k' : Kernel} (hc : k.curCtx = some .run) (h : k.threadExit = some k') :
      Step k .tau k'
  | sysExit {k k' : Kernel} (code : Int) (hc : k.curCtx = some .run)
      (h : k.sysExit code = some k') : Step k .tau k'
  | waitpidSleep {k k' : Kernel} (child : Int) (hc : k.curCtx = some .run)
      (h : k.sysWaitpid child = some (none, k')) : Step k .tau k'
  | waitpidReturn {k k' : Kernel} (child : Int) (r : WaitReply) (hc : k.curCtx = some .run)
      (h : k.sysWaitpid child = some (some r, k')) : Step k (.waited r) k'
  | recheckSleep {k k' : Kernel} (h : k.waitpidRecheck = some (none, k')) : Step k .tau k'
  | recheckReturn {k k' : Kernel} (r : WaitReply) (h : k.waitpidRecheck = some (some r, k')) :
      Step k (.waited r) k'
  | dispatch {k k' : Kernel} (hc : k.curthread = none) (h : k.schedule = some k') :
      Step k .tau k'

/-- The states `thread_bootstrap` leads to. -/
inductive Reachable : Kernel → Prop
  | boot : Reachable threadBootstrap
  | step {k k' : Kernel} {e : Event} : Reachable k → Step k e k' → Reachable k'

theorem Reachable.induct_inv {P : Kernel → Prop} (h0 : P threadBootstrap)
    (hs : ∀ k e k', P k → Reachable k → Step k e k' → P k') {k : Kernel} (h : Reachable k) :
    P k := by
  induction h with
  | boot => exact h0
  | step hr hst ih => exact hs _ _ _ ih hr hst

end Os161
