import Os161.Thread.Basic

/-!
# The operations of the thread system

`thread_fork`, `mi_switch` with `scheduler` and `exorcise`, `thread_yield`, `thread_sleep`,
`thread_wakeup`, `thread_wakeup_single` and `thread_exit` from `thread.c`, and `sys__exit`,
`sys_waitpid` and `destroy_pcb_unit` from `syscall.c`. A function that panics, fails an
`assert` or dereferences a pointer it has no object for returns `none`: the kernel stops there.

`sys_waitpid` sleeps in a loop; it is cut where it sleeps, and its loop test after a wakeup is
`waitpidRecheck`, run when the sleeping thread is scheduled again.
-/

namespace Os161

/-- `threadstate_t` of `thread.c`. -/
inductive Threadstate
  | S_RUN
  | S_READY
  | S_SLEEP
  | S_ZOMB
  deriving DecidableEq, Repr

/-- Which allocation fails in a `thread_fork` that returns an error. -/
inductive ForkFault
  /-- `thread_create`'s `kmalloc` of the structure or its name -/
  | create
  /-- the `kmalloc` of the stack -/
  | stack
  /-- `array_preallocate`, `scheduler_preallocate` or `make_runnable`, after the PCB is in place -/
  | prealloc
  deriving DecidableEq, Repr

/-- The answer of a `sys_waitpid` that returns: its error or `*retval`, and the word it stores
through the user's `status` pointer (`none`: it stores nothing). -/
structure WaitReply where
  result : Except Errno Nat
  status : Option Int
  deriving DecidableEq, Repr

/-- `VOP_INCREF` of the current directory, if there is one. -/
def incref (cwd : Option Nat) (rc : Nat → Nat) : Nat → Nat :=
  match cwd with
  | none => rc
  | some v => Function.update rc v (rc v + 1)

/-- `VOP_DECREF` of the current directory, if there is one. -/
def decref (cwd : Option Nat) (rc : Nat → Nat) : Nat → Nat :=
  match cwd with
  | none => rc
  | some v => Function.update rc v (rc v - 1)

namespace Kernel

/-- `curthread` and its structure. -/
def current (k : Kernel) : Option (Tid × Thread) :=
  match k.curthread with
  | none => none
  | some c => (k.threads c).map (c, ·)

/-- Where the current thread is. -/
def curCtx (k : Kernel) : Option Ctx :=
  k.current.map (·.2.ctx)

/-- The sleep address of thread `t`. -/
def sleepaddr (k : Kernel) (t : Tid) : Option Nat :=
  (k.threads t).map (·.tSleepaddr)

/-- `make_runnable`: `q_addtail` on the run queue. It only fails when the queue must grow and
`kmalloc` fails, which the preallocation in `thread_fork` rules out. -/
def makeRunnable (k : Kernel) (t : Tid) : Kernel :=
  { k with runqueue := k.runqueue ++ [t] }

/-- `exorcise`: `thread_destroy` every zombie, which asserts that it is not the current thread
and that `thread_exit` dropped its current directory. -/
def exorcise (k : Kernel) : Option Kernel :=
  if k.zombies.all (fun z => some z != k.curthread && ((k.threads z).map (·.tCwd)) == some none)
  then some { k with
    threads := fun t => if t ∈ k.zombies then none else k.threads t
    zombies := [] }
  else none

/-- What the thread `t` that `scheduler` picked does first: a new thread starts in
`mi_threadstart`; any other returns from `md_switch` into `mi_switch`, which calls `exorcise`,
and then into the function that switched it out. Back in `thread_sleep` it clears
`t_sleepaddr`; back in `sys_waitpid` it is about to test `exited` again. -/
def resume (k : Kernel) (t : Tid) : Option Kernel :=
  match k.threads t with
  | none => none
  | some th =>
    match th.ctx with
    | .fresh => some (k.setThread t { th with ctx := .run })
    | .yield => k.exorcise.map fun k' => k'.setThread t { th with ctx := .run }
    | .sleep => k.exorcise.map fun k' => k'.setThread t { th with tSleepaddr := 0, ctx := .run }
    | .waitpid c =>
      k.exorcise.map fun k' => k'.setThread t { th with tSleepaddr := 0, ctx := .recheck c }
    | _ => none

/-- `scheduler` and the return from `md_switch`. With the run queue empty the processor idles
with no current thread (`cpu_idle`) until an interrupt makes a thread runnable. -/
def schedule (k : Kernel) : Option Kernel :=
  match k.runqueue with
  | [] => some k
  | t :: rest => resume { k with runqueue := rest, curthread := some t } t

/-- `mi_switch`: stash the current thread on the list `nextstate` names, then run the next. -/
def miSwitch (k : Kernel) (nextstate : Threadstate) : Option Kernel :=
  match k.curthread with
  | none => some k
  | some cur =>
    match nextstate with
    | .S_READY => schedule ({ k with curthread := none }.makeRunnable cur)
    | .S_SLEEP => schedule { k with curthread := none, sleepers := k.sleepers ++ [cur] }
    | .S_ZOMB => schedule { k with curthread := none, zombies := k.zombies ++ [cur] }
    | .S_RUN => none

/-- `thread_yield`. -/
def threadYield (k : Kernel) : Option Kernel :=
  match k.current with
  | none => none
  | some (c, th) => (k.setThread c { th with ctx := .yield }).miSwitch .S_READY

/-- `thread_sleep` on `addr`; `ctx` records which caller sleeps. -/
def threadSleep (k : Kernel) (addr : Nat) (ctx : Ctx) : Option Kernel :=
  match k.current with
  | none => none
  | some (c, th) => (k.setThread c { th with tSleepaddr := addr, ctx := ctx }).miSwitch .S_SLEEP

/-- The loop of `thread_wakeup`. A sleeper on `addr` at index `i` is removed with
`array_remove` and made runnable, and `i--` looks at the same index again. -/
def wakeupLoop (sa : Tid → Option Nat) (addr : Nat) (i : Nat) (sleepers runqueue : List Tid) :
    List Tid × List Tid :=
  if h : i < sleepers.length then
    if sa sleepers[i] = some addr then
      wakeupLoop sa addr i (sleepers.eraseIdx i) (runqueue ++ [sleepers[i]])
    else wakeupLoop sa addr (i + 1) sleepers runqueue
  else (sleepers, runqueue)
termination_by 2 * sleepers.length - i
decreasing_by
  · rw [List.length_eraseIdx_of_lt h]
    omega
  · omega

/-- The loop of `thread_wakeup_single`: the first sleeper on `addr` is made runnable. -/
def wakeupSingleLoop (sa : Tid → Option Nat) (addr : Nat) (i : Nat)
    (sleepers runqueue : List Tid) : List Tid × List Tid :=
  if h : i < sleepers.length then
    if sa sleepers[i] = some addr then (sleepers.eraseIdx i, runqueue ++ [sleepers[i]])
    else wakeupSingleLoop sa addr (i + 1) sleepers runqueue
  else (sleepers, runqueue)
termination_by sleepers.length - i

/-- `thread_wakeup`. -/
def threadWakeup (k : Kernel) (addr : Nat) : Kernel :=
  let r := wakeupLoop k.sleepaddr addr 0 k.sleepers k.runqueue
  { k with sleepers := r.1, runqueue := r.2 }

/-- `thread_wakeup_single`. -/
def threadWakeupSingle (k : Kernel) (addr : Nat) : Kernel :=
  let r := wakeupSingleLoop k.sleepaddr addr 0 k.sleepers k.runqueue
  { k with sleepers := r.1, runqueue := r.2 }

/-- The `pID` that `thread_fork` gives the child: the slot `allocate_PID` found, or, since its
`EAGAIN` is overwritten before anything reads it, the 0 that `thread_create` put there. -/
def forkPid (pcbs : Nat → Option Pcb) : Nat :=
  match allocatePID pcbs with
  | .ok i => i
  | .error _ => 0

/-- `thread_fork`, whose allocations either all succeed (`fault = none`) or fail at `fault`.
The PCB records `curthread` as `this_thread`, and stays in the
table on the failure path after it. -/
def threadFork (k : Kernel) (fault : Option ForkFault) : Option (Except Errno Tid × Kernel) :=
  match k.current with
  | none => none
  | some (c, th) =>
    match fault with
    | some .create => some (.error .ENOMEM, k)
    | some .stack => some (.error .ENOMEM, { k with nextTid := k.nextTid + 1 })
    | _ =>
      let t := k.nextTid
      let pid := forkPid k.pcbs
      let k1 := { k with nextTid := t + 1, refcount := incref th.tCwd k.refcount }.setPcb pid
        (some ⟨0, -1, some c, th.pID⟩)
      match fault with
      | some _ => some (.error .ENOMEM, { k1 with refcount := decref th.tCwd k1.refcount })
      | none =>
        some (.ok t, { k1.setThread t ⟨0, pid, th.tCwd, .fresh⟩ with
          runqueue := k1.runqueue ++ [t]
          numthreads := k1.numthreads + 1 })

/-- `thread_exit`. The address space is torn down by `as_destroy`, which the VM model covers. The
PCB gets `exited = 1` and `exit_code = 0`, whatever code the thread exits with. -/
def threadExit (k : Kernel) : Option Kernel :=
  match k.current with
  | none => none
  | some (c, th) =>
    match k.pcbs th.pID with
    | none => none
    | some p =>
      if th.pID < maxPid ∧ 0 < k.numthreads then
        let k1 := ({ k with refcount := decref th.tCwd k.refcount
                            numthreads := k.numthreads - 1 }.setThread c
          { th with tCwd := none, ctx := .exit }).setPcb th.pID (some { p with exited := 1, exitCode := 0 })
        (k1.threadWakeupSingle th.pID).miSwitch .S_ZOMB
      else none

/-- `sys__exit`: hand the caller's children to process 1, then `thread_exit`. The exit code is
not used. -/
def sysExit (k : Kernel) (_exitcode : Int) : Option Kernel :=
  match k.current with
  | none => none
  | some (_, th) =>
    match k.pcbs 1 with
    | none => none
    | some p1 =>
      if p1.thisThread = none then none
      else
        threadExit { k with
          pcbs := fun i => if i < maxPid then
            (k.pcbs i).map fun p => if p.parent = (th.pID : Int) then { p with parent := 1 } else p
            else k.pcbs i }

/-- `destroy_pcb_unit`. -/
def destroyPcbUnit (k : Kernel) (pID : Nat) : Kernel :=
  match k.pcbs pID with
  | none => k
  | some _ => k.setPcb pID none

/-- `sys_waitpid(child_pID, status, retval)` up to its first sleep: `some (some r, k')` when it
returns `r`, `some (none, k')` when the caller went to sleep. The `copyout` of the exit code is
commented out in the source, so no reply stores a status word. -/
def sysWaitpid (k : Kernel) (childPID : Int) : Option (Option WaitReply × Kernel) :=
  match k.current with
  | none => none
  | some (_, th) =>
    if k.pcbs th.pID = none then none
    else if childPID < minPid ∨ childPID > maxPid then some (some ⟨.error .EINVAL, none⟩, k)
    else if childPID = th.pID then some (some ⟨.error .EINVAL, none⟩, k)
    else if maxPid ≤ childPID.toNat then none
    else
      match k.pcbs childPID.toNat with
      | none => none
      | some p =>
        if p.parent ≠ th.pID then some (some ⟨.error .EINVAL, none⟩, k)
        else if p.exited = 1 then
          some (some ⟨.ok childPID.toNat, none⟩, k.destroyPcbUnit childPID.toNat)
        else (k.threadSleep childPID.toNat (.waitpid childPID.toNat)).map (none, ·)

/-- The test of `sys_waitpid`'s loop after a wakeup: sleep again, or reap the child and
return. -/
def waitpidRecheck (k : Kernel) : Option (Option WaitReply × Kernel) :=
  match k.current with
  | none => none
  | some (c, th) =>
    match th.ctx with
    | .recheck i =>
      match k.pcbs i with
      | none => none
      | some p =>
        if p.exited ≠ 1 then (k.threadSleep i (.waitpid i)).map (none, ·)
        else some (some ⟨.ok i, none⟩, (k.setThread c { th with ctx := .run }).destroyPcbUnit i)
    | _ => none

end Kernel

end Os161
