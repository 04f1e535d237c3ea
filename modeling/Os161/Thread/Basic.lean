import Mathlib

/-!
# Threads and the process table

The state of `kern/thread/thread.c`, `kern/thread/scheduler.c` and the process-table half of
`kern/arch/mips/mips/syscall.c`: thread structures, the current thread, the run queue, the
`sleepers` and `zombies` arrays, `numthreads`, and the table `PCBs[MAX_PID]` of `thread.h`.

A thread structure is named by a `Tid`, handed out fresh by `thread_create`'s `kmalloc`; a
thread whose structure was freed has no entry in `threads`. The run queue and the two arrays are
lists (their ring-buffer and growable-array representations are modelled on their own). What a
thread does next is its `Ctx`: where it was switched out, or that it is running. The model of a
step runs with interrupts off, as every function here does between `splhigh` and `splx`.
-/

namespace Os161

/-- The error numbers of `kern/errno.h` that the modelled code returns. -/
inductive Errno
  | EINVAL
  | EFAULT
  | ENOMEM
  | EAGAIN
  | ENOSPC
  | ENAMETOOLONG
  | EEXIST
  | ENXIO
  | ENODEV
  | EBUSY
  | EIO
  | ENOENT
  | ENOTDIR
  | EISDIR
  | ENOEXEC
  deriving DecidableEq, Repr

/-- `MAX_PID` of `thread.h`: the number of slots of `PCBs`. -/
def maxPid : Nat := 512

/-- `MIN_PID` of `thread.h`. -/
def minPid : Nat := 1

/-- `MIPS_KSEG0`: the first kernel address; every object a thread sleeps on lives above it. -/
def kseg0 : Nat := 0x80000000

/-- A thread structure, by the identity `kmalloc` gave it. -/
abbrev Tid := Nat

/-- Where a thread is in its code between two atomic steps. -/
inductive Ctx
  /-- made by `thread_fork`; it will start in `mi_threadstart` -/
  | fresh
  /-- running its own code -/
  | run
  /-- switched out in `thread_yield` -/
  | yield
  /-- switched out in `thread_sleep`, called by a synchronisation primitive -/
  | sleep
  /-- switched out in the `thread_sleep` of `sys_waitpid`'s loop on `child` -/
  | waitpid (child : Nat)
  /-- back from that sleep, about to test `exited` again -/
  | recheck (child : Nat)
  /-- switched out for good in `thread_exit` -/
  | exit
  deriving DecidableEq, Repr

/-- `struct thread`, less the fields nothing here reads (`t_pcb`, `t_name`, `t_stack`). -/
structure Thread where
  tSleepaddr : Nat
  pID : Nat
  tCwd : Option Nat
  ctx : Ctx
  deriving DecidableEq, Repr

/-- `pcb_t` of `thread.h`; its `mutex` is created and destroyed but never used. -/
structure Pcb where
  exited : Int
  exitCode : Int
  thisThread : Option Tid
  parent : Int
  deriving DecidableEq, Repr

/-- The thread system and the process table. `refcount` is the vnode reference count that
`t_cwd` holds a share of. -/
@[ext] structure Kernel where
  threads : Tid → Option Thread
  nextTid : Tid
  curthread : Option Tid
  runqueue : List Tid
  sleepers : List Tid
  zombies : List Tid
  numthreads : Nat
  pcbs : Nat → Option Pcb
  refcount : Nat → Nat

namespace Kernel

/-- Replace the structure of thread `t`. -/
def setThread (k : Kernel) (t : Tid) (th : Thread) : Kernel :=
  { k with threads := Function.update k.threads t (some th) }

/-- Replace slot `i` of `PCBs`. -/
def setPcb (k : Kernel) (i : Nat) (p : Option Pcb) : Kernel :=
  { k with pcbs := Function.update k.pcbs i p }

@[simp] theorem setThread_threads (k : Kernel) (t : Tid) (th : Thread) :
    (k.setThread t th).threads = Function.update k.threads t (some th) := rfl

@[simp] theorem setThread_nextTid (k : Kernel) (t : Tid) (th : Thread) :
    (k.setThread t th).nextTid = k.nextTid := rfl

@[simp] theorem setThread_curthread (k : Kernel) (t : Tid) (th : Thread) :
    (k.setThread t th).curthread = k.curthread := rfl

@[simp] theorem setThread_runqueue (k : Kernel) (t : Tid) (th : Thread) :
    (k.setThread t th).runqueue = k.runqueue := rfl

@[simp] theorem setThread_sleepers (k : Kernel) (t : Tid) (th : Thread) :
    (k.setThread t th).sleepers = k.sleepers := rfl

@[simp] theorem setThread_zombies (k : Kernel) (t : Tid) (th : Thread) :
    (k.setThread t th).zombies = k.zombies := rfl

@[simp] theorem setThread_numthreads (k : Kernel) (t : Tid) (th : Thread) :
    (k.setThread t th).numthreads = k.numthreads := rfl

@[simp] theorem setThread_pcbs (k : Kernel) (t : Tid) (th : Thread) :
    (k.setThread t th).pcbs = k.pcbs := rfl

@[simp] theorem setPcb_pcbs (k : Kernel) (i : Nat) (p : Option Pcb) :
    (k.setPcb i p).pcbs = Function.update k.pcbs i p := rfl

@[simp] theorem setPcb_threads (k : Kernel) (i : Nat) (p : Option Pcb) :
    (k.setPcb i p).threads = k.threads := rfl

@[simp] theorem setPcb_nextTid (k : Kernel) (i : Nat) (p : Option Pcb) :
    (k.setPcb i p).nextTid = k.nextTid := rfl

@[simp] theorem setPcb_curthread (k : Kernel) (i : Nat) (p : Option Pcb) :
    (k.setPcb i p).curthread = k.curthread := rfl

@[simp] theorem setPcb_runqueue (k : Kernel) (i : Nat) (p : Option Pcb) :
    (k.setPcb i p).runqueue = k.runqueue := rfl

@[simp] theorem setPcb_sleepers (k : Kernel) (i : Nat) (p : Option Pcb) :
    (k.setPcb i p).sleepers = k.sleepers := rfl

@[simp] theorem setPcb_zombies (k : Kernel) (i : Nat) (p : Option Pcb) :
    (k.setPcb i p).zombies = k.zombies := rfl

@[simp] theorem setPcb_numthreads (k : Kernel) (i : Nat) (p : Option Pcb) :
    (k.setPcb i p).numthreads = k.numthreads := rfl

end Kernel

/-- `thread_bootstrap`: the boot thread, structure `0`, runs as process 1, whose PCB has no
parent (`-1`). -/
def threadBootstrap : Kernel where
  threads := fun t => if t = 0 then some ⟨0, 1, none, .run⟩ else none
  nextTid := 1
  curthread := some 0
  runqueue := []
  sleepers := []
  zombies := []
  numthreads := 1
  pcbs := fun i => if i = 1 then some ⟨0, -1, some 0, -1⟩ else none
  refcount := fun _ => 0

/-- `allocate_PID`: the first free slot of `PCBs` in `[1, MAX_PID)`, or `EAGAIN`. -/
def allocatePID (pcbs : Nat → Option Pcb) : Except Errno Nat :=
  match (List.range' 1 (maxPid - 1)).find? (fun i => (pcbs i).isNone) with
  | some i => .ok i
  | none => .error .EAGAIN

theorem allocatePID_eq_ok_iff {pcbs : Nat → Option Pcb} {i : Nat} :
    allocatePID pcbs = .ok i ↔
      1 ≤ i ∧ i < maxPid ∧ pcbs i = none ∧ ∀ j, 1 ≤ j → j < i → pcbs j ≠ none := by
  have hfind : (List.range' 1 (maxPid - 1)).find? (fun i => (pcbs i).isNone) = some i ↔
      1 ≤ i ∧ i < maxPid ∧ pcbs i = none ∧ ∀ j, 1 ≤ j → j < i → pcbs j ≠ none := by
    simp only [List.find?_range'_eq_some, Option.isNone_iff_eq_none, List.mem_range'_1,
      Bool.not_eq_true', Option.isNone_eq_false_iff, Option.isSome_iff_ne_none, maxPid]
    constructor
    · rintro ⟨hnone, ⟨h1, hlt⟩, hprev⟩
      exact ⟨h1, by omega, hnone, hprev⟩
    · rintro ⟨h1, hlt, hnone, hprev⟩
      exact ⟨hnone, ⟨h1, by omega⟩, hprev⟩
  rw [← hfind]
  unfold allocatePID
  split <;> rename_i h <;> simp [h]

theorem allocatePID_eq_error_iff {pcbs : Nat → Option Pcb} {e : Errno} :
    allocatePID pcbs = .error e ↔ e = .EAGAIN ∧ ∀ j, 1 ≤ j → j < maxPid → pcbs j ≠ none := by
  have hfind : (List.range' 1 (maxPid - 1)).find? (fun i => (pcbs i).isNone) = none ↔
      ∀ j, 1 ≤ j → j < maxPid → pcbs j ≠ none := by
    simp only [List.find?_range'_eq_none, Bool.not_eq_true', Option.isNone_eq_false_iff,
      Option.isSome_iff_ne_none, maxPid]
  unfold allocatePID
  split <;> rename_i h
  · have : ¬ ∀ j, 1 ≤ j → j < maxPid → pcbs j ≠ none := fun hall => by simp [hfind.2 hall] at h
    simp [this]
  · rw [Except.error.injEq, eq_comm]
    exact ⟨fun he => ⟨he, hfind.1 h⟩, And.left⟩

end Os161
