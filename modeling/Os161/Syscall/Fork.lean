import Os161.Thread.Process
import Os161.Vm.FaultRange
import Os161.Syscall.Basic

/-!
# `sys_fork` and `md_forkentry`

`sys_fork(tf, retval)` copies the caller's address space with `as_copy`, copies the trapframe
into a `kmalloc`ed block, and starts a thread on `md_forkentry` with the two as its arguments.
The parent returns through `mips_syscall` with `*retval` the child's `pID`; the child, when it
first runs, advances the copy's `epc`, zeroes `v0` and `a3`, takes the new address space and
enters user mode. The two returns agree (`sysFork_returns_twice`): the child enters user mode
with the trapframe `mips_syscall` builds for a return of `0`.

The failure paths do not undo the work before them. A failed `kmalloc` of the trapframe returns
`ENOMEM` with the copied address space left behind (`sysFork_of_kmalloc_fails`); a failed
`thread_fork` trips `assert(child_thread != NULL)` (`sysFork_of_threadFork_error`); and with
the process table full, `thread_fork` hands out pid 0 (`sysFork_of_full`), so that the parent
resumes with the trapframe the child resumes with.

The `kmalloc` of the trapframe comes from the subpage allocator, which the model leaves out: its
outcome is an argument. The `splhigh`/`splx` pair of `sys_fork` restores the level on every
path, and is left out.
-/

namespace Os161

/-- The threads and the process table, the memory, and for each thread `thread_fork` made, the
two arguments `md_initpcb` keeps for `md_forkentry`: the trapframe copy and the address space. -/
structure Machine where
  kernel : Kernel
  vm : Vm
  starts : Tid → Option (Trapframe × Nat)

namespace Vm

variable {s s' : Vm}

theorem curspace_of_asCreate {as : Nat} (h : s.asCreate = some (as, s')) :
    s'.curspace = s.curspace := by
  unfold asCreate at h
  obtain ⟨⟨as₁, s₁⟩, hk, h⟩ := Option.bind_eq_some_iff.1 h
  dsimp only at h
  split_ifs at h
  · cases h
    exact (keeps_kmalloc hk).curspace
  · simp only [bind, Option.bind_eq_some_iff, Option.some.injEq] at h
    obtain ⟨⟨j₁, s₂⟩, hj₁, ⟨j₂, s₃⟩, hj₂, -, rfl⟩ := h
    rw [setSpace_curspace, (keeps_takeJunk hj₂).curspace, (keeps_takeJunk hj₁).curspace,
      (keeps_kmalloc hk).curspace]

theorem asCopy_ok {old c : Nat} (h : s.asCopy old = some (.ok c, s')) :
    c ≠ 0 ∧ s'.curspace = s.curspace ∧ (s'.space c).isSome := by
  unfold asCopy at h
  obtain ⟨⟨newas, s₁⟩, hc, h⟩ := Option.bind_eq_some_iff.1 h
  dsimp only at h
  split_ifs at h with h0
  · simp at h
  · simp only [bind, Option.bind_eq_some_iff, Option.some.injEq, Prod.mk.injEq,
      Except.ok.injEq] at h
    obtain ⟨o, -, n, -, s₂, hcp, rfl, rfl⟩ := h
    have hk := keepsLayouts_copyPagetables hcp
    obtain ⟨a', ha', -⟩ := hk.space (space_setSpace_self _ _ _)
    refine ⟨h0, ?_, by simp [ha']⟩
    rw [hk.curspace, setSpace_curspace, curspace_of_asCreate hc]

end Vm

namespace Kernel

theorem threadFork_eq_ok {k k' : Kernel} {fault : Option ForkFault} {t : Tid}
    (h : k.threadFork fault = some (.ok t, k')) :
    fault = none ∧ ∃ c th, k.current = some (c, th) ∧ t = k.nextTid ∧
      k'.threads t = some ⟨0, forkPid k.pcbs, th.tCwd, .fresh⟩ := by
  unfold threadFork at h
  split at h
  · simp at h
  · rename_i c th hcur
    rcases fault with _ | f
    · simp only [Option.some.injEq, Prod.mk.injEq, Except.ok.injEq] at h
      obtain ⟨rfl, rfl⟩ := h
      exact ⟨rfl, c, th, hcur, rfl, by simp [setThread]⟩
    · cases f <;> simp at h

theorem forkPid_of_free {pcbs : Nat → Option Pcb} (h : ∃ j, 1 ≤ j ∧ j < maxPid ∧ pcbs j = none) :
    1 ≤ forkPid pcbs ∧ forkPid pcbs < maxPid := by
  rcases ha : allocatePID pcbs with e | i
  · obtain ⟨j, h1, h2, hj⟩ := h
    exact absurd hj ((allocatePID_eq_error_iff.1 ha).2 j h1 h2)
  · obtain ⟨h1, h2, -⟩ := allocatePID_eq_ok_iff.1 ha
    rw [forkPid_of_ok ha]
    exact ⟨h1, h2⟩

end Kernel

namespace Machine

/-- `sys_fork(tf, retval)`: the error it returns, or `0` with `*retval`. `tfOk` says whether the
`kmalloc` of the trapframe copy returns a block. -/
def sysFork (p : Machine) (tf : Trapframe) (tfOk : Bool) (fault : Option ForkFault) :
    Option (Except Errno Nat × Machine) := do
  let (r, vm) ← p.vm.asCopy p.vm.curspace
  match r with
  | .error e => some (.error e, { p with vm })
  | .ok childVmspace =>
    -- on `NULL` the new address space is not destroyed
    if tfOk then do
      let (r, k) ← p.kernel.threadFork fault
      match r with
      -- `assert(child_thread != NULL)`: `thread_fork` sets it only when it succeeds
      | .error _ => none
      | .ok t => do
        let th ← k.threads t
        some (.ok th.pID, ⟨k, vm, Function.update p.starts t (some (tf, childVmspace))⟩)
    else some (.error .ENOMEM, { p with vm })

/-- `md_forkentry(tf, vmspace)`, up to the trapframe it enters user mode with. -/
def mdForkentry (p : Machine) (tf : Trapframe) (vmspace : Nat) : Option (Trapframe × Machine) :=
  let tf := { tf with tfEpc := (tf.tfEpc + 4) % 2 ^ 32, tfV0 := 0, tfA3 := 0 }
  if vmspace = 0 then none
  else some (tf, { p with vm := Vm.asActivate { p.vm with curspace := vmspace } })

/-- Thread `t`'s first run: `md_forkentry` on the arguments `thread_fork` kept for it. -/
def forkentry (p : Machine) (t : Tid) : Option (Trapframe × Machine) := do
  let (tf, vmspace) ← p.starts t
  p.mdForkentry tf vmspace

/-- `mips_syscall` on `SYS_fork`: the trapframe the parent returns to user mode with. -/
def mipsSyscallFork (p : Machine) (tf : Trapframe) (tfOk : Bool) (fault : Option ForkFault) :
    Option (Trapframe × Machine) := do
  let (r, p) ← p.sysFork tf tfOk fault
  match r with
  | .error e => some (syscallReturn tf e.code 0, p)
  | .ok pid => some (syscallReturn tf 0 pid, p)

variable {p p' : Machine} {tf : Trapframe} {tfOk : Bool} {fault : Option ForkFault}

theorem mdForkentry_eq (p : Machine) (tf : Trapframe) {vmspace : Nat} (h : vmspace ≠ 0) :
    p.mdForkentry tf vmspace =
      some (syscallReturn tf 0 0, { p with vm := Vm.asActivate { p.vm with curspace := vmspace } }) := by
  simp [mdForkentry, h, syscallReturn]

theorem sysFork_eq_ok {pid : Nat} (h : p.sysFork tf tfOk fault = some (.ok pid, p')) :
    ∃ c t th, p.vm.asCopy p.vm.curspace = some (.ok c, p'.vm) ∧
      p.kernel.threadFork fault = some (.ok t, p'.kernel) ∧ p'.kernel.threads t = some th ∧
      th.pID = pid ∧ p'.starts = Function.update p.starts t (some (tf, c)) := by
  unfold sysFork at h
  obtain ⟨⟨r, vm⟩, hc, h⟩ := Option.bind_eq_some_iff.1 h
  rcases r with e | c
  · simp at h
  · dsimp only at h
    split_ifs at h
    · obtain ⟨⟨r, k⟩, hf, h⟩ := Option.bind_eq_some_iff.1 h
      rcases r with e | t
      · simp at h
      · obtain ⟨th, hth, h⟩ := Option.bind_eq_some_iff.1 h
        simp only [Option.some.injEq, Prod.mk.injEq, Except.ok.injEq] at h
        obtain ⟨rfl, rfl⟩ := h
        exact ⟨c, t, th, hc, hf, hth, rfl, rfl⟩
    · simp at h

/-- `fork` returns twice. The parent resumes with `*retval` the pid of the child's thread; the
child, whenever it first runs, enters user mode with the trapframe the parent would resume with
for a return of `0`, on the address space `as_copy` made. -/
theorem sysFork_returns_twice {pid : Nat} (h : p.sysFork tf tfOk fault = some (.ok pid, p')) :
    ∃ t c, p.vm.asCopy p.vm.curspace = some (.ok c, p'.vm) ∧
      (p'.kernel.threads t).map (·.pID) = some pid ∧
      p.mipsSyscallFork tf tfOk fault = some (syscallReturn tf 0 pid, p') ∧
      ∀ q : Machine, q.starts t = p'.starts t →
        q.forkentry t = some (syscallReturn tf 0 0, { q with vm := Vm.asActivate { q.vm with curspace := c } }) := by
  obtain ⟨c, t, th, hc, -, hth, rfl, hst⟩ := sysFork_eq_ok h
  refine ⟨t, c, hc, by simp [hth], by simp [mipsSyscallFork, h], fun q hq => ?_⟩
  have hq' : q.starts t = some (tf, c) := by simp [hq, hst]
  rw [forkentry, hq']
  exact mdForkentry_eq q tf (Vm.asCopy_ok hc).1

theorem sysFork_pid_of_free {pid : Nat} (h : p.sysFork tf tfOk fault = some (.ok pid, p'))
    (hfree : ∃ j, 1 ≤ j ∧ j < maxPid ∧ p.kernel.pcbs j = none) : 1 ≤ pid ∧ pid < maxPid := by
  obtain ⟨c, t, th, -, hf, hth, rfl, -⟩ := sysFork_eq_ok h
  obtain ⟨-, c', th', -, rfl, ht⟩ := Kernel.threadFork_eq_ok hf
  rw [ht, Option.some.injEq] at hth
  subst hth
  exact Kernel.forkPid_of_free hfree

/-- A `kmalloc` of the trapframe that fails returns `ENOMEM` and leaves the copied address space
in place. -/
theorem sysFork_of_kmalloc_fails {c : Nat} {vm : Vm} (hc : p.vm.asCopy p.vm.curspace = some (.ok c, vm)) :
    p.sysFork tf false fault = some (.error .ENOMEM, { p with vm }) ∧ (vm.space c).isSome := by
  refine ⟨?_, (Vm.asCopy_ok hc).2.2⟩
  simp [sysFork, hc]

/-- A `thread_fork` that fails trips the assertion on its result. -/
theorem sysFork_of_threadFork_error {c : Nat} {vm : Vm} {e : Errno} {k : Kernel}
    (hc : p.vm.asCopy p.vm.curspace = some (.ok c, vm))
    (hf : p.kernel.threadFork fault = some (.error e, k)) : p.sysFork tf true fault = none := by
  simp [sysFork, hc, hf]

/-- With the process table full, a fork that succeeds returns pid `0` to the parent. -/
theorem sysFork_of_full {c : Nat} {vm : Vm} {t : Tid} {th : Thread}
    (hc : p.vm.asCopy p.vm.curspace = some (.ok c, vm)) (hcur : p.kernel.current = some (t, th))
    (hfull : ∀ j, 1 ≤ j → j < maxPid → p.kernel.pcbs j ≠ none) :
    ∃ p', p.sysFork tf true none = some (.ok 0, p') := by
  have hf := Kernel.threadFork_none hcur
  rw [Kernel.forkPid_of_full hfull] at hf
  simp [sysFork, hc, hf]

end Machine

/-- `thread_bootstrap`, once forks that failed after placing their PCBs have taken pids 2 to 511:
the process table is full. -/
def fullTable : Kernel := { threadBootstrap with
  nextTid := threadBootstrap.nextTid + 510
  pcbs := fun j => if 2 ≤ j ∧ j < 2 + 510 then some ⟨0, -1, some 0, 1⟩ else threadBootstrap.pcbs j }

theorem fullTable_reachable : Reachable fullTable := by
  have hrun := Kernel.run_failed_forks 510 (k := threadBootstrap) (m := 2) rfl rfl (by norm_num)
    (by norm_num [maxPid]) (fun j h1 h2 => ?_) (fun j h1 h2 => ?_)
  · exact Reachable.boot.run hrun
  · obtain rfl : j = 1 := by omega
    simp [threadBootstrap]
  · simp only [threadBootstrap, ite_eq_right_iff, reduceCtorEq, imp_false]
    omega

theorem fullTable_full : ∀ j, 1 ≤ j → j < maxPid → fullTable.pcbs j ≠ none := by
  intro j h1 h2
  simp only [fullTable, threadBootstrap, maxPid] at h2 ⊢
  split_ifs
  · simp
  · simp
  · exfalso
    omega

/-- The boot thread, with the table full, in the process of `faultPrefix`: a fork returns `0` to
the parent, which then resumes with the trapframe its child enters user mode with; a failed
`kmalloc` of the trapframe returns `ENOMEM` and leaves the address space `as_copy` made at
`0x80043000`; and a failed `thread_fork` crashes the kernel. -/
theorem fork_zero_pid_or_leak :
    Reachable fullTable ∧ ∃ vm, forkBoot.bind (·.exec Vm.faultPrefix) = some vm ∧ Vm.Reachable vm ∧
      ∀ tf : Trapframe,
        (∃ p' t, (⟨fullTable, vm, fun _ => none⟩ : Machine).mipsSyscallFork tf true none =
            some (syscallReturn tf 0 0, p') ∧
          (p'.forkentry t).map Prod.fst = some (syscallReturn tf 0 0)) ∧
        (∃ vm', (⟨fullTable, vm, fun _ => none⟩ : Machine).sysFork tf false none =
            some (.error .ENOMEM, ⟨fullTable, vm', fun _ => none⟩) ∧
          vm.space 0x80043000 = none ∧ (vm'.space 0x80043000).isSome) ∧
        (⟨fullTable, vm, fun _ => none⟩ : Machine).sysFork tf true (some .prealloc) = none := by
  have h : (forkBoot.bind (·.exec Vm.faultPrefix)).map (fun s => (s.asCopy s.curspace).map
      fun (r, _) => (r, (s.space 0x80043000).isSome)) = some (some (.ok 0x80043000, false)) := by
    decide +kernel
  obtain ⟨vm, hvm, h⟩ := Option.map_eq_some_iff.1 h
  obtain ⟨⟨r, vm'⟩, hc, h⟩ := Option.map_eq_some_iff.1 h
  simp only [Prod.mk.injEq] at h
  obtain ⟨rfl, hnone⟩ := h
  obtain ⟨s₀, hs₀, hex⟩ := Option.bind_eq_some_iff.1 hvm
  have hr : Vm.Reachable vm := Vm.Reachable.exec (Sys.Reach.init ⟨_, _, _, _, _, _, _, _, hs₀⟩) hex
  have hcur : fullTable.current = some (0, ⟨0, 1, none, .run⟩) := rfl
  refine ⟨fullTable_reachable, vm, hvm, hr, fun tf => ⟨?_, ?_, ?_⟩⟩
  · -- the parent gets pid `0`, and `*retval = 0` is what the child returns
    have hp : ∃ p', (⟨fullTable, vm, fun _ => none⟩ : Machine).sysFork tf true none =
        some (.ok 0, p') := Machine.sysFork_of_full hc hcur fullTable_full
    obtain ⟨p', hp'⟩ := hp
    obtain ⟨t, c, -, -, hm, hent⟩ := Machine.sysFork_returns_twice hp'
    exact ⟨p', t, hm, by simp [hent p' rfl]⟩
  · have hs : (⟨fullTable, vm, fun _ => none⟩ : Machine).sysFork tf false none =
        some (.error .ENOMEM, ⟨fullTable, vm', fun _ => none⟩) ∧ (vm'.space 0x80043000).isSome :=
      Machine.sysFork_of_kmalloc_fails hc
    exact ⟨vm', hs.1, by simpa using hnone, hs.2⟩
  · exact Machine.sysFork_of_threadFork_error hc (Kernel.threadFork_prealloc hcur)

end Os161
