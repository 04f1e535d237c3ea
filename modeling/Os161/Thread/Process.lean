import Os161.Thread.Partition
import Os161.Thread.Run

/-!
# The process table over runs

`thread_fork` fills the child's PCB before its preallocations and leaves it in `PCBs` when one
of them fails, names `curthread` in it as `this_thread`, and drops an `EAGAIN` from
`allocate_PID`, so that a full table hands out pid 0 again and again. `thread_exit` stores
exit code 0, and `sys_waitpid` stores no status word.

`run_failed_forks` runs any number of failing forks at once; the runs below use it to fill the
table.
-/

namespace Os161

namespace Kernel

/-- Forks that fail in their preallocations take the free slots of `PCBs` from `m` on, one
each, and change nothing else but `nextTid`. -/
theorem run_failed_forks {c : Tid} {th : Thread} (n : Nat) {k : Kernel} {m : Nat}
    (hcur : k.current = some (c, th)) (hrun : th.ctx = .run) (hm : 1 ≤ m) (hn : m + n ≤ maxPid)
    (hfull : ∀ j, 1 ≤ j → j < m → k.pcbs j ≠ none)
    (hfree : ∀ j, m ≤ j → j < maxPid → k.pcbs j = none) :
    k.run (List.replicate n (.fork (some .prealloc))) = some { k with
      nextTid := k.nextTid + n
      pcbs := fun j => if m ≤ j ∧ j < m + n then some ⟨0, -1, some c, th.pID⟩ else k.pcbs j } := by
  induction n generalizing k m with
  | zero =>
    rw [List.replicate_zero, run, Option.some.injEq]
    refine Kernel.ext rfl rfl rfl rfl rfl rfl rfl (funext fun j => ?_) rfl
    have hj : ¬ (m ≤ j ∧ j < m + 0) := by omega
    exact (if_neg hj).symm
  | succ n ih =>
    have hlt : m < maxPid := by omega
    have hpid : forkPid k.pcbs = m :=
      forkPid_of_ok (allocatePID_eq_ok_iff.2 ⟨hm, hlt, hfree m le_rfl hlt, hfull⟩)
    obtain ⟨hc, hth⟩ := current_eq_some.1 hcur
    have hctx : k.curCtx = some .run := curCtx_eq_some.2 ⟨c, th, hc, hth, hrun⟩
    set P : Pcb := ⟨0, -1, some c, th.pID⟩
    set k1 : Kernel := { k with
      nextTid := k.nextTid + 1
      pcbs := Function.update k.pcbs m (some P) }
    have hcall : k.call (.fork (some .prealloc)) = some (.forked (.error .ENOMEM), k1) := by
      rw [call, if_pos hctx, threadFork_prealloc hcur, hpid]
      rfl
    have hfull1 : ∀ j, 1 ≤ j → j < m + 1 → k1.pcbs j ≠ none := by
      intro j h1 h2
      by_cases hj : j = m
      · subst hj
        simp [k1]
      · simpa [k1, Function.update_of_ne hj] using hfull j h1 (by omega)
    have hfree1 : ∀ j, m + 1 ≤ j → j < maxPid → k1.pcbs j = none := by
      intro j h1 h2
      simpa [k1, Function.update_of_ne (show j ≠ m by omega)] using hfree j (by omega) h2
    have hrun1 := ih (k := k1) (m := m + 1) hcur (by omega) (by omega) hfull1 hfree1
    rw [List.replicate_succ, run, hcall, Option.bind_some]
    dsimp only
    rw [hrun1, Option.some.injEq]
    refine Kernel.ext rfl ?_ rfl rfl rfl rfl rfl (funext fun j => ?_) rfl
    · show k.nextTid + 1 + n = k.nextTid + (n + 1)
      rw [Nat.add_assoc, Nat.add_comm 1 n]
    · show (if m + 1 ≤ j ∧ j < m + 1 + n then some P else Function.update k.pcbs m (some P) j) =
        if m ≤ j ∧ j < m + (n + 1) then some P else k.pcbs j
      by_cases hj : j = m
      · subst hj
        simp
      · rw [Function.update_of_ne hj]
        split_ifs <;> first | rfl | (exfalso; omega)

end Kernel

/-- A successful `thread_fork` leaves the child runnable under a PCB whose `this_thread` is the
parent, never the child. -/
theorem fork_pcb_names_parent {k k' : Kernel} {t : Tid} (h : Reachable k)
    (hc : k.curCtx = some .run) (hf : k.threadFork none = some (.ok t, k')) :
    Reachable k' ∧ ∃ th p, k'.threads t = some th ∧ k'.pcbs th.pID = some p ∧
      p.thisThread ≠ some t := by
  refine ⟨h.step (.fork none _ hc hf), ?_⟩
  obtain ⟨c, th, hcur, hth, -⟩ := Kernel.curCtx_eq_some.1 hc
  rw [Kernel.threadFork_none (Kernel.current_eq_some.2 ⟨hcur, hth⟩), Option.some.injEq,
    Prod.mk.injEq, Except.ok.injEq] at hf
  obtain ⟨rfl, rfl⟩ := hf
  have hlt : c < k.nextTid := h.threadInv.1.lt_next c (by simp [hth])
  refine ⟨⟨0, Kernel.forkPid k.pcbs, th.tCwd, .fresh⟩, ⟨0, -1, some c, th.pID⟩, by simp, by simp, ?_⟩
  simp only [ne_eq, Option.some.injEq]
  exact Nat.ne_of_lt hlt

theorem fork_pcb_names_parent_boot :
    ∃ k', threadBootstrap.threadFork none = some (.ok 1, k') ∧ Reachable k' ∧
      ∃ th p, k'.threads 1 = some th ∧ k'.pcbs th.pID = some p ∧ p.thisThread ≠ some 1 :=
  ⟨_, rfl, fork_pcb_names_parent Reachable.boot rfl rfl⟩

/-- A child that calls `_exit(7)` leaves exit code 0 in its PCB, and its parent's `waitpid`
returns its pid without storing a status word. -/
theorem waitpid_status_not_stored :
    ∃ k, threadBootstrap.run [.fork none, .yield, .sysExit 7] = some k ∧
      (k.pcbs 2).map (·.exitCode) = some 0 ∧
      (k.call (.waitpid 2)).map Prod.fst = some (.waited ⟨.ok 2, none⟩) := by
  have hrun : (threadBootstrap.run [.fork none, .yield, .sysExit 7]).map
      (fun k => ((k.pcbs 2).map (·.exitCode), (k.call (.waitpid 2)).map Prod.fst)) =
      some (some 0, some (.waited ⟨.ok 2, none⟩)) := by
    decide +kernel
  obtain ⟨k, hk, hobs⟩ := Option.map_eq_some_iff.1 hrun
  simp only [Prod.mk.injEq] at hobs
  exact ⟨k, hk, hobs.1, hobs.2⟩

/-- The script that loses a wakeup, once the table is full but for the pid 2 of the first child
`D`: the boot thread forks `A` and `B`, both with pid 0; `D` exits and the boot thread reaps it;
`A` forks `C`, which gets pid 2 with parent 0; `A` and `B` both wait for 2; `C` exits and wakes
`A` only. -/
def lostWakeupScript : List Call :=
  [.fork none, .fork none, .yield, .sysExit 0, .yield, .yield, .waitpid 2, .yield, .fork none,
    .waitpid 2, .waitpid 2, .yield, .exit]

/-- A thread can sleep in `sys_waitpid` on a child whose PCB says it has exited. -/
theorem waitpid_sleeper_outlives_child :
    ∃ k, Reachable k ∧ ∃ t th c p, t ∈ k.sleepers ∧ k.threads t = some th ∧
      th.ctx = .waitpid c ∧ k.pcbs c = some p ∧ p.exited = 1 := by
  -- `thread_bootstrap` and a first fork, whose child `D` takes pid 2
  set k1 := (threadBootstrap.run [.fork none]).getD threadBootstrap with hk1def
  have hk1 : threadBootstrap.run [.fork none] = some k1 := rfl
  have hpcbs : k1.pcbs = Function.update threadBootstrap.pcbs 2 (some ⟨0, -1, some 0, 1⟩) := rfl
  -- 509 forks that fail take pids 3 to 511
  have hk2 := Kernel.run_failed_forks 509 (k := k1) (m := 3) rfl rfl (by norm_num)
    (by norm_num [maxPid]) (fun j h1 h2 => ?_) (fun j h3 h4 => ?_)
  rotate_left
  · rw [hpcbs]
    interval_cases j <;> simp [threadBootstrap]
  · rw [hpcbs, Function.update_of_ne (by omega)]
    simp only [threadBootstrap, ite_eq_right_iff, reduceCtorEq, imp_false]
    omega
  set k2 := { k1 with
    nextTid := k1.nextTid + 509
    pcbs := fun j => if 3 ≤ j ∧ j < 3 + 509 then some ⟨0, -1, some 0, 1⟩ else k1.pcbs j }
  have hk3 : (k2.run lostWakeupScript).map (fun k => (k.sleepers, k.threads 512, k.pcbs 2)) =
      some ([512], some ⟨2, 0, none, .waitpid 2⟩, some ⟨1, 0, some 511, 0⟩) := by
    decide +kernel
  obtain ⟨k3, hrun, hobs⟩ := Option.map_eq_some_iff.1 hk3
  simp only [Prod.mk.injEq] at hobs
  obtain ⟨hsl, hth, hp⟩ := hobs
  have hall : threadBootstrap.run
      ([.fork none] ++ List.replicate 509 (.fork (some .prealloc)) ++ lostWakeupScript) =
      some k3 := by
    rw [Kernel.run_append, Kernel.run_append, hk1, Option.bind_some, hk2, Option.bind_some]
    exact hrun
  exact ⟨k3, Reachable.boot.run hall, 512, _, 2, _, by simp [hsl], hth, rfl, hp, rfl⟩

/-- A `thread_fork` that fails in its preallocations returns `ENOMEM` with the child's PCB still
in the table: from `thread_bootstrap`, slot 2 was free before the call and holds a PCB after it. -/
theorem fork_failure_keeps_pcb :
    ∃ k', threadBootstrap.threadFork (some .prealloc) = some (.error .ENOMEM, k') ∧
      Reachable k' ∧ threadBootstrap.pcbs 2 = none ∧ k'.pcbs 2 = some ⟨0, -1, some 0, 1⟩ := by
  have hcur : threadBootstrap.current = some (0, ⟨0, 1, none, .run⟩) := rfl
  have hpid : Kernel.forkPid threadBootstrap.pcbs = 2 :=
    Kernel.forkPid_of_ok (allocatePID_eq_ok_iff.2 ⟨by decide, by decide, rfl, fun j h1 h2 => by
      obtain rfl : j = 1 := by omega
      simp [threadBootstrap]⟩)
  have hf := Kernel.threadFork_prealloc hcur
  refine ⟨_, hf, Reachable.boot.step (.fork _ _ rfl hf), rfl, ?_⟩
  simp [hpid]

namespace Kernel

/-- `sys_waitpid` reads `PCBs[child_pID]->parent` before it tests the slot, so a pid in range with
no process, other than the caller's own, makes the kernel follow a `NULL` pointer. -/
theorem sysWaitpid_of_absent {k : Kernel} {c : Tid} {th : Thread} {pid : Nat}
    (hcur : k.current = some (c, th)) (hme : k.pcbs th.pID ≠ none) (h1 : minPid ≤ pid)
    (h2 : pid < maxPid) (hne : pid ≠ th.pID) (hnone : k.pcbs pid = none) :
    k.sysWaitpid pid = none := by
  have hrange : ¬ ((pid : Int) < minPid ∨ (pid : Int) > maxPid) := by omega
  have hself : ¬ (pid : Int) = th.pID := by omega
  have hlt : ¬ maxPid ≤ (pid : Int).toNat := by omega
  simp only [sysWaitpid, hcur]
  rw [if_neg hme, if_neg hrange, if_neg hself, if_neg hlt, Int.toNat_natCast, hnone]

/-- The range test of `sys_waitpid` lets `MAX_PID` through, and `PCBs[MAX_PID]` is past the end of
the table. -/
theorem sysWaitpid_maxPid {k : Kernel} {c : Tid} {th : Thread} (hcur : k.current = some (c, th))
    (hme : k.pcbs th.pID ≠ none) (hne : th.pID ≠ maxPid) :
    k.sysWaitpid maxPid = none := by
  have hrange : ¬ ((maxPid : Int) < minPid ∨ (maxPid : Int) > maxPid) := by decide
  have hself : ¬ (maxPid : Int) = th.pID := by omega
  simp only [sysWaitpid, hcur]
  rw [if_neg hme, if_neg hrange, if_neg hself, if_pos (by decide)]

end Kernel

/-- Right after `thread_bootstrap`, `waitpid` on pid 2, where there is no process, and on
`MAX_PID` both crash the kernel instead of returning an error. -/
theorem waitpid_bad_pid_panics :
    Reachable threadBootstrap ∧ threadBootstrap.pcbs 2 = none ∧
      threadBootstrap.sysWaitpid 2 = none ∧ threadBootstrap.sysWaitpid maxPid = none := by
  have hcur : threadBootstrap.current = some (0, ⟨0, 1, none, .run⟩) := rfl
  have hme : threadBootstrap.pcbs 1 ≠ none := by simp [threadBootstrap]
  refine ⟨.boot, rfl, ?_, Kernel.sysWaitpid_maxPid hcur hme (by decide)⟩
  exact Kernel.sysWaitpid_of_absent hcur hme (by decide) (by decide) (by decide) rfl

end Os161
