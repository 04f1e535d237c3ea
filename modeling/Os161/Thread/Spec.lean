import Os161.Thread.Step
import Os161.Thread.Run

/-!
# What each operation of the thread system does

One lemma per function, stated over the lists and fields it changes, so that the proofs about
runs never unfold the functions again: the loop of `thread_wakeup` moves exactly the sleepers on
the address to the end of the run queue (`wakeupLoop_eq`), the loop of `thread_wakeup_single`
moves at most one (`wakeupSingleLoop_cases`), and `mi_switch` is the stash followed by
`scheduler`.
-/

namespace Os161

namespace Kernel

private theorem drop_eraseIdx_of_lt {l : List Tid} {i : ℕ} (h : i < l.length) :
    (l.eraseIdx i).drop i = l.drop (i + 1) := by
  rw [List.eraseIdx_eq_take_drop_succ, List.drop_append_of_le_length (by simp; omega)]
  simp

/-- `thread_wakeup`'s loop from index `i`: the sleepers before `i` stay, those after it on `addr`
are appended to the run queue in their order, and the others stay in theirs. -/
theorem wakeupLoop_eq (sa : Tid → Option Nat) (addr i : Nat) (sl rq : List Tid) :
    wakeupLoop sa addr i sl rq = (sl.take i ++ (sl.drop i).filter (fun t => sa t ≠ some addr),
      rq ++ (sl.drop i).filter (fun t => sa t = some addr)) := by
  fun_induction wakeupLoop sa addr i sl rq with
  | case1 i sl rq h hm ih =>
    rw [ih, List.take_eraseIdx_eq_take_of_le _ _ _ le_rfl, drop_eraseIdx_of_lt h,
      List.drop_eq_getElem_cons h, List.filter_cons_of_neg (by simpa using hm),
      List.filter_cons_of_pos (by simpa using hm)]
    simp
  | case2 i sl rq h hm ih =>
    rw [ih, List.drop_eq_getElem_cons h, List.take_succ_eq_append_getElem h,
      List.filter_cons_of_pos (by simpa using hm), List.filter_cons_of_neg (by simpa using hm)]
    simp only [List.append_assoc, List.cons_append, List.nil_append]
  | case3 i sl rq h =>
    rw [List.take_of_length_le (by omega), List.drop_of_length_le (by omega)]
    simp

/-- `thread_wakeup_single`'s loop moves nothing, or one sleeper on `addr`, from `sl` to the end
of the run queue. -/
theorem wakeupSingleLoop_cases (sa : Tid → Option Nat) (addr i : Nat) (sl rq : List Tid) :
    wakeupSingleLoop sa addr i sl rq = (sl, rq) ∨
      ∃ (j : Nat) (h : j < sl.length), sa sl[j] = some addr ∧
        wakeupSingleLoop sa addr i sl rq = (sl.eraseIdx j, rq ++ [sl[j]]) := by
  fun_induction wakeupSingleLoop sa addr i sl rq with
  | case1 i h hm => exact .inr ⟨i, h, hm, rfl⟩
  | case2 i h hm ih => exact ih
  | case3 i h => exact .inl rfl

theorem wakeupSingleLoop_first (sa : Tid → Option Nat) (addr i : Nat) (sl rq : List Tid) :
    ((∀ k (hk : k < sl.length), i ≤ k → sa sl[k] ≠ some addr) ∧
        wakeupSingleLoop sa addr i sl rq = (sl, rq)) ∨
      ∃ (j : Nat) (h : j < sl.length), i ≤ j ∧ sa sl[j] = some addr ∧
        (∀ k (hk : k < j), i ≤ k → sa sl[k] ≠ some addr) ∧
        wakeupSingleLoop sa addr i sl rq = (sl.eraseIdx j, rq ++ [sl[j]]) := by
  fun_induction wakeupSingleLoop sa addr i sl rq with
  | case1 i h hm =>
    exact .inr ⟨i, h, le_rfl, hm, fun k hk hik => absurd hk (by omega), rfl⟩
  | case2 i h hm ih =>
    have hi : ∀ k (hk : k < sl.length), k = i → sa sl[k] ≠ some addr := by
      rintro k hk rfl
      exact hm
    rcases ih with ⟨hnone, heq⟩ | ⟨j, hj, hij, hmj, hbefore, heq⟩
    · refine .inl ⟨fun k hk hik => ?_, heq⟩
      rcases Nat.eq_or_lt_of_le hik with hik | hlt
      · exact hi k hk hik.symm
      · exact hnone k hk hlt
    · refine .inr ⟨j, hj, by omega, hmj, fun k hk hik => ?_, heq⟩
      rcases Nat.eq_or_lt_of_le hik with hik | hlt
      · exact hi k (by omega) hik.symm
      · exact hbefore k hk hlt
  | case3 i h =>
    exact .inl ⟨fun k hk hik => absurd hk (by omega), rfl⟩

theorem threadWakeup_sleepers (k : Kernel) (addr : Nat) :
    (k.threadWakeup addr).sleepers = k.sleepers.filter (fun t => k.sleepaddr t ≠ some addr) := by
  simp [threadWakeup, wakeupLoop_eq]

theorem threadWakeup_runqueue (k : Kernel) (addr : Nat) :
    (k.threadWakeup addr).runqueue =
      k.runqueue ++ k.sleepers.filter (fun t => k.sleepaddr t = some addr) := by
  simp [threadWakeup, wakeupLoop_eq]

theorem threadWakeupSingle_cases (k : Kernel) (addr : Nat) :
    k.threadWakeupSingle addr = k ∨
      ∃ (j : Nat) (h : j < k.sleepers.length), k.sleepaddr k.sleepers[j] = some addr ∧
        k.threadWakeupSingle addr =
          { k with sleepers := k.sleepers.eraseIdx j, runqueue := k.runqueue ++ [k.sleepers[j]] } := by
  rcases wakeupSingleLoop_cases k.sleepaddr addr 0 k.sleepers k.runqueue with h | ⟨j, hj, hm, h⟩
  · left
    simp [threadWakeupSingle, h]
  · right
    exact ⟨j, hj, hm, by simp [threadWakeupSingle, h]⟩

theorem threadWakeupSingle_first (k : Kernel) (addr : Nat) :
    ((∀ j (hj : j < k.sleepers.length), k.sleepaddr k.sleepers[j] ≠ some addr) ∧
        k.threadWakeupSingle addr = k) ∨
      ∃ (j : Nat) (h : j < k.sleepers.length), k.sleepaddr k.sleepers[j] = some addr ∧
        (∀ i (hi : i < j), k.sleepaddr k.sleepers[i] ≠ some addr) ∧
        k.threadWakeupSingle addr =
          { k with sleepers := k.sleepers.eraseIdx j, runqueue := k.runqueue ++ [k.sleepers[j]] } := by
  rcases wakeupSingleLoop_first k.sleepaddr addr 0 k.sleepers k.runqueue with
    ⟨hnone, h⟩ | ⟨j, hj, -, hm, hbefore, h⟩
  · exact .inl ⟨fun j hj => hnone j hj (Nat.zero_le j), by simp [threadWakeupSingle, h]⟩
  · exact .inr ⟨j, hj, hm, fun i hi => hbefore i hi (Nat.zero_le i),
      by simp [threadWakeupSingle, h]⟩

theorem current_eq_some {k : Kernel} {c : Tid} {th : Thread} :
    k.current = some (c, th) ↔ k.curthread = some c ∧ k.threads c = some th := by
  unfold current
  cases hc : k.curthread with
  | none => simp
  | some c' =>
    simp only [Option.map_eq_some_iff, Prod.mk.injEq, Option.some.injEq]
    constructor
    · rintro ⟨th', h1, rfl, rfl⟩
      exact ⟨rfl, h1⟩
    · rintro ⟨rfl, h1⟩
      exact ⟨th, h1, rfl, rfl⟩

theorem curCtx_eq_some {k : Kernel} {x : Ctx} :
    k.curCtx = some x ↔ ∃ c th, k.curthread = some c ∧ k.threads c = some th ∧ th.ctx = x := by
  unfold curCtx
  constructor
  · intro h
    obtain ⟨⟨c, th⟩, hcur, rfl⟩ := Option.map_eq_some_iff.1 h
    obtain ⟨h1, h2⟩ := current_eq_some.1 hcur
    exact ⟨c, th, h1, h2, rfl⟩
  · rintro ⟨c, th, h1, h2, rfl⟩
    rw [current_eq_some.2 ⟨h1, h2⟩]
    rfl

theorem miSwitch_ready {k : Kernel} {c : Tid} (hc : k.curthread = some c) :
    k.miSwitch .S_READY = schedule ({ k with curthread := none }.makeRunnable c) := by
  simp [miSwitch, hc]

theorem miSwitch_sleep {k : Kernel} {c : Tid} (hc : k.curthread = some c) :
    k.miSwitch .S_SLEEP = schedule { k with curthread := none, sleepers := k.sleepers ++ [c] } := by
  simp [miSwitch, hc]

theorem miSwitch_zomb {k : Kernel} {c : Tid} (hc : k.curthread = some c) :
    k.miSwitch .S_ZOMB = schedule { k with curthread := none, zombies := k.zombies ++ [c] } := by
  simp [miSwitch, hc]

/-- The failure path of `thread_fork` gives back the share of the directory it took. -/
@[simp] theorem decref_incref (cwd : Option Nat) (rc : Nat → Nat) :
    decref cwd (incref cwd rc) = rc := by
  cases cwd with
  | none => rfl
  | some v =>
    funext w
    by_cases hw : w = v
    · subst hw
      simp [incref, decref]
    · simp [incref, decref, Function.update_of_ne hw]

theorem forkPid_of_ok {pcbs : Nat → Option Pcb} {i : Nat} (h : allocatePID pcbs = .ok i) :
    forkPid pcbs = i := by
  simp [forkPid, h]

theorem forkPid_of_full {pcbs : Nat → Option Pcb} (h : ∀ j, 1 ≤ j → j < maxPid → pcbs j ≠ none) :
    forkPid pcbs = 0 := by
  simp [forkPid, allocatePID_eq_error_iff.2 ⟨rfl, h⟩]

theorem threadFork_none {k : Kernel} {c : Tid} {th : Thread} (hcur : k.current = some (c, th)) :
    k.threadFork none = some (.ok k.nextTid, { k with
      threads := Function.update k.threads k.nextTid (some ⟨0, forkPid k.pcbs, th.tCwd, .fresh⟩)
      nextTid := k.nextTid + 1
      runqueue := k.runqueue ++ [k.nextTid]
      numthreads := k.numthreads + 1
      pcbs := Function.update k.pcbs (forkPid k.pcbs) (some ⟨0, -1, some c, th.pID⟩)
      refcount := incref th.tCwd k.refcount }) := by
  simp [threadFork, hcur, setPcb, setThread]

/-- A `thread_fork` that fails after the PCB went in leaves the PCB and the used structure
identity, and nothing else. -/
theorem threadFork_prealloc {k : Kernel} {c : Tid} {th : Thread} (hcur : k.current = some (c, th)) :
    k.threadFork (some .prealloc) = some (.error .ENOMEM, { k with
      nextTid := k.nextTid + 1
      pcbs := Function.update k.pcbs (forkPid k.pcbs) (some ⟨0, -1, some c, th.pID⟩) }) := by
  simp [threadFork, hcur, setPcb]

end Kernel

/-- `thread_wakeup(addr)` takes out of `sleepers` exactly the threads sleeping on `addr`, appends
them to the run queue in their order there, keeps the others in theirs and changes nothing else;
`thread_wakeup_single(addr)` moves the first sleeper on `addr`, if there is one, and otherwise
changes nothing. -/
theorem thread_wakeup_exact (k : Kernel) (addr : Nat) :
    k.threadWakeup addr = { k with
      sleepers := k.sleepers.filter (fun t => k.sleepaddr t ≠ some addr)
      runqueue := k.runqueue ++ k.sleepers.filter (fun t => k.sleepaddr t = some addr) } ∧
    ((∀ j (hj : j < k.sleepers.length), k.sleepaddr k.sleepers[j] ≠ some addr) →
      k.threadWakeupSingle addr = k) ∧
    (∀ j (hj : j < k.sleepers.length), k.sleepaddr k.sleepers[j] = some addr →
      (∀ i (hi : i < j), k.sleepaddr k.sleepers[i] ≠ some addr) →
      k.threadWakeupSingle addr =
        { k with sleepers := k.sleepers.eraseIdx j, runqueue := k.runqueue ++ [k.sleepers[j]] }) := by
  refine ⟨?_, fun hnone => ?_, fun j hj hm hbefore => ?_⟩
  · rw [← Kernel.threadWakeup_sleepers, ← Kernel.threadWakeup_runqueue]
    rfl
  · rcases k.threadWakeupSingle_first addr with ⟨-, h⟩ | ⟨j, hj, hm, -, -⟩
    · exact h
    · exact absurd hm (hnone j hj)
  · rcases k.threadWakeupSingle_first addr with ⟨hnone, -⟩ | ⟨j', hj', hm', hbefore', h⟩
    · exact absurd hm (hnone j hj)
    · obtain rfl : j' = j := by
        rcases lt_trichotomy j' j with hlt | heq | hgt
        · exact absurd hm' (hbefore j' hlt)
        · exact heq
        · exact absurd hm (hbefore' j hgt)
      exact h

/-- Three children forked; the boot thread and the second child sleep on `0x80000000`, the first
child on `0x80000004`. -/
def threeSleepers : Kernel :=
  (threadBootstrap.run [.fork none, .fork none, .fork none, .sleep 0x80000000, .sleep 0x80000004,
    .sleep 0x80000000]).getD threadBootstrap

theorem thread_wakeup_exact_three_sleepers :
    threeSleepers.sleepers.map threeSleepers.sleepaddr =
        [some 0x80000000, some 0x80000004, some 0x80000000] ∧
      threeSleepers.threadWakeup 0x80000000 = { threeSleepers with
        sleepers := threeSleepers.sleepers.filter (fun t => threeSleepers.sleepaddr t ≠ some 0x80000000)
        runqueue := threeSleepers.runqueue ++
          threeSleepers.sleepers.filter (fun t => threeSleepers.sleepaddr t = some 0x80000000) } ∧
      ((∀ j (hj : j < threeSleepers.sleepers.length),
          threeSleepers.sleepaddr threeSleepers.sleepers[j] ≠ some 0x80000000) →
        threeSleepers.threadWakeupSingle 0x80000000 = threeSleepers) ∧
      (∀ j (hj : j < threeSleepers.sleepers.length),
        threeSleepers.sleepaddr threeSleepers.sleepers[j] = some 0x80000000 →
        (∀ i (hi : i < j), threeSleepers.sleepaddr threeSleepers.sleepers[i] ≠ some 0x80000000) →
        threeSleepers.threadWakeupSingle 0x80000000 = { threeSleepers with
          sleepers := threeSleepers.sleepers.eraseIdx j
          runqueue := threeSleepers.runqueue ++ [threeSleepers.sleepers[j]] }) :=
  ⟨by decide +kernel, thread_wakeup_exact threeSleepers 0x80000000⟩

end Os161
