import Os161.Thread.Spec
import Os161.Thread.Run

/-!
# Every thread is in exactly one place

Over every run from `thread_bootstrap`, each thread structure `thread_create` ever handed out is
running, on the run queue, in `sleepers`, in `zombies`, or freed, and in exactly one of these
places; a sleeper has a sleep address; and `numthreads` counts the running, runnable and
sleeping threads (`thread_partition`).

The invariant is `ThreadInv`: the list of placed threads has no duplicates and holds exactly
the threads whose structure is live, and `numthreads` is the length of its active part. Every
operation moves threads between the lists as a permutation (`Partition.of_perm`), except
`exorcise`, which frees the zombies, and `thread_fork`, which adds one fresh thread.
-/

namespace Os161

namespace Kernel

/-- The running thread and the threads on the run queue, `sleepers` and `zombies`. -/
def placed (k : Kernel) : List Tid :=
  k.curthread.toList ++ k.runqueue ++ k.sleepers ++ k.zombies

/-- The threads that are running, runnable or asleep: those `numthreads` counts. -/
def active (k : Kernel) : List Tid :=
  k.curthread.toList ++ k.runqueue ++ k.sleepers

/-- In how many places of the thread system thread `t` is, a freed structure counting as one. -/
def places (k : Kernel) (t : Tid) : Nat :=
  (if k.curthread = some t then 1 else 0) + k.runqueue.count t + k.sleepers.count t +
    k.zombies.count t + (if k.threads t = none then 1 else 0)

@[simp] theorem placed_setThread (k : Kernel) (t : Tid) (th : Thread) :
    (k.setThread t th).placed = k.placed := rfl

@[simp] theorem active_setThread (k : Kernel) (t : Tid) (th : Thread) :
    (k.setThread t th).active = k.active := rfl

@[simp] theorem placed_setPcb (k : Kernel) (i : Nat) (p : Option Pcb) :
    (k.setPcb i p).placed = k.placed := rfl

@[simp] theorem active_setPcb (k : Kernel) (i : Nat) (p : Option Pcb) :
    (k.setPcb i p).active = k.active := rfl

end Kernel

/-- The child a thread inside `sys_waitpid` waits for. -/
def Ctx.child : Ctx → Option Nat
  | .waitpid c => some c
  | .recheck c => some c
  | _ => none

/-- Where the threads are. -/
structure Partition (k : Kernel) : Prop where
  nodup : k.placed.Nodup
  mem_placed : ∀ t, t ∈ k.placed ↔ k.threads t ≠ none
  lt_next : ∀ t, k.threads t ≠ none → t < k.nextTid
  sleeping : ∀ t ∈ k.sleepers, ∀ th, k.threads t = some th → th.tSleepaddr ≠ 0
  /-- `sys_waitpid` only waits for a pid it checked to be at least `MIN_PID`. -/
  waiting : ∀ t th, k.threads t = some th → th.ctx.child ≠ some 0

/-- The invariant of the thread system. -/
def ThreadInv (k : Kernel) : Prop :=
  Partition k ∧ k.numthreads = k.active.length

namespace Partition

variable {k k' : Kernel}

/-- Moving placed threads between the lists keeps the partition, if the threads that end up in
`sleepers` have sleep addresses. -/
theorem of_perm (hp : Partition k) (ht : k'.threads = k.threads) (hn : k'.nextTid = k.nextTid)
    (hperm : k'.placed.Perm k.placed)
    (hs : ∀ t ∈ k'.sleepers, ∀ th, k.threads t = some th → th.tSleepaddr ≠ 0) :
    Partition k' where
  nodup := hperm.nodup_iff.2 hp.nodup
  mem_placed t := by
    rw [hperm.mem_iff, ht]
    exact hp.mem_placed t
  lt_next t h := by
    rw [hn]
    exact hp.lt_next t (ht ▸ h)
  sleeping t h th hth := hs t h th (ht ▸ hth)
  waiting t th hth := hp.waiting t th (ht ▸ hth)

theorem threads_ne_none_of_cur (hp : Partition k) {c : Tid} (hc : k.curthread = some c) :
    k.threads c ≠ none :=
  (hp.mem_placed c).1 (by simp [Kernel.placed, hc])

theorem cur_not_mem_sleepers (hp : Partition k) {c : Tid} (hc : k.curthread = some c) :
    c ∉ k.sleepers := by
  intro hs
  have hnd := hp.nodup
  rw [Kernel.placed, hc] at hnd
  simp only [Option.toList_some, List.cons_append, List.nodup_cons] at hnd
  exact hnd.1 (by simp [hs])

theorem cur_not_mem_zombies (hp : Partition k) {c : Tid} (hc : k.curthread = some c) :
    c ∉ k.zombies := by
  intro hz
  have hnd := hp.nodup
  rw [Kernel.placed, hc] at hnd
  simp only [Option.toList_some, List.cons_append, List.nodup_cons] at hnd
  exact hnd.1 (by simp [hz])

theorem setThread (hp : Partition k) {t : Tid} {th : Thread} (ht : k.threads t ≠ none)
    (hs : t ∈ k.sleepers → th.tSleepaddr ≠ 0) (hw : th.ctx.child ≠ some 0) :
    Partition (k.setThread t th) where
  nodup := hp.nodup
  mem_placed u := by
    by_cases hu : u = t
    · subst hu
      simpa using (hp.mem_placed u).2 ht
    · simpa [Function.update_of_ne hu] using hp.mem_placed u
  lt_next u h := by
    by_cases hu : u = t
    · subst hu
      exact hp.lt_next u ht
    · exact hp.lt_next u (by simpa [Function.update_of_ne hu] using h)
  sleeping u hu th' hth := by
    by_cases hut : u = t
    · subst hut
      simp only [Kernel.setThread_threads, Function.update_self, Option.some.injEq] at hth
      subst hth
      exact hs hu
    · exact hp.sleeping u hu th' (by simpa [Function.update_of_ne hut] using hth)
  waiting u th' hth := by
    by_cases hut : u = t
    · subst hut
      simp only [Kernel.setThread_threads, Function.update_self, Option.some.injEq] at hth
      subst hth
      exact hw
    · exact hp.waiting u th' (by simpa [Function.update_of_ne hut] using hth)

theorem of_runqueue_sleepers (hp : Partition k) (ht : k'.threads = k.threads)
    (hn : k'.nextTid = k.nextTid) (hc : k'.curthread = k.curthread) (hz : k'.zombies = k.zombies)
    (hrs : (k'.runqueue ++ k'.sleepers).Perm (k.runqueue ++ k.sleepers))
    (hsl : ∀ t ∈ k'.sleepers, t ∈ k.sleepers) : Partition k' := by
  refine hp.of_perm ht hn ?_ (fun t h th hth => hp.sleeping t (hsl t h) th hth)
  simp only [Kernel.placed, hc, hz, List.append_assoc]
  refine List.Perm.append_left _ ?_
  simpa only [List.append_assoc] using hrs.append_right k.zombies

end Partition

namespace Kernel

theorem threadWakeup_perm (k : Kernel) (addr : Nat) :
    ((k.threadWakeup addr).runqueue ++ (k.threadWakeup addr).sleepers).Perm
      (k.runqueue ++ k.sleepers) := by
  rw [threadWakeup_runqueue, threadWakeup_sleepers, List.append_assoc]
  refine List.Perm.append_left _ ?_
  simpa using List.filter_append_perm (fun t => decide (k.sleepaddr t = some addr)) k.sleepers

theorem threadWakeupSingle_perm (k : Kernel) (addr : Nat) :
    ((k.threadWakeupSingle addr).runqueue ++ (k.threadWakeupSingle addr).sleepers).Perm
      (k.runqueue ++ k.sleepers) := by
  rcases k.threadWakeupSingle_cases addr with h | ⟨j, hj, -, h⟩
  · rw [h]
  · rw [h]
    simp only [List.append_assoc, List.singleton_append]
    exact List.Perm.append_left _ (List.getElem_cons_eraseIdx_perm hj)

theorem threadWakeupSingle_sleepers_subset (k : Kernel) (addr : Nat) :
    ∀ t ∈ (k.threadWakeupSingle addr).sleepers, t ∈ k.sleepers := by
  rcases k.threadWakeupSingle_cases addr with h | ⟨j, hj, -, h⟩
  · rw [h]
    exact fun t ht => ht
  · rw [h]
    exact fun t ht => List.mem_of_mem_eraseIdx ht

theorem active_length_of_perm {k k' : Kernel}
    (hrs : (k'.runqueue ++ k'.sleepers).Perm (k.runqueue ++ k.sleepers))
    (hc : k'.curthread = k.curthread) :
    k'.active.length = k.active.length := by
  have := hrs.length_eq
  simp only [List.length_append] at this
  simp only [active, List.length_append, hc]
  omega

end Kernel

namespace Partition

theorem of_fields (hp : Partition k) (ht : k'.threads = k.threads) (hn : k'.nextTid = k.nextTid)
    (hc : k'.curthread = k.curthread) (hq : k'.runqueue = k.runqueue)
    (hs : k'.sleepers = k.sleepers) (hz : k'.zombies = k.zombies) : Partition k' :=
  hp.of_perm ht hn (by simp [Kernel.placed, hc, hq, hs, hz]) fun t h th hth =>
    hp.sleeping t (hs ▸ h) th hth

theorem of_freed (hp : Partition k) (ht : k'.threads = k.threads)
    (hn : k'.nextTid = k.nextTid + 1) (hc : k'.curthread = k.curthread)
    (hq : k'.runqueue = k.runqueue) (hs : k'.sleepers = k.sleepers)
    (hz : k'.zombies = k.zombies) : Partition k' where
  nodup := by simpa [Kernel.placed, hc, hq, hs, hz] using hp.nodup
  mem_placed t := by simpa [Kernel.placed, hc, hq, hs, hz, ht] using hp.mem_placed t
  lt_next t h := by
    rw [hn]
    exact Nat.lt_succ_of_lt (hp.lt_next t (ht ▸ h))
  sleeping t h th hth := hp.sleeping t (hs ▸ h) th (ht ▸ hth)
  waiting t th hth := hp.waiting t th (ht ▸ hth)

theorem of_fresh (hp : Partition k) {th : Thread} (hw : th.ctx.child ≠ some 0)
    (ht : k'.threads = Function.update k.threads k.nextTid (some th))
    (hn : k'.nextTid = k.nextTid + 1) (hc : k'.curthread = k.curthread)
    (hq : k'.runqueue = k.runqueue ++ [k.nextTid]) (hs : k'.sleepers = k.sleepers)
    (hz : k'.zombies = k.zombies) : Partition k' := by
  have hnone : k.threads k.nextTid = none := by
    by_contra hne
    exact Nat.lt_irrefl _ (hp.lt_next _ hne)
  have hnot : k.nextTid ∉ k.placed := fun hm => (hp.mem_placed _).1 hm hnone
  have hperm : k'.placed.Perm (k.nextTid :: k.placed) := by
    have hmid : (k.curthread.toList ++ k.runqueue ++ k.nextTid :: (k.sleepers ++ k.zombies)).Perm
        (k.nextTid :: (k.curthread.toList ++ k.runqueue ++ (k.sleepers ++ k.zombies))) :=
      List.perm_middle
    simp only [List.append_assoc] at hmid
    simpa only [Kernel.placed, hc, hq, hs, hz, List.append_assoc, List.singleton_append,
      List.cons_append, List.nil_append] using hmid
  refine ⟨hperm.nodup_iff.2 (List.nodup_cons.2 ⟨hnot, hp.nodup⟩), fun t => ?_, fun t h => ?_,
    fun t h th' hth => ?_, fun t th' hth => ?_⟩
  · rw [hperm.mem_iff, ht, List.mem_cons]
    by_cases htn : t = k.nextTid
    · simp [htn]
    · simp [htn, hp.mem_placed t]
  · rw [hn]
    by_cases htn : t = k.nextTid
    · rw [htn]
      exact Nat.lt_succ_self _
    · exact Nat.lt_succ_of_lt (hp.lt_next t (by simpa [ht, Function.update_of_ne htn] using h))
  · have htn : t ≠ k.nextTid := by
      rintro rfl
      exact hnot (by simp [Kernel.placed, ← hs, h])
    exact hp.sleeping t (hs ▸ h) th' (by simpa [ht, Function.update_of_ne htn] using hth)
  · by_cases htn : t = k.nextTid
    · subst htn
      rw [ht, Function.update_self, Option.some.injEq] at hth
      exact hth ▸ hw
    · exact hp.waiting t th' (by simpa [ht, Function.update_of_ne htn] using hth)

theorem threadWakeup (hp : Partition k) (addr : Nat) : Partition (k.threadWakeup addr) :=
  hp.of_runqueue_sleepers rfl rfl rfl rfl (k.threadWakeup_perm addr) fun t ht => by
    rw [Kernel.threadWakeup_sleepers] at ht
    exact List.mem_of_mem_filter ht

theorem threadWakeupSingle (hp : Partition k) (addr : Nat) :
    Partition (k.threadWakeupSingle addr) :=
  hp.of_runqueue_sleepers rfl rfl rfl rfl (k.threadWakeupSingle_perm addr)
    (k.threadWakeupSingle_sleepers_subset addr)

theorem count_placed (k : Kernel) (t : Tid) :
    k.placed.count t = (if k.curthread = some t then 1 else 0) + k.runqueue.count t +
      k.sleepers.count t + k.zombies.count t := by
  cases hc : k.curthread with
  | none =>
    simp [Kernel.placed, hc, List.count_append]
    omega
  | some c =>
    by_cases hct : c = t
    · simp [Kernel.placed, hc, hct, List.count_append]
      omega
    · simp [Kernel.placed, hc, hct, List.count_append]
      omega

theorem places_eq_one (hp : Partition k) (t : Tid) : k.places t = 1 := by
  have hcount := count_placed k t
  unfold Kernel.places
  by_cases ht : k.threads t = none
  · have h0 : k.placed.count t = 0 := List.count_eq_zero.2 fun hm => (hp.mem_placed t).1 hm ht
    rw [if_pos ht]
    omega
  · have h1 : k.placed.count t = 1 := List.count_eq_one_of_mem hp.nodup ((hp.mem_placed t).2 ht)
    rw [if_neg ht]
    omega

theorem not_mem_active_of_zombie (hp : Partition k) {t : Tid} (hz : t ∈ k.zombies) :
    t ∉ k.runqueue ∧ t ∉ k.sleepers := by
  have hd := List.disjoint_of_nodup_append hp.nodup
  constructor
  · exact fun hq => hd (by simp [hq]) hz
  · exact fun hs => hd (by simp [hs]) hz

theorem not_mem_active_of_freed (hp : Partition k) {t : Tid} (ht : k.threads t = none) :
    t ∉ k.runqueue ∧ t ∉ k.sleepers := by
  have hn : t ∉ k.placed := fun hm => (hp.mem_placed t).1 hm ht
  simp only [Kernel.placed, List.mem_append, not_or] at hn
  exact ⟨hn.1.1.2, hn.1.2⟩

theorem sleeper_has_addr (hp : Partition k) {t : Tid} (hs : t ∈ k.sleepers) :
    ∃ th, k.threads t = some th ∧ th.tSleepaddr ≠ 0 := by
  obtain ⟨th, hth⟩ := Option.ne_none_iff_exists'.1 ((hp.mem_placed t).1 (by simp [Kernel.placed, hs]))
  exact ⟨th, hth, hp.sleeping t hs th hth⟩

end Partition

namespace ThreadInv

variable {k k' : Kernel}

theorem setThread_cur (hi : ThreadInv k) {c : Tid} (hc : k.curthread = some c) {th : Thread}
    (hw : th.ctx.child ≠ some 0) : ThreadInv (k.setThread c th) :=
  ⟨hi.1.setThread (hi.1.threads_ne_none_of_cur hc)
    (fun hs => absurd hs (hi.1.cur_not_mem_sleepers hc)) hw, hi.2⟩

/-- `exorcise` frees the zombies and leaves every other thread as it was. -/
theorem exorcise (hi : ThreadInv k) (h : k.exorcise = some k') :
    ThreadInv k' ∧ k'.curthread = k.curthread ∧ ∀ t, t ∉ k.zombies → k'.threads t = k.threads t := by
  unfold Kernel.exorcise at h
  split at h
  · rename_i hall
    simp only [Option.some.injEq] at h
    subst h
    obtain ⟨hp, hc⟩ := hi
    have hdisj : ∀ t ∈ k.zombies, t ∉ k.curthread.toList ++ k.runqueue ++ k.sleepers := by
      have hnd := hp.nodup
      simp only [Kernel.placed] at hnd
      intro t hz hmem
      exact List.disjoint_of_nodup_append hnd hmem hz
    refine ⟨⟨⟨?_, fun t => ?_, fun t ht => ?_, fun t ht th hth => ?_, fun t th hth => ?_⟩, ?_⟩,
      rfl, fun t ht => ?_⟩
    · simpa [Kernel.placed] using (List.nodup_append.1 hp.nodup).1
    · by_cases hz : t ∈ k.zombies
      · simp only [Kernel.placed, List.append_nil, hz, if_true, ne_eq, not_true_eq_false,
          iff_false]
        exact hdisj t hz
      · simpa [Kernel.placed, hz] using hp.mem_placed t
    · by_cases hz : t ∈ k.zombies
      · simp [hz] at ht
      · exact hp.lt_next t (by simpa [hz] using ht)
    · have hz : t ∉ k.zombies := fun hz => hdisj t hz (by simp [ht])
      exact hp.sleeping t ht th (by simpa [hz] using hth)
    · by_cases hz : t ∈ k.zombies
      · simp [hz] at hth
      · exact hp.waiting t th (by simpa [hz] using hth)
    · simpa [Kernel.active] using hc
    · simp [ht]
  · simp at h

theorem resume (hi : ThreadInv k) {t : Tid} (hc : k.curthread = some t) (h : k.resume t = some k') :
    ThreadInv k' := by
  unfold Kernel.resume at h
  have hex : ∀ th', th'.ctx.child ≠ some 0 →
      (k.exorcise.map fun k0 => k0.setThread t th') = some k' → ThreadInv k' := by
    intro th' hw he
    obtain ⟨k0, hk0, rfl⟩ := Option.map_eq_some_iff.1 he
    obtain ⟨hi0, hc0, -⟩ := hi.exorcise hk0
    exact hi0.setThread_cur (hc0.trans hc) hw
  split at h
  · simp at h
  · rename_i th hth
    split at h
    · simp only [Option.some.injEq] at h
      subst h
      exact hi.setThread_cur hc (by simp [Ctx.child])
    · exact hex _ (by simp [Ctx.child]) h
    · exact hex _ (by simp [Ctx.child]) h
    · rename_i c hctx
      -- back in `sys_waitpid`'s loop, still waiting for the same child
      have hw := hi.1.waiting t th hth
      rw [hctx] at hw
      exact hex _ hw h
    · simp at h

theorem schedule (hi : ThreadInv k) (hc : k.curthread = none) (h : k.schedule = some k') :
    ThreadInv k' := by
  unfold Kernel.schedule at h
  split at h
  · simp only [Option.some.injEq] at h
    exact h ▸ hi
  · rename_i t rest hq
    have hi1 : ThreadInv { k with runqueue := rest, curthread := some t } := by
      obtain ⟨hp, hn⟩ := hi
      refine ⟨hp.of_perm rfl rfl ?_ (fun u hu th hth => hp.sleeping u hu th hth), ?_⟩
      · simp [Kernel.placed, hc, hq]
      · simp [Kernel.active, hn, hc, hq]
    exact hi1.resume rfl h

theorem threadWakeup (hi : ThreadInv k) (addr : Nat) : ThreadInv (k.threadWakeup addr) :=
  ⟨hi.1.threadWakeup addr, by
    rw [Kernel.active_length_of_perm (k.threadWakeup_perm addr) rfl]
    exact hi.2⟩

theorem threadWakeupSingle (hi : ThreadInv k) (addr : Nat) :
    ThreadInv (k.threadWakeupSingle addr) :=
  ⟨hi.1.threadWakeupSingle addr, by
    rw [Kernel.active_length_of_perm (k.threadWakeupSingle_perm addr) rfl]
    exact hi.2⟩

theorem miSwitch_ready (hi : ThreadInv k) (h : k.miSwitch .S_READY = some k') : ThreadInv k' := by
  cases hc : k.curthread with
  | none =>
    simp only [Kernel.miSwitch, hc, Option.some.injEq] at h
    exact h ▸ hi
  | some c =>
    rw [Kernel.miSwitch_ready hc] at h
    refine schedule ?_ rfl h
    obtain ⟨hp, hn⟩ := hi
    refine ⟨hp.of_perm rfl rfl ?_ (fun t ht th hth => hp.sleeping t ht th hth), ?_⟩
    · simp only [Kernel.placed, Kernel.makeRunnable, hc, Option.toList_some, Option.toList_none,
        List.nil_append, List.append_assoc, List.cons_append]
      exact List.perm_middle
    · simp only [Kernel.active, Kernel.makeRunnable, hc, Option.toList_some, Option.toList_none,
        List.length_append, List.length_nil, List.length_singleton] at hn ⊢
      omega

theorem miSwitch_sleep (hi : ThreadInv k)
    (ha : ∀ c th, k.curthread = some c → k.threads c = some th → th.tSleepaddr ≠ 0)
    (h : k.miSwitch .S_SLEEP = some k') : ThreadInv k' := by
  cases hc : k.curthread with
  | none =>
    simp only [Kernel.miSwitch, hc, Option.some.injEq] at h
    exact h ▸ hi
  | some c =>
    rw [Kernel.miSwitch_sleep hc] at h
    refine schedule ?_ rfl h
    obtain ⟨hp, hn⟩ := hi
    refine ⟨hp.of_perm rfl rfl ?_ (fun t ht th hth => ?_), ?_⟩
    · have hmid : (k.runqueue ++ k.sleepers ++ c :: k.zombies).Perm
          (c :: (k.runqueue ++ k.sleepers ++ k.zombies)) := List.perm_middle
      simpa only [Kernel.placed, hc, Option.toList_some, Option.toList_none, List.nil_append,
        List.append_assoc, List.singleton_append, List.cons_append] using hmid
    · rcases List.mem_append.1 ht with ht | ht
      · exact hp.sleeping t ht th hth
      · rw [List.mem_singleton] at ht
        subst ht
        exact ha t th hc hth
    · simp only [Kernel.active, hc, Option.toList_some, Option.toList_none,
        List.length_append, List.length_nil, List.length_singleton] at hn ⊢
      omega

theorem stash_zomb (hp : Partition k) {c : Tid} (hc : k.curthread = some c)
    (hn : k.numthreads + 1 = k.active.length) :
    ThreadInv { k with curthread := none, zombies := k.zombies ++ [c] } := by
  refine ⟨hp.of_perm rfl rfl ?_ (fun t ht th hth => hp.sleeping t ht th hth), ?_⟩
  · have hmid : (k.runqueue ++ k.sleepers ++ k.zombies ++ [c]).Perm
        (c :: (k.runqueue ++ k.sleepers ++ k.zombies ++ [])) := List.perm_middle
    simpa only [Kernel.placed, hc, Option.toList_some, Option.toList_none, List.nil_append,
      List.append_assoc, List.singleton_append, List.cons_append, List.append_nil] using hmid
  · simp only [Kernel.active, hc, Option.toList_some, Option.toList_none,
      List.length_append, List.length_nil, List.length_singleton] at hn ⊢
    omega

theorem threadYield (hi : ThreadInv k) (h : k.threadYield = some k') : ThreadInv k' := by
  unfold Kernel.threadYield at h
  split at h
  · simp at h
  · rename_i c th hcur
    exact (hi.setThread_cur (Kernel.current_eq_some.1 hcur).1 (by simp [Ctx.child])).miSwitch_ready h

theorem threadSleep (hi : ThreadInv k) {addr : Nat} {x : Ctx} (ha : addr ≠ 0)
    (hx : x.child ≠ some 0) (h : k.threadSleep addr x = some k') : ThreadInv k' := by
  unfold Kernel.threadSleep at h
  split at h
  · simp at h
  · rename_i c th hcur
    have hc := (Kernel.current_eq_some.1 hcur).1
    refine (hi.setThread_cur hc hx).miSwitch_sleep (fun c' th' hc' hth' => ?_) h
    rw [Kernel.setThread_curthread, hc, Option.some.injEq] at hc'
    subst hc'
    rw [Kernel.setThread_threads, Function.update_self, Option.some.injEq] at hth'
    subst hth'
    exact ha

theorem exit_tail {k1 : Kernel} {addr : Nat}
    (h : (k1.threadWakeupSingle addr).miSwitch .S_ZOMB = some k') (hp : Partition k1) {c : Tid}
    (hc : k1.curthread = some c) (hn : k1.numthreads + 1 = k1.active.length) : ThreadInv k' := by
  rw [Kernel.miSwitch_zomb (k := k1.threadWakeupSingle addr) (c := c) hc] at h
  refine schedule (stash_zomb (hp.threadWakeupSingle addr) hc ?_) rfl h
  rw [Kernel.active_length_of_perm (k1.threadWakeupSingle_perm addr) rfl]
  exact hn

theorem threadExit (hi : ThreadInv k) (h : k.threadExit = some k') : ThreadInv k' := by
  unfold Kernel.threadExit at h
  split at h
  · simp at h
  · rename_i c th hcur
    have hc := (Kernel.current_eq_some.1 hcur).1
    split at h
    · simp at h
    · split_ifs at h with hg
      dsimp only at h
      have hpX : Partition ({ k with
          refcount := decref th.tCwd k.refcount
          numthreads := k.numthreads - 1 } : Kernel) := hi.1.of_fields rfl rfl rfl rfl rfl rfl
      refine exit_tail h ?_ hc ?_
      · exact (hpX.setThread (hi.1.threads_ne_none_of_cur hc)
          (fun hs => absurd hs (hi.1.cur_not_mem_sleepers hc)) (by simp [Ctx.child])).of_fields
            rfl rfl rfl rfl rfl rfl
      have hn := hi.2
      simp only [Kernel.setPcb_numthreads, Kernel.setThread_numthreads, Kernel.active_setPcb,
        Kernel.active_setThread]
      change k.numthreads - 1 + 1 = k.active.length
      omega

theorem threadFork (hi : ThreadInv k) {f : Option ForkFault} {r : Except Errno Tid}
    (h : k.threadFork f = some (r, k')) : ThreadInv k' := by
  unfold Kernel.threadFork at h
  split at h
  · simp at h
  · obtain ⟨hp, hn⟩ := hi
    split at h
    · simp only [Option.some.injEq, Prod.mk.injEq] at h
      obtain ⟨-, rfl⟩ := h
      exact ⟨hp, hn⟩
    · simp only [Option.some.injEq, Prod.mk.injEq] at h
      obtain ⟨-, rfl⟩ := h
      exact ⟨hp.of_freed rfl rfl rfl rfl rfl rfl, hn⟩
    · split at h
      · simp only [Option.some.injEq, Prod.mk.injEq] at h
        obtain ⟨-, rfl⟩ := h
        exact ⟨hp.of_freed rfl rfl rfl rfl rfl rfl, hn⟩
      · simp only [Option.some.injEq, Prod.mk.injEq] at h
        obtain ⟨-, rfl⟩ := h
        refine ⟨hp.of_fresh (by simp [Ctx.child]) rfl rfl rfl rfl rfl rfl, ?_⟩
        simp only [Kernel.active, Kernel.setThread_curthread, Kernel.setPcb_curthread,
          Kernel.setPcb_runqueue, Kernel.setThread_sleepers, Kernel.setPcb_sleepers,
          Kernel.setPcb_numthreads, List.length_append, List.length_singleton] at hn ⊢
        omega

theorem sysExit (hi : ThreadInv k) {code : Int} (h : k.sysExit code = some k') : ThreadInv k' := by
  unfold Kernel.sysExit at h
  split at h
  · simp at h
  · split at h
    · simp at h
    · split_ifs at h
      refine threadExit ?_ h
      exact ⟨hi.1.of_fields rfl rfl rfl rfl rfl rfl, hi.2⟩

theorem destroyPcbUnit (hi : ThreadInv k) (i : Nat) : ThreadInv (k.destroyPcbUnit i) := by
  unfold Kernel.destroyPcbUnit
  split
  · exact hi
  · exact ⟨hi.1.of_fields rfl rfl rfl rfl rfl rfl, hi.2⟩

theorem sysWaitpid (hi : ThreadInv k) {child : Int} {o : Option WaitReply}
    (h : k.sysWaitpid child = some (o, k')) : ThreadInv k' := by
  unfold Kernel.sysWaitpid at h
  split at h
  · simp at h
  · split_ifs at h with h1 h2 h3 h4
    · simp only [Option.some.injEq, Prod.mk.injEq] at h
      exact h.2 ▸ hi
    · simp only [Option.some.injEq, Prod.mk.injEq] at h
      exact h.2 ▸ hi
    · split at h
      · simp at h
      · split_ifs at h with h5 h6
        · simp only [Option.some.injEq, Prod.mk.injEq] at h
          exact h.2 ▸ hi
        · simp only [Option.some.injEq, Prod.mk.injEq] at h
          exact h.2 ▸ hi.destroyPcbUnit _
        · obtain ⟨k0, hk0, heq⟩ := Option.map_eq_some_iff.1 h
          simp only [Prod.mk.injEq] at heq
          have hpos : child.toNat ≠ 0 := by
            simp only [minPid, maxPid, not_or, not_lt] at h2
            omega
          exact heq.2 ▸ hi.threadSleep hpos (by simpa [Ctx.child] using hpos) hk0

theorem waitpidRecheck (hi : ThreadInv k) {o : Option WaitReply}
    (h : k.waitpidRecheck = some (o, k')) : ThreadInv k' := by
  unfold Kernel.waitpidRecheck at h
  split at h
  · simp at h
  · rename_i c th hcur
    obtain ⟨hc, hth⟩ := Kernel.current_eq_some.1 hcur
    split at h
    · rename_i i hctx
      have hw : i ≠ 0 := by
        have := hi.1.waiting c th hth
        rw [hctx] at this
        simpa [Ctx.child] using this
      split at h
      · simp at h
      · split_ifs at h
        · obtain ⟨k0, hk0, heq⟩ := Option.map_eq_some_iff.1 h
          simp only [Prod.mk.injEq] at heq
          exact heq.2 ▸ hi.threadSleep hw (by simpa [Ctx.child] using hw) hk0
        · simp only [Option.some.injEq, Prod.mk.injEq] at h
          exact h.2 ▸ (hi.setThread_cur hc (by simp [Ctx.child])).destroyPcbUnit _
    · simp at h

theorem step {e : Event} (hi : ThreadInv k) (hs : Step k e k') : ThreadInv k' := by
  induction hs with
  | fork f r _ h => exact hi.threadFork h
  | yield _ h => exact hi.threadYield h
  | sleep addr ha _ h =>
    refine hi.threadSleep ?_ (by simp [Ctx.child]) h
    unfold kseg0 at ha
    omega
  | wakeup addr _ => exact hi.threadWakeup addr
  | wakeupSingle addr _ => exact hi.threadWakeupSingle addr
  | exit _ h => exact hi.threadExit h
  | sysExit code _ h => exact hi.sysExit h
  | waitpidSleep child _ h => exact hi.sysWaitpid h
  | waitpidReturn child r _ h => exact hi.sysWaitpid h
  | recheckSleep h => exact hi.waitpidRecheck h
  | recheckReturn r h => exact hi.waitpidRecheck h
  | dispatch hc h => exact hi.schedule hc h

end ThreadInv

theorem threadInv_boot : ThreadInv threadBootstrap := by
  refine ⟨⟨?_, fun t => ?_, fun t ht => ?_, fun t ht => ?_, fun t th hth => ?_⟩, ?_⟩
  · simp [Kernel.placed, threadBootstrap]
  · by_cases h0 : t = 0 <;> simp [Kernel.placed, threadBootstrap, h0]
  · by_cases h0 : t = 0
    · simp [threadBootstrap, h0]
    · simp [threadBootstrap, h0] at ht
  · simp [threadBootstrap] at ht
  · by_cases h0 : t = 0
    · simp only [threadBootstrap, h0, if_true, Option.some.injEq] at hth
      subst hth
      simp [Ctx.child]
    · simp [threadBootstrap, h0] at hth
  · simp [Kernel.active, threadBootstrap]

theorem Reachable.threadInv {k : Kernel} (h : Reachable k) : ThreadInv k :=
  Reachable.induct_inv threadInv_boot (fun _ _ _ hi _ hs => hi.step hs) h

/-- Over every run, each thread handed out so far is in exactly one place, a thread freed or in
`zombies` is neither runnable nor asleep, a sleeper has a sleep address, and `numthreads`
counts the running, runnable and sleeping threads. -/
theorem thread_partition {k : Kernel} (h : Reachable k) :
    (∀ t < k.nextTid, k.places t = 1) ∧
    (∀ t ∈ k.sleepers, ∃ th, k.threads t = some th ∧ th.tSleepaddr ≠ 0) ∧
    (∀ t, k.threads t = none ∨ t ∈ k.zombies → t ∉ k.runqueue ∧ t ∉ k.sleepers) ∧
    k.numthreads = (k.curthread.toList ++ k.runqueue ++ k.sleepers).length := by
  obtain ⟨hp, hn⟩ := h.threadInv
  refine ⟨fun t _ => hp.places_eq_one t, fun t hs => hp.sleeper_has_addr hs, ?_, hn⟩
  rintro t (ht | hz)
  · exact hp.not_mem_active_of_freed ht
  · exact hp.not_mem_active_of_zombie hz

/-- The boot thread forks three children and sleeps; the first child exits. -/
def partitionScript : List Call := [.fork none, .fork none, .fork none, .sleep kseg0, .exit]

theorem thread_partition_forks :
    ∃ k, threadBootstrap.run partitionScript = some k ∧ Reachable k ∧ k.curthread = some 2 ∧
      k.runqueue = [3] ∧ k.sleepers = [0] ∧ k.zombies = [1] ∧
      (∀ t < k.nextTid, k.places t = 1) ∧
      (∀ t ∈ k.sleepers, ∃ th, k.threads t = some th ∧ th.tSleepaddr ≠ 0) ∧
      (∀ t, k.threads t = none ∨ t ∈ k.zombies → t ∉ k.runqueue ∧ t ∉ k.sleepers) ∧
      k.numthreads = (k.curthread.toList ++ k.runqueue ++ k.sleepers).length := by
  have hk : (threadBootstrap.run partitionScript).map
      (fun k => (k.curthread, k.runqueue, k.sleepers, k.zombies)) = some (some 2, [3], [0], [1]) := by
    decide +kernel
  obtain ⟨k, hrun, hobs⟩ := Option.map_eq_some_iff.1 hk
  simp only [Prod.mk.injEq] at hobs
  have hr := Reachable.boot.run hrun
  exact ⟨k, hrun, hr, hobs.1, hobs.2.1, hobs.2.2.1, hobs.2.2.2, thread_partition hr⟩

end Os161
