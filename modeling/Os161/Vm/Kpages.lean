import Os161.Vm.Copy

/-!
# `alloc_kpages` and `free_kpages`

`alloc_npages` looks first for `npages` FREE frames in a row (`scanFree`), and failing that for
`npages` frames in a row none of which is FIXED (`scanUnfixed`), which it evicts. Its check after
the evictions asks each frame to be CLEAN and FREE at once, so the fallback always panics
(`allocNpages_fallback`): `alloc_kpages(n)`, `n ≥ 2`, panics on every coremap with no `n` FREE
frames in a row and `n` frames in a row before the last that are not FIXED (`allocKpages_panics`).

`free_kpages` looks for the frame whose kernel address is `addr`. The pages `ram_stealmem` hands
out before `vm_bootstrap` lie below the memory the coremap covers, so freeing one panics
(`freeKpages_below`, `vmBootstrap_frameStart`).
-/

namespace Os161

/-- `cm` has `n` frames in a row whose states satisfy `p`. -/
def HasRun (cm : List Frame) (n : Nat) (p : FrameState → Prop) : Prop :=
  ∃ r, r <:+: cm ∧ r.length = n ∧ ∀ f ∈ r, p f.state

/-! ### The two scans of `alloc_npages` -/

theorem hasRun_of_tail {cm q r l : List Frame} {f : Frame} {n : Nat} (hcm : cm = q ++ r ++ f :: l)
    (hfree : ∀ g ∈ r ++ [f], g.state = .FREE) (hn : n ≤ r.length + 1) :
    HasRun cm n (· = .FREE) := by
  let k := r.length + 1 - n
  refine ⟨(r ++ [f]).drop k, ⟨q ++ (r ++ [f]).take k, l, ?_⟩, ?_, ?_⟩
  · rw [List.append_assoc q, List.take_append_drop, hcm]
    simp
  · simp only [List.length_drop, List.length_append, List.length_singleton]
    omega
  · exact fun g hg => hfree g (List.mem_of_mem_drop hg)

theorem scanFree_run {cm : List Frame} {n : Nat} (hn : 2 ≤ n) :
    ∀ (l : List Frame) (i c : Nat) (q r : List Frame) (f : Frame), cm = q ++ r ++ f :: l →
      (2 ≤ c → r.length + 1 = c ∧ ∀ g ∈ r ++ [f], g.state = .FREE) →
      n ≤ (scanFree n (f :: l) i c).2 → HasRun cm n (· = .FREE)
  | [], i, c, q, r, f, hcm, hinv, hc => by
    have hc : n ≤ c := hc
    obtain ⟨hlen, hfree⟩ := hinv (by omega)
    exact hasRun_of_tail hcm hfree (by omega)
  | g :: l, i, c, q, r, f, hcm, hinv, hc => by
    unfold scanFree at hc
    split_ifs at hc with hnc hfg
    · obtain ⟨hlen, hfree⟩ := hinv (by omega)
      exact hasRun_of_tail hcm hfree (by omega)
    · by_cases h2 : 2 ≤ c
      · obtain ⟨hlen, hfree⟩ := hinv h2
        refine scanFree_run hn l (i + 1) (c + 1) q (r ++ [f]) g (by simp [hcm]) (fun _ => ⟨?_, ?_⟩) hc
        · simp [hlen]
        · intro x hx
          rcases List.mem_append.1 hx with hx | hx
          · exact hfree x hx
          · rw [List.mem_singleton.1 hx]
            exact hfg.2
      · refine scanFree_run hn l (i + 1) (c + 1) (q ++ r) [f] g (by simp [hcm])
          (fun _ => ⟨by simp; omega, ?_⟩) hc
        intro x hx
        simp only [List.singleton_append, List.mem_cons, List.not_mem_nil, or_false] at hx
        rcases hx with rfl | rfl
        · exact hfg.1
        · exact hfg.2
    · exact scanFree_run hn l (i + 1) 1 (q ++ r ++ [f]) [] g (by simp [hcm]) (by omega) hc

theorem scanFree_start {cm : List Frame} {n : Nat} (hn : 2 ≤ n)
    (hc : n ≤ (scanFree n cm 0 1).2) : HasRun cm n (· = .FREE) := by
  cases cm with
  | nil =>
    have : n ≤ 1 := hc
    omega
  | cons f l => exact scanFree_run hn l 0 1 [] [] f (by simp) (by omega) hc

theorem scanUnfixed_run {n : Nat} {g : Frame} {l : List Frame} :
    ∀ (r : List Frame) (i c : Nat), (∀ f ∈ r, f.state ≠ .FIXED) → n ≤ c + r.length →
      (scanUnfixed n (r ++ g :: l) i c).isSome
  | [], i, c, _, h => by
    simp only [List.length_nil, Nat.add_zero] at h
    simp [scanUnfixed, h]
  | f :: r, i, c, hr, h => by
    rw [List.cons_append]
    unfold scanUnfixed
    split_ifs with hnc hf
    · rfl
    · exact absurd hf (hr f List.mem_cons_self)
    · exact scanUnfixed_run r (i + 1) (c + 1) (fun x hx => hr x (List.mem_cons_of_mem f hx))
        (by simp at h; omega)

theorem scanUnfixed_append {n : Nat} {l : List Frame} (hl : ∀ i c, (scanUnfixed n l i c).isSome) :
    ∀ (p : List Frame) (i c : Nat), (scanUnfixed n (p ++ l) i c).isSome
  | [], i, c => hl i c
  | f :: p, i, c => by
    rw [List.cons_append]
    unfold scanUnfixed
    split_ifs
    · rfl
    · exact scanUnfixed_append hl p _ _
    · exact scanUnfixed_append hl p _ _

theorem scanUnfixed_of_run {cm : List Frame} {n : Nat} (hn : 1 ≤ n)
    (h : HasRun cm.dropLast n (· ≠ .FIXED)) : (scanUnfixed n cm 0 0).isSome := by
  obtain ⟨r, ⟨p, t, ht⟩, hlen, hr⟩ := h
  have hne : cm ≠ [] := by
    rintro rfl
    simp only [List.dropLast_nil, List.append_eq_nil_iff] at ht
    rw [ht.1.2] at hlen
    simp at hlen
    omega
  obtain ⟨g, l, hgl⟩ : ∃ g l, t ++ [cm.getLast hne] = g :: l := List.exists_cons_of_ne_nil (by simp)
  have hcm : cm = p ++ (r ++ g :: l) := by
    conv_lhs => rw [← List.dropLast_append_getLast hne, ← ht]
    simp [← hgl]
  rw [hcm]
  exact scanUnfixed_append (fun i c => scanUnfixed_run r i c hr (by omega)) p 0 0

/-! ### `alloc_npages` and `alloc_kpages` -/

/-- The check after the evictions: no frame is CLEAN and FREE at once. -/
theorem all_clean_free_eq_false {fs : List Frame} (h : fs ≠ []) :
    (fs.all fun f => !(f.state != .CLEAN || f.state != .FREE)) = false := by
  obtain ⟨f, fs, rfl⟩ := List.exists_cons_of_ne_nil h
  simp only [List.all_cons, Bool.and_eq_false_iff]
  left
  cases f.state <;> rfl

theorem mapM_range'_ne_nil {α : Type} {f : Nat → Option α} {start n : Nat} (hn : 1 ≤ n)
    {fs : List α} (h : (List.range' start n).mapM f = some fs) : fs ≠ [] := by
  obtain ⟨m, rfl⟩ : ∃ m, n = m + 1 := ⟨n - 1, by omega⟩
  rw [List.range'_succ, List.mapM_cons] at h
  simp only [bind, pure, Option.bind_eq_some_iff, Option.some.injEq] at h
  obtain ⟨a, -, as, -, rfl⟩ := h
  exact List.cons_ne_nil a as

namespace Vm

/-- The fallback of `alloc_npages` never returns. -/
theorem allocNpages_fallback {s : Vm} {n i : Nat} (hn : 1 ≤ n)
    (hfree : (scanFree n s.coremap 0 1).2 < n) (hfix : scanUnfixed n s.coremap 0 0 = some i) :
    s.allocNpages n = none := by
  unfold allocNpages
  rcases hsc : scanFree n s.coremap 0 1 with ⟨j, c⟩
  rw [hsc] at hfree
  simp only [if_neg (show ¬ n ≤ c by omega), hfix, bind, Option.bind_eq_none_iff]
  intro fs₁ _ u _ s₁ _ fs₂ hfs₂
  rw [all_clean_free_eq_false (mapM_range'_ne_nil hn hfs₂)]
  intro u' hu'
  exact absurd ((Option.guard_eq_some' u').1 hu') Bool.false_ne_true

/-- `alloc_kpages(n)`, `n ≥ 2`, panics when no `n` frames in a row are FREE and `n` before the
last are not FIXED. -/
theorem allocKpages_panics {s : Vm} {n : Nat} (hn : 2 ≤ n)
    (hfree : ¬ HasRun s.coremap n (· = .FREE)) (hrun : HasRun s.coremap.dropLast n (· ≠ .FIXED)) :
    s.allocKpages n = none := by
  have hc : (scanFree n s.coremap 0 1).2 < n := by
    by_contra h
    exact hfree (scanFree_start hn (by omega))
  obtain ⟨i, hi⟩ := Option.isSome_iff_exists.1 (scanUnfixed_of_run (by omega) hrun)
  unfold allocKpages
  rw [if_neg (by omega)]
  exact allocNpages_fallback (by omega) hc hi

/-! ### `free_kpages` -/

/-- `free_kpages` of an address below every frame panics. -/
theorem freeKpages_below {s : Vm} {start p : Nat} (hs : ∀ f ∈ s.coremap, start ≤ f.frameStart)
    (hp : p < start) : s.freeKpages (paddrToKvaddr p) = none := by
  have hnone : s.coremap.findIdx? (fun f => paddrToKvaddr f.frameStart == paddrToKvaddr p) = none := by
    rw [List.findIdx?_eq_none_iff]
    intro f hf
    have := hs f hf
    rw [beq_eq_false_iff_ne, paddrToKvaddr, paddrToKvaddr]
    omega
  unfold freeKpages
  simp [hnone]

end Vm

theorem bootCoremap_frameStart {start numPages fixedPages : Nat} :
    ∀ f ∈ bootCoremap start numPages fixedPages, start ≤ f.frameStart := by
  intro f hf
  simp only [bootCoremap, List.mem_map, List.mem_range] at hf
  obtain ⟨i, -, rfl⟩ := hf
  split_ifs <;> simp

/-- Every frame `vm_bootstrap` makes starts at or above the first free address. -/
theorem vmBootstrap_frameStart {start «end» slots : Nat} {mem disk : Nat → UInt8}
    {random tlbRandom junk : List Nat} {s : Vm}
    (h : vmBootstrap start «end» slots mem disk random tlbRandom junk = some s) :
    ∀ f ∈ s.coremap, start ≤ f.frameStart := by
  unfold vmBootstrap at h
  simp only [bind, Option.bind_eq_some_iff, Option.guard_eq_some', exists_const, Option.some.injEq] at h
  obtain ⟨-, rfl⟩ := h
  intro f hf
  have hround : start ≤ roundup start pageSize := by
    unfold roundup pageSize
    omega
  exact hround.trans (bootCoremap_frameStart f hf)

/-- On `forkBoot`, an address space at `0x80041000` whose process stores to two stack pages, which
take frames 4 and 5; six kernel pages then take the frames after them. -/
def kpagesPrefix : List VmOp :=
  [.asCreate, .switch 0x80041000, .store 0x7ffff000 1, .store 0x7fffe000 2, .allocKpages 6]

/-- After `kpagesPrefix` no frame is FREE and frames 4 and 5 hold user pages, yet
`alloc_kpages(2)` panics. On the machine as `vm_bootstrap` leaves it, freeing the page below the
first frame, where `ram_stealmem` put the last boot-time allocation, panics too. -/
theorem alloc_kpages_run_panics :
    ∃ s, forkBoot.bind (·.exec kpagesPrefix) = some s ∧ ¬ HasRun s.coremap 2 (· = .FREE) ∧
      HasRun s.coremap.dropLast 2 (· = .DIRTY) ∧ s.allocKpages 2 = none ∧
      ∃ s₀, forkBoot = some s₀ ∧ s₀.freeKpages (paddrToKvaddr 0x3F000) = none := by
  have h : (forkBoot.bind (·.exec kpagesPrefix)).map (fun s => (s.coremap.map (·.state),
      ((s.coremap.dropLast.drop 4).take 2).map (·.state))) =
      some ([.FIXED, .FIXED, .FIXED, .FIXED, .DIRTY, .DIRTY, .FIXED, .FIXED, .FIXED, .FIXED, .FIXED,
        .FIXED], [.DIRTY, .DIRTY]) := by
    decide +kernel
  obtain ⟨s, hs, h⟩ := Option.map_eq_some_iff.1 h
  simp only [Prod.mk.injEq] at h
  obtain ⟨hstates, hrun⟩ := h
  have hlen : s.coremap.length = 12 := by rw [← List.length_map (f := (·.state)), hstates]; rfl
  have hfree : ¬ HasRun s.coremap 2 (· = .FREE) := by
    rintro ⟨r, hr, hrlen, hrfree⟩
    obtain ⟨f, t, rfl⟩ : ∃ f t, r = f :: t := List.exists_cons_of_ne_nil (by rintro rfl; simp at hrlen)
    have hf : f.state ∈ s.coremap.map (·.state) := List.mem_map_of_mem (hr.subset List.mem_cons_self)
    rw [hstates, hrfree f List.mem_cons_self] at hf
    simp at hf
  have hdirty : HasRun s.coremap.dropLast 2 (· = .DIRTY) := by
    refine ⟨(s.coremap.dropLast.drop 4).take 2, ⟨s.coremap.dropLast.take 4,
      (s.coremap.dropLast.drop 4).drop 2, ?_⟩, ?_, ?_⟩
    · rw [List.append_assoc, List.take_append_drop, List.take_append_drop]
    · simp [hlen]
    · intro f hf
      have hf' : f.state ∈ ((s.coremap.dropLast.drop 4).take 2).map (·.state) := List.mem_map_of_mem hf
      rw [hrun] at hf'
      simpa using hf'
  have hunfixed : HasRun s.coremap.dropLast 2 (· ≠ .FIXED) := by
    obtain ⟨r, hr, hrlen, hrd⟩ := hdirty
    exact ⟨r, hr, hrlen, fun f hf => by rw [hrd f hf]; decide⟩
  obtain ⟨s₀, hs₀⟩ := Option.isSome_iff_exists.1 (by decide +kernel : forkBoot.isSome)
  refine ⟨s, hs, hfree, hdirty, Vm.allocKpages_panics le_rfl hfree hunfixed, s₀, hs₀, ?_⟩
  exact Vm.freeKpages_below (vmBootstrap_frameStart hs₀) (by decide)

end Os161
