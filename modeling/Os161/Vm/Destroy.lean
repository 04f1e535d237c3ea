import Os161.Vm.Spec

/-!
# What `as_destroy` releases

`as_destroy(as)` frees every frame whose coremap record names `as` and is not FREE
(`asDestroy_frees`). That record is also what `alloc_one_page` and `alloc_npages` write for a
kernel page, FIXED, under `curthread->t_vmspace`: kernel pages allocated while `as` was current
(another thread's stack, a child's page tables) are freed with it.

The loop that gives back swap slots starts its index where the loop over the coremap left it, at
`num_frames`, so it skips the first `num_frames` regions: when there are no more regions than
frames, no slot is given back (`asDestroy_swapfileMap`).
-/

namespace Os161

namespace Vm

/-- Between `s` and `s'` a FREE frame stays FREE and the swap bitmap is unchanged: what
`free_kpages` does. -/
structure Frees (s s' : Vm) : Prop where
  free : ∀ k : Nat, (s.coremap[k]?).map Frame.state = some .FREE →
    (s'.coremap[k]?).map Frame.state = some .FREE
  swapfileMap : s'.swapfileMap = s.swapfileMap

namespace Frees

theorem refl (s : Vm) : Frees s s := ⟨fun _ h => h, rfl⟩

theorem trans {s₁ s₂ s₃ : Vm} (h₁ : Frees s₁ s₂) (h₂ : Frees s₂ s₃) : Frees s₁ s₃ :=
  ⟨fun k h => h₂.free k (h₁.free k h), h₂.swapfileMap.trans h₁.swapfileMap⟩

end Frees

variable {s s' : Vm}

theorem frees_setFrame (k : Nat) (g : Frame) (hg : g.state = .FREE) : Frees s (s.setFrame k g) := by
  refine ⟨fun k' h => ?_, rfl⟩
  rw [setFrame_coremap, List.getElem?_set]
  split_ifs with hk hlt
  · simpa using hg
  · subst hk
    rw [List.getElem?_eq_none (Nat.le_of_not_lt hlt)] at h
    cases h
  · exact h

theorem frees_freeKpages {addr : Nat} (h : s.freeKpages addr = some s') : Frees s s' := by
  unfold freeKpages at h
  simp only [bind, Option.bind_eq_some_iff, Option.guard_eq_some', exists_const] at h
  rcases h with ⟨-, i, -, f, -, h⟩
  refine Loop.foldlM_rel Frees.refl Frees.trans (fun s j s' hj => ?_) _ h
  simp only [Option.bind_eq_some_iff, Option.some.injEq] at hj
  rcases hj with ⟨g, -, rfl⟩
  exact frees_setFrame _ _ rfl

theorem frees_kfree {ptr : Nat} (h : s.kfree ptr = some s') : Frees s s' := by
  unfold kfree at h
  split_ifs at h
  · rw [Option.some.injEq] at h
    exact h ▸ Frees.refl s
  · simp only [bind, Option.bind_eq_some_iff, Option.guard_eq_some', exists_const] at h
    exact frees_freeKpages h.2

theorem releaseSlots_coremap {as : Nat} :
    ∀ {rs : List Region} {s s' : Vm}, releaseSlots as rs s = some s' → s'.coremap = s.coremap
  | [], s, s', h => by
    rw [releaseSlots, Option.some.injEq] at h
    rw [h]
  | r :: rs, s, s', h => by
    rw [releaseSlots] at h
    simp only [bind, Option.bind_eq_some_iff, Option.guard_eq_some', exists_const] at h
    rcases h with ⟨-, s₁, h₁, h⟩
    rw [releaseSlots_coremap h]
    refine Loop.foldlM_rel (R := fun s s' : Vm => s'.coremap = s.coremap) (fun _ => rfl)
      (fun h₁ h₂ => h₂.trans h₁) (fun s j s' hj => ?_) _ h₁
    simp only [Option.bind_eq_some_iff, Option.guard_eq_some', exists_const] at hj
    rcases hj with ⟨-, pte, -, -, hj⟩
    split_ifs at hj
    · simp only [Option.bind_eq_some_iff, Option.guard_eq_some', exists_const,
        Option.some.injEq] at hj
      rw [← hj.2]
    · rw [Option.some.injEq] at hj
      rw [hj]

/-- Every frame recorded under `as` that is not FREE is FREE after `as_destroy(as)`, whatever its
state was, FIXED included. -/
theorem asDestroy_frees {as k : Nat} {f : Frame} (h : s.asDestroy as = some s')
    (hk : s.coremap[k]? = some f) (hf : f.state ≠ .FREE) (ha : f.addrspace = as) :
    (s'.coremap[k]?).map Frame.state = some .FREE := by
  unfold asDestroy at h
  simp only [bind, Option.bind_eq_some_iff, Option.some.injEq] at h
  rcases h with ⟨a, -, s₁, hr, s₂, hk₂, s₃, hk₃, rfl⟩
  have h₀ : ((s.coremap.map fun f => if f.state ≠ .FREE ∧ f.addrspace = as then
      { f with addrspace := 0, mappedVaddr := 0, state := .FREE, numPagesAllocated := 0 }
      else f)[k]?).map Frame.state = some .FREE := by
    simp [hk, hf, ha]
  have hfree := ((Loop.foldlM_rel Frees.refl Frees.trans (fun s i s' h => frees_kfree h) _
    hk₂).trans (frees_kfree hk₃)).free k
  rw [releaseSlots_coremap hr] at hfree
  exact hfree h₀

/-- When `as` has no more regions than there are frames, `as_destroy(as)` gives back no swap
slot. -/
theorem asDestroy_swapfileMap {as : Nat} {a : Addrspace} (h : s.asDestroy as = some s')
    (ha : s.space as = some a) (hn : a.asRegions.length ≤ s.numFrames) :
    s'.swapfileMap = s.swapfileMap := by
  unfold asDestroy at h
  simp only [bind, Option.bind_eq_some_iff, Option.some.injEq] at h
  rcases h with ⟨a', ha', s₁, hr, s₂, hk₂, s₃, hk₃, rfl⟩
  have hsp : a' = a := by
    rw [← Option.some.injEq, ← ha, ← ha']
    rfl
  subst hsp
  -- the region loop starts at `num_frames`: it sees no region
  have hdrop : a'.asRegions.drop (s.coremap.map fun f => if f.state ≠ .FREE ∧ f.addrspace = as then
      { f with addrspace := 0, mappedVaddr := 0, state := .FREE, numPagesAllocated := 0 }
      else f).length = [] := by
    rw [List.length_map]
    exact List.drop_eq_nil_of_le hn
  simp only [numFrames, hdrop, releaseSlots, Option.some.injEq] at hr
  subst hr
  exact ((Loop.foldlM_rel Frees.refl Frees.trans (fun s i s' h => frees_kfree h) _
    hk₂).trans (frees_kfree hk₃)).swapfileMap

end Vm

/-- A machine of six pages and two swap slots; its evictions pick frame 5. -/
def destroyBoot : Option Vm :=
  vmBootstrap 0x40000 0x46000 2 (fun _ => 0) (fun _ => 0) [5, 5] [] [0, 0]

/-- A process at `0x80041000` gets a kernel page (frame 3) allocated while it runs, and stores to
two stack pages, the second store evicting the first to slot `0`. -/
def destroyPrefix : List VmOp :=
  [.asCreate, .switch 0x80041000, .allocKpages 1, .store 0x7ffff000 1, .store 0x7fffe000 2]

theorem destroy_frees_kernel_page :
    ∃ s s', destroyBoot.bind (·.exec destroyPrefix) = some s ∧ s.asDestroy 0x80041000 = some s' ∧
      (s.space 0x80041000).isSome ∧
      (∃ f ∈ s.coremap, f.frameStart = 0x43000 ∧ f.state = .FIXED ∧ f.addrspace = 0x80041000) ∧
      (∃ f ∈ s'.coremap, f.frameStart = 0x43000 ∧ f.state = .FREE) ∧
      (∃ pte, s.getPTEFromAddrspace 0x80041000 0x7ffff000 = some pte ∧
        Pte.present (s.ptes.get pte) = false ∧ Pte.swapped (s.ptes.get pte) = true ∧
        Pte.slot (s.ptes.get pte) = 0) ∧
      s'.swapfileMap[0]? = some true := by
  have hf : (destroyBoot.bind (·.exec destroyPrefix)).bind (fun s =>
      (s.asDestroy 0x80041000).bind fun s' =>
      (s.coremap.find? (·.frameStart = 0x43000)).bind fun f =>
      (s'.coremap.find? (·.frameStart = 0x43000)).map fun f' =>
        ((s.space 0x80041000).isSome, f.state, f.addrspace, f'.state)) =
      some (true, .FIXED, 0x80041000, .FREE) := by
    decide +kernel
  have hp : (destroyBoot.bind (·.exec destroyPrefix)).bind (fun s =>
      (s.asDestroy 0x80041000).bind fun s' =>
      (s.getPTEFromAddrspace 0x80041000 0x7ffff000).map fun pte =>
        (Pte.present (s.ptes.get pte), Pte.swapped (s.ptes.get pte), Pte.slot (s.ptes.get pte),
          s'.swapfileMap[0]?)) =
      some (false, true, 0, some true) := by
    decide +kernel
  rcases Option.bind_eq_some_iff.1 hf with ⟨s, hs, hf⟩
  rcases Option.bind_eq_some_iff.1 hf with ⟨s', hs', hf⟩
  rcases Option.bind_eq_some_iff.1 hf with ⟨f, hfind, hf⟩
  rcases Option.map_eq_some_iff.1 hf with ⟨f', hfind', hf⟩
  simp only [Prod.mk.injEq] at hf
  rcases hf with ⟨hlive, hfix, hown, hfree⟩
  rw [hs, Option.bind_some, hs', Option.bind_some] at hp
  rcases Option.map_eq_some_iff.1 hp with ⟨pte, hpte, hp⟩
  simp only [Prod.mk.injEq] at hp
  rcases hp with ⟨hpres, hsw, hslot, hmap⟩
  have hfs := List.find?_some hfind
  have hfs' := List.find?_some hfind'
  simp only [decide_eq_true_eq] at hfs hfs'
  exact ⟨s, s', hs, hs', hlive, ⟨f, List.mem_of_find?_eq_some hfind, hfs, hfix, hown⟩,
    ⟨f', List.mem_of_find?_eq_some hfind', hfs', hfree⟩, ⟨pte, hpte, hpres, hsw, hslot⟩, hmap⟩

end Os161
