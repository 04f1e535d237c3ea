import Os161.Vm.Spec

/-!
# What a page fault gives the process

`handle_vaddr_fault` ends with one TLB write for the faulting page, valid, and writable exactly
when the permissions it was called with have `PF_W` (`handleVaddrFault_tlb`). Before that it
changes physical memory only when it reads a swapped page back: a page that is neither present
nor swapped goes into a frame as the frame is (`handleVaddrFault_mem`), since `as_zero_page` is
never called. What the frame held before, the process reads.

`as_complete_load` gives the text region its permissions back but leaves the TLB as it was
(`asCompleteLoad_tlb`), so an entry made writable while the region was being loaded stays
writable.
-/

namespace Os161

namespace Vm

variable {s s' : Vm}

theorem setMasterPagetable_eq_some {as i t : Nat} (h : s.setMasterPagetable as i t = some s') :
    s'.mem = s.mem ∧ s'.curspace = s.curspace := by
  unfold setMasterPagetable at h
  simp only [bind, Option.bind_eq_some_iff, Option.some.injEq] at h
  rcases h with ⟨a, -, rfl⟩
  exact ⟨rfl, rfl⟩

theorem tlbFill_eq_some {hi lo : Nat} (h : s.tlbFill hi lo = some s') :
    ∃ k, s'.tlb = s.tlb.set k (hi, lo) := by
  unfold tlbFill at h
  split at h
  · rename_i k _
    rw [Option.some.injEq] at h
    exact ⟨k, by rw [← h]; rfl⟩
  · unfold tlbRandomWrite at h
    split at h
    · rename_i r _ _
      rw [Option.some.injEq] at h
      exact ⟨r % numTlb, by rw [← h]; rfl⟩
    · cases h

theorem handleVaddrFault_eq_some {va perms : Nat} (h : s.handleVaddrFault va perms = some s') :
    ∃ (p : Nat) (s₁ : Vm), p % pageSize = 0 ∧ s₁.tlbFill va (Tlb.entryLo p perms) = some s' ∧
      (s₁.mem = s.mem ∨ ∃ pte, s.getPTEFromAddrspace s.curspace va = some pte ∧ pte ≠ 0 ∧
        Pte.swapped (s.ptes.get pte) = true) := by
  unfold handleVaddrFault at h
  rcases Option.bind_eq_some_iff.1 h with ⟨a, ha, h⟩
  dsimp only at h
  split_ifs at h with ht hp hsw
  · -- present: the frame the PTE names
    simp only [bind, Option.bind_some, Option.bind_eq_some_iff, Option.guard_eq_some',
      exists_const] at h
    exact ⟨_, s, Pte.frame_mod _, h.2, Or.inl rfl⟩
  · -- swapped: read back by `load_swapped_page`
    simp only [bind, Option.bind_some, Option.bind_eq_some_iff, Option.guard_eq_some',
      exists_const] at h
    rcases h with ⟨⟨p, s₁⟩, -, hp', hfill⟩
    refine ⟨p, _, Pte.mod_of_aligned hp', hfill, Or.inr ⟨_, ?_, by omega, hsw⟩⟩
    simp [getPTEFromAddrspace, ha, ht]
  · -- neither: a frame from `alloc_page_userspace`
    simp only [bind, Option.bind_some, Option.bind_eq_some_iff, Option.guard_eq_some',
      exists_const] at h
    rcases h with ⟨⟨p, s₁⟩, hal, hp', hfill⟩
    refine ⟨p, _, Pte.mod_of_aligned hp', hfill, Or.inl ?_⟩
    rw [setPte_mem, (keeps_allocPageUserspace hal).mem]
  · -- no second-level table: one made first, then a frame from `alloc_page_userspace`
    simp only [bind, Option.bind_some, Option.bind_eq_some_iff, Option.guard_eq_some',
      exists_const] at h
    rcases h with ⟨⟨t, s₁⟩, hk, s₂, hm, -, ⟨p, s₃⟩, hal, hp', pte, -, -, -, -, hfill⟩
    refine ⟨p, _, hp', hfill, Or.inl ?_⟩
    rw [setPte_mem, (keeps_allocPageUserspace hal).mem, (keeps_zeroTable t).mem,
      (setMasterPagetable_eq_some hm).1, (keeps_kmalloc hk).mem]

/-- A fault on a page that is not swapped out leaves physical memory as it was: the frame the
page gets is not cleared. -/
theorem handleVaddrFault_mem {va perms : Nat} (h : s.handleVaddrFault va perms = some s')
    (hns : ∀ pte, s.getPTEFromAddrspace s.curspace va = some pte → pte ≠ 0 →
      Pte.swapped (s.ptes.get pte) = false) :
    s'.mem = s.mem := by
  rcases handleVaddrFault_eq_some h with ⟨p, s₁, -, hfill, hmem | ⟨pte, hpte, hne, hsw⟩⟩
  · rw [(keeps_tlbFill hfill).mem, hmem]
  · rw [hns pte hpte hne] at hsw
    cases hsw

end Vm

/-- A machine of five pages (the coremap's, two for an address space, one for a second-level
table and one for the process) with memory `mem`. -/
def leakBoot (mem : Nat → UInt8) : Option Vm :=
  vmBootstrap 0x40000 0x45000 2 mem (fun _ => 0) [] [] [0, 0]

/-- What the process of `leakBoot mem` reads first from its stack, and the state of the frame at
`0x44000` before it reads. -/
def leakObserve (mem : Nat → UInt8) : Option (FrameState × Except Errno UInt8) :=
  ((leakBoot mem).bind (·.exec [.asCreate, .switch 0x80041000])).bind fun s =>
    (s.coremap.find? (·.frameStart = 0x44000)).bind fun f =>
      (s.userLoad 0x7ffff000).map fun (r, _) => (f.state, r)

theorem leakObserve_eq_some {mem : Nat → UInt8} {v : UInt8}
    (h : leakObserve mem = some (.FREE, .ok v)) :
    ∃ s, (leakBoot mem).bind (·.exec [.asCreate, .switch 0x80041000]) = some s ∧
      (∃ f ∈ s.coremap, f.frameStart = 0x44000 ∧ f.state = .FREE) ∧
      (s.userLoad 0x7ffff000).map Prod.fst = some (.ok v) := by
  rcases Option.bind_eq_some_iff.1 h with ⟨s, hs, h⟩
  rcases Option.bind_eq_some_iff.1 h with ⟨f, hf, h⟩
  rcases Option.map_eq_some_iff.1 h with ⟨⟨r, s'⟩, hl, h⟩
  simp only [Prod.mk.injEq] at h
  rcases h with ⟨hfree, rfl⟩
  have hstart := List.find?_some hf
  simp only [decide_eq_true_eq] at hstart
  exact ⟨s, hs, ⟨f, List.mem_of_find?_eq_some hf, hstart, hfree⟩, by rw [hl]; rfl⟩

theorem fresh_page_not_zeroed :
    ∃ s₀ s₁, (leakBoot fun _ => 0).bind (·.exec [.asCreate, .switch 0x80041000]) = some s₀ ∧
      (leakBoot (Function.update (fun _ => 0) 0x44000 0x5a)).bind
        (·.exec [.asCreate, .switch 0x80041000]) = some s₁ ∧
      (∃ f ∈ s₀.coremap, f.frameStart = 0x44000 ∧ f.state = .FREE) ∧
      (∃ f ∈ s₁.coremap, f.frameStart = 0x44000 ∧ f.state = .FREE) ∧
      (s₀.userLoad 0x7ffff000).map Prod.fst = some (.ok 0) ∧
      (s₁.userLoad 0x7ffff000).map Prod.fst = some (.ok 0x5a) := by
  have h₀ : leakObserve (fun _ => 0) = some (.FREE, .ok 0) := by decide +kernel
  have h₁ : leakObserve (Function.update (fun _ => 0) 0x44000 0x5a) = some (.FREE, .ok 0x5a) := by
    decide +kernel
  rcases leakObserve_eq_some h₀ with ⟨s₀, hs₀, hf₀, hl₀⟩
  rcases leakObserve_eq_some h₁ with ⟨s₁, hs₁, hf₁, hl₁⟩
  exact ⟨s₀, s₁, hs₀, hs₁, hf₀, hf₁, hl₀, hl₁⟩

namespace Vm

variable {s s' : Vm}

/-- The TLB entry a fault writes is for the faulting page, valid, and writable exactly when the
permissions have `PF_W`. -/
theorem handleVaddrFault_tlb {va perms : Nat} (h : s.handleVaddrFault va perms = some s') :
    ∃ (tlb : List (Nat × Nat)) (k lo : Nat), s'.tlb = tlb.set k (va, lo) ∧ Tlb.valid lo = true ∧
      Tlb.dirty lo = decide (perms &&& pfW ≠ 0) := by
  rcases handleVaddrFault_eq_some h with ⟨p, s₁, hp, hfill, -⟩
  rcases tlbFill_eq_some hfill with ⟨k, hk⟩
  exact ⟨s₁.tlb, k, _, hk, Tlb.valid_entryLo p perms, Tlb.dirty_entryLo hp perms⟩

theorem asCompleteLoad_tlb {as : Nat} (h : s.asCompleteLoad as = some s') : s'.tlb = s.tlb := by
  unfold asCompleteLoad at h
  simp only [bind, Option.bind_eq_some_iff, Option.some.injEq] at h
  rcases h with ⟨a, -, text, -, bss, -, rfl⟩
  rfl

end Vm

/-- A machine of six pages. -/
def loadBoot : Option Vm :=
  vmBootstrap 0x40000 0x46000 2 (fun _ => 0) (fun _ => 0) [] [] [0, 0]

/-- `load_elf` for a text page at `0x400000` (readable and executable) and a data page at
`0x410000` (readable and writable): the regions are defined, `as_prepare_load` makes them
writable, the text page is written, and `as_complete_load` puts the permissions back. -/
def loadScript : List VmOp :=
  [.asCreate, .switch 0x80041000, .defineRegion 0x400000 0x1000 pfR 0 pfX,
    .defineRegion 0x410000 0x1000 pfR pfW 0, .prepareLoad, .store 0x400000 0x11, .completeLoad]

theorem text_writable_after_load :
    ∃ s s' a, loadBoot.bind (·.exec loadScript) = some s ∧ s.space 0x80041000 = some a ∧
      (∃ r, findRegion 0x400000 a.asRegions = some (some r) ∧ r.regionPermis &&& pfW = 0) ∧
      (∃ e ∈ s.tlb, e.1 = 0x400000 ∧ Tlb.valid e.2 ∧ Tlb.dirty e.2) ∧
      s.userStore 0x400000 0x22 = some (.ok (), s') ∧ s'.mem 0x44000 = 0x22 := by
  have h : (loadBoot.bind (·.exec loadScript)).bind (fun s =>
      (s.space 0x80041000).bind fun a => (findRegion 0x400000 a.asRegions).bind fun r =>
      r.bind fun r => (s.tlb.find? (·.1 = 0x400000)).bind fun e =>
      (s.userStore 0x400000 0x22).map fun rs =>
        (r.regionPermis &&& pfW, Tlb.valid e.2, Tlb.dirty e.2, rs.1, rs.2.mem 0x44000)) =
      some (0, true, true, .ok (), 0x22) := by
    decide +kernel
  rcases Option.bind_eq_some_iff.1 h with ⟨s, hs, h⟩
  rcases Option.bind_eq_some_iff.1 h with ⟨a, ha, h⟩
  rcases Option.bind_eq_some_iff.1 h with ⟨_ | r, hr, h⟩
  · cases h
  rw [Option.bind_some] at h
  rcases Option.bind_eq_some_iff.1 h with ⟨e, he, h⟩
  rcases Option.map_eq_some_iff.1 h with ⟨⟨res, s'⟩, hst, h⟩
  simp only [Prod.mk.injEq] at h
  rcases h with ⟨hw, hv, hd, rfl, hm⟩
  have he1 := List.find?_some he
  simp only [decide_eq_true_eq] at he1
  exact ⟨s, s', a, hs, ha, ⟨r, hr, hw⟩, ⟨e, List.mem_of_find?_eq_some he, he1, hv, hd⟩, hst, hm⟩

end Os161
