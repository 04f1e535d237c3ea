import Os161.Vm.FaultRange

/-!
# Eviction victims

An evictor gets past its victim only when the victim's owner is a live address space whose PTE
for the victim's page is present (`evictFrame_eq_some`); on any other frame it reads through a
space that is not there or fails its `assert` on `PTE_PRESENT` (`evictFrame_of_not_mapped`). The
victim searches do not look at either: `evict_or_swap` takes any frame that is neither FIXED nor
FREE, and `evict_or_swap_kernel` the first frame that is not FIXED. So a frame that is in use but
not mapped, such as the one `as_copy` loads a swapped page into (`fork_orphan_frame`), makes the
next allocation that picks it panic (`eviction_victim_unmapped`).
-/

namespace Os161

namespace Vm

variable {s : Vm}

/-- Frame `k` is not the page of a live space with a present PTE. -/
def Unmapped (s : Vm) (f : Frame) : Prop :=
  ∀ pte, s.getPTEFromAddrspace f.addrspace f.mappedVaddr = some pte → pte ≠ 0 →
    Pte.present (s.ptes.get pte) = false

theorem evictFrame_of_not_mapped {k : Nat} {f : Frame} (hk : s.coremap[k]? = some f)
    (hf : s.Unmapped f) : s.evictFrame k = none := by
  rcases hev : s.evictFrame k with _ | s'
  · rfl
  · obtain ⟨f', d, s₁, pte, hk', -, hpte, hne, hp, -⟩ := evictFrame_eq_some hev
    rw [hk, Option.some.injEq] at hk'
    subst hk'
    rw [hf pte hpte hne] at hp
    cases hp

theorem evictRandom_of_pick {bad : Frame → Bool} {k : Nat} {rs : List Nat}
    (h : pickRandom s.coremap bad s.random = some (k, rs)) :
    s.evictRandom bad = ({ s with random := rs }.evictFrame k).map (k, ·) := by
  simp only [evictRandom, h, Option.bind_eq_bind, Option.bind_some, Option.map_eq_bind]
  rfl

/-- `get_free_frame` on a machine with no FREE frame whose next random victim is unmapped panics. -/
theorem getFreeFrame_of_not_mapped (hfree : firstFree s.coremap = none) {k : Nat} {rs : List Nat}
    (hpick : pickRandom s.coremap (fun f => f.state == .FIXED || f.state == .FREE) s.random =
      some (k, rs))
    {f : Frame} (hk : s.coremap[k]? = some f) (hf : s.Unmapped f) : s.getFreeFrame = none := by
  have hev : { s with random := rs }.evictFrame k = none := evictFrame_of_not_mapped hk hf
  rw [getFreeFrame, freeFrameOr, hfree, evictOrSwap, evictRandom_of_pick hpick, hev]
  rfl

/-- `evict_or_swap_kernel` on a machine whose first frame that is not FIXED is unmapped panics,
and so does it when every frame is FIXED: the victim is then an uninitialised variable. -/
theorem evictOrSwapKernel_of_not_mapped :
    (∀ {k : Nat} {f : Frame}, s.coremap.findIdx? (·.state != .FIXED) = some k →
      s.coremap[k]? = some f → s.Unmapped f → s.evictOrSwapKernel = none) ∧
    ((∀ f ∈ s.coremap, f.state = .FIXED) → s.evictOrSwapKernel = none) := by
  refine ⟨fun hidx hk hf => ?_, fun hall => ?_⟩
  · rw [evictOrSwapKernel, hidx, Option.bind_eq_bind, Option.bind_some,
      evictFrame_of_not_mapped hk hf]
    rfl
  · have hnone : s.coremap.findIdx? (·.state != .FIXED) = none := by
      rw [List.findIdx?_eq_none_iff]
      intro f hf
      simp [hall f hf]
    rw [evictOrSwapKernel, hnone]
    rfl

end Vm

/-- The run of `fork_orphan_frame` and then one more store by the parent `P`, which takes the last
frame the random evictor picks before frame 6. -/
def evictRun : List VmOp := forkPrefix ++ [.asCopy 0x80047000, .store 0x7fffc000 4]

/-- After `evictRun` no frame is FREE, and frame 6 is DIRTY under the live space `P` but not mapped:
`P`'s PTE for it is not present. The next victim `evict_or_swap` picks is frame 6, so
`get_free_frame` panics, and so does the next store to a new page. The first frame that is not
FIXED, which `evict_or_swap_kernel` takes, is owned by `0x7fffd000`, which is not an address space. -/
theorem eviction_victim_unmapped :
    ∃ s f, Vm.Reachable s ∧ forkBoot.bind (·.exec evictRun) = some s ∧ firstFree s.coremap = none ∧
      s.coremap[6]? = some f ∧ f.state = .DIRTY ∧ f.addrspace = 0x80047000 ∧
      (s.space 0x80047000).isSome ∧
      (∃ pte, s.getPTEFromAddrspace f.addrspace f.mappedVaddr = some pte ∧ pte ≠ 0 ∧
        Pte.present (s.ptes.get pte) = false) ∧
      (pickRandom s.coremap (fun f => f.state == .FIXED || f.state == .FREE) s.random).map Prod.fst =
        some 6 ∧
      s.getFreeFrame = none ∧ s.step (.store 0x7fffb000 5) = none ∧
      (s.coremap[4]?.map fun f => (s.space f.addrspace).isSome) = some false ∧
      s.evictOrSwapKernel = none := by
  have h : (forkBoot.bind (·.exec evictRun)).bind (fun s =>
      (s.coremap[6]?).bind fun f =>
      (s.getPTEFromAddrspace f.addrspace f.mappedVaddr).bind fun pte =>
      (pickRandom s.coremap (fun f => f.state == .FIXED || f.state == .FREE) s.random).map fun p =>
        (pte, p.1, firstFree s.coremap == none && f.state == .DIRTY && f.addrspace == 0x80047000 &&
          (s.space 0x80047000).isSome && !Pte.present (s.ptes.get pte) &&
          (s.step (.store 0x7fffb000 5)).isNone &&
          (s.coremap[4]?.map fun f => (s.space f.addrspace).isSome) == some false &&
          s.evictOrSwapKernel.isNone)) =
      some (0x80049ffc, 6, true) := by
    decide +kernel
  obtain ⟨s, hs, h⟩ := Option.bind_eq_some_iff.1 h
  obtain ⟨f, hf, h⟩ := Option.bind_eq_some_iff.1 h
  obtain ⟨pte, hpte, h⟩ := Option.bind_eq_some_iff.1 h
  obtain ⟨⟨k, rs⟩, hpick, h⟩ := Option.map_eq_some_iff.1 h
  simp only [Prod.mk.injEq, Bool.and_eq_true, beq_iff_eq, Bool.not_eq_eq_eq_not, Bool.not_true] at h
  obtain ⟨rfl, rfl, ⟨⟨⟨⟨⟨⟨⟨hfree, hdirty⟩, hown⟩, hlive⟩, hp⟩, hstore⟩, h4⟩, hkern⟩⟩ := h
  obtain ⟨s₀, hs₀, hex⟩ := Option.bind_eq_some_iff.1 hs
  have hr : Vm.Reachable s := Vm.Reachable.exec (Sys.Reach.init ⟨_, _, _, _, _, _, _, _, hs₀⟩) hex
  -- the only PTE address `get_PTE_from_addrspace` gives for frame 6 is the one read above
  have hun : s.Unmapped f := by
    intro pte' hpte' _
    rw [hpte, Option.some.injEq] at hpte'
    rw [← hpte']
    exact hp
  refine ⟨s, f, hr, hs, hfree, hf, hdirty, hown, hlive, ⟨_, hpte, by decide, hp⟩, by rw [hpick]; rfl,
    Vm.getFreeFrame_of_not_mapped hfree hpick hf hun, Option.isNone_iff_eq_none.1 hstore, h4,
    Option.isNone_iff_eq_none.1 hkern⟩

end Os161
