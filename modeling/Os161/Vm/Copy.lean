import Os161.Vm.Spec

/-!
# What `as_copy` leaves behind

`as_copy` calls `alloc_page_userspace_with_avoidance` with two arguments for its three, so the
frame it gives a present page of the child is recorded under the owner `dest_vaddr` and the
virtual address `src_paddr` (`copyPte_present`), never under the child. For a swapped page it
reads the parent's copy back with `load_swapped_page`, which writes no PTE
(`loadSwappedPage_ptes`): the frame it fills is recorded as the parent's page while the parent's
PTE still says swapped, and nothing ever maps it.

A run shows both: a process with three stack pages, the first of them swapped out, forks.
-/

namespace Os161

namespace Vm

variable {s s' : Vm}

theorem loadPage_ptes {as va k : Nat} (h : s.loadPage as va k = some s') :
    s'.ptes = s.ptes ∧ ∃ g : Frame, s'.coremap[k]? = some g ∧ g.state = .DIRTY ∧ g.addrspace = as ∧
      g.mappedVaddr = va := by
  rcases loadPage_eq_some h with ⟨pte, f, -, -, hf, rfl⟩
  have hk : k < s.coremap.length := (List.getElem?_eq_some_iff.1 hf).1
  exact ⟨rfl, { f with addrspace := as, mappedVaddr := va, state := .DIRTY, numPagesAllocated := 1 },
    by simp [hk], rfl, rfl, rfl⟩

/-- `load_swapped_page` writes no PTE itself: the PTE words after it are those the eviction that
made room for the page left, and the frame it fills is recorded as page `va` of `as`. -/
theorem loadSwappedPage_ptes {as va p : Nat} (h : s.loadSwappedPage as va = some (p, s')) :
    ∃ s₁, Keeps s s₁ ∧ s'.ptes = s₁.ptes ∧
      ∃ (k : Nat) (g : Frame), s'.coremap[k]? = some g ∧ g.frameStart = p ∧ g.state = .DIRTY ∧ g.addrspace = as ∧
        g.mappedVaddr = va := by
  unfold loadSwappedPage at h
  simp only [bind, Option.bind_eq_some_iff, Option.guard_eq_some', exists_const, Option.some.injEq,
    Prod.mk.injEq] at h
  rcases h with ⟨⟨k, s₁⟩, hff, f, -, -, s₂, hl, g, hg, -, rfl, rfl⟩
  rcases loadPage_ptes hl with ⟨hp, g', hg', hd, ha, hv⟩
  rw [hg', Option.some.injEq] at hg
  subst hg
  exact ⟨s₁, keeps_getFreeFrame hff, hp, k, g', hg', rfl, hd, ha, hv⟩

/-- The round of `as_copy` for a present entry `j` of the parent's table `srcPt`: the frame it
takes for the child is the one the child's new PTE names, and it is recorded as page
`src_paddr` of the owner `dest_vaddr`. -/
theorem copyPte_present {old i srcPt destPt j : Nat} (hne : srcPt ≠ destPt)
    (hp : Pte.present (s.ptes.get (srcPt + 4 * j)) = true)
    (h : copyPte old i srcPt destPt j s = some s') :
    ∃ (k : Nat) (g : Frame), s'.coremap[k]? = some g ∧ g.state = .DIRTY ∧
      g.addrspace = (i <<< 22) + (j <<< 12) ∧ g.mappedVaddr = s.ptes.get (srcPt + 4 * j) &&& pageFrame ∧
      ∃ w, s'.ptes.get (destPt + 4 * j) = Pte.copyEntry w g.frameStart := by
  -- clearing the child's entry first leaves the parent's alone, the tables being different
  have hw : (s.setPte (destPt + 4 * j) 0).ptes.get (srcPt + 4 * j) = s.ptes.get (srcPt + 4 * j) := by
    rw [setPte_ptes, Sparse.get_set_of_ne _ _ (by omega)]
  unfold copyPte at h
  simp only [hw, hp, if_true, bind, Option.bind_eq_some_iff, Option.guard_eq_some', exists_const] at h
  rcases h with ⟨-, ⟨avoid, s₁⟩, -, ⟨p, s₂⟩, ha, h⟩
  rw [Option.some.injEq] at h
  subst h
  rcases allocPageUserspaceWithAvoidance_eq_some ha with ⟨-, k, s₃, -, ht⟩
  rcases takeUserFrame_eq_some.1 ht with ⟨f, hf, -, rfl, rfl⟩
  have hk : k < s₃.coremap.length := (List.getElem?_eq_some_iff.1 hf).1
  refine ⟨k, { f with
    addrspace := (i <<< 22) + (j <<< 12)
    state := .DIRTY
    mappedVaddr := s.ptes.get (srcPt + 4 * j) &&& pageFrame
    numPagesAllocated := 1 }, ?_, rfl, rfl, rfl, s₃.ptes.get (destPt + 4 * j), ?_⟩
  · simp [hk]
  · simp

end Vm

/-- A machine of twelve pages and sixteen swap slots. Its evictions pick frames 10, 10, 11, 6 and
6, and the values it reads from uninitialised variables are `0`. -/
def forkBoot : Option Vm :=
  vmBootstrap 0x40000 0x4C000 16 (fun _ => 0) (fun _ => 0) [10, 10, 11, 6, 6] [] (List.replicate 8 0)

/-- Six kernel pages, then an address space at `0x80047000` whose process stores to three stack
pages; the store to the third evicts the first to slot `0`. The first kernel page is given back
so that the child's structure fits. -/
def forkPrefix : List VmOp :=
  [.allocKpages 6, .asCreate, .switch 0x80047000, .store 0x7ffff000 1, .store 0x7fffe000 2,
    .store 0x7fffd000 3, .freeKpages 0x80041000]

theorem fork_orphan_frame :
    ∃ s, forkBoot.bind (·.exec (forkPrefix ++ [.asCopy 0x80047000])) = some s ∧
      (s.space 0x80047000).isSome ∧
      ∃ f ∈ s.coremap, f.state = .DIRTY ∧ f.addrspace = 0x80047000 ∧ f.mappedVaddr = 0x7ffff000 ∧
        ∃ pte, s.getPTEFromAddrspace 0x80047000 0x7ffff000 = some pte ∧
          Pte.present (s.ptes.get pte) = false := by
  have h : (forkBoot.bind (·.exec (forkPrefix ++ [.asCopy 0x80047000]))).bind (fun s =>
      (s.coremap.find? fun f => f.state = .DIRTY ∧ f.addrspace = 0x80047000 ∧
        f.mappedVaddr = 0x7ffff000).bind fun f =>
      (s.getPTEFromAddrspace 0x80047000 0x7ffff000).map fun pte =>
        ((s.space 0x80047000).isSome, f.frameStart, Pte.present (s.ptes.get pte))) =
      some (true, 0x46000, false) := by
    decide +kernel
  rcases Option.bind_eq_some_iff.1 h with ⟨s, hs, h⟩
  rcases Option.bind_eq_some_iff.1 h with ⟨f, hf, h⟩
  rcases Option.map_eq_some_iff.1 h with ⟨pte, hpte, h⟩
  simp only [Prod.mk.injEq] at h
  rcases h with ⟨hlive, -, hp⟩
  have hfp := List.find?_some hf
  simp only [decide_eq_true_eq] at hfp
  rcases hfp with ⟨hd, ha, hv⟩
  exact ⟨s, hs, hlive, f, List.mem_of_find?_eq_some hf, hd, ha, hv, pte, hpte, hp⟩

theorem fork_copy_owner :
    ∃ s₁ s newas, forkBoot.bind (·.exec forkPrefix) = some s₁ ∧
      s₁.asCopy 0x80047000 = some (.ok newas, s) ∧
      ∃ pte, s.getPTEFromAddrspace newas 0x7fffe000 = some pte ∧ Pte.present (s.ptes.get pte) ∧
        ∃ f ∈ s.coremap, f.frameStart = Pte.frame (s.ptes.get pte) ∧ f.state = .DIRTY ∧
          f.addrspace = 0x7fffe000 ∧ f.mappedVaddr = 0x4B000 := by
  have h : (forkBoot.bind (·.exec forkPrefix)).bind (fun s₁ => (s₁.asCopy 0x80047000).bind fun rs =>
      rs.1.toOption.bind fun newas => (rs.2.getPTEFromAddrspace newas 0x7fffe000).bind fun pte =>
          (rs.2.coremap.find? (·.frameStart = Pte.frame (rs.2.ptes.get pte))).map fun f =>
            (newas, Pte.present (rs.2.ptes.get pte), f)) =
      some (0x80041000, true, ⟨0x7fffe000, 0x45000, 0x4B000, .DIRTY, 1⟩) := by
    decide +kernel
  rcases Option.bind_eq_some_iff.1 h with ⟨s₁, h₁, h⟩
  rcases Option.bind_eq_some_iff.1 h with ⟨⟨r, s⟩, h₂, h⟩
  rcases r with e | newas
  · simp [Except.toOption] at h
  · rcases Option.bind_eq_some_iff.1 h with ⟨_, hok, h⟩
    cases hok
    rcases Option.bind_eq_some_iff.1 h with ⟨pte, h₃, h⟩
    rcases Option.map_eq_some_iff.1 h with ⟨f, h₄, h⟩
    simp only [Prod.mk.injEq] at h
    rcases h with ⟨rfl, hp, rfl⟩
    have hf := List.find?_some h₄
    exact ⟨s₁, s, _, h₁, h₂, pte, h₃, hp, _, List.mem_of_find?_eq_some h₄, by simpa using hf,
      rfl, rfl, rfl⟩

end Os161
