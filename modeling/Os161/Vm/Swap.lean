import Os161.Vm.Spec

/-!
# The swap file

An evicted DIRTY page goes to the slot `bitmap_alloc` hands back, and `load_page` reads it from
the slot its PTE names, which is that slot: one eviction and one swap-in give the page back as it
was (`swap_round_trip`).

No slot is ever given back on a swap-in, though. Once every slot has been used, `bitmap_alloc`
fails, and the slot is whatever the uninitialised `disk_slot` holds (`swapVictim_of_full`): the
victim's bytes then overwrite a slot that may hold another page. Two pages and two slots are
enough to lose a store.
-/

namespace Os161

namespace Vm

variable {s s' : Vm}

theorem swapVictim_disk {k d : Nat} {f : Frame} (hk : s.coremap[k]? = some f)
    (h : s.swapVictim k = some (d, s')) :
    d < s.totalDiskSlots ∧ s'.disk = ByteMem.blit s.disk (d * pageSize) s.mem f.frameStart pageSize := by
  rcases swapVictim_eq_some h with ⟨s₀, h₀, hc, -, hd, -, hlt, hs⟩
  rcases swapOut_eq_some.1 hs with ⟨f₀, hf₀, -, -, -, -, rfl⟩
  rw [hc, hk, Option.some.injEq] at hf₀
  subst hf₀
  exact ⟨hlt, by rw [flushTlb_disk, hd, h₀.mem]⟩

/-- A page written out by an eviction and read back by `load_page`, into any frame, comes back
with the bytes it had: the evictor puts the slot where `load_page` looks for it. -/
theorem swap_round_trip {s₁ s₂ : Vm} {k k' : Nat} {f : Frame} (hk : s.coremap[k]? = some f)
    (hdirty : f.state = .DIRTY) (hslots : s.totalDiskSlots ≤ 2 ^ 20)
    (h₁ : s.evictFrame k = some s₁) (h₂ : s₁.loadPage f.addrspace f.mappedVaddr k' = some s₂) :
    ∃ g, s₁.coremap[k']? = some g ∧
      ByteMem.load s₂.mem g.frameStart pageSize = ByteMem.load s.mem f.frameStart pageSize := by
  rcases evictFrame_eq_some h₁ with ⟨f₁, d, s₀, pte, hf₁, hsw, hpte, -, -, hs₁⟩
  rw [hk, Option.some.injEq] at hf₁
  subst hf₁
  rw [if_pos hdirty] at hsw hs₁
  subst hs₁
  rcases swapVictim_disk hk hsw with ⟨hd, hdisk⟩
  have hk₀ := keeps_swapVictim hsw
  rcases loadPage_eq_some h₂ with ⟨pte₂, g, hpte₂, -, hg, rfl⟩
  have hkeep := (keeps_setPte (s := s₀) pte (Pte.setSlot (Pte.markSwapped (s.ptes.get pte)) d)).trans
    (keeps_setFrame (g := { f with state := .CLEAN, mappedVaddr := deadbeef, addrspace := 0 })
      (k := k) (f := f) (by rw [setPte_coremap, swapVictim_coremap hsw, hk]) rfl)
  rw [(hk₀.trans hkeep).getPTEFromAddrspace, hpte, Option.some.injEq] at hpte₂
  subst hpte₂
  set s₁ := (s₀.setPte pte (Pte.setSlot (Pte.markSwapped (s.ptes.get pte)) d)).setFrame k
      { f with state := .CLEAN, mappedVaddr := deadbeef, addrspace := 0 } with hs₁
  have hslot : Pte.slot (s₁.ptes.get pte) = d := by
    rw [hs₁, setFrame_ptes, setPte_ptes, Sparse.get_set_self]
    exact Pte.slot_setSlot _ (by omega)
  refine ⟨g, hg, ?_⟩
  simp only [setFrame_mem] at hslot ⊢
  rw [hslot, ByteMem.load_blit, setFrame_disk, setPte_disk, hdisk, ByteMem.load_blit]

theorem bitmapAlloc_of_full {b : List Bool} (hfull : ∀ x ∈ b, x = true) :
    bitmapAlloc b = .error .ENOSPC := by
  unfold bitmapAlloc
  rw [List.findIdx?_eq_none_iff.2 (by simpa using hfull)]

/-- With every slot marked, the slot an eviction writes to is the uninitialised value, and the
victim's page is written over whatever that slot held. -/
theorem swapVictim_of_full {k d : Nat} {f : Frame} (hk : s.coremap[k]? = some f)
    (hfull : ∀ x ∈ s.swapfileMap, x = true) (h : s.swapVictim k = some (d, s')) :
    s.junk.head? = some d ∧
      ByteMem.load s'.disk (d * pageSize) pageSize = ByteMem.load s.mem f.frameStart pageSize := by
  refine ⟨?_, by rw [(swapVictim_disk hk h).2, ByteMem.load_blit]⟩
  unfold swapVictim at h
  rw [bitmapAlloc_of_full hfull] at h
  simp only [bind, Option.bind_eq_some_iff] at h
  rcases h with ⟨⟨d', s₀⟩, hj, h⟩
  rcases takeJunk_eq_some.1 hj with ⟨js, hjs, -⟩
  simp only [Option.guard_eq_some', exists_const, Option.some.injEq, Prod.mk.injEq] at h
  rcases h with ⟨-, -, -, rfl, -⟩
  rw [hjs, List.head?_cons]

end Vm

/-- A machine of five pages (the coremap's, two for an address space, one for a second-level
table, and one for the process) and two swap slots. Every eviction picks frame 4; the
uninitialised variables read `0`, `0` and `1`. -/
def swapBoot : Option Vm :=
  vmBootstrap 0x40000 0x45000 2 (fun _ => 0) (fun _ => 0) [4, 4, 4] [] [0, 0, 1]

theorem paging_loses_store :
    ∃ s₀ s₁ s₂ s₃ s₄, swapBoot.bind (·.exec [.asCreate, .switch 0x80041000]) = some s₀ ∧
      s₀.userStore 0x7ffff000 1 = some (.ok (), s₁) ∧
      s₁.userStore 0x7fffe000 2 = some (.ok (), s₂) ∧
      s₂.userLoad 0x7ffff000 = some (.ok 1, s₃) ∧
      s₃.userLoad 0x7fffe000 = some (.ok 1, s₄) := by
  have h : (swapBoot.bind (·.exec [.asCreate, .switch 0x80041000])).bind (fun s₀ =>
      (s₀.userStore 0x7ffff000 1).bind fun p₁ => (p₁.2.userStore 0x7fffe000 2).bind fun p₂ =>
      (p₂.2.userLoad 0x7ffff000).bind fun p₃ =>
      (p₃.2.userLoad 0x7fffe000).map fun p₄ => (p₁.1, p₂.1, p₃.1, p₄.1)) =
      some (.ok (), .ok (), .ok 1, .ok 1) := by
    decide +kernel
  rcases Option.bind_eq_some_iff.1 h with ⟨s₀, h₀, h⟩
  rcases Option.bind_eq_some_iff.1 h with ⟨⟨r₁, s₁⟩, h₁, h⟩
  rcases Option.bind_eq_some_iff.1 h with ⟨⟨r₂, s₂⟩, h₂, h⟩
  rcases Option.bind_eq_some_iff.1 h with ⟨⟨r₃, s₃⟩, h₃, h⟩
  rcases Option.map_eq_some_iff.1 h with ⟨⟨r₄, s₄⟩, h₄, h⟩
  simp only [Prod.mk.injEq] at h
  rcases h with ⟨rfl, rfl, rfl, rfl⟩
  exact ⟨s₀, s₁, s₂, s₃, s₄, h₀, h₁, h₂, h₃, h₄⟩

end Os161
