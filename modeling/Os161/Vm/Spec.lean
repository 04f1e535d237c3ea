import Os161.Vm.Addrspace
import Os161.Lib.Loop

/-!
# What the frame functions change

One lemma per function of `vm.c` says what it can do to the state. Most of them work on frames
alone: they rewrite coremap records, PTE words, the swap file and its bitmap, and the TLB, and
use up choices, but leave physical memory, the address-space structures, the current address
space and the physical address of every frame as they were. `Keeps s s'` says that; it is
reflexive and transitive, and every function but `load_page` (which fills a frame) keeps it.
-/

namespace Os161

namespace Vm

/-- The physical address of each frame. -/
def layout (s : Vm) : List Nat := s.coremap.map (·.frameStart)

/-- `s'` differs from `s` at most where work on frames writes. -/
structure Keeps (s s' : Vm) : Prop where
  layout : s'.layout = s.layout
  mem : s'.mem = s.mem
  spaces : s'.spaces = s.spaces
  curspace : s'.curspace = s.curspace

namespace Keeps

theorem refl (s : Vm) : Keeps s s := ⟨rfl, rfl, rfl, rfl⟩

theorem trans {s₁ s₂ s₃ : Vm} (h₁ : Keeps s₁ s₂) (h₂ : Keeps s₂ s₃) : Keeps s₁ s₃ :=
  ⟨h₂.layout.trans h₁.layout, h₂.mem.trans h₁.mem, h₂.spaces.trans h₁.spaces,
    h₂.curspace.trans h₁.curspace⟩

theorem space {s s' : Vm} (h : Keeps s s') (as : Nat) : s'.space as = s.space as := by
  unfold Vm.space
  rw [h.spaces]

theorem numFrames {s s' : Vm} (h : Keeps s s') : s'.numFrames = s.numFrames := by
  have hlen := congrArg List.length h.layout
  rwa [Vm.layout, Vm.layout, List.length_map, List.length_map] at hlen

theorem getPTEFromAddrspace {s s' : Vm} (h : Keeps s s') (as va : Nat) :
    s'.getPTEFromAddrspace as va = s.getPTEFromAddrspace as va := by
  unfold Vm.getPTEFromAddrspace
  rw [h.space]

theorem foldlM {β : Type*} {f : Vm → β → Option Vm} (step : ∀ s x s', f s x = some s' → Keeps s s')
    (xs : List β) {s s' : Vm} (h : xs.foldlM f s = some s') : Keeps s s' :=
  Loop.foldlM_rel refl trans step xs h

end Keeps

variable {s s' : Vm}

theorem keeps_setFrame {k : Nat} {f : Frame} (hk : s.coremap[k]? = some f) {g : Frame}
    (hg : g.frameStart = f.frameStart) : Keeps s (s.setFrame k g) := by
  refine ⟨?_, rfl, rfl, rfl⟩
  obtain ⟨hlt, rfl⟩ := List.getElem?_eq_some_iff.1 hk
  have hlt' : k < (s.coremap.map (·.frameStart)).length := by simpa using hlt
  have hmap : (s.coremap.map (·.frameStart))[k] = s.coremap[k].frameStart := List.getElem_map _
  simp only [layout, setFrame_coremap, List.map_set, hg]
  rw [← hmap, List.set_getElem_self]

theorem keeps_setPte (p w : Nat) : Keeps s (s.setPte p w) := ⟨rfl, rfl, rfl, rfl⟩

theorem keeps_flushTlb : Keeps s s.flushTlb := ⟨rfl, rfl, rfl, rfl⟩

theorem keeps_tlbWrite (index hi lo : Nat) : Keeps s (s.tlbWrite index hi lo) := ⟨rfl, rfl, rfl, rfl⟩

theorem swapOut_eq_some {k pos : Nat} :
    s.swapOut k pos = some s' ↔ ∃ f, s.coremap[k]? = some f ∧ f.state = .DIRTY ∧
      paddrToKvaddr f.frameStart % 512 = 0 ∧ pos % 512 = 0 ∧ pos / 4096 < s.totalDiskSlots ∧
      s' = { s with disk := ByteMem.blit s.disk pos s.mem f.frameStart pageSize }.flushTlb := by
  unfold swapOut
  simp only [bind, Option.bind_eq_some_iff, Option.guard_eq_some', exists_const, Option.some.injEq]
  constructor
  · rintro ⟨f, hf, h1, h2, h3, h4, rfl⟩
    exact ⟨f, hf, h1, h2, h3, h4, rfl⟩
  · rintro ⟨f, hf, h1, h2, h3, h4, rfl⟩
    exact ⟨f, hf, h1, h2, h3, h4, rfl⟩

theorem keeps_swapOut {k pos : Nat} (h : s.swapOut k pos = some s') : Keeps s s' := by
  obtain ⟨f, -, -, -, -, -, rfl⟩ := swapOut_eq_some.1 h
  exact ⟨rfl, rfl, rfl, rfl⟩

theorem bitmapAlloc_ok {b b' : List Bool} {i : Nat} (h : bitmapAlloc b = .ok (i, b')) :
    b[i]? = some false ∧ b' = b.set i true := by
  unfold bitmapAlloc at h
  split at h
  · rename_i j hj
    simp only [Except.ok.injEq, Prod.mk.injEq] at h
    obtain ⟨rfl, rfl⟩ := h
    obtain ⟨hlt, hfalse, -⟩ := List.findIdx?_eq_some_iff_getElem.1 hj
    exact ⟨List.getElem?_eq_some_iff.2 ⟨hlt, by simpa using hfalse⟩, rfl⟩
  · cases h

theorem length_bitmapAlloc {b b' : List Bool} {i : Nat} (h : bitmapAlloc b = .ok (i, b')) :
    b'.length = b.length := by
  rw [(bitmapAlloc_ok h).2, List.length_set]

theorem takeJunk_eq_some {j : Nat} :
    s.takeJunk = some (j, s') ↔ ∃ js, s.junk = j :: js ∧ s' = { s with junk := js } := by
  unfold takeJunk
  split
  · rename_i j' js hjs
    simp only [Option.some.injEq, Prod.mk.injEq, hjs, List.cons.injEq]
    constructor
    · rintro ⟨rfl, rfl⟩
      exact ⟨js, ⟨rfl, rfl⟩, rfl⟩
    · rintro ⟨js', ⟨rfl, rfl⟩, rfl⟩
      exact ⟨rfl, rfl⟩
  · rename_i hjs
    simp [hjs]

theorem swapVictim_eq_some {k d : Nat} (h : s.swapVictim k = some (d, s')) :
    ∃ s₀, Keeps s s₀ ∧ s₀.coremap = s.coremap ∧ s₀.ptes = s.ptes ∧ s₀.disk = s.disk ∧
      s₀.totalDiskSlots = s.totalDiskSlots ∧ d < s.totalDiskSlots ∧
      s₀.swapOut k (d * pageSize) = some s' := by
  unfold swapVictim at h
  split at h
  · rename_i i b hb
    simp only [bind, Option.bind_some, Option.bind_eq_some_iff, Option.guard_eq_some', exists_const,
      Option.some.injEq, Prod.mk.injEq] at h
    obtain ⟨hd, s₁, hs₁, rfl, rfl⟩ := h
    have hlen : b.length = s.swapfileMap.length := length_bitmapAlloc hb
    refine ⟨{ s with swapfileMap := b }, ⟨rfl, rfl, rfl, rfl⟩, rfl, rfl, rfl, hlen, ?_, hs₁⟩
    show i < s.swapfileMap.length
    rw [← hlen]
    exact hd
  · simp only [bind, Option.bind_eq_some_iff, Option.guard_eq_some', exists_const,
      Option.some.injEq, Prod.mk.injEq] at h
    obtain ⟨⟨d', s₀⟩, hj, hd, s₁, hs₁, rfl, rfl⟩ := h
    obtain ⟨js, -, rfl⟩ := takeJunk_eq_some.1 hj
    have hk : Keeps s { s with junk := js } := ⟨rfl, rfl, rfl, rfl⟩
    exact ⟨{ s with junk := js }, hk, rfl, rfl, rfl, rfl, hd, hs₁⟩

theorem keeps_swapVictim {k d : Nat} (h : s.swapVictim k = some (d, s')) : Keeps s s' := by
  obtain ⟨s₀, h₀, -, -, -, -, -, hs⟩ := swapVictim_eq_some h
  exact h₀.trans (keeps_swapOut hs)

theorem swapVictim_ptes {k d : Nat} (h : s.swapVictim k = some (d, s')) : s'.ptes = s.ptes := by
  obtain ⟨s₀, -, -, hp, -, -, -, hs⟩ := swapVictim_eq_some h
  obtain ⟨f, -, -, -, -, -, rfl⟩ := swapOut_eq_some.1 hs
  exact hp

theorem evictFrame_eq_some {k : Nat} (h : s.evictFrame k = some s') :
    ∃ f d s₁ pte, s.coremap[k]? = some f ∧
      (if f.state = .DIRTY then s.swapVictim k = some (d, s₁) else d = 0 ∧ s₁ = s) ∧
      s.getPTEFromAddrspace f.addrspace f.mappedVaddr = some pte ∧ pte ≠ 0 ∧
      Pte.present (s.ptes.get pte) = true ∧
      s' = (s₁.setPte pte (if f.state = .DIRTY then Pte.setSlot (Pte.markSwapped (s.ptes.get pte)) d
          else Pte.markSwapped (s.ptes.get pte))).setFrame k
        { f with state := .CLEAN, mappedVaddr := deadbeef, addrspace := 0 } := by
  unfold evictFrame at h
  cases hf : s.coremap[k]? with
  | none => simp [hf] at h
  | some f =>
    by_cases hdirty : f.state = .DIRTY
    · simp only [hf, hdirty, if_true, bind, Option.bind_some, Option.bind_eq_some_iff,
        Option.guard_eq_some', exists_const, Option.some.injEq] at h
      obtain ⟨⟨d, s₁⟩, hsw, pte, hpte, hne, hpres, rfl⟩ := h
      have hk := keeps_swapVictim hsw
      have hp := swapVictim_ptes hsw
      refine ⟨f, d, s₁, pte, rfl, by rw [if_pos hdirty]; exact hsw, by rwa [← hk.getPTEFromAddrspace],
        hne, by rwa [← hp], ?_⟩
      simp only [hdirty, if_true, hp]
    · simp only [hf, hdirty, if_false, bind, Option.bind_some, Option.bind_eq_some_iff,
        Option.guard_eq_some', exists_const, Option.some.injEq] at h
      obtain ⟨pte, hpte, hne, hpres, rfl⟩ := h
      exact ⟨f, 0, s, pte, rfl, by rw [if_neg hdirty]; exact ⟨rfl, rfl⟩, hpte, hne, hpres, by
        simp only [hdirty, if_false]⟩

theorem keeps_takeJunk {j : Nat} (h : s.takeJunk = some (j, s')) : Keeps s s' := by
  obtain ⟨js, -, rfl⟩ := takeJunk_eq_some.1 h
  exact ⟨rfl, rfl, rfl, rfl⟩

theorem swapVictim_coremap {k d : Nat} (h : s.swapVictim k = some (d, s')) :
    s'.coremap = s.coremap := by
  obtain ⟨s₀, -, hc, -, -, -, -, hs⟩ := swapVictim_eq_some h
  obtain ⟨f, -, -, -, -, -, rfl⟩ := swapOut_eq_some.1 hs
  exact hc

theorem keeps_evictFrame {k : Nat} (h : s.evictFrame k = some s') : Keeps s s' := by
  obtain ⟨f, d, s₁, pte, hf, hsw, -, -, -, rfl⟩ := evictFrame_eq_some h
  have h₁ : Keeps s s₁ ∧ s₁.coremap = s.coremap := by
    split_ifs at hsw
    · exact ⟨keeps_swapVictim hsw, swapVictim_coremap hsw⟩
    · obtain ⟨-, hs⟩ := hsw
      rw [hs]
      exact ⟨Keeps.refl s, rfl⟩
  set w := if f.state = .DIRTY then Pte.setSlot (Pte.markSwapped (s.ptes.get pte)) d
    else Pte.markSwapped (s.ptes.get pte)
  have hf₁ : (s₁.setPte pte w).coremap[k]? = some f := by rw [setPte_coremap, h₁.2, hf]
  exact h₁.1.trans ((keeps_setPte pte w).trans (keeps_setFrame hf₁ rfl))

theorem pickRandom_spec {cm : List Frame} {bad : Frame → Bool} :
    ∀ {rs : List Nat} {k : Nat} {rs' : List Nat}, pickRandom cm bad rs = some (k, rs') →
      ∃ f, cm[k]? = some f ∧ bad f = false
  | [], _, _, h => by cases h
  | r :: rs, k, rs', h => by
    unfold pickRandom at h
    split at h
    · rename_i f hf
      split at h
      · exact pickRandom_spec h
      · rename_i hb
        simp only [Option.some.injEq, Prod.mk.injEq] at h
        obtain ⟨rfl, -⟩ := h
        exact ⟨f, hf, by simpa using hb⟩
    · cases h

theorem evictRandom_eq_some {bad : Frame → Bool} {k : Nat} (h : s.evictRandom bad = some (k, s')) :
    ∃ f rs, s.coremap[k]? = some f ∧ bad f = false ∧ { s with random := rs }.evictFrame k = some s' := by
  unfold evictRandom at h
  simp only [bind, Option.bind_eq_some_iff, Option.some.injEq, Prod.mk.injEq] at h
  obtain ⟨⟨k', rs⟩, hpick, s₁, hev, rfl, rfl⟩ := h
  obtain ⟨f, hf, hb⟩ := pickRandom_spec hpick
  exact ⟨f, rs, hf, hb, hev⟩

theorem keeps_evictRandom {bad : Frame → Bool} {k : Nat} (h : s.evictRandom bad = some (k, s')) :
    Keeps s s' := by
  obtain ⟨-, rs, -, -, hev⟩ := evictRandom_eq_some h
  have h₀ : Keeps s { s with random := rs } := ⟨rfl, rfl, rfl, rfl⟩
  exact h₀.trans (keeps_evictFrame hev)

theorem keeps_evictOrSwap {k : Nat} (h : s.evictOrSwap = some (k, s')) : Keeps s s' :=
  keeps_evictRandom h

theorem keeps_evictOrSwapWithAvoidance {avoid k : Nat} (h : s.evictOrSwapWithAvoidance avoid = some (k, s')) :
    Keeps s s' :=
  keeps_evictRandom h

theorem keeps_evictOrSwapKernel {k : Nat} (h : s.evictOrSwapKernel = some (k, s')) : Keeps s s' := by
  unfold evictOrSwapKernel at h
  simp only [bind, Option.bind_eq_some_iff, Option.some.injEq, Prod.mk.injEq] at h
  obtain ⟨k', -, s₁, hev, -, rfl⟩ := h
  exact keeps_evictFrame hev

theorem keeps_evictOrSwapMultiple {start npages : Nat} (h : s.evictOrSwapMultiple start npages = some s') :
    Keeps s s' := by
  refine Keeps.foldlM (fun s i s' hi => ?_) _ h
  simp only [bind, Option.bind_eq_some_iff, Option.guard_eq_some', exists_const] at hi
  obtain ⟨f, -, -, hev⟩ := hi
  exact keeps_evictFrame hev

theorem freeFrameOr_eq_some {evict : Vm → Option (Nat × Vm)} {k : Nat}
    (h : s.freeFrameOr evict = some (k, s')) :
    (firstFree s.coremap = some k ∧ s' = s) ∨ (firstFree s.coremap = none ∧ evict s = some (k, s')) := by
  unfold freeFrameOr at h
  split at h
  · rename_i i hi
    simp only [Option.some.injEq, Prod.mk.injEq] at h
    obtain ⟨rfl, rfl⟩ := h
    exact .inl ⟨hi, rfl⟩
  · rename_i hi
    exact .inr ⟨hi, h⟩

theorem keeps_freeFrameOr {evict : Vm → Option (Nat × Vm)} {k : Nat}
    (hev : ∀ k s', evict s = some (k, s') → Keeps s s') (h : s.freeFrameOr evict = some (k, s')) :
    Keeps s s' := by
  rcases freeFrameOr_eq_some h with ⟨-, hs⟩ | ⟨-, he⟩
  · rw [hs]
    exact Keeps.refl s
  · exact hev k s' he

theorem keeps_getFreeFrame {k : Nat} (h : s.getFreeFrame = some (k, s')) : Keeps s s' :=
  keeps_freeFrameOr (fun _ _ he => keeps_evictOrSwap he) h

theorem keeps_getFreeFrameKernel {k : Nat} (h : s.getFreeFrameKernel = some (k, s')) : Keeps s s' :=
  keeps_freeFrameOr (fun _ _ he => keeps_evictOrSwapKernel he) h

theorem takeUserFrame_eq_some {k as va p : Nat} :
    s.takeUserFrame k as va = some (p, s') ↔ ∃ f, s.coremap[k]? = some f ∧
      (f.state = .FREE ∨ f.state = .CLEAN) ∧ p = f.frameStart ∧
      s' = s.setFrame k { f with addrspace := as, state := .DIRTY, mappedVaddr := va, numPagesAllocated := 1 } := by
  unfold takeUserFrame
  simp only [bind, Option.bind_eq_some_iff, Option.guard_eq_some', exists_const, Option.some.injEq,
    Prod.mk.injEq]
  constructor
  · rintro ⟨f, hf, hs, rfl, rfl⟩
    exact ⟨f, hf, hs, rfl, rfl⟩
  · rintro ⟨f, hf, hs, rfl, rfl⟩
    exact ⟨f, hf, hs, rfl, rfl⟩

theorem keeps_takeUserFrame {k as va p : Nat} (h : s.takeUserFrame k as va = some (p, s')) :
    Keeps s s' := by
  obtain ⟨f, hf, -, -, rfl⟩ := takeUserFrame_eq_some.1 h
  exact keeps_setFrame hf rfl

theorem allocPageUserspaceWithAvoidance_eq_some {as va avoid p : Nat}
    (h : s.allocPageUserspaceWithAvoidance as va avoid = some (p, s')) :
    va &&& pageFrame = va ∧ ∃ k s₁, s.freeFrameOr (·.evictOrSwapWithAvoidance avoid) = some (k, s₁) ∧
      s₁.takeUserFrame k as va = some (p, s') := by
  unfold allocPageUserspaceWithAvoidance at h
  simp only [bind, Option.bind_eq_some_iff, Option.guard_eq_some', exists_const] at h
  obtain ⟨hva, ⟨k, s₁⟩, hff, ht⟩ := h
  exact ⟨hva, k, s₁, hff, ht⟩

theorem keeps_allocPageUserspaceWithAvoidance {as va avoid p : Nat}
    (h : s.allocPageUserspaceWithAvoidance as va avoid = some (p, s')) : Keeps s s' := by
  obtain ⟨-, k, s₁, hff, ht⟩ := allocPageUserspaceWithAvoidance_eq_some h
  exact (keeps_freeFrameOr (fun _ _ he => keeps_evictOrSwapWithAvoidance he) hff).trans
    (keeps_takeUserFrame ht)

theorem allocPageUserspace_eq_some {va p : Nat} (h : s.allocPageUserspace va = some (p, s')) :
    va &&& pageFrame = va ∧ ∃ k s₁, s.getFreeFrame = some (k, s₁) ∧
      s₁.takeUserFrame k s₁.curspace va = some (p, s') := by
  unfold allocPageUserspace at h
  simp only [bind, Option.bind_eq_some_iff, Option.guard_eq_some', exists_const] at h
  obtain ⟨hva, ⟨k, s₁⟩, hff, ht⟩ := h
  exact ⟨hva, k, s₁, hff, ht⟩

theorem keeps_allocPageUserspace {va p : Nat} (h : s.allocPageUserspace va = some (p, s')) :
    Keeps s s' := by
  obtain ⟨-, k, s₁, hff, ht⟩ := allocPageUserspace_eq_some h
  exact (keeps_getFreeFrame hff).trans (keeps_takeUserFrame ht)

theorem keeps_fixFrames {start npages : Nat} (h : s.fixFrames start npages = some s') : Keeps s s' := by
  refine Keeps.foldlM (fun s j s' hj => ?_) _ h
  simp only [bind, Option.bind_eq_some_iff, Option.some.injEq] at hj
  obtain ⟨f, hf, rfl⟩ := hj
  exact keeps_setFrame hf rfl

theorem keeps_allocOnePage {p : Nat} (h : s.allocOnePage = some (p, s')) : Keeps s s' := by
  unfold allocOnePage at h
  simp only [bind, Option.bind_eq_some_iff, Option.some.injEq, Prod.mk.injEq] at h
  obtain ⟨⟨k, s₁⟩, hff, f, hf, -, rfl⟩ := h
  exact (keeps_getFreeFrameKernel hff).trans (keeps_setFrame hf rfl)

theorem keeps_allocNpages {npages p : Nat} (h : s.allocNpages npages = some (p, s')) : Keeps s s' := by
  unfold allocNpages at h
  split at h
  split_ifs at h
  · simp only [bind, Option.bind_eq_some_iff, Option.guard_eq_some', exists_const, Option.some.injEq,
      Prod.mk.injEq] at h
    obtain ⟨s₁, hfix, f, -, -, -, rfl⟩ := h
    exact keeps_fixFrames hfix
  · split at h
    · simp only [Option.some.injEq, Prod.mk.injEq] at h
      obtain ⟨-, rfl⟩ := h
      exact Keeps.refl s
    · simp only [bind, Option.bind_eq_some_iff, Option.guard_eq_some', exists_const,
        Option.some.injEq, Prod.mk.injEq] at h
      obtain ⟨-, -, -, s₁, hev, -, -, -, s₂, hfix, f, -, -, rfl⟩ := h
      exact (keeps_evictOrSwapMultiple hev).trans (keeps_fixFrames hfix)

theorem keeps_allocKpages {npages p : Nat} (h : s.allocKpages npages = some (p, s')) : Keeps s s' := by
  unfold allocKpages at h
  split_ifs at h
  · exact keeps_allocOnePage h
  · exact keeps_allocNpages h

theorem keeps_kmalloc {sz p : Nat} (h : s.kmalloc sz = some (p, s')) : Keeps s s' :=
  keeps_allocKpages h

theorem keeps_freeKpages {addr : Nat} (h : s.freeKpages addr = some s') : Keeps s s' := by
  unfold freeKpages at h
  simp only [bind, Option.bind_eq_some_iff, Option.guard_eq_some', exists_const] at h
  obtain ⟨-, i, -, f, -, hloop⟩ := h
  refine Keeps.foldlM (fun s j s' hj => ?_) _ hloop
  simp only [Option.bind_eq_some_iff, Option.some.injEq] at hj
  obtain ⟨g, hg, rfl⟩ := hj
  exact keeps_setFrame hg rfl

theorem keeps_kfree {ptr : Nat} (h : s.kfree ptr = some s') : Keeps s s' := by
  unfold kfree at h
  split_ifs at h
  · rw [Option.some.injEq] at h
    exact h ▸ Keeps.refl s
  · simp only [bind, Option.bind_eq_some_iff, Option.guard_eq_some', exists_const] at h
    exact keeps_freeKpages h.2

theorem keeps_tlbFill {hi lo : Nat} (h : s.tlbFill hi lo = some s') : Keeps s s' := by
  unfold tlbFill at h
  split at h
  · rw [Option.some.injEq] at h
    exact h ▸ keeps_tlbWrite _ _ _
  · unfold tlbRandomWrite at h
    split at h
    · rw [Option.some.injEq] at h
      rw [← h]
      exact ⟨rfl, rfl, rfl, rfl⟩
    · cases h

theorem keeps_zeroTable (t : Nat) : Keeps s (s.zeroTable t) := by
  unfold zeroTable
  generalize List.range secondLevelPtSize = is
  induction is generalizing s with
  | nil => exact Keeps.refl s
  | cons i is ih => exact (keeps_setPte _ _).trans ih

theorem loadPage_eq_some {as va k : Nat} (h : s.loadPage as va k = some s') :
    ∃ pte f, s.getPTEFromAddrspace as va = some pte ∧ pte ≠ 0 ∧ s.coremap[k]? = some f ∧
      s' = Vm.setFrame { s with
          mem := ByteMem.blit s.mem f.frameStart s.disk (Pte.slot (s.ptes.get pte) * pageSize) pageSize }
        k { f with addrspace := as, mappedVaddr := va, state := .DIRTY, numPagesAllocated := 1 } := by
  unfold loadPage at h
  simp only [bind, Option.bind_eq_some_iff, Option.guard_eq_some', exists_const, Option.some.injEq] at h
  obtain ⟨pte, hpte, hne, f, hf, -, -, rfl⟩ := h
  exact ⟨pte, f, hpte, hne, hf, rfl⟩

end Vm

end Os161
