import Os161.Vm.Copy
import Os161.Lib.Sys

/-!
# The addresses `vm_fault` takes

`vm_fault` masks the address to its page and compares the page with each region's bounds, the
stack's and the heap's. Every region starts on a page and so does the heap, in every state a run
reaches (`Reachable.spacesAligned`), so the comparisons of the page say of the address what they
say of the page (`lt_and_pageFrame_iff`, `le_and_pageFrame_iff`). A region's top is a `vaddr_t`:
it is computed modulo `2 ^ 32`, and a region that reaches `2 ^ 32` takes none of its pages.

So a read or write fault is handled exactly for the addresses `Accepts` names, with the
permissions of the first region that holds the address or as readable and writable, and refused
with `EFAULT` for every other (`vmFault_of_accepts`, `vmFault_of_not_accepts`); a refusal leaves
the state as it was (`vmFault_error`).
-/

namespace Os161

theorem and_pageFrame {va : Nat} (hva : va < 2 ^ 32) : va &&& pageFrame = va - va % pageSize := by
  have hdiv : va - va % pageSize = (va >>> 12) <<< 12 := by
    rw [Nat.shiftLeft_eq, Nat.shiftRight_eq_div_pow]
    have := Nat.mod_add_div va pageSize
    simp only [pageSize] at this ⊢
    omega
  rw [hdiv]
  apply Nat.eq_of_testBit_eq
  intro i
  rw [Nat.testBit_land, Pte.testBit_pageFrame, Nat.testBit_shiftLeft, Nat.testBit_shiftRight]
  by_cases hi : 12 ≤ i
  · by_cases h32 : i < 32
    · simp [hi, h32, show 12 + (i - 12) = i by omega]
    · simp only [hi, h32, and_true, decide_false, Bool.and_false, decide_true, Bool.true_and]
      rw [show 12 + (i - 12) = i by omega, Word.testBit_eq_false_of_lt_of_le hva (by omega)]
  · simp [hi]

/-- A page below an aligned bound lies below it with its whole page. -/
theorem lt_and_pageFrame_iff {va b : Nat} (hva : va < 2 ^ 32) (hb : b % pageSize = 0) :
    va &&& pageFrame < b ↔ va < b := by
  rw [and_pageFrame hva]
  simp only [pageSize] at hb ⊢
  omega

theorem le_and_pageFrame_iff {va b : Nat} (hva : va < 2 ^ 32) (hb : b % pageSize = 0) :
    b ≤ va &&& pageFrame ↔ b ≤ va := by
  rw [and_pageFrame hva]
  simp only [pageSize] at hb ⊢
  omega

/-- The top of a region as `vm_fault` computes it, in 32 bits. -/
def Region.vtop (r : Region) : Nat := (r.vbase + r.npages * pageSize) % 2 ^ 32

/-- `r` holds `va` by `vm_fault`'s test. -/
def Region.Holds (r : Region) (va : Nat) : Prop := r.vbase ≤ va ∧ va < r.vtop

instance (r : Region) (va : Nat) : Decidable (r.Holds va) := inferInstanceAs (Decidable (_ ∧ _))

theorem Region.vtop_mod {r : Region} (h : r.vbase % pageSize = 0) : r.vtop % pageSize = 0 := by
  unfold Region.vtop
  unfold pageSize at h ⊢
  omega

/-- What `vm_fault` reads of an address space is well formed: the `assert` on each region's base
holds, and the heap starts on a page. -/
structure Addrspace.Aligned (a : Addrspace) : Prop where
  vbase : ∀ r ∈ a.asRegions, r.vbase &&& pageFrame = r.vbase
  heapStart : a.heapStart % pageSize = 0

/-- The addresses of an address space that `vm_fault` maps: those a region holds, the 24 pages
below `USERSTACK`, and the pages that meet `[heap_start, heap_end)`. -/
def Accepts (a : Addrspace) (va : Nat) : Prop :=
  (∃ r ∈ a.asRegions, r.Holds va) ∨
    (userstack - maxStackPages * pageSize ≤ va ∧ va < userstack) ∨
    (va &&& pageFrame < a.heapEnd ∧ a.heapStart < (va &&& pageFrame) + pageSize)

/-- The permissions `vm_fault` maps an accepted address with: those of the first region that holds
it, or read and write on the stack and the heap. -/
def faultPerms (a : Addrspace) (va : Nat) : Nat :=
  ((a.asRegions.find? fun r => r.Holds va).map (·.regionPermis)).getD (pfW ||| pfR)

theorem findRegion_eq {va : Nat} (hva : va < 2 ^ 32) :
    ∀ rs : List Region, (∀ r ∈ rs, r.vbase &&& pageFrame = r.vbase) →
      findRegion (va &&& pageFrame) rs = some (rs.find? fun r => r.Holds va)
  | [], _ => rfl
  | r :: rs, h => by
    have hr := h r List.mem_cons_self
    have hmod := Pte.mod_of_aligned hr
    have hiff : (r.vbase ≤ va &&& pageFrame ∧
        va &&& pageFrame < (r.vbase + r.npages * pageSize) % 2 ^ 32) ↔ r.Holds va := by
      rw [le_and_pageFrame_iff hva hmod, lt_and_pageFrame_iff hva
        (show (r.vbase + r.npages * pageSize) % 2 ^ 32 % pageSize = 0 from Region.vtop_mod hmod)]
      rfl
    unfold findRegion
    simp only [hr, guard_true, Option.pure_def, Option.bind_eq_bind, Option.bind_some]
    by_cases hin : r.Holds va
    · rw [if_pos (hiff.2 hin), List.find?_cons_of_pos (by simpa using hin)]
    · rw [if_neg (mt hiff.1 hin), List.find?_cons_of_neg (by simpa using hin),
        findRegion_eq hva rs (fun x hx => h x (List.mem_cons_of_mem r hx))]

namespace Vm

variable {s s' : Vm} {a : Addrspace} {t va : Nat}

theorem vmFault_cases {r : Except Errno Unit} (h : s.vmFault t va = some (r, s')) :
    ((∃ e, r = .error e) ∧ s' = s) ∨
      (r = .ok () ∧ ∃ perms, s.handleVaddrFault (va &&& pageFrame) perms = some s') := by
  unfold vmFault at h
  split_ifs at h
  · cases h
    exact .inl ⟨⟨_, rfl⟩, rfl⟩
  · cases h
    exact .inl ⟨⟨_, rfl⟩, rfl⟩
  · cases h
    exact .inl ⟨⟨_, rfl⟩, rfl⟩
  · rcases Option.bind_eq_some_iff.1 h with ⟨a, -, h⟩
    rcases Option.bind_eq_some_iff.1 h with ⟨o, -, h⟩
    rcases o with _ | reg
    · -- no region: the stack, the heap, or `EFAULT`
      dsimp only at h
      split_ifs at h
      · rcases Option.bind_eq_some_iff.1 h with ⟨s'', hh, h⟩
        cases h
        exact .inr ⟨rfl, _, hh⟩
      · rcases Option.bind_eq_some_iff.1 h with ⟨s'', hh, h⟩
        cases h
        exact .inr ⟨rfl, _, hh⟩
      · cases h
        exact .inl ⟨⟨_, rfl⟩, rfl⟩
    · rcases Option.bind_eq_some_iff.1 h with ⟨s'', hh, h⟩
      cases h
      exact .inr ⟨rfl, _, hh⟩

/-- `vm_fault` refuses with the state as it was. -/
theorem vmFault_error {e : Errno} (h : s.vmFault t va = some (.error e, s')) : s' = s := by
  rcases vmFault_cases h with ⟨-, rfl⟩ | ⟨h, -⟩
  · rfl
  · cases h

theorem vmFault_of_unknown (h1 : t ≠ vmFaultReadonly) (h2 : t ≠ vmFaultRead) (h3 : t ≠ vmFaultWrite) :
    s.vmFault t va = some (.error .EINVAL, s) := by
  unfold vmFault
  rw [if_neg h1, if_pos ⟨h2, h3⟩]

section Accepts

variable (ht : t = vmFaultRead ∨ t = vmFaultWrite) (hcur : s.curspace ≠ 0)
  (ha : s.space s.curspace = some a) (hal : a.Aligned) (hva : va < 2 ^ 32)
include ht hcur ha hal hva

theorem vmFault_eq :
    s.vmFault t va =
      match a.asRegions.find? (fun r => r.Holds va) with
      | some r => (s.handleVaddrFault (va &&& pageFrame) r.regionPermis).bind fun s' => some (.ok (), s')
      | none =>
        if userstack - maxStackPages * pageSize ≤ va &&& pageFrame ∧ va &&& pageFrame < userstack then
          (s.handleVaddrFault (va &&& pageFrame) (pfW ||| pfR)).bind fun s' => some (.ok (), s')
        else if a.heapStart ≤ va &&& pageFrame ∧ va &&& pageFrame < a.heapEnd then
          (s.handleVaddrFault (va &&& pageFrame) (pfW ||| pfR)).bind fun s' => some (.ok (), s')
        else some (.error .EFAULT, s) := by
  have h1 : t ≠ vmFaultReadonly := by rcases ht with rfl | rfl <;> decide
  have h2 : ¬ (t ≠ vmFaultRead ∧ t ≠ vmFaultWrite) := by tauto
  unfold vmFault
  rw [if_neg h1, if_neg h2, if_neg hcur]
  -- the `match` of `vm_fault` and the one above are two functions: reduce both on each region
  rcases hf : a.asRegions.find? (fun r => r.Holds va) with _ | r <;>
    simp only [ha, Option.bind_eq_bind, Option.bind_some, findRegion_eq hva _ hal.vbase, hf]

/-- A fault at an address the space accepts is `handle_vaddr_fault` on its page, with the
permissions of the first region that holds it, or read and write. -/
theorem vmFault_of_accepts (hacc : Accepts a va) :
    s.vmFault t va =
      (s.handleVaddrFault (va &&& pageFrame) (faultPerms a va)).map fun s' => (.ok (), s') := by
  rw [vmFault_eq ht hcur ha hal hva, faultPerms]
  have hstack : (userstack - maxStackPages * pageSize) % pageSize = 0 := rfl
  have htop : userstack % pageSize = 0 := rfl
  rcases hfind : a.asRegions.find? (fun r => r.Holds va) with _ | r
  · -- no region holds the address: the stack or the heap does
    rw [hfind, Option.map_none, Option.getD_none]
    have hnr : ¬ ∃ r ∈ a.asRegions, r.Holds va := by
      rintro ⟨r, hr, hh⟩
      exact absurd (List.find?_eq_none.1 hfind r hr) (by simpa using hh)
    rw [Option.map_eq_bind]
    rcases hacc with hreg | hst | ⟨hend, hstart⟩
    · exact absurd hreg hnr
    · rw [if_pos ⟨(le_and_pageFrame_iff hva hstack).2 hst.1, (lt_and_pageFrame_iff hva htop).2 hst.2⟩]
      rfl
    · split_ifs with hs hh
      · rfl
      · rfl
      · -- the heap's start is aligned, so a page that meets the heap starts in it
        have hmod : (va &&& pageFrame) % pageSize = 0 := by
          rw [and_pageFrame hva]
          simp only [pageSize]
          omega
        have hs' : a.heapStart ≤ va &&& pageFrame := by
          have := hal.heapStart
          simp only [pageSize] at this hmod hstart
          omega
        exact absurd ⟨hs', hend⟩ hh
  · rw [hfind, Option.map_some, Option.getD_some, Option.map_eq_bind]
    rfl

/-- A fault at an address the space does not accept is refused with `EFAULT`. -/
theorem vmFault_of_not_accepts (hacc : ¬ Accepts a va) : s.vmFault t va = some (.error .EFAULT, s) := by
  rw [vmFault_eq ht hcur ha hal hva]
  have hstack : (userstack - maxStackPages * pageSize) % pageSize = 0 := rfl
  have htop : userstack % pageSize = 0 := rfl
  have hfind : a.asRegions.find? (fun r => r.Holds va) = none := by
    rw [List.find?_eq_none]
    intro r hr hh
    exact hacc (Or.inl ⟨r, hr, by simpa using hh⟩)
  rw [hfind]
  dsimp only
  rw [if_neg, if_neg]
  · rintro ⟨hs, hh⟩
    refine hacc (Or.inr (Or.inr ⟨hh, ?_⟩))
    have hps : pageSize = 4096 := rfl
    omega
  · rintro ⟨hs, hh⟩
    exact hacc (Or.inr (Or.inl ⟨(le_and_pageFrame_iff hva hstack).1 hs, (lt_and_pageFrame_iff hva htop).1 hh⟩))

end Accepts

end Vm

/-! ### Every state a run reaches has aligned address spaces -/

/-- What `vm_fault` reads of an address space besides the heap's end: where its regions start and
where its heap starts. -/
def Addrspace.shape (a : Addrspace) : List Nat × Nat := (a.asRegions.map (·.vbase), a.heapStart)

theorem Addrspace.Aligned.of_shape {a a' : Addrspace} (h : a'.shape = a.shape) (ha : a.Aligned) :
    a'.Aligned := by
  simp only [Addrspace.shape, Prod.mk.injEq] at h
  refine ⟨fun r hr => ?_, h.2 ▸ ha.heapStart⟩
  obtain ⟨r₀, hr₀, hv⟩ : ∃ r₀ ∈ a.asRegions, r₀.vbase = r.vbase := by
    rw [← List.mem_map, ← h.1]
    exact List.mem_map_of_mem hr
  rw [← hv]
  exact ha.vbase r₀ hr₀

theorem map_vbase_set {rs : List Region} {i : Nat} {r : Region} (h : rs[i]? = some r) (p : Nat) :
    (rs.set i { r with regionPermis := p }).map (·.vbase) = rs.map (·.vbase) := by
  obtain ⟨hi, rfl⟩ := List.getElem?_eq_some_iff.1 h
  have hi' : i < (rs.map (·.vbase)).length := by simpa using hi
  have hget : (rs.map (·.vbase))[i] = rs[i].vbase := List.getElem_map _
  rw [List.map_set]
  show (rs.map (·.vbase)).set i rs[i].vbase = _
  rw [← hget, List.set_getElem_self]

/-- What of an address space only the building of its page table leaves alone: its regions, the
permissions `as_prepare_load` saved, and its heap. -/
def Addrspace.layout (a : Addrspace) : List Region × Nat × Nat × Nat × Nat :=
  (a.asRegions, a.tempTextPermis, a.tempBssPermis, a.heapStart, a.heapEnd)

theorem Addrspace.shape_eq_of_layout {a a' : Addrspace} (h : a'.layout = a.layout) :
    a'.shape = a.shape := by
  simp only [Addrspace.layout, Prod.mk.injEq] at h
  simp only [Addrspace.shape, h]

namespace Vm

variable {s s' : Vm}

/-- Every address space of `s` is aligned. -/
def SpacesAligned (s : Vm) : Prop := ∀ as a, s.space as = some a → a.Aligned

/-- `s'` has no address space that `s` lacks, and each it has with the shape it has in `s`. -/
def KeepsShapes (s s' : Vm) : Prop :=
  ∀ as a', s'.space as = some a' → ∃ a, s.space as = some a ∧ a'.shape = a.shape

namespace KeepsShapes

theorem refl (s : Vm) : KeepsShapes s s := fun _ a' h => ⟨a', h, rfl⟩

theorem trans {s₁ s₂ s₃ : Vm} (h₁ : KeepsShapes s₁ s₂) (h₂ : KeepsShapes s₂ s₃) :
    KeepsShapes s₁ s₃ := by
  intro as a₃ h
  obtain ⟨a₂, ha₂, hs₂⟩ := h₂ as a₃ h
  obtain ⟨a₁, ha₁, hs₁⟩ := h₁ as a₂ ha₂
  exact ⟨a₁, ha₁, hs₂.trans hs₁⟩

theorem of_spaces (h : s'.spaces = s.spaces) : KeepsShapes s s' := by
  intro as a' ha'
  refine ⟨a', ?_, rfl⟩
  rwa [Vm.space, ← h]

theorem spacesAligned (h : KeepsShapes s s') (hs : SpacesAligned s) : SpacesAligned s' := by
  intro as a' ha'
  obtain ⟨a, ha, hsh⟩ := h as a' ha'
  exact (hs as a ha).of_shape hsh

end KeepsShapes

theorem Keeps.keepsShapes (h : Keeps s s') : KeepsShapes s s' := KeepsShapes.of_spaces h.spaces

/-- `s'` runs the address space `s` runs and has the address spaces of `s`, each with its layout in
`s`: at most their page tables differ. -/
structure KeepsLayouts (s s' : Vm) : Prop where
  curspace : s'.curspace = s.curspace
  layout : ∀ as, (s'.space as).map Addrspace.layout = (s.space as).map Addrspace.layout

namespace KeepsLayouts

theorem refl (s : Vm) : KeepsLayouts s s := ⟨rfl, fun _ => rfl⟩

theorem trans {s₁ s₂ s₃ : Vm} (h₁ : KeepsLayouts s₁ s₂) (h₂ : KeepsLayouts s₂ s₃) :
    KeepsLayouts s₁ s₃ :=
  ⟨h₂.curspace.trans h₁.curspace, fun as => (h₂.layout as).trans (h₁.layout as)⟩

theorem of_spaces (hc : s'.curspace = s.curspace) (h : s'.spaces = s.spaces) : KeepsLayouts s s' :=
  ⟨hc, fun as => by rw [Vm.space, h, ← Vm.space]⟩

theorem space (h : KeepsLayouts s s') {as : Nat} {a : Addrspace} (ha : s.space as = some a) :
    ∃ a', s'.space as = some a' ∧ a'.layout = a.layout := by
  have hl := h.layout as
  rw [ha, Option.map_some] at hl
  exact Option.map_eq_some_iff.1 hl

theorem keepsShapes (h : KeepsLayouts s s') : KeepsShapes s s' := by
  intro as a' ha'
  have hl := h.layout as
  rw [ha', Option.map_some] at hl
  obtain ⟨a, ha, hal⟩ := Option.map_eq_some_iff.1 hl.symm
  exact ⟨a, ha, Addrspace.shape_eq_of_layout hal.symm⟩

end KeepsLayouts

theorem Keeps.keepsLayouts (h : Keeps s s') : KeepsLayouts s s' := KeepsLayouts.of_spaces h.curspace h.spaces

theorem keepsLayouts_setSpace {as : Nat} {a a' : Addrspace} (ha : s.space as = some a)
    (hl : a'.layout = a.layout) : KeepsLayouts s (s.setSpace as a') := by
  refine ⟨rfl, fun as' => ?_⟩
  by_cases heq : as' = as
  · subst heq
    rw [space_setSpace_self, ha, Option.map_some, Option.map_some, hl]
  · rw [space_setSpace_of_ne _ _ heq]

theorem keepsShapes_setSpace {as : Nat} {a a' : Addrspace} (ha : s.space as = some a)
    (hsh : a'.shape = a.shape) : KeepsShapes s (s.setSpace as a') := by
  intro as' b hb
  by_cases heq : as' = as
  · subst heq
    rw [space_setSpace_self] at hb
    cases hb
    exact ⟨a, ha, hsh⟩
  · rw [space_setSpace_of_ne _ _ heq] at hb
    exact ⟨b, hb, rfl⟩

theorem spacesAligned_setSpace {as : Nat} {a : Addrspace} (hs : SpacesAligned s) (ha : a.Aligned) :
    SpacesAligned (s.setSpace as a) := by
  intro as' b hb
  by_cases heq : as' = as
  · subst heq
    rw [space_setSpace_self] at hb
    cases hb
    exact ha
  · rw [space_setSpace_of_ne _ _ heq] at hb
    exact hs as' b hb

theorem keepsLayouts_setMasterPagetable {as i t : Nat} (h : s.setMasterPagetable as i t = some s') :
    KeepsLayouts s s' := by
  unfold setMasterPagetable at h
  simp only [bind, Option.bind_eq_some_iff, Option.some.injEq] at h
  obtain ⟨a, ha, rfl⟩ := h
  exact keepsLayouts_setSpace ha rfl

theorem keepsLayouts_loadSwappedPage {as va p : Nat} (h : s.loadSwappedPage as va = some (p, s')) :
    KeepsLayouts s s' := by
  unfold loadSwappedPage at h
  simp only [bind, Option.bind_eq_some_iff, Option.guard_eq_some', exists_const,
    Option.some.injEq] at h
  obtain ⟨⟨k, s₁⟩, hff, f, -, -, s₂, hl, g, -, -, -, rfl⟩ := h
  obtain ⟨pte, f', -, -, -, rfl⟩ := loadPage_eq_some hl
  exact (keeps_getFreeFrame hff).keepsLayouts.trans (KeepsLayouts.of_spaces rfl rfl)

theorem keepsLayouts_handleVaddrFault {va perms : Nat} (h : s.handleVaddrFault va perms = some s') :
    KeepsLayouts s s' := by
  unfold handleVaddrFault at h
  rcases Option.bind_eq_some_iff.1 h with ⟨a, -, h⟩
  dsimp only at h
  split_ifs at h with ht hp hsw
  · -- a present page: only the TLB changes
    simp only [bind, Option.bind_some, Option.bind_eq_some_iff, Option.guard_eq_some',
      exists_const] at h
    exact (keeps_tlbFill h.2).keepsLayouts
  · -- a swapped page, read back
    simp only [bind, Option.bind_some, Option.bind_eq_some_iff, Option.guard_eq_some',
      exists_const] at h
    rcases h with ⟨⟨p, s₁⟩, hl, -, hfill⟩
    exact (keepsLayouts_loadSwappedPage hl).trans
      ((keeps_setPte _ _).trans (keeps_tlbFill hfill)).keepsLayouts
  · -- a fresh frame
    simp only [bind, Option.bind_some, Option.bind_eq_some_iff, Option.guard_eq_some',
      exists_const] at h
    rcases h with ⟨⟨p, s₁⟩, hal, -, hfill⟩
    exact ((keeps_allocPageUserspace hal).trans ((keeps_setPte _ _).trans (keeps_tlbFill hfill))).keepsLayouts
  · -- a second-level table first, which only the master table records
    simp only [bind, Option.bind_some, Option.bind_eq_some_iff, Option.guard_eq_some',
      exists_const] at h
    rcases h with ⟨⟨t, s₁⟩, hk, s₂, hm, -, ⟨p, s₃⟩, hal, -, pte, -, -, -, -, hfill⟩
    exact (keeps_kmalloc hk).keepsLayouts.trans ((keepsLayouts_setMasterPagetable hm).trans
      ((keeps_zeroTable t).trans ((keeps_allocPageUserspace hal).trans
        ((keeps_setPte _ _).trans (keeps_tlbFill hfill)))).keepsLayouts)

theorem keepsLayouts_vmFault {t va : Nat} {r : Except Errno Unit} (h : s.vmFault t va = some (r, s')) :
    KeepsLayouts s s' := by
  rcases vmFault_cases h with ⟨-, rfl⟩ | ⟨-, perms, hh⟩
  · exact KeepsLayouts.refl _
  · exact keepsLayouts_handleVaddrFault hh

theorem keepsLayouts_userLoad {va : Nat} {r : Except Errno UInt8} (h : s.userLoad va = some (r, s')) :
    KeepsLayouts s s' := by
  unfold userLoad at h
  split_ifs at h
  · cases h
    exact KeepsLayouts.refl s
  · split at h
    · cases h
      exact KeepsLayouts.refl s
    · rcases Option.bind_eq_some_iff.1 h with ⟨⟨r', s₁⟩, hf, h⟩
      have h₁ := keepsLayouts_vmFault hf
      dsimp only at h
      split at h
      · cases h
        exact h₁
      · rcases Option.bind_eq_some_iff.1 h with ⟨⟨pa, d⟩, -, h⟩
        cases h
        exact h₁

theorem keepsLayouts_storeHit {va pa : Nat} {d : Bool} {b : UInt8} {r : Except Errno Unit}
    (h : s.storeHit va pa d b = some (r, s')) : KeepsLayouts s s' := by
  unfold storeHit at h
  split_ifs at h
  · cases h
    exact KeepsLayouts.of_spaces rfl rfl
  · exact keepsLayouts_vmFault h

theorem keepsLayouts_userStore {va : Nat} {b : UInt8} {r : Except Errno Unit}
    (h : s.userStore va b = some (r, s')) : KeepsLayouts s s' := by
  unfold userStore at h
  split_ifs at h
  · cases h
    exact KeepsLayouts.refl s
  · split at h
    · exact keepsLayouts_storeHit h
    · rcases Option.bind_eq_some_iff.1 h with ⟨⟨r', s₁⟩, hf, h⟩
      have h₁ := keepsLayouts_vmFault hf
      dsimp only at h
      split at h
      · cases h
        exact h₁
      · rcases Option.bind_eq_some_iff.1 h with ⟨⟨pa, d⟩, -, h⟩
        exact h₁.trans (keepsLayouts_storeHit h)

theorem SpacesAligned.asCreate (hs : SpacesAligned s) {as : Nat} (h : s.asCreate = some (as, s')) :
    SpacesAligned s' := by
  unfold Vm.asCreate at h
  rcases Option.bind_eq_some_iff.1 h with ⟨⟨as₁, s₁⟩, hk, h⟩
  have hs₁ := (keeps_kmalloc hk).keepsShapes.spacesAligned hs
  dsimp only at h
  split_ifs at h
  · cases h
    exact hs₁
  · simp only [bind, Option.bind_eq_some_iff, Option.some.injEq] at h
    obtain ⟨⟨j₁, s₂⟩, hj₁, ⟨j₂, s₃⟩, hj₂, -, rfl⟩ := h
    refine spacesAligned_setSpace
      (((keeps_takeJunk hj₁).trans (keeps_takeJunk hj₂)).keepsShapes.spacesAligned hs₁) ⟨?_, ?_⟩
    · intro r hr
      simp at hr
    · exact Nat.zero_mod _

theorem keepsLayouts_copyPte {old i srcPt destPt j : Nat}
    (h : copyPte old i srcPt destPt j s = some s') : KeepsLayouts s s' := by
  unfold copyPte at h
  simp only [bind, Option.bind_eq_some_iff, Option.guard_eq_some', exists_const] at h
  obtain ⟨-, h⟩ := h
  split_ifs at h with hp hsw
  · simp only [Option.bind_eq_some_iff, Option.some.injEq] at h
    obtain ⟨⟨avoid, s₁⟩, hj, ⟨dp, s₂⟩, hal, rfl⟩ := h
    exact ((keeps_setPte _ _).trans ((keeps_takeJunk hj).trans
      (keeps_allocPageUserspaceWithAvoidance hal))).keepsLayouts.trans (KeepsLayouts.of_spaces rfl rfl)
  · simp only [Option.bind_eq_some_iff, Option.some.injEq] at h
    obtain ⟨⟨sp, s₁⟩, hl, ⟨avoid, s₂⟩, hj, ⟨dp, s₃⟩, hal, rfl⟩ := h
    exact ((keeps_setPte _ _).keepsLayouts.trans (keepsLayouts_loadSwappedPage hl)).trans
      (((keeps_takeJunk hj).trans (keeps_allocPageUserspaceWithAvoidance hal)).keepsLayouts.trans
        (KeepsLayouts.of_spaces rfl rfl))
  · rw [Option.some.injEq] at h
    subst h
    exact KeepsLayouts.of_spaces rfl rfl

theorem keepsLayouts_copyPtes {old i srcPt destPt : Nat} :
    ∀ {js : List Nat} {s s' : Vm}, copyPtes old i srcPt destPt js s = some s' → KeepsLayouts s s'
  | [], s, s', h => by
    rw [copyPtes, Option.some.injEq] at h
    exact h ▸ KeepsLayouts.refl s
  | j :: js, s, s', h => by
    rw [copyPtes] at h
    obtain ⟨s₁, h₁, h⟩ := Option.bind_eq_some_iff.1 h
    exact (keepsLayouts_copyPte h₁).trans (keepsLayouts_copyPtes h)

theorem keepsLayouts_copyPagetables {old newas : Nat} :
    ∀ {is : List Nat} {s s' : Vm}, copyPagetables old newas is s = some s' → KeepsLayouts s s'
  | [], s, s', h => by
    rw [copyPagetables, Option.some.injEq] at h
    exact h ▸ KeepsLayouts.refl s
  | i :: is, s, s', h => by
    rw [copyPagetables] at h
    rcases Option.bind_eq_some_iff.1 h with ⟨o, -, h⟩
    dsimp only at h
    split_ifs at h
    · simp only [bind, Option.bind_eq_some_iff] at h
      obtain ⟨⟨t, s₁⟩, hk, s₂, hm, s₃, hc, h⟩ := h
      exact (keeps_kmalloc hk).keepsLayouts.trans ((keepsLayouts_setMasterPagetable hm).trans
        ((keepsLayouts_copyPtes hc).trans (keepsLayouts_copyPagetables h)))
    · simp only [bind, Option.bind_eq_some_iff] at h
      obtain ⟨s₁, hm, h⟩ := h
      exact (keepsLayouts_setMasterPagetable hm).trans (keepsLayouts_copyPagetables h)

theorem SpacesAligned.asCopy (hs : SpacesAligned s) {old : Nat} {r : Except Errno Nat}
    (h : s.asCopy old = some (r, s')) : SpacesAligned s' := by
  unfold Vm.asCopy at h
  rcases Option.bind_eq_some_iff.1 h with ⟨⟨newas, s₁⟩, hc, h⟩
  have hs₁ := hs.asCreate hc
  dsimp only at h
  split_ifs at h
  · cases h
    exact hs₁
  · simp only [bind, Option.bind_eq_some_iff, Option.some.injEq] at h
    obtain ⟨o, ho, n, -, s₂, hcp, -, rfl⟩ := h
    exact (keepsLayouts_copyPagetables hcp).keepsShapes.spacesAligned
      (spacesAligned_setSpace hs₁ (Addrspace.Aligned.of_shape (a := o) rfl (hs₁ old o ho)))

theorem keeps_releaseSlots {as : Nat} :
    ∀ {rs : List Region} {s s' : Vm}, releaseSlots as rs s = some s' → Keeps s s'
  | [], s, s', h => by
    rw [releaseSlots, Option.some.injEq] at h
    exact h ▸ Keeps.refl s
  | r :: rs, s, s', h => by
    rw [releaseSlots] at h
    simp only [bind, Option.bind_eq_some_iff, Option.guard_eq_some', exists_const] at h
    rcases h with ⟨-, s₁, h₁, h⟩
    refine (Keeps.foldlM (fun s j s' hj => ?_) _ h₁).trans (keeps_releaseSlots h)
    simp only [Option.bind_eq_some_iff, Option.guard_eq_some', exists_const] at hj
    rcases hj with ⟨-, pte, -, -, hj⟩
    split_ifs at hj
    · simp only [Option.bind_eq_some_iff, Option.guard_eq_some', exists_const,
        Option.some.injEq] at hj
      rw [← hj.2]
      exact ⟨rfl, rfl, rfl, rfl⟩
    · rw [Option.some.injEq] at hj
      exact hj ▸ Keeps.refl s

theorem keepsShapes_asDestroy {as : Nat} (h : s.asDestroy as = some s') : KeepsShapes s s' := by
  unfold asDestroy at h
  simp only [bind, Option.bind_eq_some_iff, Option.some.injEq] at h
  rcases h with ⟨a, -, s₁, hr, s₂, hk₂, s₃, hk₃, rfl⟩
  have h₃ : KeepsShapes s s₃ := (KeepsShapes.of_spaces rfl).trans ((keeps_releaseSlots hr).trans
    ((Keeps.foldlM (fun s i s' h => keeps_kfree h) _ hk₂).trans (keeps_kfree hk₃))).keepsShapes
  intro as' b hb
  refine h₃ as' b ?_
  by_cases heq : as' = as
  · subst heq
    simp [Vm.space, AList.lookup_erase] at hb
  · rwa [Vm.space, AList.lookup_erase_ne heq] at hb

theorem SpacesAligned.asDefineRegion (hs : SpacesAligned s) {as vaddr sz r w x : Nat}
    (h : s.asDefineRegion as vaddr sz r w x = some s') : SpacesAligned s' := by
  unfold Vm.asDefineRegion at h
  rcases Option.bind_eq_some_iff.1 h with ⟨a, ha, h⟩
  have hal := hs as a ha
  have hv : vaddr &&& pageFrame &&& pageFrame = vaddr &&& pageFrame := by
    rw [Nat.and_assoc, Nat.and_self]
  have hmod := Pte.mod_of_aligned hv
  have hreg : ∀ reg ∈ a.asRegions ++ [⟨vaddr &&& pageFrame, ((sz + (vaddr &&& clearPageFrame) +
      pageSize - 1) &&& pageFrame) / pageSize, r ||| w ||| x⟩], reg.vbase &&& pageFrame = reg.vbase := by
    intro reg hr
    rcases List.mem_append.1 hr with hr | hr
    · exact hal.vbase reg hr
    · rw [List.mem_singleton.1 hr]
      exact hv
  dsimp only at h
  split_ifs at h
  · cases h
    refine spacesAligned_setSpace hs ⟨hreg, ?_⟩
    simp only [pageSize] at hmod ⊢
    omega
  · cases h
    exact spacesAligned_setSpace hs ⟨hreg, hal.heapStart⟩

theorem keepsShapes_asPrepareLoad {as : Nat} (h : s.asPrepareLoad as = some s') : KeepsShapes s s' := by
  unfold asPrepareLoad at h
  simp only [bind, Option.bind_eq_some_iff, Option.some.injEq] at h
  obtain ⟨a, ha, text, h0, bss, h1, rfl⟩ := h
  refine keepsShapes_setSpace ha ?_
  have h1' : (a.asRegions.set 0 { text with regionPermis := text.regionPermis ||| (pfR ||| pfW) })[1]? =
      some bss := by rw [List.getElem?_set_ne (by decide), h1]
  simp only [Addrspace.shape, map_vbase_set h1', map_vbase_set h0]

theorem keepsShapes_asCompleteLoad {as : Nat} (h : s.asCompleteLoad as = some s') : KeepsShapes s s' := by
  unfold asCompleteLoad at h
  simp only [bind, Option.bind_eq_some_iff, Option.some.injEq] at h
  obtain ⟨a, ha, text, h0, bss, h1, rfl⟩ := h
  refine keepsShapes_setSpace ha ?_
  have h1' : (a.asRegions.set 0 { text with regionPermis := a.tempTextPermis })[1]? = some bss := by
    rw [List.getElem?_set_ne (by decide), h1]
  simp only [Addrspace.shape, map_vbase_set h1', map_vbase_set h0]

theorem keepsShapes_sysSbrk {incr : Int} {r : Except Errno Nat} (h : s.sysSbrk incr = some (r, s')) :
    KeepsShapes s s' := by
  unfold sysSbrk at h
  simp only [bind, Option.bind_eq_some_iff] at h
  obtain ⟨a, ha, h⟩ := h
  split_ifs at h <;> cases h
  · exact KeepsShapes.refl s
  · exact KeepsShapes.refl s
  · exact keepsShapes_setSpace ha rfl

theorem SpacesAligned.step (hs : SpacesAligned s) {op : VmOp} (h : s.step op = some s') :
    SpacesAligned s' := by
  cases op with
  | load va =>
    obtain ⟨⟨r, s₁⟩, hl, rfl⟩ := Option.map_eq_some_iff.1 h
    exact (keepsLayouts_userLoad hl).keepsShapes.spacesAligned hs
  | store va b =>
    obtain ⟨⟨r, s₁⟩, hl, rfl⟩ := Option.map_eq_some_iff.1 h
    exact (keepsLayouts_userStore hl).keepsShapes.spacesAligned hs
  | allocKpages npages =>
    obtain ⟨⟨p, s₁⟩, hl, rfl⟩ := Option.map_eq_some_iff.1 h
    exact (keeps_allocKpages hl).keepsShapes.spacesAligned hs
  | freeKpages addr => exact (keeps_freeKpages h).keepsShapes.spacesAligned hs
  | asCreate =>
    obtain ⟨⟨as, s₁⟩, hl, rfl⟩ := Option.map_eq_some_iff.1 h
    exact hs.asCreate hl
  | asCopy old =>
    obtain ⟨⟨r, s₁⟩, hl, rfl⟩ := Option.map_eq_some_iff.1 h
    exact hs.asCopy hl
  | asDestroy as => exact (keepsShapes_asDestroy h).spacesAligned hs
  | switch as =>
    cases h
    exact (KeepsShapes.of_spaces rfl).spacesAligned hs
  | defineRegion vaddr sz r w x => exact hs.asDefineRegion h
  | prepareLoad => exact (keepsShapes_asPrepareLoad h).spacesAligned hs
  | completeLoad => exact (keepsShapes_asCompleteLoad h).spacesAligned hs
  | sbrk incr =>
    obtain ⟨⟨r, s₁⟩, hl, rfl⟩ := Option.map_eq_some_iff.1 h
    exact (keepsShapes_sysSbrk hl).spacesAligned hs

/-- A machine as `vm_bootstrap` leaves it. -/
def Booted (s : Vm) : Prop :=
  ∃ start «end» slots mem disk random tlbRandom junk,
    vmBootstrap start «end» slots mem disk random tlbRandom junk = some s

/-- The states a run of operations reaches from a booted machine. -/
def Reachable (s : Vm) : Prop := Sys.Reach Booted (fun op s s' => Vm.step s op = some s') s

theorem Booted.spacesAligned (h : Booted s) : SpacesAligned s := by
  obtain ⟨start, e, slots, mem, disk, random, tlbRandom, junk, h⟩ := h
  unfold vmBootstrap at h
  simp only [bind, Option.bind_eq_some_iff, Option.guard_eq_some', exists_const,
    Option.some.injEq] at h
  obtain ⟨-, rfl⟩ := h
  intro as a ha
  simp [Vm.space] at ha

theorem Reachable.spacesAligned (h : Reachable s) : SpacesAligned s := by
  refine Sys.Reach.induct_inv ?_ ?_ h
  · intro s₀ h₀
    exact h₀.spacesAligned
  · intro op s₁ s₂ hs hst
    exact hs.step hst

theorem Reachable.exec : ∀ {ops : List VmOp} {s s' : Vm}, Reachable s → s.exec ops = some s' →
    Reachable s'
  | [], s, s', hs, h => by
    rw [Vm.exec, Option.some.injEq] at h
    exact h ▸ hs
  | op :: ops, s, s', hs, h => by
    rw [Vm.exec] at h
    obtain ⟨s₁, h₁, h⟩ := Option.bind_eq_some_iff.1 h
    exact Reachable.exec (Sys.Reach.step op hs h₁) h

/-- In every state a run reaches, with a current address space and a 32-bit address: a read or
write fault is `handle_vaddr_fault` on the address's page, with the permissions of the first
region that holds the address or else read and write, when the space accepts the address, and
`EFAULT` with the state as it was when it does not; a fault type other than the three is
`EINVAL`; and no refusal changes the state. -/
theorem vm_fault_accepts {s : Vm} (hs : Reachable s) {a : Addrspace} (hcur : s.curspace ≠ 0)
    (ha : s.space s.curspace = some a) {va : Nat} (hva : va < 2 ^ 32) :
    (∀ t, t = vmFaultRead ∨ t = vmFaultWrite →
      (Accepts a va → s.vmFault t va =
        (s.handleVaddrFault (va &&& pageFrame) (faultPerms a va)).map fun s' => (.ok (), s')) ∧
      (¬ Accepts a va → s.vmFault t va = some (.error .EFAULT, s))) ∧
    (∀ t, t ≠ vmFaultReadonly → t ≠ vmFaultRead → t ≠ vmFaultWrite →
      s.vmFault t va = some (.error .EINVAL, s)) ∧
    (∀ t e s', s.vmFault t va = some (.error e, s') → s' = s) := by
  have hal := hs.spacesAligned _ a ha
  refine ⟨fun t ht => ⟨vmFault_of_accepts ht hcur ha hal hva, vmFault_of_not_accepts ht hcur ha hal hva⟩,
    fun t h1 h2 h3 => vmFault_of_unknown h1 h2 h3, fun t e s' h => vmFault_error h⟩

theorem Reachable.of_forkBoot {ops : List VmOp} (h : forkBoot.bind (·.exec ops) = some s) :
    Reachable s := by
  obtain ⟨s₀, hs₀, hex⟩ := Option.bind_eq_some_iff.1 h
  exact Reachable.exec (Sys.Reach.init ⟨_, _, _, _, _, _, _, _, hs₀⟩) hex

/-- A process's first state on `forkBoot`: an address space at `0x80041000`, made current. -/
def faultPrefix : List VmOp := [.asCreate, .switch 0x80041000]

/-- The process of `faultPrefix` with a text page at `0x400000` and a data page at `0x401000`,
whose heap `sbrk(0x1800)` has grown from `0x402000` to half way into its second page. -/
def heapRun : List VmOp :=
  faultPrefix ++ [.defineRegion 0x400000 0x1000 4 0 1, .defineRegion 0x401000 0x1000 4 2 0, .sbrk 0x1800]

/-- `vm_fault_accepts` on the heap page that `sbrk` added to the process of `heapRun`, which is
mapped read and write. -/
theorem vm_fault_accepts_heap :
    ∃ s a, Reachable s ∧ s.curspace ≠ 0 ∧ s.space s.curspace = some a ∧ (0x403400 : Nat) < 2 ^ 32 ∧
      a.heapEnd = 0x403800 ∧ faultPerms a 0x403400 = pfW ||| pfR ∧
      (∀ t, t = vmFaultRead ∨ t = vmFaultWrite →
        (Accepts a 0x403400 → s.vmFault t 0x403400 =
          (s.handleVaddrFault (0x403400 &&& pageFrame) (faultPerms a 0x403400)).map
            fun s' => (.ok (), s')) ∧
        (¬ Accepts a 0x403400 → s.vmFault t 0x403400 = some (.error .EFAULT, s))) ∧
      (∀ t, t ≠ vmFaultReadonly → t ≠ vmFaultRead → t ≠ vmFaultWrite →
        s.vmFault t 0x403400 = some (.error .EINVAL, s)) ∧
      (∀ t e s', s.vmFault t 0x403400 = some (.error e, s') → s' = s) := by
  have h : (forkBoot.bind (·.exec heapRun)).map (fun s =>
      (s.curspace, (s.space s.curspace).map fun a => (a.heapEnd, faultPerms a 0x403400))) =
      some (0x80041000, some (0x403800, pfW ||| pfR)) := by
    decide +kernel
  obtain ⟨s, hs, h⟩ := Option.map_eq_some_iff.1 h
  simp only [Prod.mk.injEq] at h
  obtain ⟨hc, hsp⟩ := h
  obtain ⟨a, ha, hend⟩ := Option.map_eq_some_iff.1 hsp
  simp only [Prod.mk.injEq] at hend
  have hr := Reachable.of_forkBoot hs
  have hcur : s.curspace ≠ 0 := by
    rw [hc]
    decide
  exact ⟨s, a, hr, hcur, ha, by norm_num, hend.1, hend.2, vm_fault_accepts hr hcur ha (by norm_num)⟩

/-- The process of `faultPrefix` with one region, the page at `0xfffff000`, whose top is `2 ^ 32`. -/
def topRegionRun : List VmOp := faultPrefix ++ [.defineRegion 0xfffff000 0x1000 4 0 0]

/-- A region that ends at `2 ^ 32` has its top computed as `0`, so a fault on its own page is
refused. -/
theorem top_region_refused :
    ∃ s a, Reachable s ∧ s.space s.curspace = some a ∧ a.asRegions = [⟨0xfffff000, 1, 4⟩] ∧
      (∀ r ∈ a.asRegions, r.vbase ≤ 0xfffff000 ∧ 0xfffff000 < r.vbase + r.npages * pageSize) ∧
      s.vmFault vmFaultRead 0xfffff000 = some (.error .EFAULT, s) := by
  have h : (forkBoot.bind (·.exec topRegionRun)).map (fun s => ((s.space s.curspace).map (·.asRegions),
      (s.vmFault vmFaultRead 0xfffff000).map Prod.fst)) =
      some (some [⟨0xfffff000, 1, 4⟩], some (.error .EFAULT)) := by
    decide +kernel
  obtain ⟨s, hs, h⟩ := Option.map_eq_some_iff.1 h
  simp only [Prod.mk.injEq] at h
  obtain ⟨hregs, hf⟩ := h
  obtain ⟨a, ha, hregs⟩ := Option.map_eq_some_iff.1 hregs
  obtain ⟨⟨r, s'⟩, hv, rfl⟩ := Option.map_eq_some_iff.1 hf
  refine ⟨s, a, Reachable.of_forkBoot hs, ha, hregs, ?_, ?_⟩
  · rw [hregs]
    intro r hr
    rw [List.mem_singleton.1 hr]
    decide
  · rw [vmFault_error hv] at hv
    exact hv

end Vm

end Os161
