import Os161.Vm.Basic
import Os161.Lib.Word

/-!
# PTE and TLB words

The statements of `vm.c` and `addrspace.c` that rewrite a PTE, each as a function of the word,
and what each leaves in the three fields of a PTE: `PTE_PRESENT`, `PTE_SWAPPED`, and the top 20
bits, which hold the frame while the page is present and the swap slot once it was written out.
The evictors write a slot with `disk_slot << 12` and `load_page` reads it back with
`(*pte & SWAPFILE_OFFSET) >> 12`: `slot_setSlot` is that round trip.

Each lemma compares bits: the masks become tables of their bits (`testBit_pteUnsetPresent` and
the others), and the rest is `simp` over `Nat.testBit_land` and `Nat.testBit_lor`.
-/

namespace Os161

namespace Pte

/-- `*pte |= PTE_SWAPPED; *pte &= PTE_UNSET_PRESENT;` of the evictors. -/
def markSwapped (w : Nat) : Nat := (w ||| pteSwapped) &&& pteUnsetPresent

/-- `*pte &= CLEAR_PAGE_FRAME; *pte |= (disk_slot << 12);`: the slot in place of the frame. -/
def setSlot (w diskSlot : Nat) : Nat := (w &&& clearPageFrame) ||| (diskSlot <<< 12)

/-- `handle_vaddr_fault` on a page of an existing table: `*pte &= CLEAR_PAGE_FRAME;
*pte |= paddr; *pte |= PTE_PRESENT; *pte &= PTE_UNSET_SWAPPED;`. -/
def mapFrame (w paddr : Nat) : Nat :=
  (((w &&& clearPageFrame) ||| paddr) ||| ptePresent) &&& pteUnsetSwapped

/-- `handle_vaddr_fault` on a page of a table it has just made: `*pte &= CLEAR_PAGE_FRAME;
*pte &= PTE_UNSET_SWAPPED; *pte |= PTE_PRESENT; *pte |= paddr;`. -/
def mapFresh (w paddr : Nat) : Nat :=
  (((w &&& clearPageFrame) &&& pteUnsetSwapped) ||| ptePresent) ||| paddr

/-- `as_copy`'s `dest_pt->PTE[j] |= dest_paddr; dest_pt->PTE[j] |= PTE_PRESENT;`. -/
def copyEntry (w paddr : Nat) : Nat := (w ||| paddr) ||| ptePresent

/-- `*pte & PTE_PRESENT`. -/
def present (w : Nat) : Bool := w &&& ptePresent != 0

/-- `*pte & PTE_SWAPPED`. -/
def swapped (w : Nat) : Bool := w &&& pteSwapped != 0

/-- `*pte & PHY_PAGENUM`: the frame of a present page. -/
def frame (w : Nat) : Nat := w &&& phyPagenum

/-- `(*pte & SWAPFILE_OFFSET) >> 12`: the slot of a swapped page. -/
def slot (w : Nat) : Nat := (w &&& swapfileOffset) >>> 12

section Tables

variable (i : Nat)

theorem testBit_ptePresent : ptePresent.testBit i = decide (i = 11) := by
  rw [show ptePresent = 2 ^ 11 from rfl, Nat.testBit_two_pow]
  exact decide_eq_decide.2 eq_comm

theorem testBit_pteSwapped : pteSwapped.testBit i = decide (i = 10) := by
  rw [show pteSwapped = 2 ^ 10 from rfl, Nat.testBit_two_pow]
  exact decide_eq_decide.2 eq_comm

theorem testBit_pteUnsetPresent : pteUnsetPresent.testBit i = decide (i < 32 ∧ i ≠ 11) :=
  Word.testBit_of_table _ 32 (· ≠ 11) (by decide) (by decide) i

theorem testBit_pteUnsetSwapped : pteUnsetSwapped.testBit i = decide (i < 32 ∧ i ≠ 10) :=
  Word.testBit_of_table _ 32 (· ≠ 10) (by decide) (by decide) i

theorem testBit_phyPagenum : phyPagenum.testBit i = decide (i < 32 ∧ 12 ≤ i) :=
  Word.testBit_of_table _ 32 (12 ≤ ·) (by decide) (by decide) i

theorem testBit_swapfileOffset : swapfileOffset.testBit i = decide (i < 32 ∧ 12 ≤ i) :=
  testBit_phyPagenum i

theorem testBit_pageFrame : pageFrame.testBit i = decide (i < 32 ∧ 12 ≤ i) :=
  testBit_phyPagenum i

theorem testBit_clearPageFrame : clearPageFrame.testBit i = decide (i < 12) := by
  rw [show clearPageFrame = 2 ^ 12 - 1 from rfl, Nat.testBit_two_pow_sub_one]

end Tables

theorem present_eq (w : Nat) : present w = w.testBit 11 := by
  have h : w &&& ptePresent ≠ 0 ↔ w.testBit 11 = true := Word.and_two_pow_ne_zero (b := 11)
  unfold present
  cases hb : w.testBit 11 <;> simp_all

theorem swapped_eq (w : Nat) : swapped w = w.testBit 10 := by
  have h : w &&& pteSwapped ≠ 0 ↔ w.testBit 10 = true := Word.and_two_pow_ne_zero (b := 10)
  unfold swapped
  cases hb : w.testBit 10 <;> simp_all

theorem testBit_of_aligned {p : Nat} (hp : p &&& pageFrame = p) (i : Nat) :
    p.testBit i = (decide (i < 32 ∧ 12 ≤ i) && p.testBit i) := by
  conv_lhs => rw [← hp]
  rw [Nat.testBit_land, testBit_pageFrame, Bool.and_comm]

theorem testBit_of_mod {p : Nat} (hp : p % pageSize = 0) {i : Nat} (hi : i < 12) :
    p.testBit i = false := by
  have h := Nat.testBit_mod_two_pow p 12 i
  rw [show 2 ^ 12 = pageSize from rfl, hp, Nat.zero_testBit] at h
  simpa [hi] using h.symm

theorem mod_of_aligned {p : Nat} (hp : p &&& pageFrame = p) : p % pageSize = 0 := by
  apply Nat.eq_of_testBit_eq
  intro i
  rw [show pageSize = 2 ^ 12 from rfl, Nat.testBit_mod_two_pow, Nat.zero_testBit,
    testBit_of_aligned hp]
  by_cases hi : i < 12 <;> simp [hi]

theorem frame_mod (w : Nat) : frame w % pageSize = 0 := by
  apply Nat.eq_of_testBit_eq
  intro i
  rw [show pageSize = 2 ^ 12 from rfl, Nat.testBit_mod_two_pow, Nat.zero_testBit, frame,
    Nat.testBit_land, testBit_phyPagenum]
  by_cases hi : i < 12 <;> simp [hi]

section Updates

variable (w : Nat)

@[simp] theorem present_markSwapped : present (markSwapped w) = false := by
  simp [present_eq, markSwapped, testBit_pteUnsetPresent]

@[simp] theorem swapped_markSwapped : swapped (markSwapped w) = true := by
  simp [swapped_eq, markSwapped, testBit_pteSwapped, testBit_pteUnsetPresent]

@[simp] theorem frame_markSwapped : frame (markSwapped w) = frame w := by
  apply Nat.eq_of_testBit_eq
  intro i
  simp only [frame, markSwapped, Nat.testBit_land, Nat.testBit_lor, testBit_pteSwapped,
    testBit_pteUnsetPresent, testBit_phyPagenum]
  cases w.testBit i <;> simp <;> omega

theorem slot_eq_frame : slot w = frame w >>> 12 := rfl

@[simp] theorem slot_markSwapped : slot (markSwapped w) = slot w := by
  rw [slot_eq_frame, slot_eq_frame, frame_markSwapped]

@[simp] theorem present_setSlot (d : Nat) : present (setSlot w d) = present w := by
  simp [present_eq, setSlot, Nat.testBit_shiftLeft, testBit_clearPageFrame]

@[simp] theorem swapped_setSlot (d : Nat) : swapped (setSlot w d) = swapped w := by
  simp [swapped_eq, setSlot, Nat.testBit_shiftLeft, testBit_clearPageFrame]

/-- The slot an evictor writes is the slot `load_page` reads. -/
theorem slot_setSlot {d : Nat} (hd : d < 2 ^ 20) : slot (setSlot w d) = d := by
  apply Nat.eq_of_testBit_eq
  intro i
  simp only [slot, setSlot, Nat.testBit_shiftRight, Nat.testBit_land, Nat.testBit_lor,
    Nat.testBit_shiftLeft, testBit_clearPageFrame, testBit_swapfileOffset]
  by_cases hi : i < 20
  · have h1 : ¬ 12 + i < 12 := by omega
    have h2 : 12 + i < 32 ∧ 12 ≤ 12 + i := by omega
    simp [h1, h2]
  · have hd' : d.testBit i = false := Word.testBit_eq_false_of_lt_of_le hd (by omega)
    simp [hd']

variable (p : Nat)

@[simp] theorem present_mapFrame : present (mapFrame w p) = true := by
  simp [present_eq, mapFrame, testBit_ptePresent, testBit_pteUnsetSwapped]

@[simp] theorem swapped_mapFrame : swapped (mapFrame w p) = false := by
  simp [swapped_eq, mapFrame, testBit_pteUnsetSwapped]

@[simp] theorem present_mapFresh : present (mapFresh w p) = true := by
  simp [present_eq, mapFresh, testBit_ptePresent]

@[simp] theorem present_copyEntry : present (copyEntry w p) = true := by
  simp [present_eq, copyEntry, testBit_ptePresent]

variable {p} (hp : p &&& pageFrame = p)
include hp

theorem frame_mapFrame : frame (mapFrame w p) = p := by
  apply Nat.eq_of_testBit_eq
  intro i
  rw [testBit_of_aligned hp i]
  simp only [frame, mapFrame, Nat.testBit_land, Nat.testBit_lor, testBit_clearPageFrame,
    testBit_ptePresent, testBit_pteUnsetSwapped, testBit_phyPagenum]
  cases p.testBit i <;> cases w.testBit i <;> simp <;> omega

theorem swapped_mapFresh : swapped (mapFresh w p) = false := by
  rw [swapped_eq, mapFresh, Nat.testBit_lor, Nat.testBit_lor, Nat.testBit_land,
    testBit_pteUnsetSwapped, testBit_ptePresent, testBit_of_aligned hp]
  simp

theorem frame_mapFresh : frame (mapFresh w p) = p := by
  apply Nat.eq_of_testBit_eq
  intro i
  rw [testBit_of_aligned hp i]
  simp only [frame, mapFresh, Nat.testBit_land, Nat.testBit_lor, testBit_clearPageFrame,
    testBit_ptePresent, testBit_pteUnsetSwapped, testBit_phyPagenum]
  cases p.testBit i <;> cases w.testBit i <;> simp <;> omega

theorem frame_copyEntry_zero : frame (copyEntry 0 p) = p := by
  apply Nat.eq_of_testBit_eq
  intro i
  rw [testBit_of_aligned hp i]
  simp only [frame, copyEntry, Nat.testBit_land, Nat.testBit_lor, Nat.zero_testBit,
    testBit_ptePresent, testBit_phyPagenum]
  cases p.testBit i
  · simp
    omega
  · simp

end Updates

end Pte

namespace Tlb

/-- `tlb_low & TLBLO_VALID`. -/
def valid (lo : Nat) : Bool := lo &&& tlbloValid != 0

/-- `tlb_low & TLBLO_DIRTY`: the MIPS allows stores through the entry. -/
def dirty (lo : Nat) : Bool := lo &&& tlbloDirty != 0

/-- The frame an entry maps. -/
def ppage (lo : Nat) : Nat := lo &&& tlbloPpage

/-- The low word `handle_vaddr_fault` writes for `paddr`: `paddr |= TLBLO_DIRTY` when the region
is writable, then `paddr | TLBLO_VALID`. -/
def entryLo (paddr permissions : Nat) : Nat :=
  (if permissions &&& pfW ≠ 0 then paddr ||| tlbloDirty else paddr) ||| tlbloValid

theorem valid_eq (lo : Nat) : valid lo = lo.testBit 9 := by
  have h : lo &&& tlbloValid ≠ 0 ↔ lo.testBit 9 = true := Word.and_two_pow_ne_zero (b := 9)
  unfold valid
  cases hb : lo.testBit 9 <;> simp_all

theorem dirty_eq (lo : Nat) : dirty lo = lo.testBit 10 := by
  have h : lo &&& tlbloDirty ≠ 0 ↔ lo.testBit 10 = true := Word.and_two_pow_ne_zero (b := 10)
  unfold dirty
  cases hb : lo.testBit 10 <;> simp_all

theorem testBit_tlbloValid (i : Nat) : tlbloValid.testBit i = decide (i = 9) := by
  rw [show tlbloValid = 2 ^ 9 from rfl, Nat.testBit_two_pow]
  exact decide_eq_decide.2 eq_comm

theorem testBit_tlbloDirty (i : Nat) : tlbloDirty.testBit i = decide (i = 10) := by
  rw [show tlbloDirty = 2 ^ 10 from rfl, Nat.testBit_two_pow]
  exact decide_eq_decide.2 eq_comm

@[simp] theorem valid_entryLo (paddr permissions : Nat) : valid (entryLo paddr permissions) = true := by
  simp [valid_eq, entryLo, testBit_tlbloValid]

theorem dirty_entryLo {paddr : Nat} (hp : paddr % pageSize = 0) (permissions : Nat) :
    dirty (entryLo paddr permissions) = decide (permissions &&& pfW ≠ 0) := by
  have hbit : paddr.testBit 10 = false := Pte.testBit_of_mod hp (by decide)
  unfold entryLo
  split_ifs with h <;>
    simp [dirty_eq, testBit_tlbloValid, testBit_tlbloDirty, hbit, h]

theorem ppage_entryLo {paddr : Nat} (hp : paddr &&& pageFrame = paddr) (permissions : Nat) :
    ppage (entryLo paddr permissions) = paddr := by
  apply Nat.eq_of_testBit_eq
  intro i
  rw [Pte.testBit_of_aligned hp i]
  have hmask : tlbloPpage.testBit i = decide (i < 32 ∧ 12 ≤ i) := Pte.testBit_phyPagenum i
  unfold entryLo
  split_ifs <;>
  · simp only [ppage, Nat.testBit_land, Nat.testBit_lor, testBit_tlbloValid, testBit_tlbloDirty,
      hmask]
    cases paddr.testBit i
    · simp
      omega
    · simp

end Tlb

end Os161
