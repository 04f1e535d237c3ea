import Os161.Exec.Args
import Os161.Lib.Sparse

/-!
# The state of the virtual memory system

The data of `kern/arch/mips/mips/vm.c` and `kern/vm/addrspace.c`: the coremap (one `Frame` per
physical page), the `addrspace` structures with their first-level page tables, the words of the
second-level page tables, the swap-file bitmap `swapfile_map`, the contents of physical memory
and of the swap disk `lhd1raw:`, the 64 TLB entries, and `curthread->t_vmspace`.

Pointers are numbers: an address space and a second-level page table are named by the kernel
address `kmalloc` returned for them, and a PTE by its own address, as `get_PTE_from_addrspace`
returns it. The structures themselves are kept beside physical memory, keyed by those addresses,
and their bytes are not part of `mem`. Every step runs with interrupts off, as the code does
between `splhigh` and `splx`.

What the code leaves to chance is read from lists in the state: the values `random()` returns,
the slots `TLB_Random` writes, and the values of uninitialised variables and registers
(`junk`). A run is determined by its first state; a statement about every first state is one
about every choice.
-/

namespace Os161

/-! The macros of `addrspace.h`, `vm.h`, `vm.c`, `machine/tlb.h` and `elf.h`, under their own
names. A PTE holds a frame number, or a swap slot, in its top 20 bits, then `PTE_PRESENT` and
`PTE_SWAPPED`. -/

def ptePresent : Nat := 0x00000800
def pteSwapped : Nat := 0x00000400
def pteUnsetPresent : Nat := 0xfffff7ff
def pteUnsetSwapped : Nat := 0xfffffbff
def firstLevelPn : Nat := 0xffc00000
def secLevelPn : Nat := 0x003ff000
def pageFrame : Nat := 0xfffff000
def phyPagenum : Nat := 0xfffff000
def clearPageFrame : Nat := 0x00000fff
def swapfileOffset : Nat := 0xfffff000
def firstLevelPtSize : Nat := 1024
def secondLevelPtSize : Nat := 1024
def tlbloDirty : Nat := 0x00000400
def tlbloValid : Nat := 0x00000200
def tlbloPpage : Nat := 0xfffff000
def tlbhiVpage : Nat := 0xfffff000
def numTlb : Nat := 64
def tlbloInvalid : Nat := 0
def pfR : Nat := 0x4
def pfW : Nat := 0x2
def pfX : Nat := 0x1
def vmFaultRead : Nat := 0
def vmFaultWrite : Nat := 1
def vmFaultReadonly : Nat := 2

/-- `TLBHI_INVALID(entryno)`: a kernel page, which no user address matches. -/
def tlbhiInvalid (entryno : Nat) : Nat := (0x80000 + entryno) <<< 12

/-- The `mapped_vaddr` of a frame nobody maps. -/
def deadbeef : Nat := 0xDEADBEEF

/-- `PADDR_TO_KVADDR`: physical memory is mapped at `MIPS_KSEG0`. -/
def paddrToKvaddr (paddr : Nat) : Nat := paddr + kseg0

/-- `sizeof(frame)`: six 32-bit fields. -/
def sizeofFrame : Nat := 24

/-- `sizeof(struct addrspace)`: five 32-bit fields and the first-level table. -/
def sizeofAddrspace : Nat := 20 + 4 * firstLevelPtSize

/-- `sizeof(struct as_pagetable)`. -/
def sizeofPagetable : Nat := 4 * secondLevelPtSize

/-- `frame_state`. -/
inductive FrameState
  | FREE
  /-- a kernel page, or the coremap itself -/
  | FIXED
  /-- a user page, as every user page is from its allocation on -/
  | DIRTY
  /-- a frame just evicted -/
  | CLEAN
  deriving DecidableEq, Repr

/-- `struct Frame`, less `frame_id`, which nothing reads. -/
structure Frame where
  addrspace : Nat
  frameStart : Nat
  mappedVaddr : Nat
  state : FrameState
  numPagesAllocated : Nat
  deriving DecidableEq, Repr

/-- `struct as_region`. -/
structure Region where
  vbase : Nat
  npages : Nat
  regionPermis : Nat
  deriving DecidableEq, Repr

/-- `struct addrspace`: the regions (copies of the structures `as_regions` points to, which no
two address spaces share), the permissions `as_prepare_load` saves, the heap, and the
first-level page table, whose entries are the addresses of the second-level tables (`0` for
`NULL`). -/
structure Addrspace where
  asRegions : List Region
  tempTextPermis : Nat
  tempBssPermis : Nat
  heapStart : Nat
  heapEnd : Nat
  asMasterPagetable : Sparse Nat Nat

/-- The state the VM functions read and write. -/
structure Vm where
  /-- `coremap[0 .. num_frames - 1]` -/
  coremap : List Frame
  /-- the live `struct addrspace`s, by address -/
  spaces : AList (fun _ : Nat => Addrspace)
  /-- the words of the second-level page tables, by address -/
  ptes : Sparse Nat Nat
  /-- `swapfile_map`, one bit per slot of the swap file -/
  swapfileMap : List Bool
  /-- physical memory -/
  mem : Nat → UInt8
  /-- the swap disk -/
  disk : Nat → UInt8
  /-- the `(entryhi, entrylo)` pairs of the TLB -/
  tlb : List (Nat × Nat)
  /-- `curthread->t_vmspace` -/
  curspace : Nat
  /-- what `random()` returns next -/
  random : List Nat
  /-- the slots `TLB_Random` writes next -/
  tlbRandom : List Nat
  /-- the values uninitialised variables and registers hold when they are next read -/
  junk : List Nat

namespace Vm

/-- `num_frames`. -/
def numFrames (s : Vm) : Nat := s.coremap.length

/-- `total_disk_slots`. -/
def totalDiskSlots (s : Vm) : Nat := s.swapfileMap.length

/-- The address space at `as`, if one lives there. -/
def space (s : Vm) (as : Nat) : Option Addrspace := s.spaces.lookup as

def setSpace (s : Vm) (as : Nat) (a : Addrspace) : Vm := { s with spaces := s.spaces.insert as a }

def setFrame (s : Vm) (k : Nat) (f : Frame) : Vm := { s with coremap := s.coremap.set k f }

/-- `*pte = w`. -/
def setPte (s : Vm) (pte w : Nat) : Vm := { s with ptes := s.ptes.set pte w }

/-- The next value of an uninitialised variable. -/
def takeJunk (s : Vm) : Option (Nat × Vm) :=
  match s.junk with
  | j :: js => some (j, { s with junk := js })
  | [] => none

/-- The TLB after the loop `TLB_Write(TLBHI_INVALID(i), TLBLO_INVALID(), i)` over every slot, which
`swap_out` and `as_activate` run. -/
def invalidTlb : List (Nat × Nat) := (List.range numTlb).map fun i => (tlbhiInvalid i, tlbloInvalid)

def flushTlb (s : Vm) : Vm := { s with tlb := invalidTlb }

/-- `TLB_Write(entryhi, entrylo, index)`. -/
def tlbWrite (s : Vm) (index entryhi entrylo : Nat) : Vm :=
  { s with tlb := s.tlb.set index (entryhi, entrylo) }

section Simp

variable (s : Vm)

@[simp] theorem space_setSpace_self (as : Nat) (a : Addrspace) : (s.setSpace as a).space as = some a :=
  AList.lookup_insert _

@[simp] theorem space_setSpace_of_ne {as as' : Nat} (a : Addrspace) (h : as' ≠ as) :
    (s.setSpace as a).space as' = s.space as' :=
  AList.lookup_insert_ne h

@[simp] theorem setFrame_coremap (k : Nat) (f : Frame) : (s.setFrame k f).coremap = s.coremap.set k f := rfl
@[simp] theorem setFrame_spaces (k : Nat) (f : Frame) : (s.setFrame k f).spaces = s.spaces := rfl
@[simp] theorem setFrame_ptes (k : Nat) (f : Frame) : (s.setFrame k f).ptes = s.ptes := rfl
@[simp] theorem setFrame_swapfileMap (k : Nat) (f : Frame) :
    (s.setFrame k f).swapfileMap = s.swapfileMap := rfl
@[simp] theorem setFrame_mem (k : Nat) (f : Frame) : (s.setFrame k f).mem = s.mem := rfl
@[simp] theorem setFrame_disk (k : Nat) (f : Frame) : (s.setFrame k f).disk = s.disk := rfl
@[simp] theorem setFrame_tlb (k : Nat) (f : Frame) : (s.setFrame k f).tlb = s.tlb := rfl
@[simp] theorem setFrame_curspace (k : Nat) (f : Frame) : (s.setFrame k f).curspace = s.curspace := rfl

@[simp] theorem setPte_coremap (p w : Nat) : (s.setPte p w).coremap = s.coremap := rfl
@[simp] theorem setPte_spaces (p w : Nat) : (s.setPte p w).spaces = s.spaces := rfl
@[simp] theorem setPte_ptes (p w : Nat) : (s.setPte p w).ptes = s.ptes.set p w := rfl
@[simp] theorem setPte_swapfileMap (p w : Nat) : (s.setPte p w).swapfileMap = s.swapfileMap := rfl
@[simp] theorem setPte_mem (p w : Nat) : (s.setPte p w).mem = s.mem := rfl
@[simp] theorem setPte_disk (p w : Nat) : (s.setPte p w).disk = s.disk := rfl
@[simp] theorem setPte_tlb (p w : Nat) : (s.setPte p w).tlb = s.tlb := rfl
@[simp] theorem setPte_curspace (p w : Nat) : (s.setPte p w).curspace = s.curspace := rfl

@[simp] theorem setSpace_coremap (as : Nat) (a : Addrspace) : (s.setSpace as a).coremap = s.coremap := rfl
@[simp] theorem setSpace_ptes (as : Nat) (a : Addrspace) : (s.setSpace as a).ptes = s.ptes := rfl
@[simp] theorem setSpace_mem (as : Nat) (a : Addrspace) : (s.setSpace as a).mem = s.mem := rfl
@[simp] theorem setSpace_tlb (as : Nat) (a : Addrspace) : (s.setSpace as a).tlb = s.tlb := rfl
@[simp] theorem setSpace_curspace (as : Nat) (a : Addrspace) :
    (s.setSpace as a).curspace = s.curspace := rfl

@[simp] theorem flushTlb_tlb : s.flushTlb.tlb = invalidTlb := rfl
@[simp] theorem flushTlb_coremap : s.flushTlb.coremap = s.coremap := rfl
@[simp] theorem flushTlb_spaces : s.flushTlb.spaces = s.spaces := rfl
@[simp] theorem flushTlb_ptes : s.flushTlb.ptes = s.ptes := rfl
@[simp] theorem flushTlb_mem : s.flushTlb.mem = s.mem := rfl
@[simp] theorem flushTlb_disk : s.flushTlb.disk = s.disk := rfl
@[simp] theorem flushTlb_curspace : s.flushTlb.curspace = s.curspace := rfl

@[simp] theorem numFrames_setFrame (k : Nat) (f : Frame) : (s.setFrame k f).numFrames = s.numFrames :=
  List.length_set

end Simp

end Vm

end Os161
