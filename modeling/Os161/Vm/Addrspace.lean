import Os161.Vm.Fault

/-!
# Address spaces

`kern/vm/addrspace.c`: creating, copying and destroying an address space, defining its regions,
and the permissions `as_prepare_load` lends the text and data regions while `load_elf` fills
them; and `sys_sbrk`, which moves the end of the heap. Then the VM system as a machine: an
operation is a user access, a kernel page allocation or release, or one of these functions, and a
run is a list of operations.

The small `kmalloc`s of `addrspace.c` (a region, the array of regions) come from the subpage
allocator, which the model leaves out; they are taken to succeed.
-/

namespace Os161

namespace Vm

/-- `as_create`: a `kmalloc`ed structure with no regions, an empty heap and no second-level table.
`kmalloc` does not clear memory, so the permissions it saves for `as_prepare_load` hold whatever
was there. `NULL` when `kmalloc` fails. -/
def asCreate (s : Vm) : Option (Nat × Vm) := do
  let (as, s) ← s.kmalloc sizeofAddrspace
  if as = 0 then some (0, s)
  else do
    let (tempText, s) ← s.takeJunk
    let (tempBss, s) ← s.takeJunk
    some (as, s.setSpace as ⟨[], tempText, tempBss, 0, 0, .empty⟩)

/-- One round of the inner loop of `as_copy`: entry `j` of the second-level table `srcPt` of `old`
(at index `i` of the first-level table) copied into the new table `destPt`. -/
def copyPte (old i srcPt destPt j : Nat) (s : Vm) : Option Vm := do
  guard (destPt ≠ 0)
  let s := s.setPte (destPt + 4 * j) 0
  let w := s.ptes.get (srcPt + 4 * j)
  if Pte.present w then do
    let srcPaddr := w &&& pageFrame
    let destVaddr := (i <<< 22) + (j <<< 12)
    -- called with two arguments: its `as` is `dest_vaddr`, its `va` is `src_paddr`, and its
    -- `avoid` whatever is left in the register of the third argument
    let (avoid, s) ← s.takeJunk
    let (destPaddr, s) ← s.allocPageUserspaceWithAvoidance destVaddr srcPaddr avoid
    let s := { s with mem := ByteMem.blit s.mem destPaddr s.mem srcPaddr pageSize }
    some (s.setPte (destPt + 4 * j) (Pte.copyEntry (s.ptes.get (destPt + 4 * j)) destPaddr))
  else if Pte.swapped w then do
    let srcVaddr := (i <<< 22) + (j <<< 12)
    let destVaddr := srcVaddr
    let (srcPaddr, s) ← s.loadSwappedPage old srcVaddr
    let (avoid, s) ← s.takeJunk
    let (destPaddr, s) ← s.allocPageUserspaceWithAvoidance destVaddr srcPaddr avoid
    let s := { s with mem := ByteMem.blit s.mem destPaddr s.mem srcPaddr pageSize }
    some (s.setPte (destPt + 4 * j) (Pte.copyEntry (s.ptes.get (destPt + 4 * j)) destPaddr))
  else some (s.setPte (destPt + 4 * j) 0)

/-- The inner loop of `as_copy`, over the entries `js`. -/
def copyPtes (old i srcPt destPt : Nat) : List Nat → Vm → Option Vm
  | [], s => some s
  | j :: js, s => (copyPte old i srcPt destPt j s).bind (copyPtes old i srcPt destPt js)

/-- The outer loop of `as_copy`, over the indices `is` of the first-level table of `old`: a new
second-level table for each that `old` has. -/
def copyPagetables (old newas : Nat) : List Nat → Vm → Option Vm
  | [], s => some s
  | i :: is, s => do
    let o ← s.space old
    let srcPt := o.asMasterPagetable.get i
    if srcPt ≠ 0 then do
      let (destPt, s) ← s.kmalloc sizeofPagetable
      let s ← s.setMasterPagetable newas i destPt
      let s ← copyPtes old i srcPt destPt (List.range secondLevelPtSize) s
      copyPagetables old newas is s
    else do
      let s ← s.setMasterPagetable newas i 0
      copyPagetables old newas is s

/-- `as_copy(old, &ret)`: `ENOMEM` when `as_create` fails, else the new address space. -/
def asCopy (s : Vm) (old : Nat) : Option (Except Errno Nat × Vm) := do
  let (newas, s) ← s.asCreate
  if newas = 0 then some (.error .ENOMEM, s)
  else do
    let o ← s.space old
    let n ← s.space newas
    let s := s.setSpace newas { n with
      asRegions := o.asRegions
      heapStart := o.heapStart
      heapEnd := o.heapEnd
      tempTextPermis := o.tempTextPermis
      tempBssPermis := o.tempBssPermis }
    let s ← copyPagetables old newas (List.range firstLevelPtSize) s
    some (.ok newas, s)

/-- The loop of `as_destroy` that gives back swap slots, over the regions `rs`: each page that is
not present (and, by a `|` for an `&`, whatever its `PTE_SWAPPED`) has its slot unmarked. -/
def releaseSlots (as : Nat) : List Region → Vm → Option Vm
  | [], s => some s
  | r :: rs, s => do
    guard (r.vbase % pageSize = 0)
    let s ← (List.range r.npages).foldlM (fun s j => do
      let page := r.vbase + j * pageSize
      guard (page &&& pageFrame = page)
      let pte ← s.getPTEFromAddrspace as page
      guard (pte ≠ 0)
      let w := s.ptes.get pte
      if Pte.present w = false ∧ w ||| pteSwapped ≠ 0 then do
        let fileSlot := Pte.slot w
        -- `bitmap_isset` and `bitmap_unmark` assert that the bit is there and set
        guard (s.swapfileMap.getD fileSlot false = true)
        some { s with swapfileMap := s.swapfileMap.set fileSlot false }
      else some s) s
    releaseSlots as rs s

/-- `as_destroy(as)`: every frame recorded under `as` that is not FREE becomes FREE, kernel pages
included; the loop over the regions starts where the loop over the coremap stopped, at
`num_frames`; then the second-level tables and the structure go back to `kfree`. -/
def asDestroy (s : Vm) (as : Nat) : Option Vm := do
  let s := { s with coremap := s.coremap.map fun f =>
    if f.state ≠ .FREE ∧ f.addrspace = as then
      { f with addrspace := 0, mappedVaddr := 0, state := .FREE, numPagesAllocated := 0 }
    else f }
  let a ← s.space as
  let s ← releaseSlots as (a.asRegions.drop s.numFrames) s
  let s ← (List.range firstLevelPtSize).foldlM (fun s i => s.kfree (a.asMasterPagetable.get i)) s
  let s ← s.kfree as
  some { s with spaces := s.spaces.erase as }

/-- `as_activate`: every TLB entry is invalidated. -/
def asActivate (s : Vm) : Vm := s.flushTlb

/-- `as_define_region(as, vaddr, sz, readable, writeable, executable)`: the pages the block covers
become a region with the three permissions; the second region defined ends where the heap
starts. -/
def asDefineRegion (s : Vm) (as vaddr sz readable writeable executable : Nat) : Option Vm := do
  -- `vaddr & ~(vaddr_t)PAGE_FRAME`
  let sz := sz + (vaddr &&& clearPageFrame)
  let vaddr := vaddr &&& pageFrame
  let sz := (sz + pageSize - 1) &&& pageFrame
  let npages := sz / pageSize
  let a ← s.space as
  let regions := a.asRegions ++ [⟨vaddr, npages, readable ||| writeable ||| executable⟩]
  let a := { a with asRegions := regions }
  if regions.length = 2 then
    -- `vaddr + npages * PAGE_SIZE` in `vaddr_t`
    some (s.setSpace as { a with
      heapStart := (vaddr + npages * pageSize) % 2 ^ 32
      heapEnd := (vaddr + npages * pageSize) % 2 ^ 32 })
  else some (s.setSpace as a)

/-- `as_prepare_load(as)`: the first two regions (text and data) are made readable and writable,
their permissions saved. -/
def asPrepareLoad (s : Vm) (as : Nat) : Option Vm := do
  let a ← s.space as
  let text ← a.asRegions[0]?
  let bss ← a.asRegions[1]?
  let regions := (a.asRegions.set 0 { text with regionPermis := text.regionPermis ||| (pfR ||| pfW) }).set 1
    { bss with regionPermis := bss.regionPermis ||| (pfR ||| pfW) }
  some (s.setSpace as { a with
    tempTextPermis := text.regionPermis
    tempBssPermis := bss.regionPermis
    asRegions := regions })

/-- `as_complete_load(as)`: the saved permissions are put back. -/
def asCompleteLoad (s : Vm) (as : Nat) : Option Vm := do
  let a ← s.space as
  let text ← a.asRegions[0]?
  let bss ← a.asRegions[1]?
  let regions := (a.asRegions.set 0 { text with regionPermis := a.tempTextPermis }).set 1
    { bss with regionPermis := a.tempBssPermis }
  some (s.setSpace as { a with asRegions := regions })

/-- `sys_sbrk(incr, retval)` on `curthread->t_vmspace`: the old `heap_end`, and the new one, unless
`heap_end + incr` falls below `heap_start` or reaches the 24 pages below `USERSTACK`. -/
def sysSbrk (s : Vm) (incr : Int) : Option (Except Errno Nat × Vm) := do
  let a ← s.space s.curspace
  -- `as->heap_end + incr` in `vaddr_t`
  let top := ((a.heapEnd + incr) % 2 ^ 32).toNat
  if top < a.heapStart then some (.error .EINVAL, s)
  else if userstack - 24 * 4096 ≤ top then some (.error .ENOMEM, s)
  else some (.ok a.heapEnd, s.setSpace s.curspace { a with heapEnd := top })

end Vm

/-- What can happen to the VM system between two states: a user load or store by the current
process, a kernel page allocation or release, a call of an `addrspace.c` function, or `sbrk`, where
`switch` is a context switch to a thread of address space `as` (`as_activate` in `mi_switch`). -/
inductive VmOp
  | load (va : Nat)
  | store (va : Nat) (b : UInt8)
  | allocKpages (npages : Nat)
  | freeKpages (addr : Nat)
  | asCreate
  | asCopy (old : Nat)
  | asDestroy (as : Nat)
  | switch (as : Nat)
  | defineRegion (vaddr sz readable writeable executable : Nat)
  | prepareLoad
  | completeLoad
  | sbrk (incr : Int)

namespace Vm

/-- One operation; `none` when the kernel panics on the way. What a call returns is dropped. -/
def step (s : Vm) : VmOp → Option Vm
  | .load va => Prod.snd <$> s.userLoad va
  | .store va b => Prod.snd <$> s.userStore va b
  | .allocKpages npages => Prod.snd <$> s.allocKpages npages
  | .freeKpages addr => s.freeKpages addr
  | .asCreate => Prod.snd <$> s.asCreate
  | .asCopy old => Prod.snd <$> s.asCopy old
  | .asDestroy as => s.asDestroy as
  | .switch as => some { s with curspace := as }.asActivate
  | .defineRegion vaddr sz r w x => s.asDefineRegion s.curspace vaddr sz r w x
  | .prepareLoad => s.asPrepareLoad s.curspace
  | .completeLoad => s.asCompleteLoad s.curspace
  | .sbrk incr => Prod.snd <$> s.sysSbrk incr

/-- A run of operations. -/
def exec (s : Vm) : List VmOp → Option Vm
  | [] => some s
  | op :: ops => (s.step op).bind (·.exec ops)

end Vm

end Os161
