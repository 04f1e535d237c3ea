import Os161.Vm.Pte
import Os161.Lib.ByteMem

/-!
# Frames: allocation, eviction and the swap file

The coremap half of `vm.c`: finding a PTE, `bitmap_alloc` on `swapfile_map`, writing a page out
(`swap_out`) and reading it back (`load_page`), the evictors, the frame allocators for user and
kernel pages, `alloc_kpages` and `free_kpages`, and `vm_bootstrap`.

A function returns `none` where the code panics, fails an `assert`, or does what C leaves
undefined (reads through a pointer to nothing, or an uninitialised index). The four evictors
share the code after the choice of a victim (`evictFrame`), the two `get_free_frame`s share
theirs (`freeFrameOr`), and so do the two user-page allocators (`takeUserFrame`).
-/

namespace Os161

open ByteMem

/-- `bitmap_alloc`: the first clear bit, which it sets, or `ENOSPC`. The bitmap's bytes are scanned
in order and the bits past `nbits` were set by `bitmap_create`, so the first clear bit is the first
clear one below `nbits`. -/
def bitmapAlloc (b : List Bool) : Except Errno (Nat × List Bool) :=
  match b.findIdx? (· == false) with
  | some i => .ok (i, b.set i true)
  | none => .error .ENOSPC

/-- The first FREE frame. -/
def firstFree (cm : List Frame) : Option Nat := cm.findIdx? (·.state == .FREE)

/-- The `do … while` loop of the random evictors: `random() % num_frames` until the frame is not
`bad`. The loop spins for ever when every frame is bad; the model then runs out of `random`. -/
def pickRandom (cm : List Frame) (bad : Frame → Bool) : List Nat → Option (Nat × List Nat)
  | [] => none
  | r :: rs =>
    match cm[r % cm.length]? with
    | some f => if bad f then pickRandom cm bad rs else some (r % cm.length, rs)
    | none => none

/-- The first loop of `alloc_npages`: walking `i` up while a frame follows it, the count
`num_continous` of FREE frames in a row ending at `i`, until it reaches `npages`. -/
def scanFree (npages : Nat) : List Frame → Nat → Nat → Nat × Nat
  | f :: g :: rest, i, numContinous =>
    if npages ≤ numContinous then (i, numContinous)
    else if f.state = .FREE ∧ g.state = .FREE then scanFree npages (g :: rest) (i + 1) (numContinous + 1)
    else scanFree npages (g :: rest) (i + 1) 1
  | _, i, numContinous => (i, numContinous)

/-- The second loop of `alloc_npages`: the first `i` below `num_frames` at which the frames
before it end in `npages` that are not FIXED (`found = 1`), if any. -/
def scanUnfixed (npages : Nat) : List Frame → Nat → Nat → Option Nat
  | [], _, _ => none
  | f :: rest, i, continous =>
    if npages ≤ continous then some i
    else scanUnfixed npages rest (i + 1) (if f.state = .FIXED then 0 else continous + 1)

/-- The coremap `vm_bootstrap` builds over `num_pages` frames from `start`: the first
`fixed_pages` hold the coremap and are FIXED, the others FREE. -/
def bootCoremap (start numPages fixedPages : Nat) : List Frame :=
  (List.range numPages).map fun i =>
    if i < fixedPages then ⟨0, start + pageSize * i, paddrToKvaddr (start + pageSize * i), .FIXED, 1⟩
    else ⟨0, start + pageSize * i, deadbeef, .FREE, 0⟩

/-- `vm_bootstrap`, with `ram_getsize` giving `start` and `end`, once `swapping_init` has made a
clear bitmap of `total_disk_slots` bits; `mem`, `disk` and the choices are the machine's. -/
def vmBootstrap (start «end» totalDiskSlots : Nat) (mem disk : Nat → UInt8)
    (random tlbRandom junk : List Nat) : Option Vm := do
  let start := roundup start pageSize
  let numPages := («end» - start) / pageSize
  let startAdjusted := start + numPages * sizeofFrame
  let fixedPages := (startAdjusted - start) / pageSize + 1
  let coremap := bootCoremap start numPages fixedPages
  -- the sanity check, which panics
  guard (coremap.all fun f => (f.state = .FREE ∨ f.state = .FIXED) ∧ f.frameStart % pageSize = 0)
  some ⟨coremap, ∅, .empty, List.replicate totalDiskSlots false, mem, disk, Vm.invalidTlb, 0,
    random, tlbRandom, junk⟩

namespace Vm

/-- `get_PTE_from_addrspace(as, va)`: the address of the PTE of `va`, or `0` (`NULL`) when its
second-level table does not exist; `none` when no address space lives at `as`. -/
def getPTEFromAddrspace (s : Vm) (as va : Nat) : Option Nat := do
  let a ← s.space as
  let level1Index := (va &&& firstLevelPn) >>> 22
  let level2Index := (va &&& secLevelPn) >>> 12
  let level2Pagetable := a.asMasterPagetable.get level1Index
  if level2Pagetable = 0 then some 0 else some (level2Pagetable + 4 * level2Index)

/-- `swap_out(frame_id, pos)`: the frame's page is written to the swap disk at `pos`, and every TLB
entry is invalidated. (A failed write panics; the disk of the model does not fail.) -/
def swapOut (s : Vm) (frameId pos : Nat) : Option Vm := do
  let f ← s.coremap[frameId]?
  guard (f.state = .DIRTY)
  let dest := f.frameStart
  guard (paddrToKvaddr dest % 512 = 0)
  guard (pos % 512 = 0)
  guard (pos / 4096 < s.totalDiskSlots)
  let s := { s with disk := blit s.disk pos s.mem dest pageSize }
  some s.flushTlb

/-- The block every evictor runs for a DIRTY victim `k`: a slot from `bitmap_alloc` (when the
bitmap is full, whatever the uninitialised `disk_slot` holds), checked against
`total_disk_slots`, and the page written there. -/
def swapVictim (s : Vm) (k : Nat) : Option (Nat × Vm) := do
  let (diskSlot, s) ← match bitmapAlloc s.swapfileMap with
    | .ok (i, b) => some (i, { s with swapfileMap := b })
    | .error _ => s.takeJunk
  guard (diskSlot < s.totalDiskSlots)
  let s ← s.swapOut k (diskSlot * pageSize)
  some (diskSlot, s)

/-- What every evictor does once it has its victim `k`: a DIRTY victim is written out; the
owner's PTE is marked swapped and, for a DIRTY victim, given the slot in place of the frame; and
the frame is left CLEAN and unowned. -/
def evictFrame (s : Vm) (k : Nat) : Option Vm := do
  let f ← s.coremap[k]?
  let (diskSlot, s) ← if f.state = .DIRTY then s.swapVictim k else some (0, s)
  let pte ← s.getPTEFromAddrspace f.addrspace f.mappedVaddr
  guard (pte ≠ 0)
  let w := s.ptes.get pte
  guard (Pte.present w)
  let w := Pte.markSwapped w
  let w := if f.state = .DIRTY then Pte.setSlot w diskSlot else w
  let s := s.setPte pte w
  some (s.setFrame k { f with
    state := .CLEAN
    mappedVaddr := deadbeef
    addrspace := 0 })

/-- `evict_or_swap` and `evict_or_swap_with_avoidance`: evict a random frame that is not `bad`. -/
def evictRandom (s : Vm) (bad : Frame → Bool) : Option (Nat × Vm) := do
  let (k, rs) ← pickRandom s.coremap bad s.random
  let s ← evictFrame { s with random := rs } k
  some (k, s)

/-- `evict_or_swap`. -/
def evictOrSwap (s : Vm) : Option (Nat × Vm) :=
  s.evictRandom fun f => f.state == .FIXED || f.state == .FREE

/-- `evict_or_swap_with_avoidance(avoid)`. -/
def evictOrSwapWithAvoidance (s : Vm) (avoid : Nat) : Option (Nat × Vm) :=
  s.evictRandom fun f => f.state == .FIXED || f.frameStart == avoid || f.state == .FREE

/-- `evict_or_swap_kernel`: the first frame that is not FIXED. When every frame is FIXED the victim
is an uninitialised variable, and the model stops. -/
def evictOrSwapKernel (s : Vm) : Option (Nat × Vm) := do
  let k ← s.coremap.findIdx? (·.state != .FIXED)
  let s ← s.evictFrame k
  some (k, s)

/-- `evict_or_swap_multiple(starting_frame, npages)`. -/
def evictOrSwapMultiple (s : Vm) (startingFrame npages : Nat) : Option Vm :=
  (List.range' startingFrame npages).foldlM (fun s i => do
    let f ← s.coremap[i]?
    guard (f.state ≠ .FIXED)
    s.evictFrame i) s

/-- `get_free_frame` and `get_free_frame_kernel`: the first FREE frame, or else a victim of
`evict`. -/
def freeFrameOr (s : Vm) (evict : Vm → Option (Nat × Vm)) : Option (Nat × Vm) :=
  match firstFree s.coremap with
  | some i => some (i, s)
  | none => evict s

/-- `get_free_frame`. -/
def getFreeFrame (s : Vm) : Option (Nat × Vm) := s.freeFrameOr evictOrSwap

/-- `get_free_frame_kernel`. -/
def getFreeFrameKernel (s : Vm) : Option (Nat × Vm) := s.freeFrameOr evictOrSwapKernel

/-- The end of `alloc_page_userspace` and `alloc_page_userspace_with_avoidance`: frame `k`, FREE
or CLEAN, becomes the DIRTY page `va` of `as`; the result is its address. -/
def takeUserFrame (s : Vm) (k as va : Nat) : Option (Nat × Vm) := do
  let f ← s.coremap[k]?
  guard (f.state = .FREE ∨ f.state = .CLEAN)
  some (f.frameStart, s.setFrame k { f with
    addrspace := as
    state := .DIRTY
    mappedVaddr := va
    numPagesAllocated := 1 })

/-- `alloc_page_userspace_with_avoidance(as, va, avoid)`. -/
def allocPageUserspaceWithAvoidance (s : Vm) (as va avoid : Nat) : Option (Nat × Vm) := do
  guard (va &&& pageFrame = va)
  let (k, s) ← s.freeFrameOr (·.evictOrSwapWithAvoidance avoid)
  s.takeUserFrame k as va

/-- `alloc_page_userspace(va)`, for the current address space. -/
def allocPageUserspace (s : Vm) (va : Nat) : Option (Nat × Vm) := do
  guard (va &&& pageFrame = va)
  let (k, s) ← s.getFreeFrame
  s.takeUserFrame k s.curspace va

/-- The allocation loop of `alloc_npages`: `npages` frames from `start` become FIXED kernel pages,
recorded under the current address space. -/
def fixFrames (s : Vm) (start npages : Nat) : Option Vm :=
  (List.range' start npages).foldlM (fun s j => do
    let f ← s.coremap[j]?
    some (s.setFrame j { f with
      addrspace := s.curspace
      state := .FIXED
      mappedVaddr := paddrToKvaddr f.frameStart
      numPagesAllocated := npages })) s

/-- `alloc_one_page`. -/
def allocOnePage (s : Vm) : Option (Nat × Vm) := do
  let (k, s) ← s.getFreeFrameKernel
  let f ← s.coremap[k]?
  let f := { f with
    addrspace := s.curspace
    state := .FIXED
    mappedVaddr := paddrToKvaddr f.frameStart
    numPagesAllocated := 1 }
  some (f.mappedVaddr, s.setFrame k f)

/-- `alloc_npages(npages)`: `npages` FREE frames in a row if there are, else `NULL` when no
`npages` frames in a row are free of FIXED ones; when there are, the code evicts them and then
panics, since no frame is both CLEAN and FREE. -/
def allocNpages (s : Vm) (npages : Nat) : Option (Nat × Vm) := do
  let (i, numContinous) := scanFree npages s.coremap 0 1
  if npages ≤ numContinous then
    let start := i + 1 - npages
    let s ← s.fixFrames start npages
    let f ← s.coremap[start]?
    guard (f.mappedVaddr = paddrToKvaddr f.frameStart)
    some (paddrToKvaddr f.frameStart, s)
  else
    match scanUnfixed npages s.coremap 0 0 with
    | none => some (0, s)
    | some i =>
      let startingFrame := i + 1 - npages
      let fs ← (List.range' startingFrame npages).mapM (s.coremap[·]?)
      guard (fs.all (·.state != .FIXED))
      let s ← s.evictOrSwapMultiple startingFrame npages
      let fs ← (List.range' startingFrame npages).mapM (s.coremap[·]?)
      guard (fs.all fun f => !(f.state != .CLEAN || f.state != .FREE))
      let s ← s.fixFrames startingFrame npages
      let f ← s.coremap[startingFrame]?
      some (paddrToKvaddr f.frameStart, s)

/-- `alloc_kpages(npages)` once `vm_bootstrap` has run. -/
def allocKpages (s : Vm) (npages : Nat) : Option (Nat × Vm) :=
  if npages = 1 then s.allocOnePage else s.allocNpages npages

/-- `free_kpages(addr)`: the `num_pages_allocated` frames from the one at `addr` become FREE (and
keep their `addrspace`). An address no frame starts at panics. -/
def freeKpages (s : Vm) (addr : Nat) : Option Vm := do
  guard (addr % pageSize = 0)
  let i ← s.coremap.findIdx? (fun f => paddrToKvaddr f.frameStart == addr)
  let f ← s.coremap[i]?
  (List.range f.numPagesAllocated).foldlM (fun s j => do
    let g ← s.coremap[j + i]?
    some (s.setFrame (j + i) { g with
      mappedVaddr := deadbeef
      state := .FREE
      numPagesAllocated := 0 })) s

/-- `kmalloc(sz)` for `sz` at least `LARGEST_SUBPAGE_SIZE`, the only sizes the modelled code asks
for: whole pages from `alloc_kpages`. -/
def kmalloc (s : Vm) (sz : Nat) : Option (Nat × Vm) := s.allocKpages ((sz + pageSize - 1) / pageSize)

/-- `kfree` of a block `kmalloc` made of whole pages. -/
def kfree (s : Vm) (ptr : Nat) : Option Vm :=
  if ptr = 0 then some s
  else do
    guard (ptr % pageSize = 0)
    s.freeKpages ptr

/-- `load_page(addrspace, vaddr, frame_id)`: the slot the PTE of `vaddr` names is read from the swap
disk into the frame, which becomes the DIRTY page `vaddr` of `addrspace`. The PTE is not touched. -/
def loadPage (s : Vm) (addrspace vaddr frameId : Nat) : Option Vm := do
  let pte ← s.getPTEFromAddrspace addrspace vaddr
  guard (pte ≠ 0)
  let pos := Pte.slot (s.ptes.get pte) * pageSize
  let f ← s.coremap[frameId]?
  let dest := f.frameStart
  guard (paddrToKvaddr dest % 512 = 0)
  guard (pos % 512 = 0)
  let s := { s with mem := blit s.mem dest s.disk pos pageSize }
  some (s.setFrame frameId { f with
    addrspace := addrspace
    mappedVaddr := vaddr
    state := .DIRTY
    numPagesAllocated := 1 })

/-- `load_swapped_page(as, va)`: a free frame, by eviction if need be, loaded with the page. -/
def loadSwappedPage (s : Vm) (as va : Nat) : Option (Nat × Vm) := do
  let (freeFrame, s) ← s.getFreeFrame
  let f ← s.coremap[freeFrame]?
  guard (f.state = .CLEAN ∨ f.state = .FREE)
  let s ← s.loadPage as va freeFrame
  let f ← s.coremap[freeFrame]?
  guard (f.state = .DIRTY)
  some (f.frameStart, s)

end Vm

end Os161
