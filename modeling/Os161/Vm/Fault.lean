import Os161.Vm.Frames

/-!
# Page faults and user accesses

`handle_vaddr_fault` and `vm_fault` of `vm.c`, and the MIPS side of a user access: the TLB is
searched for the page; a hit gives the frame, and, for a store, needs `TLBLO_DIRTY`; a miss traps
to `vm_fault`, after which the access runs again. A store through an entry without
`TLBLO_DIRTY` traps with `VM_FAULT_READONLY`, which `vm_fault` answers with `EFAULT`: the
process is killed.
-/

namespace Os161

/-- The loop of `vm_fault` over the regions: the first that holds `faultaddress`, each base
checked to be page aligned on the way (an `assert`), or `none` inside when no region holds it.
`vtop` is 32-bit. -/
def findRegion (faultaddress : Nat) : List Region → Option (Option Region)
  | [] => some none
  | r :: rs => do
    guard (r.vbase &&& pageFrame = r.vbase)
    let vtop := (r.vbase + r.npages * pageSize) % 2 ^ 32
    if r.vbase ≤ faultaddress ∧ faultaddress < vtop then some (some r)
    else findRegion faultaddress rs

/-- The entry the MIPS matches a user address with: the first whose page is the address's. -/
def tlbMatch (tlb : List (Nat × Nat)) (va : Nat) : Option (Nat × Nat) :=
  tlb.find? fun e => e.1 &&& tlbhiVpage == va &&& pageFrame

namespace Vm

/-- `TLB_Random(entryhi, entrylo)`: the processor picks the slot. -/
def tlbRandomWrite (s : Vm) (entryhi entrylo : Nat) : Option Vm :=
  match s.tlbRandom with
  | r :: rs => some ({ s with tlbRandom := rs }.tlbWrite (r % numTlb) entryhi entrylo)
  | [] => none

/-- The TLB fill that ends `handle_vaddr_fault`: the first slot whose entry is not valid, or a
random slot when every entry is. -/
def tlbFill (s : Vm) (entryhi entrylo : Nat) : Option Vm :=
  match s.tlb.findIdx? (fun e => !Tlb.valid e.2) with
  | some k => some (s.tlbWrite k entryhi entrylo)
  | none => s.tlbRandomWrite entryhi entrylo

/-- `as->as_master_pagetable[i] = t`. -/
def setMasterPagetable (s : Vm) (as i t : Nat) : Option Vm := do
  let a ← s.space as
  some (s.setSpace as { a with asMasterPagetable := a.asMasterPagetable.set i t })

/-- `level2_pagetable->PTE[i] = 0` for every `i`. -/
def zeroTable (s : Vm) (t : Nat) : Vm :=
  (List.range secondLevelPtSize).foldl (fun s i => s.setPte (t + 4 * i) 0) s

/-- `handle_vaddr_fault(faultaddress, permissions)`: find or make the mapping of the page in the
current address space (a present page as it is, a swapped one read back, a new one in a fresh
frame, and a missing second-level table made first), then put it in the TLB, writable when the
permissions have `PF_W`. -/
def handleVaddrFault (s : Vm) (faultaddress permissions : Nat) : Option Vm := do
  let level1Index := (faultaddress &&& firstLevelPn) >>> 22
  let level2Index := (faultaddress &&& secLevelPn) >>> 12
  let a ← s.space s.curspace
  let level2Pagetable := a.asMasterPagetable.get level1Index
  let (paddr, s) ← if level2Pagetable ≠ 0 then do
      let pte := level2Pagetable + 4 * level2Index
      let w := s.ptes.get pte
      if Pte.present w then do
        guard (Pte.swapped w = false)
        some (Pte.frame w, s)
      else do
        let (paddr, s) ← if Pte.swapped w then s.loadSwappedPage s.curspace faultaddress
          else s.allocPageUserspace faultaddress
        guard (paddr &&& pageFrame = paddr)
        some (paddr, s.setPte pte (Pte.mapFrame (s.ptes.get pte) paddr))
    else do
      let (t, s) ← s.kmalloc sizeofPagetable
      let s ← s.setMasterPagetable s.curspace level1Index t
      guard (t ≠ 0)
      let s := s.zeroTable t
      let (paddr, s) ← s.allocPageUserspace faultaddress
      guard (paddr % pageSize = 0)
      let pte ← s.getPTEFromAddrspace s.curspace faultaddress
      guard (pte ≠ 0)
      let w := s.ptes.get pte
      guard (Pte.present w = false ∧ Pte.swapped w = false ∧ w &&& pageFrame = 0)
      let s := s.setPte pte (Pte.mapFresh w paddr)
      guard (s.ptes.get pte = s.ptes.get (t + 4 * level2Index))
      some (paddr, s)
  s.tlbFill faultaddress (Tlb.entryLo paddr permissions)

/-- `vm_fault(faulttype, faultaddress)`: a fault in a region is handled with the region's
permissions; one in the 24 pages below `USERSTACK`, or in the heap, as readable and writable;
any other is `EFAULT`. -/
def vmFault (s : Vm) (faulttype faultaddress : Nat) : Option (Except Errno Unit × Vm) := do
  let faultaddress := faultaddress &&& pageFrame
  if faulttype = vmFaultReadonly then some (.error .EFAULT, s)
  else if faulttype ≠ vmFaultRead ∧ faulttype ≠ vmFaultWrite then some (.error .EINVAL, s)
  else if s.curspace = 0 then some (.error .EFAULT, s)
  else do
    let a ← s.space s.curspace
    match ← findRegion faultaddress a.asRegions with
    | some r => do
      let s ← s.handleVaddrFault faultaddress r.regionPermis
      some (.ok (), s)
    | none =>
      let vtop := userstack
      let vbase := vtop - maxStackPages * pageSize
      if vbase ≤ faultaddress ∧ faultaddress < vtop then do
        let s ← s.handleVaddrFault faultaddress (pfW ||| pfR)
        some (.ok (), s)
      else if a.heapStart ≤ faultaddress ∧ faultaddress < a.heapEnd then do
        let s ← s.handleVaddrFault faultaddress (pfW ||| pfR)
        some (.ok (), s)
      else some (.error .EFAULT, s)

/-- Where a user access to `va` goes by the TLB: the physical address (the entry's frame and the
page offset) and whether stores are allowed; `none` for a miss or an invalid entry. -/
def translate (s : Vm) (va : Nat) : Option (Nat × Bool) :=
  match tlbMatch s.tlb va with
  | some (_, lo) => if Tlb.valid lo then some (Tlb.ppage lo ||| (va &&& 0xfff), Tlb.dirty lo) else none
  | none => none

/-- A user load of the byte at `va`. An address in the kernel half is an address error and kills
the process (`EFAULT` here); a TLB miss runs `vm_fault(VM_FAULT_READ)` and then the load again. -/
def userLoad (s : Vm) (va : Nat) : Option (Except Errno UInt8 × Vm) :=
  if usertop ≤ va then some (.error .EFAULT, s)
  else
    match s.translate va with
    | some (pa, _) => some (.ok (s.mem pa), s)
    | none => do
      let (r, s) ← s.vmFault vmFaultRead va
      match r with
      | .error e => some (.error e, s)
      | .ok () => do
        let (pa, _) ← s.translate va
        some (.ok (s.mem pa), s)

/-- A store found in the TLB: it writes memory through a writable entry, and through any other
traps with `VM_FAULT_READONLY`. -/
def storeHit (s : Vm) (va pa : Nat) (dirty : Bool) (b : UInt8) : Option (Except Errno Unit × Vm) :=
  if dirty then some (.ok (), { s with mem := Function.update s.mem pa b })
  else s.vmFault vmFaultReadonly va

/-- A user store of `b` at `va`: as a load, with `vm_fault(VM_FAULT_WRITE)` on a miss. -/
def userStore (s : Vm) (va : Nat) (b : UInt8) : Option (Except Errno Unit × Vm) :=
  if usertop ≤ va then some (.error .EFAULT, s)
  else
    match s.translate va with
    | some (pa, d) => s.storeHit va pa d b
    | none => do
      let (r, s) ← s.vmFault vmFaultWrite va
      match r with
      | .error e => some (.error e, s)
      | .ok () => do
        let (pa, d) ← s.translate va
        s.storeHit va pa d b

end Vm

end Os161
