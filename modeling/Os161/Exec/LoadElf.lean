import Os161.Vm.FaultRange
import Os161.Exec.Copyinout
import Os161.Syscall.Basic

/-!
# Loading an executable

`load_elf` of `loadelf.c` reads the ELF header, checks that it is the header of a 32-bit
big-endian MIPS executable, and goes through the program headers twice: first to define a region
for each `PT_LOAD` segment with `as_define_region`, then, between `as_prepare_load` and
`as_complete_load`, to copy each segment in with `load_segment`. The executable is what its reads
give (`Executable`). The reads of headers go to kernel buffers and leave the machine alone; a
segment goes to user space through `copyout`, each store of which may fault.

Copying in changes no address space but for its page table (`keepsLayouts_loadSegments`), and
`as_complete_load` puts back the permissions `as_prepare_load` lent (`restores_of_asPrepareLoad`).
So a load into an empty address space that succeeds leaves one region for each `PT_LOAD` header,
in the order of the table, with the permissions of its `p_flags` (`loadElf_layout`). There are at
least two of them: `as_prepare_load` takes regions `0` and `1`, and `array_getguy` asserts that
they are there (`loadElf_of_loadHeaders_lt`). The heap starts and ends at the top of the second
region, a `vaddr_t` and so taken modulo `2 ^ 32`, whatever the others are; so it lies above every
region exactly when no region ends past the second.
-/

namespace Os161

/-- `Elf32_Ehdr`, less the fields `load_elf` does not read. -/
structure Ehdr where
  eIdent : List UInt8
  eType : Nat
  eMachine : Nat
  eVersion : Nat
  eEntry : Nat
  ePhoff : Nat
  ePhentsize : Nat
  ePhnum : Nat
  deriving DecidableEq, Repr

/-- `Elf32_Phdr`, less `p_paddr` and `p_align`. -/
structure Phdr where
  pType : Nat
  pOffset : Nat
  pVaddr : Nat
  pFilesz : Nat
  pMemsz : Nat
  pFlags : Nat
  deriving DecidableEq, Repr

/-- `e_ident[EI_MAG0]` to `e_ident[EI_VERSION]` as `load_elf` wants them: `ELFMAG0` to `ELFMAG3`,
`ELFCLASS32`, `ELFDATA2MSB` and `EV_CURRENT`. -/
def elfIdent : List UInt8 := [0x7f, 0x45, 0x4c, 0x46, 1, 2, 1]

/-- `EV_CURRENT`. -/
def evCurrent : Nat := 1

/-- `ET_EXEC`. -/
def etExec : Nat := 2

/-- `EM_MACHINE`, which is `EM_MIPS`. -/
def emMachine : Nat := 8

/-- `PT_NULL`. -/
def ptNull : Nat := 0

/-- `PT_LOAD`. -/
def ptLoad : Nat := 1

/-- `PT_PHDR`. -/
def ptPhdr : Nat := 6

/-- `PT_MIPS_REGINFO`. -/
def ptMipsReginfo : Nat := 0x70000000

namespace Ehdr

/-- The test `load_elf` makes of the header. `EI_OSABI` and `EI_ABIVERSION` are not looked at. -/
def isExec (eh : Ehdr) : Bool :=
  eh.eIdent.take 7 == elfIdent && eh.eVersion == evCurrent && eh.eType == etExec &&
    eh.eMachine == emMachine

/-- Where the program headers are: `e_phoff + i * e_phentsize` for `i < e_phnum`, in 32 bits. -/
def phOffsets (eh : Ehdr) : List Nat :=
  (List.range eh.ePhnum).map fun i => (eh.ePhoff + i * eh.ePhentsize) % 2 ^ 32

end Ehdr

/-- An executable as `load_elf` sees it through `VOP_READ`. A read of the ELF header or of a
program header at an offset gives an error, a short read (`none`) or the header. A read of `n`
bytes of a segment at an offset gives the bytes it moves, at most `n`, and the error it stops
with, if any. -/
structure Executable where
  ehdr : Except Errno (Option Ehdr)
  phdr : Nat → Except Errno (Option Phdr)
  segment : Nat → Nat → List UInt8 × Option Errno

namespace Executable

/-- A program header as both loops of `load_elf` read it: a short read is `ENOEXEC`, and the
`switch` on `p_type` skips `PT_NULL`, `PT_PHDR` and `PT_MIPS_REGINFO` (`none`), takes `PT_LOAD`
and refuses every other type. -/
def readPhdr (f : Executable) (offset : Nat) : Except Errno (Option Phdr) := do
  let some ph ← f.phdr offset | throw .ENOEXEC
  if ph.pType = ptNull ∨ ph.pType = ptPhdr ∨ ph.pType = ptMipsReginfo then pure none
  else if ph.pType = ptLoad then pure (some ph)
  else throw .ENOEXEC

/-- The `PT_LOAD` headers of the table in order, when every read of the table succeeds and every
type is one `load_elf` knows. -/
def loadHeaders (f : Executable) (eh : Ehdr) : Except Errno (List Phdr) :=
  eh.phOffsets.filterMapM f.readPhdr

end Executable

/-- The region `as_define_region(as, vaddr, sz, readable, writeable, executable)` adds: the pages
the block meets, with the three permissions. -/
def definedRegion (vaddr sz readable writeable executable : Nat) : Region :=
  ⟨vaddr &&& pageFrame, ((sz + (vaddr &&& clearPageFrame) + pageSize - 1) &&& pageFrame) / pageSize,
    readable ||| writeable ||| executable⟩

/-- The region of a `PT_LOAD` segment. -/
def Phdr.region (ph : Phdr) : Region :=
  definedRegion ph.pVaddr ph.pMemsz (ph.pFlags &&& pfR) (ph.pFlags &&& pfW) (ph.pFlags &&& pfX)

/-- Where a region's pages end, as `as_define_region` computes the start of the heap. -/
def Region.top (r : Region) : Nat := r.vbase + r.npages * pageSize

/-- What `as_define_region` does to the address space: the region goes last, and when it is the
second one, the heap starts and ends at its top, taken modulo `2 ^ 32`. -/
def Addrspace.defineRegion (a : Addrspace) (r : Region) : Addrspace :=
  if (a.asRegions ++ [r]).length = 2 then
    { a with asRegions := a.asRegions ++ [r], heapStart := r.top % 2 ^ 32, heapEnd := r.top % 2 ^ 32 }
  else { a with asRegions := a.asRegions ++ [r] }

/-- The heap starts at or above the top of every region. -/
def Addrspace.HeapAbove (a : Addrspace) : Prop := ∀ r ∈ a.asRegions, r.top ≤ a.heapStart

instance (a : Addrspace) : Decidable a.HeapAbove := inferInstanceAs (Decidable (∀ r ∈ _, _))

namespace Vm

/-- `VOP_READ` of `n` bytes of a segment at `offset` into user space at `vaddr`: the bytes the file
gives go out through `copyout`, and the read ends with the error the file stopped with, or with
the count of bytes it did not move (`uio_resid`). -/
def readSegment (f : Executable) (offset vaddr n : Nat) : Run Vm Errno Nat := do
  let (bytes, err) := f.segment offset n
  if bytes.length ≠ 0 then
    Copy.copyout (fun i => pure (bytes.getD i 0)) (fun a b s => s.userStore a b) 0 vaddr bytes.length
  match err with
  | some e => Run.throw e
  | none => pure (n - bytes.length)

/-- `uiomovezeros(n, uio)` on a user `uio` at `ubase`: `copyout`s of up to 16 bytes from a static
block of zeros. -/
def uiomovezeros (ubase n : Nat) : Run Vm Errno Unit :=
  (List.range ((n + 15) / 16)).forM fun k =>
    Copy.copyout (fun _ => pure 0) (fun a b s => s.userStore a b) 0 (ubase + 16 * k)
      (min 16 (n - 16 * k))

/-- `load_segment(v, offset, vaddr, memsize, filesize, is_executable)`: the file's bytes, then
zeros up to `memsize`. `is_executable` only picks `UIO_USERISPACE` over `UIO_USERSPACE`, which
`uiomove` treats alike. -/
def loadSegment (f : Executable) (offset vaddr memsize filesize _isExecutable : Nat) :
    Run Vm Errno Unit := do
  -- `if (filesize > memsize) filesize = memsize;`
  let filesize := min filesize memsize
  let resid ← readSegment f offset vaddr filesize
  if resid ≠ 0 then Run.throw .ENOEXEC
  else if 0 < memsize - filesize then uiomovezeros (vaddr + filesize) (memsize - filesize)
  else pure ()

/-- A round of the first loop of `load_elf`: the header at `offset`, and `as_define_region` on the
current address space when it is `PT_LOAD`. -/
def defineSegment (f : Executable) (offset : Nat) : Run Vm Errno Unit := do
  let some ph ← Run.ofExcept (f.readPhdr offset) | pure ()
  Run.lift fun s => s.asDefineRegion s.curspace ph.pVaddr ph.pMemsz
    (ph.pFlags &&& pfR) (ph.pFlags &&& pfW) (ph.pFlags &&& pfX)

/-- A round of the second loop: the header at `offset` again, and `load_segment` when it is
`PT_LOAD`. -/
def loadSegmentAt (f : Executable) (offset : Nat) : Run Vm Errno Unit := do
  let some ph ← Run.ofExcept (f.readPhdr offset) | pure ()
  loadSegment f ph.pOffset ph.pVaddr ph.pMemsz ph.pFilesz (ph.pFlags &&& pfX)

/-- `load_elf(v, entrypoint)` into the current address space: the entry point `e_entry`. -/
def loadElf (f : Executable) : Run Vm Errno Nat := do
  let some eh ← Run.ofExcept f.ehdr | Run.throw .ENOEXEC
  if eh.isExec = false then Run.throw .ENOEXEC
  else do
    eh.phOffsets.forM (defineSegment f)
    Run.lift fun s => s.asPrepareLoad s.curspace
    eh.phOffsets.forM (loadSegmentAt f)
    Run.lift fun s => s.asCompleteLoad s.curspace
    pure eh.eEntry

variable {s s' : Vm} {a : Addrspace} {f : Executable}

/-! ### Defining the regions -/

theorem asDefineRegion_eq {as : Nat} (ha : s.space as = some a) (vaddr sz r w x : Nat) :
    s.asDefineRegion as vaddr sz r w x = some (s.setSpace as (a.defineRegion (definedRegion vaddr sz r w x))) := by
  unfold asDefineRegion Addrspace.defineRegion definedRegion Region.top
  simp only [ha, bind, Option.bind_some]
  split_ifs <;> rfl

theorem defineSegment_ok {offset : Nat} (ha : s.space s.curspace = some a)
    (h : defineSegment f offset s = some (.ok (), s')) :
    ∃ o, f.readPhdr offset = .ok o ∧ s'.curspace = s.curspace ∧
      s'.space s.curspace = some (o.toList.foldl (fun a ph => a.defineRegion ph.region) a) := by
  unfold defineSegment at h
  rcases hr : f.readPhdr offset with e | o
  · rw [hr, Run.ofExcept_error, Run.throw_bind] at h
    cases h
  · rw [hr, Run.ofExcept_ok, Run.pure_bind] at h
    rcases o with _ | ph
    · cases h
      exact ⟨none, rfl, rfl, ha⟩
    · dsimp only at h
      rw [Run.lift_apply, asDefineRegion_eq ha] at h
      cases h
      exact ⟨some ph, rfl, rfl, space_setSpace_self _ _ _⟩

theorem forM_defineSegment_ok : ∀ (offs : List Nat) {s s' : Vm} {a : Addrspace},
    s.space s.curspace = some a → offs.forM (defineSegment f) s = some (.ok ⟨⟩, s') →
    ∃ phs, offs.filterMapM f.readPhdr = .ok phs ∧ s'.curspace = s.curspace ∧
      s'.space s.curspace = some (phs.foldl (fun a ph => a.defineRegion ph.region) a)
  | [], s, s', a, ha, h => by
    cases h
    exact ⟨[], rfl, rfl, ha⟩
  | offset :: offs, s, s', a, ha, h => by
    change (defineSegment f offset >>= fun _ => offs.forM (defineSegment f)) s = _ at h
    obtain ⟨⟨⟩, s₁, h₁, h⟩ := Run.bind_eq_ok.1 h
    obtain ⟨o, hr, hc₁, ha₁⟩ := defineSegment_ok ha h₁
    obtain ⟨phs, hphs, hc, ha'⟩ := forM_defineSegment_ok offs (hc₁ ▸ ha₁) h
    refine ⟨o.toList ++ phs, ?_, hc.trans hc₁, by rw [← hc₁, ha', List.foldl_append]⟩
    rw [List.filterMapM_cons, hr]
    rcases o with _ | ph
    · exact hphs
    · show (do let l ← offs.filterMapM f.readPhdr; pure (ph :: l) : Except Errno _) = _
      rw [hphs]
      rfl

theorem defineSegment_of_readPhdr {offset : Nat} {o : Option Phdr} (ha : s.space s.curspace = some a)
    (hr : f.readPhdr offset = .ok o) :
    ∃ s', defineSegment f offset s = some (.ok (), s') ∧ s'.curspace = s.curspace ∧
      s'.space s.curspace = some (o.toList.foldl (fun a ph => a.defineRegion ph.region) a) := by
  unfold defineSegment
  rw [hr, Run.ofExcept_ok, Run.pure_bind]
  rcases o with _ | ph
  · exact ⟨s, rfl, rfl, ha⟩
  · dsimp only
    rw [Run.lift_apply, asDefineRegion_eq ha]
    exact ⟨_, rfl, rfl, space_setSpace_self _ _ _⟩

theorem filterMapM_readPhdr_cons {offset : Nat} {offs : List Nat} {phs : List Phdr}
    (h : (offset :: offs).filterMapM f.readPhdr = .ok phs) :
    ∃ o l, f.readPhdr offset = .ok o ∧ offs.filterMapM f.readPhdr = .ok l ∧ phs = o.toList ++ l := by
  rw [List.filterMapM_cons] at h
  rcases hr : f.readPhdr offset with e | o
  · rw [hr] at h
    cases h
  · rw [hr] at h
    rcases hl : offs.filterMapM f.readPhdr with e | l
    · simp only [bind, Except.bind, hl] at h
      rcases o with _ | ph <;> cases h
    · refine ⟨o, l, rfl, rfl, ?_⟩
      simp only [bind, Except.bind, hl, pure, Except.pure] at h
      rcases o with _ | ph
      · simpa using h.symm
      · simpa using h.symm

theorem forM_defineSegment_of_filterMapM : ∀ (offs : List Nat) {s : Vm} {a : Addrspace}
    {phs : List Phdr}, s.space s.curspace = some a → offs.filterMapM f.readPhdr = .ok phs →
    ∃ s', offs.forM (defineSegment f) s = some (.ok ⟨⟩, s') ∧ s'.curspace = s.curspace ∧
      s'.space s.curspace = some (phs.foldl (fun a ph => a.defineRegion ph.region) a)
  | [], s, a, phs, ha, h => by
    cases h
    exact ⟨s, rfl, rfl, ha⟩
  | offset :: offs, s, a, phs, ha, h => by
    obtain ⟨o, l, hr, hl, rfl⟩ := filterMapM_readPhdr_cons h
    obtain ⟨s₁, h₁, hc₁, ha₁⟩ := defineSegment_of_readPhdr ha hr
    obtain ⟨s', h', hc', ha'⟩ := forM_defineSegment_of_filterMapM offs (hc₁ ▸ ha₁) hl
    refine ⟨s', ?_, hc'.trans hc₁, by rw [← hc₁, ha', List.foldl_append]⟩
    change (defineSegment f offset >>= fun _ => offs.forM (defineSegment f)) s = _
    rw [Run.bind_of_ok h₁]
    exact h'

theorem defineRegion_regions (a : Addrspace) (r : Region) :
    (a.defineRegion r).asRegions = a.asRegions ++ [r] := by
  unfold Addrspace.defineRegion
  split_ifs <;> rfl

theorem foldl_defineRegion_regions (rs : List Region) (a : Addrspace) :
    (rs.foldl Addrspace.defineRegion a).asRegions = a.asRegions ++ rs := by
  induction rs generalizing a with
  | nil => simp
  | cons r rs ih => rw [List.foldl_cons, ih, defineRegion_regions, List.append_assoc, List.singleton_append]

theorem foldl_defineRegion_heap (rs : List Region) {a : Addrspace} (h : 2 ≤ a.asRegions.length) :
    (rs.foldl Addrspace.defineRegion a).heapStart = a.heapStart ∧
      (rs.foldl Addrspace.defineRegion a).heapEnd = a.heapEnd := by
  induction rs generalizing a with
  | nil => exact ⟨rfl, rfl⟩
  | cons r rs ih =>
    have hne : (a.asRegions ++ [r]).length ≠ 2 := by simp; omega
    have h' : 2 ≤ (a.defineRegion r).asRegions.length := by simp [defineRegion_regions]; omega
    obtain ⟨h₁, h₂⟩ := ih h'
    rw [List.foldl_cons, h₁, h₂]
    unfold Addrspace.defineRegion
    rw [if_neg hne]
    exact ⟨rfl, rfl⟩

theorem heapStart_foldl_defineRegion {rs : List Region} {r : Region} (ha : a.asRegions = [])
    (hr : rs[1]? = some r) :
    (rs.foldl Addrspace.defineRegion a).heapStart = r.top % 2 ^ 32 ∧
      (rs.foldl Addrspace.defineRegion a).heapEnd = r.top % 2 ^ 32 := by
  match rs, hr with
  | r₀ :: r₁ :: rest, hr =>
    obtain rfl : r₁ = r := by simpa using hr
    have h₂ : 2 ≤ ((a.defineRegion r₀).defineRegion r₁).asRegions.length := by
      simp [defineRegion_regions, ha]
    rw [List.foldl_cons, List.foldl_cons, (foldl_defineRegion_heap rest h₂).1,
      (foldl_defineRegion_heap rest h₂).2]
    have h₁ : ((a.defineRegion r₀).asRegions ++ [r₁]).length = 2 := by
      simp [defineRegion_regions, ha]
    unfold Addrspace.defineRegion at h₁ ⊢
    rw [if_pos h₁]
    exact ⟨rfl, rfl⟩

/-! ### Copying the segments in -/

theorem keepsLayouts_userStoreRun (va : Nat) (b : UInt8) :
    Run.Rel KeepsLayouts (fun s : Vm => s.userStore va b) :=
  fun _ _ _ h => keepsLayouts_userStore h

theorem keepsLayouts_readSegment (offset vaddr n : Nat) :
    Run.Rel KeepsLayouts (readSegment f offset vaddr n) := by
  unfold readSegment
  rcases f.segment offset n with ⟨bytes, err⟩
  have htail : Run.Rel KeepsLayouts (match err with
      | some e => Run.throw e
      | none => (pure (n - bytes.length) : Run Vm Errno Nat)) := by
    split
    · exact Run.Rel.throw KeepsLayouts.refl _
    · exact Run.Rel.pure KeepsLayouts.refl _
  dsimp only
  split_ifs
  · exact Run.Rel.bind @KeepsLayouts.trans (Copy.rel_copyout KeepsLayouts.refl @KeepsLayouts.trans
      (fun i => Run.Rel.pure KeepsLayouts.refl _) keepsLayouts_userStoreRun 0 vaddr _) fun _ => htail
  · exact htail

theorem keepsLayouts_uiomovezeros (ubase n : Nat) : Run.Rel KeepsLayouts (uiomovezeros ubase n) :=
  Run.Rel.forM KeepsLayouts.refl @KeepsLayouts.trans (fun _ => Copy.rel_copyout KeepsLayouts.refl
    @KeepsLayouts.trans (fun _ => Run.Rel.pure KeepsLayouts.refl 0) keepsLayouts_userStoreRun _ _ _) _

theorem keepsLayouts_loadSegment (offset vaddr memsize filesize x : Nat) :
    Run.Rel KeepsLayouts (loadSegment f offset vaddr memsize filesize x) := by
  refine Run.Rel.bind @KeepsLayouts.trans (keepsLayouts_readSegment _ _ _) fun resid => ?_
  split_ifs
  · exact Run.Rel.throw KeepsLayouts.refl _
  · exact keepsLayouts_uiomovezeros _ _
  · exact Run.Rel.pure KeepsLayouts.refl _

/-- Copying the segments in builds page tables and touches nothing else of an address space. -/
theorem keepsLayouts_loadSegments (offs : List Nat) :
    Run.Rel KeepsLayouts (offs.forM (loadSegmentAt f)) := by
  refine Run.Rel.forM KeepsLayouts.refl @KeepsLayouts.trans (fun offset => ?_) offs
  refine Run.Rel.bind @KeepsLayouts.trans (Run.Rel.ofExcept KeepsLayouts.refl _) fun o => ?_
  rcases o with _ | ph
  · exact Run.Rel.pure KeepsLayouts.refl _
  · exact keepsLayouts_loadSegment _ _ _ _ _

/-! ### The permissions lent for the load -/

theorem asPrepareLoad_eq_some {as : Nat} (h : s.asPrepareLoad as = some s') :
    ∃ a text bss, s.space as = some a ∧ a.asRegions[0]? = some text ∧ a.asRegions[1]? = some bss ∧
      s' = s.setSpace as { a with
        tempTextPermis := text.regionPermis
        tempBssPermis := bss.regionPermis
        asRegions := (a.asRegions.set 0 { text with regionPermis := text.regionPermis ||| (pfR ||| pfW) }).set
          1 { bss with regionPermis := bss.regionPermis ||| (pfR ||| pfW) } } := by
  unfold asPrepareLoad at h
  simp only [bind, Option.bind_eq_some_iff, Option.some.injEq] at h
  obtain ⟨a, ha, text, h0, bss, h1, rfl⟩ := h
  exact ⟨a, text, bss, ha, h0, h1, rfl⟩

/-- `as_prepare_load` panics on an address space of fewer than two regions. -/
theorem asPrepareLoad_of_lt {as : Nat} (ha : s.space as = some a) (h : a.asRegions.length < 2) :
    s.asPrepareLoad as = none := by
  unfold asPrepareLoad
  simp only [ha, bind, Option.bind_some]
  rw [List.getElem?_eq_none (by omega : a.asRegions.length ≤ 1)]
  rcases a.asRegions[0]? with _ | text <;> rfl

/-- Whatever `as_prepare_load` lends, `as_complete_load` takes back: in between only page tables
may change, and the regions end as they were. -/
theorem restores_of_asPrepareLoad {as : Nat} {s₁ s₂ s₃ : Vm} (ha : s.space as = some a)
    (h₁ : s.asPrepareLoad as = some s₁) (h₂ : KeepsLayouts s₁ s₂) (h₃ : s₂.asCompleteLoad as = some s₃) :
    ∃ a₃, s₃.space as = some a₃ ∧ a₃.asRegions = a.asRegions ∧ a₃.heapStart = a.heapStart ∧
      a₃.heapEnd = a.heapEnd := by
  obtain ⟨a₀, text, bss, ha₀, h0, h1, rfl⟩ := asPrepareLoad_eq_some h₁
  rw [ha] at ha₀
  cases ha₀
  obtain ⟨a₂, ha₂, hl⟩ := h₂.space (space_setSpace_self _ _ _)
  simp only [Addrspace.layout, Prod.mk.injEq] at hl
  obtain ⟨hreg, htext, hbss, hstart, hend⟩ := hl
  unfold asCompleteLoad at h₃
  simp only [ha₂, bind, Option.bind_some, hreg] at h₃
  have g0 : ((a.asRegions.set 0 { text with regionPermis := text.regionPermis ||| (pfR ||| pfW) }).set 1
      { bss with regionPermis := bss.regionPermis ||| (pfR ||| pfW) })[0]? =
      some { text with regionPermis := text.regionPermis ||| (pfR ||| pfW) } := by
    rw [List.getElem?_set_ne (by decide), List.getElem?_set_self (by simpa using (List.getElem?_eq_some_iff.1 h0).1)]
  have g1 : ((a.asRegions.set 0 { text with regionPermis := text.regionPermis ||| (pfR ||| pfW) }).set 1
      { bss with regionPermis := bss.regionPermis ||| (pfR ||| pfW) })[1]? =
      some { bss with regionPermis := bss.regionPermis ||| (pfR ||| pfW) } := by
    rw [List.getElem?_set_self (by simpa using (List.getElem?_eq_some_iff.1 h1).1)]
  rw [g0, g1] at h₃
  cases h₃
  refine ⟨_, space_setSpace_self _ _ _, ?_, hstart, hend⟩
  rw [htext, hbss]
  have hlen : 1 < a.asRegions.length := (List.getElem?_eq_some_iff.1 h1).1
  have hne : a.asRegions ≠ [] := List.ne_nil_of_length_pos (by omega)
  apply List.ext_getElem?
  intro i
  rcases i with _ | _ | i
  · simp [List.getElem?_set, h0, hne]
  · have hb : a.asRegions[1] = bss := (List.getElem?_eq_some_iff.1 h1).2
    simp [hlen, hb]
  · simp

theorem curspace_of_asPrepareLoad {as : Nat} (h : s.asPrepareLoad as = some s') :
    s'.curspace = s.curspace := by
  obtain ⟨a, text, bss, -, -, -, rfl⟩ := asPrepareLoad_eq_some h
  rfl

theorem curspace_of_asCompleteLoad {as : Nat} (h : s.asCompleteLoad as = some s') :
    s'.curspace = s.curspace := by
  unfold asCompleteLoad at h
  simp only [bind, Option.bind_eq_some_iff, Option.some.injEq] at h
  obtain ⟨a, -, text, -, bss, -, rfl⟩ := h
  rfl

/-! ### The whole load -/

theorem loadElf_ok {entry : Nat} (h : loadElf f s = some (.ok entry, s')) :
    ∃ eh s₁ s₂ s₃, f.ehdr = .ok (some eh) ∧ eh.isExec = true ∧ entry = eh.eEntry ∧
      eh.phOffsets.forM (defineSegment f) s = some (.ok ⟨⟩, s₁) ∧
      s₁.asPrepareLoad s₁.curspace = some s₂ ∧
      eh.phOffsets.forM (loadSegmentAt f) s₂ = some (.ok ⟨⟩, s₃) ∧
      s₃.asCompleteLoad s₃.curspace = some s' := by
  unfold loadElf at h
  rcases he : f.ehdr with e | _ | eh
  · rw [he, Run.ofExcept_error, Run.throw_bind] at h
    cases h
  · rw [he, Run.ofExcept_ok, Run.pure_bind] at h
    cases h
  · rw [he, Run.ofExcept_ok, Run.pure_bind] at h
    dsimp only at h
    split_ifs at h with hx
    · cases h
    obtain ⟨⟨⟩, s₁, h₁, h⟩ := Run.bind_eq_ok.1 h
    obtain ⟨⟨⟩, s₂, h₂, h⟩ := Run.bind_eq_ok.1 h
    obtain ⟨⟨⟩, s₃, h₃, h⟩ := Run.bind_eq_ok.1 h
    obtain ⟨⟨⟩, s₄, h₄, h⟩ := Run.bind_eq_ok.1 h
    cases h
    obtain ⟨_, h₂, h₂'⟩ := Option.map_eq_some_iff.1 h₂
    cases h₂'
    obtain ⟨_, h₄, h₄'⟩ := Option.map_eq_some_iff.1 h₄
    cases h₄'
    exact ⟨eh, s₁, s₂, s₃, rfl, by simpa using hx, rfl, h₁, h₂, h₃, h₄⟩

/-- A load into an address space with no regions that succeeds: the `PT_LOAD` headers give the
regions, in the order of the table and with the permissions of their flags; there are at least
two, and the heap starts and ends at the top of the second, modulo `2 ^ 32`. -/
theorem loadElf_layout {entry : Nat} (ha : s.space s.curspace = some a) (hnil : a.asRegions = [])
    (h : loadElf f s = some (.ok entry, s')) :
    ∃ eh phs a' r, f.ehdr = .ok (some eh) ∧ f.loadHeaders eh = .ok phs ∧ entry = eh.eEntry ∧
      s'.curspace = s.curspace ∧ s'.space s.curspace = some a' ∧
      a'.asRegions = phs.map Phdr.region ∧ (phs.map Phdr.region)[1]? = some r ∧
      a'.heapStart = r.top % 2 ^ 32 ∧ a'.heapEnd = r.top % 2 ^ 32 := by
  obtain ⟨eh, s₁, s₂, s₃, he, -, hentry, h₁, h₂, h₃, h₄⟩ := loadElf_ok h
  obtain ⟨phs, hphs, hc₁, ha₁⟩ := forM_defineSegment_ok eh.phOffsets ha h₁
  rw [← List.foldl_map] at ha₁
  have hregs : ((phs.map Phdr.region).foldl Addrspace.defineRegion a).asRegions =
      phs.map Phdr.region := by
    rw [foldl_defineRegion_regions, hnil, List.nil_append]
  rw [hc₁] at h₂
  have hc₂ := curspace_of_asPrepareLoad h₂
  have hkeep := keepsLayouts_loadSegments eh.phOffsets s₂ _ s₃ h₃
  rw [hkeep.curspace, hc₂, hc₁] at h₄
  obtain ⟨a₀, text, bss, ha₀, -, h1, -⟩ := asPrepareLoad_eq_some h₂
  rw [ha₁, Option.some.injEq] at ha₀
  subst ha₀
  rw [hregs] at h1
  obtain ⟨a₄, ha₄, hr₄, hs₄, he₄⟩ := restores_of_asPrepareLoad ha₁ h₂ hkeep h₄
  obtain ⟨hstart, hend⟩ := heapStart_foldl_defineRegion hnil h1
  refine ⟨eh, phs, a₄, bss, he, hphs, hentry, ?_, ha₄, hr₄.trans hregs, h1, hs₄.trans hstart,
    he₄.trans hend⟩
  rw [curspace_of_asCompleteLoad h₄, hkeep.curspace, hc₂, hc₁]

/-- A load whose table has fewer than two `PT_LOAD` headers panics in `as_prepare_load`. -/
theorem loadElf_of_loadHeaders_lt {eh : Ehdr} {phs : List Phdr} (ha : s.space s.curspace = some a)
    (hnil : a.asRegions = []) (he : f.ehdr = .ok (some eh)) (hx : eh.isExec = true)
    (hphs : f.loadHeaders eh = .ok phs) (hlt : phs.length < 2) : loadElf f s = none := by
  obtain ⟨s₁, h₁, hc₁, ha₁⟩ := forM_defineSegment_of_filterMapM eh.phOffsets ha hphs
  rw [← List.foldl_map, ← hc₁] at ha₁
  have hlen : ((phs.map Phdr.region).foldl Addrspace.defineRegion a).asRegions.length < 2 := by
    rw [foldl_defineRegion_regions, hnil]
    simpa using hlt
  have hp := asPrepareLoad_of_lt ha₁ hlen
  unfold loadElf
  rw [he, Run.ofExcept_ok, Run.pure_bind]
  dsimp only
  rw [if_neg (by simp [hx]), Run.bind_of_ok h₁, Run.bind_apply, Run.lift_apply, hp]
  rfl

end Vm

/-- An executable of three one-byte `PT_LOAD` segments in the order of a common link map: text at
`0x400000`, read-only data on the next page, and data on the page after that. -/
def threeSegmentElf : Executable where
  ehdr := .ok (some ⟨elfIdent ++ List.replicate 9 0, etExec, emMachine, evCurrent, 0x400000, 52, 32, 3⟩)
  phdr := fun offset =>
    if offset = 52 then .ok (some ⟨ptLoad, 0x1000, 0x400000, 1, 1, pfR ||| pfX⟩)
    else if offset = 84 then .ok (some ⟨ptLoad, 0x2000, 0x401000, 1, 1, pfR⟩)
    else if offset = 116 then .ok (some ⟨ptLoad, 0x3000, 0x402000, 1, 1, pfR ||| pfW⟩)
    else .ok none
  segment := fun _ n => (List.replicate n 0x2a, none)

/-- `threeSegmentElf` loaded into the fresh address space of `Vm.faultPrefix`: the heap starts and
ends at the top of the read-only data, which is where the data segment starts, and the first
`sbrk(4096)` hands out the data segment's page. -/
theorem load_elf_heap_in_data :
    ∃ s s' a, forkBoot.bind (·.exec Vm.faultPrefix) = some s ∧
      s.loadElf threeSegmentElf = some (.ok 0x400000, s') ∧ s'.space s'.curspace = some a ∧
      a.asRegions = [⟨0x400000, 1, 5⟩, ⟨0x401000, 1, 4⟩, ⟨0x402000, 1, 6⟩] ∧
      a.heapStart = 0x402000 ∧ a.heapEnd = 0x402000 ∧ ¬ a.HeapAbove ∧
      s'.sysSbrk 4096 = some (.ok 0x402000, s'.setSpace s'.curspace { a with heapEnd := 0x403000 }) := by
  have h : ((forkBoot.bind (·.exec Vm.faultPrefix)).bind fun s => s.loadElf threeSegmentElf).map
      (fun p => (p.1, (p.2.space p.2.curspace).map fun a => (a.asRegions, a.heapStart, a.heapEnd))) =
      some (.ok 0x400000, some ([⟨0x400000, 1, 5⟩, ⟨0x401000, 1, 4⟩, ⟨0x402000, 1, 6⟩], 0x402000, 0x402000)) := by
    decide +kernel
  obtain ⟨⟨r, s'⟩, hl, hobs⟩ := Option.map_eq_some_iff.1 h
  obtain ⟨s, hs, hl⟩ := Option.bind_eq_some_iff.1 hl
  simp only [Prod.mk.injEq] at hobs
  obtain ⟨rfl, hsp⟩ := hobs
  obtain ⟨a, ha, hobs⟩ := Option.map_eq_some_iff.1 hsp
  simp only [Prod.mk.injEq] at hobs
  obtain ⟨hregs, hstart, hend⟩ := hobs
  have hok : HeapOk a := ⟨by omega, by rw [hend]; decide⟩
  have hfit : a.heapStart ≤ a.heapEnd + (4096 : Int) ∧ a.heapEnd + (4096 : Int) < userstack - 24 * 4096 := by
    rw [hstart, hend]
    decide
  refine ⟨s, s', a, hs, hl, ha, hregs, hstart, hend, ?_, ?_⟩
  · intro habove
    have := habove ⟨0x402000, 1, 6⟩ (by rw [hregs]; simp)
    rw [hstart] at this
    exact absurd this (by decide)
  · rw [Vm.sysSbrk_of_fits ha hok (by decide) hfit, hend]
    rfl

end Os161
