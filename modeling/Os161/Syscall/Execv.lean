import Os161.Exec.LoadElf
import Os161.Syscall.Console

/-!
# `sys_execv`

`sys_execv(prog_path, args)` of `syscall.c`, whole: `splhigh`, the copy of the path into a
`kmalloc`ed buffer, the copy of `args[0]` and the loop that copies each argument into a buffer of
its own, `vfs_open`, the destruction of the caller's address space and the creation of a new one,
`load_elf`, and the copies of the arguments out to the new stack before `md_usermode`.

The VM system is `Vm`; beside it the kernel keeps `curspl` and the blocks of the subpage
allocator (`Kstate`). The path and the arguments are read from user memory with `copyinstr`, but
`args[i]` itself is read by a plain kernel load of a word, so a fault `vm_fault` refuses there is
fatal. `vfs_open` and what the file holds are the caller's choices (`Executable`); `vfs_close`
changes nothing modelled.

`sys_execv` raises the level with `splhigh` and never lowers it, so every way it ends leaves
`curspl` at `SPL_HIGH` (`curspl_sysExecv`), and the `assert(curspl == 0)` that `mips_syscall`
makes after the call fails on every error return (`mipsSyscallExecv_of_error`). The exits after
the copy of the path and `args` free nothing: the buffers of the path, of `argv` and of each
argument stay allocated, and from `vfs_open` on the caller's address space is gone.
-/

namespace Os161

/-- `SPL_HIGH`. -/
def splHigh : Nat := 15

/-- `MAX_PATH_LEN` of `syscall.c`. -/
def maxPathLen : Nat := 128

/-- The kernel's side of a system call, beside the VM system: `curspl`, the blocks `kmalloc`
handed out that are not freed, the address of the next one, and kernel memory. -/
structure Kstate where
  curspl : Nat
  live : List Nat
  next : Nat
  kmem : Nat → UInt8

/-- What `md_usermode(argc, argv, stack, entry)` is called with. -/
structure Entry where
  argc : Nat
  argv : Nat
  stack : Nat
  entry : Nat
  deriving DecidableEq, Repr

namespace Execv

open ByteMem

/-- A computation of `sys_execv`. -/
abbrev M (α : Type) : Type := Run (Vm × Kstate) Errno α

/-- `splhigh()`: the old level. -/
def splhigh : M Nat := fun p => some (.ok p.2.curspl, (p.1, { p.2 with curspl := splHigh }))

/-- `sizes` of `kheap.c`: the blocks of the subpage allocator. -/
def subpageSizes : List Nat := [16, 32, 64, 128, 256, 512, 1024, 2048]

/-- The size of the block a request of `sz` bytes gets: the smallest that holds it. -/
def blockSize (sz : Nat) : Nat := (subpageSizes.find? (sz ≤ ·)).getD sz

/-- `kmalloc(sz)` from the subpage allocator: a fresh block. -/
def kmalloc (sz : Nat) : M Nat := fun p =>
  some (.ok p.2.next, (p.1, { p.2 with live := p.2.next :: p.2.live, next := p.2.next + blockSize sz }))

/-- `kfree(ptr)`. -/
def kfree (ptr : Nat) : M Unit := Run.modify fun p => (p.1, { p.2 with live := p.2.live.erase ptr })

/-- A kernel load of a byte of a block. -/
def kload (a : Nat) : M UInt8 := fun p => some (.ok (p.2.kmem a), p)

/-- A kernel store to a byte of a block. -/
def kstore (a : Nat) (b : UInt8) : M Unit :=
  Run.modify fun p => (p.1, { p.2 with kmem := Function.update p.2.kmem a b })

/-- A kernel load of a pointer from a block. -/
def kloadWord (a : Nat) : M Nat := fun p => some (.ok (loadWord p.2.kmem a), p)

/-- A kernel store of a pointer to a block. -/
def kstoreWord (a w : Nat) : M Unit :=
  Run.modify fun p => (p.1, { p.2 with kmem := store p.2.kmem a (wordBytes w) })

/-- `argv[i] = w` into the block of `kmalloc(sizeof(char **))`: a store past its 16 bytes, from
`argv[4]` on, is undefined. -/
def storeArgv (argv i w : Nat) : M Unit :=
  if 4 * i + 4 ≤ blockSize 4 then kstoreWord (argv + 4 * i) w else Run.fail

/-- A load of user memory in a copy. -/
def userLoad (a : Nat) : M UInt8 := Run.onFst fun s => s.userLoad a

/-- A store to user memory in a copy. -/
def userStore (a : Nat) (b : UInt8) : M Unit := Run.onFst fun s => s.userStore a b

/-- `args[i]` at `va`: a kernel load of a word through the TLB. An unaligned word is an address
error, and a fault `vm_fault` refuses is fatal: both panic. -/
def loadUserWord (va : Nat) : M Nat := fun p =>
  if va % 4 ≠ 0 then none
  else do
    let (b0, s) ← p.1.kernelLoad va
    let (b1, s) ← s.kernelLoad (va + 1)
    let (b2, s) ← s.kernelLoad (va + 2)
    let (b3, s) ← s.kernelLoad (va + 3)
    some (.ok (b0.toNat * 2 ^ 24 + b1.toNat * 2 ^ 16 + b2.toNat * 2 ^ 8 + b3.toNat), (s, p.2))

/-- The string a block holds: its bytes before the first NUL among the first `n`; past them
`strlen` would read beyond the block, which is undefined. -/
def kstring (a n : Nat) : M (List UInt8) := fun p =>
  (Copy.firstNul p.2.kmem a n).map fun k => (.ok ((List.range k).map fun i => p.2.kmem (a + i)), p)

/-- The copy of the path: a buffer of `MAX_PATH_LEN` bytes, and `copyinstr` into it. A failed copy
frees the buffer and is `EFAULT`, whatever `copyinstr` returned. -/
def copyinPath (progPath : Nat) : M Nat := do
  let program ← kmalloc maxPathLen
  match ← Run.attempt (Copy.copyinstr userLoad kstore progPath program maxPathLen) with
  | .error _ => do
    kfree program
    Run.throw .EFAULT
  | .ok _ => pure program

/-- The loop `while (args[i] != NULL)` from `i`: each argument into a fresh buffer of
`MAX_ARG_LEN` bytes whose address goes to `argv[i]`; the number of arguments. A failed copy
returns `EFAULT` and frees nothing. `fuel` bounds the rounds: `args + 4 * i` wraps after `2 ^ 30`
of them. -/
def copyinArgs (args argv : Nat) : Nat → Nat → M Nat
  | _, 0 => Run.fail
  | i, fuel + 1 => do
    let a ← loadUserWord ((args + 4 * i) % 2 ^ 32)
    if a = 0 then pure i
    else do
      let buf ← kmalloc maxArgLen
      storeArgv argv i buf
      match ← Run.attempt (Copy.copyinstr userLoad kstore a buf maxArgLen) with
      | .error _ => Run.throw .EFAULT
      | .ok _ => copyinArgs args argv (i + 1) fuel

/-- The copy of the arguments after that of the path into `program`: `argv =
kmalloc(sizeof(char **))`, `copyin(args, argv, 4)`, whose failure frees both buffers and is
`EFAULT`, the loop, and `argv[i] = NULL`. `argv`, and the count of arguments. -/
def copyinArgv (program args : Nat) : M (Nat × Nat) := do
  let argv ← kmalloc 4
  match ← Run.attempt (Copy.copyin userLoad kstore args argv 4) with
  | .error _ => do
    kfree program
    kfree argv
    Run.throw .EFAULT
  | .ok () => do
    let i ← copyinArgs args argv 0 (2 ^ 30)
    storeArgv argv i 0
    pure (argv, i)

/-- From the destruction of the old address space to `load_elf`: `as_destroy` when there is one,
`as_create`, whose failure is `ENOMEM`, `as_activate`, and the load; the entry point. -/
def replaceSpace (f : Executable) : M Nat := Run.onFst do
  let old := (← Run.get).curspace
  -- `as_destroy(curthread->t_vmspace); curthread->t_vmspace = NULL;`
  if old ≠ 0 then Run.lift fun s => (s.asDestroy old).map fun s => { s with curspace := 0 }
  let as ← fun s : Vm => s.asCreate.map fun (as, s) => (.ok as, { s with curspace := as })
  if as = 0 then Run.throw .ENOMEM
  else do
    Run.modify Vm.asActivate
    Vm.loadElf f

/-- From `as_define_stack`, which gives `USERSTACK`, to `md_usermode`: the first `narg = i - 1`
strings go below the stack top in blocks of `1 + strlen` rounded up to 8, each user address
replacing the kernel one in `argv`; then `argv[i] = NULL`, and `(narg + 1) * 4` bytes of `argv`
go below them, with what `copyout` returns dropped. The stack pointer. -/
def copyoutArgs (argv i : Nat) : M Nat := do
  let stackptr ← (List.range (i - 1)).foldlM (fun stackptr j => do
      let a ← kloadWord (argv + 4 * j)
      let str ← kstring a maxArgLen
      let len := roundup (1 + str.length) 8
      let stackptr := stackptr - len
      let _ ← Copy.copyoutstr kload userStore a stackptr len
      storeArgv argv j stackptr
      pure stackptr) userstack
  storeArgv argv i 0
  let stackptr := stackptr - roundup (i * 4) 8
  let _ ← Run.attempt (Copy.copyout kload userStore argv stackptr (i * 4))
  pure stackptr

/-- `sys_execv(prog_path, args)`, with `vfsOpen` what `vfs_open` gives for a path. It ends in
`md_usermode`, or returns an error. (`Os161.sysExecv` of `Exec.Args` is its part from
`as_define_stack` on, over a memory that does not fault.) -/
def sysExecv (vfsOpen : List UInt8 → Except Errno Executable) (progPath args : Nat) : M Entry := do
  let _spl ← splhigh
  if progPath = 0 then Run.throw .EINVAL
  else do
    let program ← copyinPath progPath
    let (argv, i) ← copyinArgv program args
    let path ← kstring program maxPathLen
    let f ← Run.ofExcept (vfsOpen path)
    let entry ← replaceSpace f
    let stackptr ← copyoutArgs argv i
    pure ⟨i, stackptr, stackptr, entry⟩

/-- `mips_syscall` on `SYS_execv`: `assert(curspl == 0)`, the call with `a0` and `a1`, and after an
error the trapframe written back and `assert(curspl == 0)` again. A call that succeeds does not
come back. -/
def mipsSyscallExecv (vfsOpen : List UInt8 → Except Errno Executable) (tf : Trapframe)
    (p : Vm × Kstate) : Option ((Trapframe ⊕ Entry) × (Vm × Kstate)) :=
  if p.2.curspl ≠ 0 then none
  else
    match sysExecv vfsOpen tf.tfA0 tf.tfA1 p with
    | none => none
    | some (.ok entry, p') => some (.inr entry, p')
    | some (.error e, p') =>
      if p'.2.curspl ≠ 0 then none else some (.inl (syscallReturn tf e.code 0), p')

/-! ### The level `sys_execv` leaves -/

/-- `p'` is at the level of `p`. -/
def KeepsSpl (p p' : Vm × Kstate) : Prop := p'.2.curspl = p.2.curspl

namespace KeepsSpl

theorem refl (p : Vm × Kstate) : KeepsSpl p p := rfl

theorem trans {p₁ p₂ p₃ : Vm × Kstate} (h₁ : KeepsSpl p₁ p₂) (h₂ : KeepsSpl p₂ p₃) :
    KeepsSpl p₁ p₃ :=
  Eq.trans h₂ h₁

theorem onFst {α : Type} (x : Run Vm Errno α) : Run.Rel KeepsSpl (Run.onFst x : M α) :=
  Run.Rel.mono (fun _ _ h => congrArg Kstate.curspl h) (Run.Rel.onFst_snd x)

end KeepsSpl

theorem keepsSpl_kmalloc (sz : Nat) : Run.Rel KeepsSpl (kmalloc sz) := by
  rintro p r p' h
  cases h
  rfl

theorem keepsSpl_kfree (ptr : Nat) : Run.Rel KeepsSpl (kfree ptr) :=
  Run.Rel.modify fun _ => rfl

theorem keepsSpl_kload (a : Nat) : Run.Rel KeepsSpl (kload a) := by
  rintro p r p' h
  cases h
  rfl

theorem keepsSpl_kstore (a : Nat) (b : UInt8) : Run.Rel KeepsSpl (kstore a b) :=
  Run.Rel.modify fun _ => rfl

theorem keepsSpl_kloadWord (a : Nat) : Run.Rel KeepsSpl (kloadWord a) := by
  rintro p r p' h
  cases h
  rfl

theorem keepsSpl_storeArgv (argv i w : Nat) : Run.Rel KeepsSpl (storeArgv argv i w) := by
  unfold storeArgv
  split_ifs
  · exact Run.Rel.modify fun _ => rfl
  · exact Run.Rel.fail

theorem keepsSpl_loadUserWord (va : Nat) : Run.Rel KeepsSpl (loadUserWord va) := by
  rintro p r p' h
  unfold loadUserWord at h
  split_ifs at h
  obtain ⟨⟨b0, s₀⟩, -, h⟩ := Option.bind_eq_some_iff.1 h
  obtain ⟨⟨b1, s₁⟩, -, h⟩ := Option.bind_eq_some_iff.1 h
  obtain ⟨⟨b2, s₂⟩, -, h⟩ := Option.bind_eq_some_iff.1 h
  obtain ⟨⟨b3, s₃⟩, -, h⟩ := Option.bind_eq_some_iff.1 h
  cases h
  rfl

theorem keepsSpl_kstring (a n : Nat) : Run.Rel KeepsSpl (kstring a n) := by
  rintro p r p' h
  obtain ⟨k, -, h⟩ := Option.map_eq_some_iff.1 h
  cases h
  rfl

theorem keepsSpl_copyinstr (usersrc dest len : Nat) :
    Run.Rel KeepsSpl (Copy.copyinstr userLoad kstore usersrc dest len) :=
  Copy.rel_copyinstr KeepsSpl.refl @KeepsSpl.trans (fun _ => KeepsSpl.onFst _) keepsSpl_kstore _ _ _

theorem keepsSpl_copyinPath (progPath : Nat) : Run.Rel KeepsSpl (copyinPath progPath) := by
  refine Run.Rel.bind @KeepsSpl.trans (keepsSpl_kmalloc _) fun program => ?_
  refine Run.Rel.bind @KeepsSpl.trans (Run.Rel.attempt (keepsSpl_copyinstr _ _ _)) fun r => ?_
  rcases r with e | n
  · exact Run.Rel.bind @KeepsSpl.trans (keepsSpl_kfree _) fun _ => Run.Rel.throw KeepsSpl.refl _
  · exact Run.Rel.pure KeepsSpl.refl _

theorem keepsSpl_copyinArgs (args argv : Nat) :
    ∀ i fuel, Run.Rel KeepsSpl (copyinArgs args argv i fuel)
  | _, 0 => Run.Rel.fail
  | i, fuel + 1 => by
    refine Run.Rel.bind @KeepsSpl.trans (keepsSpl_loadUserWord _) fun a => ?_
    split_ifs
    · exact Run.Rel.pure KeepsSpl.refl _
    refine Run.Rel.bind @KeepsSpl.trans (keepsSpl_kmalloc _) fun buf => ?_
    refine Run.Rel.bind @KeepsSpl.trans (keepsSpl_storeArgv _ _ _) fun _ => ?_
    refine Run.Rel.bind @KeepsSpl.trans (Run.Rel.attempt (keepsSpl_copyinstr _ _ _)) fun r => ?_
    rcases r with e | n
    · exact Run.Rel.throw KeepsSpl.refl _
    · exact keepsSpl_copyinArgs args argv (i + 1) fuel

theorem keepsSpl_copyinArgv (program args : Nat) : Run.Rel KeepsSpl (copyinArgv program args) := by
  refine Run.Rel.bind @KeepsSpl.trans (keepsSpl_kmalloc _) fun argv => ?_
  refine Run.Rel.bind @KeepsSpl.trans (Run.Rel.attempt (Copy.rel_copyin KeepsSpl.refl
    @KeepsSpl.trans (fun _ => KeepsSpl.onFst _) keepsSpl_kstore _ _ _)) fun r => ?_
  rcases r with e | u
  · exact Run.Rel.bind @KeepsSpl.trans (keepsSpl_kfree _) fun _ =>
      Run.Rel.bind @KeepsSpl.trans (keepsSpl_kfree _) fun _ => Run.Rel.throw KeepsSpl.refl _
  · exact Run.Rel.bind @KeepsSpl.trans (keepsSpl_copyinArgs _ _ _ _) fun i =>
      Run.Rel.bind @KeepsSpl.trans (keepsSpl_storeArgv _ _ _) fun _ => Run.Rel.pure KeepsSpl.refl _

theorem keepsSpl_copyoutArgs (argv i : Nat) : Run.Rel KeepsSpl (copyoutArgs argv i) := by
  have hround : ∀ stackptr j, Run.Rel KeepsSpl (do
      let a ← kloadWord (argv + 4 * j)
      let str ← kstring a maxArgLen
      let len := roundup (1 + str.length) 8
      let stackptr := stackptr - len
      let _ ← Copy.copyoutstr kload userStore a stackptr len
      storeArgv argv j stackptr
      pure stackptr) := fun stackptr j =>
    Run.Rel.bind @KeepsSpl.trans (keepsSpl_kloadWord _) fun a =>
      Run.Rel.bind @KeepsSpl.trans (keepsSpl_kstring _ _) fun str =>
        Run.Rel.bind @KeepsSpl.trans (Copy.rel_copyoutstr KeepsSpl.refl @KeepsSpl.trans
          keepsSpl_kload (fun _ _ => KeepsSpl.onFst _) _ _ _) fun _ =>
          Run.Rel.bind @KeepsSpl.trans (keepsSpl_storeArgv _ _ _) fun _ => Run.Rel.pure KeepsSpl.refl _
  refine Run.Rel.bind @KeepsSpl.trans (Run.Rel.foldlM KeepsSpl.refl @KeepsSpl.trans hround _ _)
    fun stackptr => ?_
  refine Run.Rel.bind @KeepsSpl.trans (keepsSpl_storeArgv _ _ _) fun _ => ?_
  exact Run.Rel.bind @KeepsSpl.trans (Run.Rel.attempt (Copy.rel_copyout KeepsSpl.refl
    @KeepsSpl.trans keepsSpl_kload (fun _ _ => KeepsSpl.onFst _) _ _ _)) fun _ => Run.Rel.pure KeepsSpl.refl _

/-- `sys_execv` never lowers the level `splhigh` raised: it ends at `SPL_HIGH` on every path. -/
theorem curspl_sysExecv {vfsOpen : List UInt8 → Except Errno Executable} {progPath args : Nat}
    {p p' : Vm × Kstate} {r : Except Errno Entry} (h : sysExecv vfsOpen progPath args p = some (r, p')) :
    p'.2.curspl = splHigh := by
  unfold sysExecv at h
  rw [Run.bind_of_ok (rfl : splhigh p = some (.ok p.2.curspl, (p.1, { p.2 with curspl := splHigh })))] at h
  refine (?_ : Run.Rel KeepsSpl _) _ _ _ h
  split_ifs
  · exact Run.Rel.throw KeepsSpl.refl _
  refine Run.Rel.bind @KeepsSpl.trans (keepsSpl_copyinPath _) fun program => ?_
  refine Run.Rel.bind @KeepsSpl.trans (keepsSpl_copyinArgv _ _) fun ⟨argv, i⟩ => ?_
  refine Run.Rel.bind @KeepsSpl.trans (keepsSpl_kstring _ _) fun path => ?_
  refine Run.Rel.bind @KeepsSpl.trans (Run.Rel.ofExcept KeepsSpl.refl _) fun f => ?_
  refine Run.Rel.bind @KeepsSpl.trans (KeepsSpl.onFst _) fun entry => ?_
  exact Run.Rel.bind @KeepsSpl.trans (keepsSpl_copyoutArgs _ _) fun _ => Run.Rel.pure KeepsSpl.refl _

/-- So `mips_syscall` never hands an error of `sys_execv` back to the user: its
`assert(curspl == 0)` after the call fails first. -/
theorem mipsSyscallExecv_of_error {vfsOpen : List UInt8 → Except Errno Executable} {tf : Trapframe}
    {p p' : Vm × Kstate} {e : Errno} (h : sysExecv vfsOpen tf.tfA0 tf.tfA1 p = some (.error e, p')) :
    mipsSyscallExecv vfsOpen tf p = none := by
  unfold mipsSyscallExecv
  split_ifs
  · rfl
  rw [h]
  dsimp only
  rw [if_pos (by rw [curspl_sysExecv h]; decide)]

theorem sysExecv_null (vfsOpen : List UInt8 → Except Errno Executable) (args : Nat)
    (p : Vm × Kstate) :
    sysExecv vfsOpen 0 args p = some (.error .EINVAL, (p.1, { p.2 with curspl := splHigh })) := rfl

/-- A process on `forkBoot` with a text region and, on its stack page, the path `"/x"` at
`0x7ffff000` and the array `{0x7ffff000, NULL}` at `0x7ffff010`. -/
def execvPrefix : List VmOp :=
  Vm.faultPrefix ++ [.defineRegion 0x400000 0x1000 4 0 1, .store 0x7ffff000 0x2f,
    .store 0x7ffff001 0x78, .store 0x7ffff010 0x7f, .store 0x7ffff011 0xff, .store 0x7ffff012 0xf0]

/-- The kernel's side when the call comes in: level `0`, and the subpage allocator at
`0x80100000`. -/
def execvKstate : Kstate := ⟨0, [], 0x80100000, fun _ => 0⟩

/-- A file system in which every file is too short to hold an ELF header. -/
def notElfOpen : List UInt8 → Except Errno Executable :=
  fun _ => .ok ⟨.ok none, fun _ => .ok none, fun _ _ => ([], none)⟩

/-- `execv("/x", {"/x", NULL})` of a file that is not an executable: `load_elf` refuses it after the
caller's address space was destroyed, and `sys_execv` returns `ENOEXEC` with the caller's text region
gone, in its place an empty address space, the three buffers of the path, `argv` and `"/x"` still
allocated, and `curspl` at `SPL_HIGH`; so `mips_syscall` panics instead of returning the error. -/
theorem execv_failure_panics :
    ∃ s p', forkBoot.bind (·.exec execvPrefix) = some s ∧
      sysExecv notElfOpen 0x7ffff000 0x7ffff010 (s, execvKstate) = some (.error .ENOEXEC, p') ∧
      (s.space s.curspace).map Addrspace.asRegions = some [⟨0x400000, 1, 5⟩] ∧
      p'.1.curspace = s.curspace ∧ (p'.1.space p'.1.curspace).map Addrspace.asRegions = some [] ∧
      p'.2.curspl = splHigh ∧ p'.2.live = [0x80100090, 0x80100080, 0x80100000] ∧
      ∀ tf : Trapframe, tf.tfA0 = 0x7ffff000 → tf.tfA1 = 0x7ffff010 →
        mipsSyscallExecv notElfOpen tf (s, execvKstate) = none := by
  have hs : (forkBoot.bind (·.exec execvPrefix)).map
      (fun s => ((s.space s.curspace).map Addrspace.asRegions, s.curspace)) =
      some (some [⟨0x400000, 1, 5⟩], 0x80041000) := by
    decide +kernel
  have hrun : ((forkBoot.bind (·.exec execvPrefix)).bind fun s =>
      sysExecv notElfOpen 0x7ffff000 0x7ffff010 (s, execvKstate)).map
      (fun q => (q.1, q.2.1.curspace, (q.2.1.space q.2.1.curspace).map Addrspace.asRegions,
        q.2.2.curspl, q.2.2.live)) =
      some (.error .ENOEXEC, 0x80041000, some [], splHigh, [0x80100090, 0x80100080, 0x80100000]) := by
    decide +kernel
  obtain ⟨s, hs₀, hobs⟩ := Option.map_eq_some_iff.1 hs
  simp only [Prod.mk.injEq] at hobs
  obtain ⟨hregs, hcur⟩ := hobs
  rw [hs₀, Option.bind_some] at hrun
  obtain ⟨⟨r, p'⟩, hp, hobs⟩ := Option.map_eq_some_iff.1 hrun
  simp only [Prod.mk.injEq] at hobs
  obtain ⟨rfl, hcur', hregs', hspl, hlive⟩ := hobs
  refine ⟨s, p', hs₀, hp, hregs, hcur'.trans hcur.symm, hregs', hspl, hlive, fun tf ha0 ha1 => ?_⟩
  rw [← ha0, ← ha1] at hp
  exact mipsSyscallExecv_of_error hp

end Execv

end Os161
