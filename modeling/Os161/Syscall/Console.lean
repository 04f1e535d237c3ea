import Os161.Syscall.Basic
import Os161.Exec.Copyinout

/-!
# The console calls `sys_read` and `sys_write`

`sys_write(fd, c, size, retval)` of `syscall.c` does not look at `fd`. A one-byte write reads
`*c` straight from the kernel, as any kernel pointer is read: an address in `KSEG0` or `KSEG1` is
physical memory, and one in user space goes through the TLB, where a fault `vm_fault` refuses
panics, since no `pcb_badfaultfunc` is set. It prints the byte unless it is a NUL and leaves
`*retval` at the `0` `mips_syscall` put there. A longer write `copyin`s into a `kmalloc`ed buffer,
drops `copyin`'s result, and prints the whole buffer, whatever the copy left in it. Neither path
returns an error (`sysWrite_err`), and a one-byte write from a kernel address prints kernel memory
(`sysWrite_kseg0`).

`sys_read(tf, retval)` returns `-1` for a zero count, a `NULL` buffer or a descriptor other than
`0`, which `mips_syscall` hands to the user as the error `0xffffffff` (`sysRead_bad_args`);
otherwise it takes a byte from the console and `copyout`s it.

`splhigh` and `splx` bracket `sys_write` and restore the level on both paths; they are left out.
-/

namespace Os161

/-- `MIPS_KSEG1`: the uncached direct map of physical memory. -/
def kseg1 : Nat := 0xa0000000

/-- `MIPS_KSEG2`: the kernel's mapped segment. -/
def kseg2 : Nat := 0xc0000000

/-- How a console call ends for `mips_syscall`: the value it returns (`0` for none), what it left
in `*retval`, the bytes it printed, the bytes it took from the console, and the memory after. -/
structure ConsoleResult where
  err : Int
  retval : Int
  output : List UInt8
  input : Nat
  vm : Vm

namespace Vm

/-- A kernel load of the byte at `va`: `KSEG0` and `KSEG1` are physical memory; `KUSEG` and
`KSEG2` go through the TLB, and a miss runs `vm_fault(VM_FAULT_READ)`. With no
`pcb_badfaultfunc`, a fault that `vm_fault` refuses is fatal in kernel mode: `mips_trap`
panics. -/
def kernelLoad (s : Vm) (va : Nat) : Option (UInt8 × Vm) :=
  if kseg0 ≤ va ∧ va < kseg1 then some (s.mem (va - kseg0), s)
  else if kseg1 ≤ va ∧ va < kseg2 then some (s.mem (va - kseg1), s)
  else
    match s.translate va with
    | some (pa, _) => some (s.mem pa, s)
    | none => do
      let (r, s) ← s.vmFault vmFaultRead va
      match r with
      | .error _ => none
      | .ok () => do
        let (pa, _) ← s.translate va
        some (s.mem pa, s)

/-- The user loads of a copy into a kernel buffer, with the buffer's bytes beside the memory. -/
def bufUserLoad (a : Nat) : Run (Vm × (Nat → UInt8)) Errno UInt8 :=
  Run.onFst fun s => s.userLoad a

/-- The kernel stores of a copy into the buffer, at offset `i` from its start. -/
def bufStore (i : Nat) (b : UInt8) : Run (Vm × (Nat → UInt8)) Errno Unit :=
  Run.modify fun p => (p.1, Function.update p.2 i b)

/-- `sys_write(fd, c, size, retval)`. `kbuf` is what `kmalloc(size + 1)` gives: the bytes its
block holds, or `none` for `NULL`, which the code then writes through (undefined). -/
def sysWrite (s : Vm) (_fd c size : Nat) (kbuf : Option (Nat → UInt8)) : Option ConsoleResult :=
  if size = 1 then do
    -- `buf[0] = *c`: the user's pointer dereferenced in the kernel
    let (b, s) ← s.kernelLoad c
    -- `kprintf("%s", buf)` stops at the NUL
    some ⟨0, 0, if b = 0 then [] else [b], 0, s⟩
  else do
    let kb ← kbuf
    -- the result of `copyin` is dropped; the buffer holds what the copy got to
    let (_, s, kb) ← Copy.copyin bufUserLoad bufStore c 0 size (s, kb)
    some ⟨0, size, (List.range size).map kb, 0, s⟩

/-- `sys_read(tf, retval)`, with `ch` the byte `getch` takes from the console. -/
def sysRead (s : Vm) (tf : Trapframe) (ch : UInt8) : Option ConsoleResult :=
  if tf.tfA2 = 0 ∨ tf.tfA1 = 0 ∨ tf.tfA0 ≠ 0 then some ⟨-1, 0, [], 0, s⟩
  else do
    -- `copyout(&kbuf, user_buf, 1)` from the local `kbuf`
    let (r, s) ← Copy.copyout (fun _ => pure ch) (fun a b s => s.userStore a b) 0 tf.tfA1 1 s
    match r with
    | .error e => some ⟨e.code, 0, [], 1, s⟩
    | .ok () => some ⟨0, 1, [], 1, s⟩

theorem kernelLoad_kseg0 (s : Vm) {va : Nat} (h1 : kseg0 ≤ va) (h2 : va < kseg1) :
    s.kernelLoad va = some (s.mem (va - kseg0), s) := by
  unfold kernelLoad
  rw [if_pos ⟨h1, h2⟩]

/-- Every `sys_write` that returns reports success. -/
theorem sysWrite_err {s : Vm} {fd c size : Nat} {kbuf : Option (Nat → UInt8)} {r : ConsoleResult}
    (h : s.sysWrite fd c size kbuf = some r) : r.err = 0 := by
  unfold sysWrite at h
  split_ifs at h
  · obtain ⟨⟨b, s'⟩, -, h⟩ := Option.bind_eq_some_iff.1 h
    cases h
    rfl
  · obtain ⟨kb, -, h⟩ := Option.bind_eq_some_iff.1 h
    obtain ⟨⟨_, s', kb'⟩, -, h⟩ := Option.bind_eq_some_iff.1 h
    cases h
    rfl

/-- A one-byte `sys_write` from a kernel address in `KSEG0` succeeds with `*retval = 0` and prints
the byte of physical memory there, when it is not a NUL. -/
theorem sysWrite_kseg0 (s : Vm) (fd : Nat) (kbuf : Option (Nat → UInt8)) {c : Nat}
    (h1 : kseg0 ≤ c) (h2 : c < kseg1) (hb : s.mem (c - kseg0) ≠ 0) :
    s.sysWrite fd c 1 kbuf = some ⟨0, 0, [s.mem (c - kseg0)], 0, s⟩ := by
  unfold sysWrite
  rw [if_pos rfl, kernelLoad_kseg0 s h1 h2]
  simp only [Option.bind_eq_bind, Option.bind_some, if_neg hb]

/-- `sys_read`'s refusals return `-1`, which reaches the user as the error `0xffffffff`: not a
number of `errno.h`. -/
theorem sysRead_bad_args (s : Vm) (tf : Trapframe) (ch : UInt8)
    (h : tf.tfA2 = 0 ∨ tf.tfA1 = 0 ∨ tf.tfA0 ≠ 0) :
    s.sysRead tf ch = some ⟨-1, 0, [], 0, s⟩ ∧
      (syscallReturn tf (-1) 0).tfV0 = 0xffffffff ∧ (syscallReturn tf (-1) 0).tfA3 = 1 ∧
      errnoMax < 0xffffffff := by
  refine ⟨if_pos h, ?_, ?_, by decide⟩
  · simp only [syscallReturn, if_pos (show (-1 : Int) ≠ 0 by decide)]
    rfl
  · simp only [syscallReturn, if_pos (show (-1 : Int) ≠ 0 by decide)]

end Vm

/-- `sbrkTestVm` with `'A'` in every byte of physical memory. -/
def consoleTestVm : Vm := { sbrkTestVm with mem := fun _ => 0x41 }

/-- Console calls on `consoleTestVm`. `write(1, (char *)0x80000000, 1)` prints the kernel's byte at
physical address `0` and returns `0` with `*retval = 0`; `write(1, (char *)0x1000, 1)`, from an
unmapped user page, panics; `write(1, (char *)0x1000, 2)` returns `0` with `*retval = 2` and prints
the two bytes of its `kmalloc`ed block that the failed `copyin` never wrote. A `read` on
descriptor `1` reaches the user as the error `0xffffffff`. -/
theorem console_calls_diverge :
    consoleTestVm.sysWrite 1 kseg0 1 none = some ⟨0, 0, [0x41], 0, consoleTestVm⟩ ∧
      (consoleTestVm.sysWrite 1 0x1000 1 none).isNone ∧
      (consoleTestVm.sysWrite 1 0x1000 2 (some fun _ => 0x42)).map
        (fun r => (r.err, r.retval, r.output)) = some (0, 2, [0x42, 0x42]) ∧
      ∀ tf : Trapframe, tf.tfA0 = 1 →
        consoleTestVm.sysRead tf 0x41 = some ⟨-1, 0, [], 0, consoleTestVm⟩ ∧
          (syscallReturn tf (-1) 0).tfV0 = 0xffffffff := by
  refine ⟨?_, rfl, rfl, fun tf ha0 => ?_⟩
  · have h := Vm.sysWrite_kseg0 consoleTestVm 1 none (c := kseg0) le_rfl (by decide) (by decide)
    rwa [Nat.sub_self] at h
  · obtain ⟨h, hv, -⟩ := Vm.sysRead_bad_args consoleTestVm tf 0x41 (Or.inr (Or.inr (by omega)))
    exact ⟨h, hv⟩

end Os161
