import Os161.Thread.Basic
import Os161.Lib.ByteMem

/-!
# Passing arguments to a new user program

The part of `sys_execv` (`syscall.c`) and of `runprogram_exev` (`runprogram.c`) that runs after
`as_define_stack` has set the stack pointer to `USERSTACK`: every argument string is copied
below it with `copyoutstr`, the array of their user addresses below them with `copyout`, and
`md_usermode` is called with `argc`, `argv` and the stack pointer. The copies go through
`copycheck` and `copystr` of `copyinout.c`.

User memory is a function from addresses to bytes. The MIPS that OS/161 runs on is big-endian,
so `copyout` of a pointer array stores each pointer most significant byte first.
-/

namespace Os161

open ByteMem

/-- `USERTOP`, `MIPS_KSEG0`: the end of user space. -/
def usertop : Nat := kseg0

/-- `USERSTACK`: the initial user stack pointer. -/
def userstack : Nat := usertop

/-- `MAX_ARG_LEN` of `thread.h`. -/
def maxArgLen : Nat := 256

/-- `MAX_ARGC` of `thread.h`. -/
def maxArgc : Nat := 16

/-- `MAX_STACK_PAGES` of `addrspace.h`. -/
def maxStackPages : Nat := 24

/-- `PAGE_SIZE`. -/
def pageSize : Nat := 4096

/-- `ROUNDUP` of `lib.h`. -/
def roundup (a b : Nat) : Nat := (a + b - 1) / b * b

/-- `copycheck`: `EFAULT` for a block that wraps around or starts in the kernel, else how many
of its `len` bytes lie below `USERTOP` (`stoplen`). `vaddr_t` arithmetic is 32-bit. -/
def copycheck (userptr len : Nat) : Except Errno Nat :=
  let bot := userptr
  let top := (bot + len + (2 ^ 32 - 1)) % 2 ^ 32
  if top < bot then .error .EFAULT
  else if usertop ≤ bot then .error .EFAULT
  else if usertop ≤ top then .ok (usertop - bot)
  else .ok len

/-- `copystr` copying `src` to `dest`: the loop copies byte after byte and returns after the NUL,
unless it has copied `maxlen` or `stoplen` bytes first. -/
def copystr (m : Nat → UInt8) (dest : Nat) (src : CStr) (maxlen stoplen : Nat) :
    Except Errno (Nat → UInt8) :=
  if src.length + 1 ≤ maxlen ∧ src.length + 1 ≤ stoplen then .ok (store m dest (src.bytes ++ [0]))
  else if stoplen < maxlen then .error .EFAULT
  else .error .ENAMETOOLONG

/-- `copyoutstr`. -/
def copyoutstr (m : Nat → UInt8) (src : CStr) (userdest len : Nat) : Except Errno (Nat → UInt8) := do
  let stoplen ← copycheck userdest len
  copystr m userdest src len stoplen

/-- `copyout` of the first `len` bytes of an array of 32-bit words. -/
def copyout (m : Nat → UInt8) (src : List Nat) (userdest len : Nat) : Except Errno (Nat → UInt8) := do
  let stoplen ← copycheck userdest len
  if stoplen ≠ len then .error .EFAULT
  else .ok (store m userdest ((src.flatMap wordBytes).take len))

/-- The loop that copies the argument strings down from `stackptr`: each goes into a block of
`blockLen strlen` bytes just below the one before, and its user address replaces the kernel one
in the pointer array. -/
def copyArgs (blockLen : Nat → Nat) (m : Nat → UInt8) (stackptr : Nat) :
    List CStr → Except Errno (Nat × (Nat → UInt8) × List Nat)
  | [] => .ok (stackptr, m, [])
  | s :: ss => do
    let len := blockLen s.length
    let stackptr := stackptr - len
    let m ← copyoutstr m s stackptr len
    let (sp, m, ptrs) ← copyArgs blockLen m stackptr ss
    .ok (sp, m, stackptr :: ptrs)

/-- What `md_usermode` is called with, and the user memory then. -/
structure Usermode where
  argc : Nat
  argv : Nat
  stack : Nat
  mem : Nat → UInt8

/-- `runprogram_exev(progname, args, nargs)` from `as_define_stack` on: the strings are copied in
blocks of `1 + strlen` bytes, `args[narg] = NULL` closes the array, and the stack pointer is
aligned down to 8 below it. -/
def runprogramExev (args : List CStr) (m : Nat → UInt8) : Except Errno Usermode := do
  let (stackptr, m, ptrs) ← copyArgs (fun l => 1 + l) m userstack args
  let argSize := (args.length + 1) * 4
  let stackptr := stackptr - argSize
  let stackptr := stackptr - stackptr % 8
  -- the result of this `copyout` is not checked
  let m := match copyout m (ptrs ++ [0]) stackptr argSize with
    | .ok m' => m'
    | .error _ => m
  .ok ⟨args.length, stackptr, stackptr, m⟩

/-- `sys_execv(prog_path, args)` from `as_define_stack` on. `args` are the `i` strings its first
loop read, each into a `kmalloc`ed buffer `kbufs[j]` that `argv[j]` points to, with
`argv[i] = NULL`. The copy loop runs for `narg = i - 1` strings in blocks rounded up to 8, and
`copyout` writes `(narg + 1) * 4` bytes of `argv`. -/
def sysExecv (args : List CStr) (kbufs : List Nat) (m : Nat → UInt8) : Except Errno Usermode := do
  let i := args.length
  -- for `i = 0`, `narg` is `-1` in C and the loop does not run either
  let narg := i - 1
  let (stackptr, m, ptrs) ← copyArgs (fun l => roundup (1 + l) 8) m userstack (args.take narg)
  -- `argv[j]` for `j ≥ narg` still holds what the first loop put there
  let argv := ptrs ++ (kbufs ++ [0]).drop narg
  -- `narg + 1 = i`
  let argSize := roundup (i * 4) 8
  let stackptr := stackptr - argSize
  let m := match copyout m argv stackptr (i * 4) with
    | .ok m' => m'
    | .error _ => m
  .ok ⟨i, stackptr, stackptr, m⟩

end Os161
