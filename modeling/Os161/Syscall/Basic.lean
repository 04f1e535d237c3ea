import Os161.Vm.Addrspace

/-!
# The system call layer

`mips_syscall` of `syscall.c` hands a call its arguments from the trapframe and writes back what
the call returns: an error number in `v0` with `a3 = 1`, or the result in `v0` with `a3 = 0`; then
it moves `epc` past the `syscall` instruction. Here are the trapframe, that convention, the
numbers of `kern/errno.h`, and what `sys_sbrk` (`Vm.sysSbrk`, beside the VM operations) returns.

`sys_sbrk` adds a signed increment to the unsigned `heap_end`, so its sum is taken modulo `2 ^ 32`.
For a heap within its bounds and a 32-bit increment, the wrapped sum is the sum over the integers
whenever that is not negative, and is at least `2 ^ 31` when it is (`heapEnd_add_wrap`); so the
two tests of `sys_sbrk` decide as they would over the integers, although a too negative increment
fails with `ENOMEM` rather than `EINVAL` (`sbrk_exact`).
-/

namespace Os161

/-- `struct trapframe`: the registers `exception.S` saves, each a 32-bit word. -/
structure Trapframe where
  tfVaddr : Nat
  tfStatus : Nat
  tfCause : Nat
  tfLo : Nat
  tfHi : Nat
  tfRa : Nat
  tfAt : Nat
  tfV0 : Nat
  tfV1 : Nat
  tfA0 : Nat
  tfA1 : Nat
  tfA2 : Nat
  tfA3 : Nat
  tfT0 : Nat
  tfT1 : Nat
  tfT2 : Nat
  tfT3 : Nat
  tfT4 : Nat
  tfT5 : Nat
  tfT6 : Nat
  tfT7 : Nat
  tfS0 : Nat
  tfS1 : Nat
  tfS2 : Nat
  tfS3 : Nat
  tfS4 : Nat
  tfS5 : Nat
  tfS6 : Nat
  tfS7 : Nat
  tfT8 : Nat
  tfT9 : Nat
  tfK0 : Nat
  tfK1 : Nat
  tfGp : Nat
  tfSp : Nat
  tfS8 : Nat
  tfEpc : Nat
  deriving DecidableEq, Repr

/-- The number `kern/errno.h` gives an error. -/
def Errno.code : Errno → Nat
  | .EINVAL => 1
  | .EFAULT => 2
  | .ENAMETOOLONG => 3
  | .ENOMEM => 4
  | Errno.EIO => 5
  | .ENOENT => 6
  | .ENOTDIR => 7
  | .EISDIR => 8
  | .EEXIST => 9
  | .EAGAIN => 11
  | Errno.ENXIO => 14
  | .ENODEV => 15
  | .EBUSY => 16
  | .ENOSPC => 20
  | .ENOEXEC => 24

/-- The largest number `kern/errno.h` defines (`EBADF`). -/
def errnoMax : Nat := 26

theorem Errno.code_pos (e : Errno) : 0 < e.code ∧ e.code ≤ errnoMax := by
  cases e <;> decide

/-- The end of `mips_syscall`, for a call that returned `err` with `*retval = retval`. -/
def syscallReturn (tf : Trapframe) (err retval : Int) : Trapframe :=
  if err ≠ 0 then { tf with tfV0 := (err % 2 ^ 32).toNat, tfA3 := 1, tfEpc := (tf.tfEpc + 4) % 2 ^ 32 }
  else { tf with tfV0 := (retval % 2 ^ 32).toNat, tfA3 := 0, tfEpc := (tf.tfEpc + 4) % 2 ^ 32 }

namespace Vm

/-- `sbrk` with each increment in turn, from `s`; `none` if one of them panics. -/
def sbrkRun (s : Vm) : List Int → Option Vm
  | [] => some s
  | incr :: incrs => (s.sysSbrk incr).bind fun (_, s') => s'.sbrkRun incrs

end Vm

/-- A heap within the bounds `sys_sbrk` checks: it starts at or below its end, and ends below the
24 pages under `USERSTACK`. -/
structure HeapOk (a : Addrspace) : Prop where
  start_le : a.heapStart ≤ a.heapEnd
  end_lt : a.heapEnd < userstack - 24 * 4096

/-- A 32-bit `int`. -/
def IsInt32 (x : Int) : Prop := -2 ^ 31 ≤ x ∧ x < 2 ^ 31

instance (x : Int) : Decidable (IsInt32 x) := inferInstanceAs (Decidable (_ ∧ _))

/-- `heap_end + incr` modulo `2 ^ 32`, for `heap_end` below `2 ^ 31` and a 32-bit `incr`: the sum
itself when it is not negative, `2 ^ 32` more when it is. -/
theorem heapEnd_add_wrap {h : Nat} {incr : Int} (hh : h < 2 ^ 31) (hi : IsInt32 incr) :
    ((((h : Int) + incr) % 2 ^ 32).toNat : Int) =
      if 0 ≤ (h : Int) + incr then h + incr else h + incr + 2 ^ 32 := by
  obtain ⟨h1, h2⟩ := hi
  split_ifs with hpos
  · rw [Int.emod_eq_of_lt hpos (by omega)]
    omega
  · have : ((h : Int) + incr) % 2 ^ 32 = h + incr + 2 ^ 32 := by
      rw [← Int.add_emod_right, Int.emod_eq_of_lt (by omega) (by omega)]
    omega

namespace Vm

variable {s : Vm} {a : Addrspace} {incr : Int}

theorem sysSbrk_of_fits (ha : s.space s.curspace = some a) (hok : HeapOk a) (hi : IsInt32 incr)
    (hfit : a.heapStart ≤ a.heapEnd + incr ∧ a.heapEnd + incr < userstack - 24 * 4096) :
    s.sysSbrk incr =
      some (.ok a.heapEnd, s.setSpace s.curspace { a with heapEnd := (a.heapEnd + incr).toNat }) := by
  have hw := heapEnd_add_wrap (lt_trans hok.end_lt (by decide)) hi
  have hpos : 0 ≤ (a.heapEnd : Int) + incr := by omega
  rw [if_pos hpos] at hw
  have htop : ((a.heapEnd + incr) % 2 ^ 32).toNat = (a.heapEnd + incr).toNat := by omega
  have h1 : ¬ ((a.heapEnd + incr) % 2 ^ 32).toNat < a.heapStart := by omega
  have h2 : ¬ userstack - 24 * 4096 ≤ ((a.heapEnd + incr) % 2 ^ 32).toNat := by
    simp only [userstack, usertop, kseg0] at hfit ⊢
    omega
  simp only [sysSbrk, ha, bind, Option.bind_some]
  rw [if_neg h1, if_neg h2, htop]

/-- A call whose new end would not fit changes nothing. The error is `EINVAL` when the sum is a
number below `heap_start`, and `ENOMEM` otherwise, also when the sum is negative. -/
theorem sysSbrk_of_not_fits (ha : s.space s.curspace = some a) (hok : HeapOk a) (hi : IsInt32 incr)
    (hfit : ¬ (a.heapStart ≤ a.heapEnd + incr ∧ a.heapEnd + incr < userstack - 24 * 4096)) :
    s.sysSbrk incr = some (.error (if 0 ≤ (a.heapEnd : Int) + incr ∧ a.heapEnd + incr < a.heapStart
      then .EINVAL else .ENOMEM), s) := by
  have hw := heapEnd_add_wrap (lt_trans hok.end_lt (by decide)) hi
  have hlim : userstack - 24 * 4096 = 2147385344 := by decide
  have hlimI : (userstack : Int) - 24 * 4096 = 2147385344 := by norm_num [userstack, usertop, kseg0]
  rw [hlimI] at hfit
  simp only [sysSbrk, ha, bind, Option.bind_some, hlim]
  by_cases hpos : 0 ≤ (a.heapEnd : Int) + incr
  · rw [if_pos hpos] at hw
    by_cases hlow : (a.heapEnd : Int) + incr < a.heapStart
    · rw [if_pos (by omega), if_pos ⟨hpos, hlow⟩]
    · rw [if_neg (by omega), if_pos (by omega), if_neg (by omega)]
  · -- a negative sum wraps to `2 ^ 31` or more, past both bounds
    rw [if_neg hpos] at hw
    have hlo : -2 ^ 31 ≤ incr := hi.1
    have hs : a.heapStart < 2147385344 := lt_of_le_of_lt hok.start_le (hlim ▸ hok.end_lt)
    rw [if_neg (by omega), if_pos (by omega), if_neg (by omega)]

end Vm

namespace HeapOk

variable {s : Vm} {a : Addrspace} {incr : Int}

theorem sysSbrk (ha : s.space s.curspace = some a) (hok : HeapOk a) (hi : IsInt32 incr) :
    ∃ r s' a', s.sysSbrk incr = some (r, s') ∧ s'.space s'.curspace = some a' ∧ HeapOk a' ∧
      a'.heapStart = a.heapStart := by
  by_cases hfit : a.heapStart ≤ a.heapEnd + incr ∧ a.heapEnd + incr < userstack - 24 * 4096
  · refine ⟨_, _, { a with heapEnd := (a.heapEnd + incr).toNat }, Vm.sysSbrk_of_fits ha hok hi hfit,
      by simp, ⟨?_, ?_⟩, rfl⟩ <;> dsimp only <;> omega
  · exact ⟨_, _, a, Vm.sysSbrk_of_not_fits ha hok hi hfit, ha, hok, rfl⟩

theorem sbrkRun (ha : s.space s.curspace = some a) (hok : HeapOk a) (incrs : List Int)
    (hi : ∀ incr ∈ incrs, IsInt32 incr) :
    ∃ s' a', s.sbrkRun incrs = some s' ∧ s'.space s'.curspace = some a' ∧ HeapOk a' ∧
      a'.heapStart = a.heapStart := by
  induction incrs generalizing s a with
  | nil => exact ⟨s, a, rfl, ha, hok, rfl⟩
  | cons incr incrs ih =>
    obtain ⟨r, s₁, a₁, h₁, ha₁, hok₁, hs₁⟩ := hok.sysSbrk ha (hi incr List.mem_cons_self)
    obtain ⟨s', a', h', ha', hok', hs'⟩ := ih ha₁ hok₁ fun i hmem => hi i (List.mem_cons_of_mem _ hmem)
    refine ⟨s', a', ?_, ha', hok', hs'.trans hs₁⟩
    rw [Vm.sbrkRun, h₁, Option.bind_some]
    exact h'

end HeapOk

/-- `sys_sbrk` on a heap within its bounds and a 32-bit increment succeeds exactly when
`heap_start ≤ heap_end + incr < USERSTACK - 24 * 4096` over the integers, returning the old end
and moving it by `incr`; otherwise it fails and changes nothing. Any sequence of calls keeps the
heap within its bounds, below the stack pages `vm_fault` accepts. -/
theorem sbrk_exact {s : Vm} {a : Addrspace} (ha : s.space s.curspace = some a) (hok : HeapOk a)
    {incr : Int} (hi : IsInt32 incr) :
    ((a.heapStart ≤ a.heapEnd + incr ∧ a.heapEnd + incr < userstack - 24 * 4096) →
      s.sysSbrk incr =
        some (.ok a.heapEnd, s.setSpace s.curspace { a with heapEnd := (a.heapEnd + incr).toNat })) ∧
    (¬ (a.heapStart ≤ a.heapEnd + incr ∧ a.heapEnd + incr < userstack - 24 * 4096) →
      ∃ e, (e = .EINVAL ∨ e = .ENOMEM) ∧ s.sysSbrk incr = some (.error e, s)) ∧
    (∀ incrs : List Int, (∀ i ∈ incrs, IsInt32 i) →
      ∃ s' a', s.sbrkRun incrs = some s' ∧ s'.space s'.curspace = some a' ∧ HeapOk a' ∧
        a'.heapStart = a.heapStart ∧ ∀ va, va < a'.heapEnd → va < userstack - maxStackPages * pageSize) := by
  refine ⟨Vm.sysSbrk_of_fits ha hok hi, fun hfit => ⟨_, ?_, Vm.sysSbrk_of_not_fits ha hok hi hfit⟩,
    fun incrs hincrs => ?_⟩
  · split_ifs
    · exact .inl rfl
    · exact .inr rfl
  · obtain ⟨s', a', hrun, ha', hok', hs'⟩ := hok.sbrkRun ha incrs hincrs
    have hstack : userstack - maxStackPages * pageSize = userstack - 24 * 4096 := rfl
    exact ⟨s', a', hrun, ha', hok', hs', fun va hva => hstack ▸ lt_trans hva hok'.end_lt⟩

/-- An address space whose heap is empty at `0x10000000`, current in a machine with no frames. -/
def sbrkTestSpace : Addrspace := ⟨[], 0, 0, 0x10000000, 0x10000000, .empty⟩

/-- The machine of `sbrkTestSpace`. -/
def sbrkTestVm : Vm :=
  ⟨[], AList.insert 1 sbrkTestSpace ∅, .empty, [], fun _ => 0, fun _ => 0, [], 1, [], [], []⟩

theorem sbrk_exact_page :
    sbrkTestVm.space sbrkTestVm.curspace = some sbrkTestSpace ∧ HeapOk sbrkTestSpace ∧
      IsInt32 4096 ∧
      ((sbrkTestSpace.heapStart ≤ sbrkTestSpace.heapEnd + (4096 : Int) ∧
          sbrkTestSpace.heapEnd + (4096 : Int) < userstack - 24 * 4096) →
        sbrkTestVm.sysSbrk 4096 = some (.ok sbrkTestSpace.heapEnd, sbrkTestVm.setSpace
          sbrkTestVm.curspace { sbrkTestSpace with heapEnd := (sbrkTestSpace.heapEnd + 4096 : Int).toNat })) ∧
      (¬ (sbrkTestSpace.heapStart ≤ sbrkTestSpace.heapEnd + (4096 : Int) ∧
          sbrkTestSpace.heapEnd + (4096 : Int) < userstack - 24 * 4096) →
        ∃ e, (e = .EINVAL ∨ e = .ENOMEM) ∧ sbrkTestVm.sysSbrk 4096 = some (.error e, sbrkTestVm)) ∧
      (∀ incrs : List Int, (∀ i ∈ incrs, IsInt32 i) →
        ∃ s' a', sbrkTestVm.sbrkRun incrs = some s' ∧ s'.space s'.curspace = some a' ∧ HeapOk a' ∧
          a'.heapStart = sbrkTestSpace.heapStart ∧
          ∀ va, va < a'.heapEnd → va < userstack - maxStackPages * pageSize) := by
  have ha : sbrkTestVm.space sbrkTestVm.curspace = some sbrkTestSpace := rfl
  have hok : HeapOk sbrkTestSpace := ⟨le_rfl, by decide⟩
  have hi : IsInt32 4096 := by decide
  exact ⟨ha, hok, hi, sbrk_exact ha hok hi⟩

end Os161
