import Os161.Exec.Layout
import Os161.Lib.Run

/-!
# `copyinout.c` with faulting accesses

`Exec.Args` reads and writes user memory as a plain array. Here each access to a user address is
a computation of its own that may fault, as the kernel's are when a TLB miss runs `vm_fault`: a
load `ld a` or a store `st a b`. A fault resumes in `copyfail`, whose `longjmp` makes the copy
return `EFAULT` (`guarded`); the state is what the accesses before it left.

`copycheck` decides which block a copy may touch. Over 32-bit pointers and lengths it is
`copycheck_eq`: an empty block is refused unless it starts at `0`, a block that wraps past
`2 ^ 32` or starts in the kernel is refused, and any other is cut at `USERTOP`. Every copy then
touches only user addresses of its block (`copyin_congr` and its kin), and with accesses that do
not fault the string copies end as the two limits of `copystr` decide (`copyinstr_of_reads`,
`copyoutstr_of_stores`). A string copy whose block wraps is refused before it reads anything,
even when its string ends well inside user space (`copyinstr_wrap_rejects`).
-/

namespace Os161

/-- `copycheck` over 32-bit pointers and lengths. -/
theorem copycheck_eq {p len : Nat} (hp : p < 2 ^ 32) (hlen : len < 2 ^ 32) :
    copycheck p len =
      if len = 0 then (if p = 0 then .ok usertop else .error .EFAULT)
      else if usertop ≤ p ∨ 2 ^ 32 < p + len then .error .EFAULT
      else .ok (min len (usertop - p)) := by
  have hu : usertop = 2147483648 := rfl
  simp only [copycheck]
  by_cases h0 : len = 0
  · subst h0
    by_cases hp0 : p = 0
    · subst hp0
      rfl
    · have htop : (p + 0 + (2 ^ 32 - 1)) % 2 ^ 32 = p - 1 := by omega
      rw [htop, if_pos (by omega), if_pos rfl, if_neg hp0]
  · rw [if_neg h0]
    by_cases hw : 2 ^ 32 < p + len
    · have htop : (p + len + (2 ^ 32 - 1)) % 2 ^ 32 = p + len - 1 - 2 ^ 32 := by omega
      rw [htop, if_pos (by omega), if_pos (Or.inr hw)]
    · have htop : (p + len + (2 ^ 32 - 1)) % 2 ^ 32 = p + len - 1 := by omega
      rw [htop, if_neg (by omega)]
      by_cases hk : usertop ≤ p
      · rw [if_pos hk, if_pos (Or.inl hk)]
      · rw [if_neg hk, if_neg (show ¬ (usertop ≤ p ∨ 2 ^ 32 < p + len) by omega)]
        split_ifs with h
        · rw [Nat.min_eq_right (by omega)]
        · rw [Nat.min_eq_left (by omega)]

theorem copycheck_window {p len stoplen : Nat} (hp : p < 2 ^ 32) (hlen : len < 2 ^ 32)
    (h : copycheck p len = .ok stoplen) {j : Nat} (hj : j < min len stoplen) :
    p + j < p + len ∧ p + j < usertop := by
  rw [copycheck_eq hp hlen] at h
  split_ifs at h with h0 hp0 hk
  · omega
  · cases h
    constructor <;> omega

theorem copycheck_eq_ok_self {p len : Nat} (hp : p < 2 ^ 32) (hlen : len < 2 ^ 32) :
    copycheck p len = .ok len ↔ 1 ≤ len ∧ p + len ≤ usertop := by
  have hu : usertop = 2147483648 := rfl
  rw [copycheck_eq hp hlen]
  split_ifs with h0 hp0 hk
  · simp only [Except.ok.injEq]
    omega
  · simp only [false_iff]
    omega
  · simp only [false_iff]
    omega
  · simp only [Except.ok.injEq]
    omega

theorem copycheck_error {p len : Nat} {e : Errno} (h : copycheck p len = .error e) : e = .EFAULT := by
  simp only [copycheck] at h
  split_ifs at h <;> cases h <;> rfl

namespace Copy

variable {σ : Type}

/-- A user access made under `pcb_badfaultfunc = copyfail`: a fault ends the copy with
`EFAULT`. -/
def guarded {α : Type} (x : Run σ Errno α) : Run σ Errno α := fun s =>
  match x s with
  | some (.error _, s') => some (.error .EFAULT, s')
  | r => r

/-- `memcpy(dst, src, len)`, forwards a byte at a time. The C code moves whole words when both
pointers and `len` are word aligned; a fault still stops it at the same page boundary, since an
aligned word does not cross one. -/
def memcpy (ld : Nat → Run σ Errno UInt8) (st : Nat → UInt8 → Run σ Errno Unit)
    (dst src len : Nat) : Run σ Errno Unit :=
  (List.range len).forM fun i => do st (dst + i) (← ld (src + i))

/-- `copyin(usersrc, dest, len)`: the loads are from user space, the stores to the kernel. -/
def copyin (ld : Nat → Run σ Errno UInt8) (st : Nat → UInt8 → Run σ Errno Unit)
    (usersrc dest len : Nat) : Run σ Errno Unit := do
  let stoplen ← Run.ofExcept (copycheck usersrc len)
  if stoplen ≠ len then Run.throw .EFAULT
  else memcpy (fun a => guarded (ld a)) st dest usersrc len

/-- `copyout(src, userdest, len)`: the loads are from the kernel, the stores to user space. -/
def copyout (ld : Nat → Run σ Errno UInt8) (st : Nat → UInt8 → Run σ Errno Unit)
    (src userdest len : Nat) : Run σ Errno Unit := do
  let stoplen ← Run.ofExcept (copycheck userdest len)
  if stoplen ≠ len then Run.throw .EFAULT
  else memcpy ld (fun a b => guarded (st a b)) userdest src len

/-- The loop of `copystr` at index `i` with `n` rounds left before `maxlen` or `stoplen`: the
length with the NUL once one is copied, `none` when the rounds run out. The C text reads
`src[i]` a second time for its test; the byte is the same. -/
def copystrLoop (ld : Nat → Run σ Errno UInt8) (st : Nat → UInt8 → Run σ Errno Unit)
    (dest src : Nat) : Nat → Nat → Run σ Errno (Option Nat)
  | _, 0 => pure none
  | i, n + 1 => do
    let c ← ld (src + i)
    st (dest + i) c
    if c = 0 then pure (some (i + 1)) else copystrLoop ld st dest src (i + 1) n

/-- `copystr(dest, src, maxlen, stoplen, gotlen)`: `gotlen`, or `EFAULT` when the copy ran into
`stoplen` below `maxlen`, else `ENAMETOOLONG`. -/
def copystr (ld : Nat → Run σ Errno UInt8) (st : Nat → UInt8 → Run σ Errno Unit)
    (dest src maxlen stoplen : Nat) : Run σ Errno Nat := do
  match ← copystrLoop ld st dest src 0 (min maxlen stoplen) with
  | some gotlen => pure gotlen
  | none => if stoplen < maxlen then Run.throw .EFAULT else Run.throw .ENAMETOOLONG

/-- `copyinstr(usersrc, dest, len, actual)`: the loads are from user space. -/
def copyinstr (ld : Nat → Run σ Errno UInt8) (st : Nat → UInt8 → Run σ Errno Unit)
    (usersrc dest len : Nat) : Run σ Errno Nat := do
  let stoplen ← Run.ofExcept (copycheck usersrc len)
  copystr (fun a => guarded (ld a)) st dest usersrc len stoplen

/-- `copyoutstr(src, userdest, len, actual)`: the stores are to user space. -/
def copyoutstr (ld : Nat → Run σ Errno UInt8) (st : Nat → UInt8 → Run σ Errno Unit)
    (src userdest len : Nat) : Run σ Errno Nat := do
  let stoplen ← Run.ofExcept (copycheck userdest len)
  copystr ld (fun a b => guarded (st a b)) userdest src len stoplen

/-- `ld` loads the bytes of `m` and does not fault. -/
def Reads (ld : Nat → Run σ Errno UInt8) (m : Nat → UInt8) : Prop :=
  ∀ a s, ∃ s', ld a s = some (.ok (m a), s')

/-- `st` does not fault. -/
def Stores (st : Nat → UInt8 → Run σ Errno Unit) : Prop :=
  ∀ a b s, ∃ s', st a b s = some (.ok (), s')

/-- The first NUL among the `k` bytes of `m` from `a`. -/
def firstNul (m : Nat → UInt8) (a k : Nat) : Option Nat :=
  (List.range k).find? fun i => m (a + i) = 0

/-- How a string copy from the bytes of `m` at `src` into a block of `len` bytes at the user
address `p` ends, when no access faults and the block does not wrap. -/
def strResult (m : Nat → UInt8) (src p len : Nat) : Except Errno Nat :=
  if usertop ≤ p then .error .EFAULT
  else match firstNul m src (min len (usertop - p)) with
    | some n => .ok (n + 1)
    | none => .error (if usertop - p < len then .EFAULT else .ENAMETOOLONG)

variable {ld ld' : Nat → Run σ Errno UInt8} {st st' : Nat → UInt8 → Run σ Errno Unit}
  {m : Nat → UInt8}

theorem Reads.guarded (h : Reads ld m) : Reads (fun a => guarded (ld a)) m := by
  intro a s
  obtain ⟨s', hs⟩ := h a s
  exact ⟨s', by simp only [Copy.guarded, hs]⟩

theorem Stores.guarded (h : Stores st) : Stores (fun a b => guarded (st a b)) := by
  intro a b s
  obtain ⟨s', hs⟩ := h a b s
  exact ⟨s', by simp only [Copy.guarded, hs]⟩

/-! ### What a copy keeps

A relation that every access keeps, each copy keeps: the copies do nothing to the state but their
accesses. -/

section Rel

variable {R : σ → σ → Prop} (refl : ∀ s, R s s) (trans : ∀ {a b c}, R a b → R b c → R a c)
include refl trans

omit refl trans in
theorem rel_guarded {α : Type} {x : Run σ Errno α} (hx : Run.Rel R x) : Run.Rel R (guarded x) := by
  rintro s r s' h
  simp only [guarded] at h
  split at h
  · cases h
    exact hx s _ _ ‹_›
  · exact hx s _ _ h

theorem rel_memcpy (hld : ∀ a, Run.Rel R (ld a)) (hst : ∀ a b, Run.Rel R (st a b)) (dst src len : Nat) :
    Run.Rel R (memcpy ld st dst src len) :=
  Run.Rel.forM refl @trans (fun _ => Run.Rel.bind @trans (hld _) fun b => hst _ b) _

theorem rel_copyin (hld : ∀ a, Run.Rel R (ld a)) (hst : ∀ a b, Run.Rel R (st a b))
    (usersrc dest len : Nat) : Run.Rel R (copyin ld st usersrc dest len) := by
  refine Run.Rel.bind @trans (Run.Rel.ofExcept refl _) fun stoplen => ?_
  split_ifs
  · exact Run.Rel.throw refl _
  · exact rel_memcpy refl @trans (fun a => rel_guarded (hld a)) hst _ _ _

theorem rel_copyout (hld : ∀ a, Run.Rel R (ld a)) (hst : ∀ a b, Run.Rel R (st a b))
    (src userdest len : Nat) : Run.Rel R (copyout ld st src userdest len) := by
  refine Run.Rel.bind @trans (Run.Rel.ofExcept refl _) fun stoplen => ?_
  split_ifs
  · exact Run.Rel.throw refl _
  · exact rel_memcpy refl @trans hld (fun a b => rel_guarded (hst a b)) _ _ _

theorem rel_copystrLoop (hld : ∀ a, Run.Rel R (ld a)) (hst : ∀ a b, Run.Rel R (st a b))
    (dest src : Nat) : ∀ i n, Run.Rel R (copystrLoop ld st dest src i n)
  | _, 0 => Run.Rel.pure refl _
  | i, n + 1 => by
    refine Run.Rel.bind @trans (hld _) fun c => Run.Rel.bind @trans (hst _ c) fun _ => ?_
    split_ifs
    · exact Run.Rel.pure refl _
    · exact rel_copystrLoop hld hst dest src (i + 1) n

theorem rel_copystr (hld : ∀ a, Run.Rel R (ld a)) (hst : ∀ a b, Run.Rel R (st a b))
    (dest src maxlen stoplen : Nat) : Run.Rel R (copystr ld st dest src maxlen stoplen) := by
  refine Run.Rel.bind @trans (rel_copystrLoop refl @trans hld hst dest src 0 _) fun o => ?_
  rcases o with _ | gotlen
  · split_ifs
    · exact Run.Rel.throw refl _
    · exact Run.Rel.throw refl _
  · exact Run.Rel.pure refl _

theorem rel_copyinstr (hld : ∀ a, Run.Rel R (ld a)) (hst : ∀ a b, Run.Rel R (st a b))
    (usersrc dest len : Nat) : Run.Rel R (copyinstr ld st usersrc dest len) :=
  Run.Rel.bind @trans (Run.Rel.ofExcept refl _) fun _ =>
    rel_copystr refl @trans (fun a => rel_guarded (hld a)) hst _ _ _ _

theorem rel_copyoutstr (hld : ∀ a, Run.Rel R (ld a)) (hst : ∀ a b, Run.Rel R (st a b))
    (src userdest len : Nat) : Run.Rel R (copyoutstr ld st src userdest len) :=
  Run.Rel.bind @trans (Run.Rel.ofExcept refl _) fun _ =>
    rel_copystr refl @trans hld (fun a b => rel_guarded (hst a b)) _ _ _ _

end Rel

/-! ### Blocks a copy refuses -/

theorem copyin_of_not_fits {p len : Nat} (hp : p < 2 ^ 32) (hlen : len < 2 ^ 32) (dest : Nat)
    (h : ¬ (1 ≤ len ∧ p + len ≤ usertop)) : copyin ld st p dest len = Run.throw .EFAULT := by
  unfold copyin
  rcases hc : copycheck p len with e | stoplen
  · rw [copycheck_error hc, Run.ofExcept_error, Run.throw_bind]
  · have hne : stoplen ≠ len := fun heq => h ((copycheck_eq_ok_self hp hlen).1 (by rw [hc, heq]))
    rw [Run.ofExcept_ok, Run.pure_bind]
    exact if_pos hne

theorem copyout_of_not_fits {p len : Nat} (hp : p < 2 ^ 32) (hlen : len < 2 ^ 32) (src : Nat)
    (h : ¬ (1 ≤ len ∧ p + len ≤ usertop)) : copyout ld st src p len = Run.throw .EFAULT := by
  unfold copyout
  rcases hc : copycheck p len with e | stoplen
  · rw [copycheck_error hc, Run.ofExcept_error, Run.throw_bind]
  · have hne : stoplen ≠ len := fun heq => h ((copycheck_eq_ok_self hp hlen).1 (by rw [hc, heq]))
    rw [Run.ofExcept_ok, Run.pure_bind]
    exact if_pos hne

/-! ### What a copy touches -/

theorem memcpy_congr {dst src len : Nat} (hld : ∀ i < len, ld (src + i) = ld' (src + i))
    (hst : ∀ i < len, st (dst + i) = st' (dst + i)) :
    memcpy ld st dst src len = memcpy ld' st' dst src len := by
  unfold memcpy
  refine Run.forM_congr fun i hi => ?_
  have hi : i < len := List.mem_range.1 hi
  rw [hld i hi, hst i hi]

theorem copystrLoop_congr {dest src : Nat} :
    ∀ {i n : Nat}, (∀ j, i ≤ j → j < i + n → ld (src + j) = ld' (src + j)) →
      (∀ j, i ≤ j → j < i + n → st (dest + j) = st' (dest + j)) →
      copystrLoop ld st dest src i n = copystrLoop ld' st' dest src i n
  | _, 0, _, _ => rfl
  | i, n + 1, hld, hst => by
    have ih := copystrLoop_congr (i := i + 1) (n := n) (fun j h1 h2 => hld j (by omega) (by omega))
      (fun j h1 h2 => hst j (by omega) (by omega))
    simp only [copystrLoop, hld i le_rfl (by omega), hst i le_rfl (by omega), ih]

theorem copystr_congr {dest src maxlen stoplen : Nat}
    (hld : ∀ j, j < min maxlen stoplen → ld (src + j) = ld' (src + j))
    (hst : ∀ j, j < min maxlen stoplen → st (dest + j) = st' (dest + j)) :
    copystr ld st dest src maxlen stoplen = copystr ld' st' dest src maxlen stoplen := by
  unfold copystr
  rw [copystrLoop_congr (fun j _ h => hld j (by omega)) (fun j _ h => hst j (by omega))]

/-- `copyin` loads only user addresses of its block. -/
theorem copyin_congr {p len : Nat} (hp : p < 2 ^ 32) (hlen : len < 2 ^ 32) (dest : Nat)
    (h : ∀ a, p ≤ a → a < p + len → a < usertop → ld a = ld' a) :
    copyin ld st p dest len = copyin ld' st p dest len := by
  by_cases hfit : 1 ≤ len ∧ p + len ≤ usertop
  · unfold copyin
    rw [(copycheck_eq_ok_self hp hlen).2 hfit, Run.ofExcept_ok, Run.pure_bind, Run.pure_bind,
      if_neg (not_not.2 rfl), if_neg (not_not.2 rfl)]
    refine memcpy_congr (fun i hi => ?_) (fun _ _ => rfl)
    rw [h (p + i) (by omega) (by omega) (by omega)]
  · rw [copyin_of_not_fits hp hlen dest hfit, copyin_of_not_fits hp hlen dest hfit]

theorem copyout_congr {p len : Nat} (hp : p < 2 ^ 32) (hlen : len < 2 ^ 32) (src : Nat)
    (h : ∀ a, p ≤ a → a < p + len → a < usertop → st a = st' a) :
    copyout ld st src p len = copyout ld st' src p len := by
  by_cases hfit : 1 ≤ len ∧ p + len ≤ usertop
  · unfold copyout
    rw [(copycheck_eq_ok_self hp hlen).2 hfit, Run.ofExcept_ok, Run.pure_bind, Run.pure_bind,
      if_neg (not_not.2 rfl), if_neg (not_not.2 rfl)]
    refine memcpy_congr (fun _ _ => rfl) (fun i hi => ?_)
    rw [h (p + i) (by omega) (by omega) (by omega)]
  · rw [copyout_of_not_fits hp hlen src hfit, copyout_of_not_fits hp hlen src hfit]

theorem copyinstr_congr {p len : Nat} (hp : p < 2 ^ 32) (hlen : len < 2 ^ 32) (dest : Nat)
    (h : ∀ a, p ≤ a → a < p + len → a < usertop → ld a = ld' a) :
    copyinstr ld st p dest len = copyinstr ld' st p dest len := by
  unfold copyinstr
  rcases hc : copycheck p len with e | stoplen
  · rfl
  · rw [Run.ofExcept_ok, Run.pure_bind, Run.pure_bind]
    refine copystr_congr (fun j hj => ?_) (fun _ _ => rfl)
    obtain ⟨h1, h2⟩ := copycheck_window hp hlen hc hj
    rw [h (p + j) (by omega) h1 h2]

theorem copyoutstr_congr {p len : Nat} (hp : p < 2 ^ 32) (hlen : len < 2 ^ 32) (src : Nat)
    (h : ∀ a, p ≤ a → a < p + len → a < usertop → st a = st' a) :
    copyoutstr ld st src p len = copyoutstr ld st' src p len := by
  unfold copyoutstr
  rcases hc : copycheck p len with e | stoplen
  · rfl
  · rw [Run.ofExcept_ok, Run.pure_bind, Run.pure_bind]
    refine copystr_congr (fun _ _ => rfl) (fun j hj => ?_)
    obtain ⟨h1, h2⟩ := copycheck_window hp hlen hc hj
    rw [h (p + j) (by omega) h1 h2]

/-! ### How a copy ends -/

theorem copystrLoop_of_reads (hld : Reads ld m) (hst : Stores st) (dest src : Nat) :
    ∀ (i n : Nat) (s : σ), ∃ s', copystrLoop ld st dest src i n s =
      some (.ok (((List.range' i n).find? fun j => m (src + j) = 0).map (· + 1)), s')
  | _, 0, s => ⟨s, rfl⟩
  | i, n + 1, s => by
    obtain ⟨s₁, h₁⟩ := hld (src + i) s
    obtain ⟨s₂, h₂⟩ := hst (dest + i) (m (src + i)) s₁
    simp only [copystrLoop]
    rw [Run.bind_of_ok h₁, Run.bind_of_ok h₂, List.range'_succ]
    by_cases h0 : m (src + i) = 0
    · refine ⟨s₂, ?_⟩
      rw [if_pos h0, List.find?_cons_of_pos (by simpa using h0)]
      rfl
    · obtain ⟨s', h'⟩ := copystrLoop_of_reads hld hst dest src (i + 1) n s₂
      refine ⟨s', ?_⟩
      rw [if_neg h0, List.find?_cons_of_neg (by simpa using h0), h']

theorem copystr_of_reads (hld : Reads ld m) (hst : Stores st) (dest src maxlen stoplen : Nat)
    (s : σ) : ∃ s', copystr ld st dest src maxlen stoplen s =
      some (match firstNul m src (min maxlen stoplen) with
        | some n => .ok (n + 1)
        | none => .error (if stoplen < maxlen then .EFAULT else .ENAMETOOLONG), s') := by
  obtain ⟨s', h⟩ := copystrLoop_of_reads hld hst dest src 0 (min maxlen stoplen) s
  refine ⟨s', ?_⟩
  unfold copystr
  rw [Run.bind_of_ok h, firstNul, List.range_eq_range']
  rcases (List.range' 0 (min maxlen stoplen)).find? (fun j => m (src + j) = 0) with _ | n
  · dsimp only [Option.map_none]
    split_ifs <;> rfl
  · rfl

/-- `copyinstr` from a block that does not wrap, with loads that do not fault: it ends at the
first NUL within the block and below `USERTOP`, or with the error of the limit it reached. -/
theorem copyinstr_of_reads {p len : Nat} (hlen : len < 2 ^ 32) (h1 : 1 ≤ len)
    (hw : p + len ≤ 2 ^ 32) (hld : Reads ld m) (hst : Stores st) (dest : Nat) (s : σ) :
    ∃ s', copyinstr ld st p dest len s = some (strResult m p p len, s') := by
  have hp : p < 2 ^ 32 := by omega
  unfold copyinstr strResult
  rw [copycheck_eq hp hlen, if_neg (by omega)]
  by_cases hk : usertop ≤ p
  · rw [if_pos (Or.inl hk), Run.ofExcept_error, Run.throw_bind, if_pos hk]
    exact ⟨s, rfl⟩
  · rw [if_neg (by omega), Run.ofExcept_ok, Run.pure_bind, if_neg hk]
    obtain ⟨s', h⟩ := copystr_of_reads hld.guarded hst dest p len (min len (usertop - p)) s
    refine ⟨s', ?_⟩
    rw [h, Nat.min_eq_right (Nat.min_le_left _ _)]
    rcases firstNul m p (min len (usertop - p)) with _ | n
    · have hlt : min len (usertop - p) < len ↔ usertop - p < len := by omega
      simp only [hlt]
    · rfl

/-- `copyoutstr` of the kernel string at `src` to a block that does not wrap, with stores that do
not fault: as `copyinstr_of_reads`, the limits being those of the user block. -/
theorem copyoutstr_of_stores {p len : Nat} (hlen : len < 2 ^ 32) (h1 : 1 ≤ len)
    (hw : p + len ≤ 2 ^ 32) (hld : Reads ld m) (hst : Stores st) (src : Nat) (s : σ) :
    ∃ s', copyoutstr ld st src p len s = some (strResult m src p len, s') := by
  have hp : p < 2 ^ 32 := by omega
  unfold copyoutstr strResult
  rw [copycheck_eq hp hlen, if_neg (by omega)]
  by_cases hk : usertop ≤ p
  · rw [if_pos (Or.inl hk), Run.ofExcept_error, Run.throw_bind, if_pos hk]
    exact ⟨s, rfl⟩
  · rw [if_neg (by omega), Run.ofExcept_ok, Run.pure_bind, if_neg hk]
    obtain ⟨s', h⟩ := copystr_of_reads hld hst.guarded p src len (min len (usertop - p)) s
    refine ⟨s', ?_⟩
    rw [h, Nat.min_eq_right (Nat.min_le_left _ _)]
    rcases firstNul m src (min len (usertop - p)) with _ | n
    · have hlt : min len (usertop - p) < len ↔ usertop - p < len := by omega
      simp only [hlt]
    · rfl

theorem copyinstr_of_wrap {p len : Nat} (hp : p < 2 ^ 32) (hlen : len < 2 ^ 32)
    (hw : 2 ^ 32 < p + len) (dest : Nat) : copyinstr ld st p dest len = Run.throw .EFAULT := by
  unfold copyinstr
  rw [copycheck_eq hp hlen, if_neg (by omega), if_pos (Or.inr hw), Run.ofExcept_error, Run.throw_bind]

theorem copyoutstr_of_wrap {p len : Nat} (hp : p < 2 ^ 32) (hlen : len < 2 ^ 32)
    (hw : 2 ^ 32 < p + len) (src : Nat) : copyoutstr ld st src p len = Run.throw .EFAULT := by
  unfold copyoutstr
  rw [copycheck_eq hp hlen, if_neg (by omega), if_pos (Or.inr hw), Run.ofExcept_error, Run.throw_bind]

/-- The copies of `copyinout.c` over 32-bit pointers and lengths. `copyin` and `copyout` refuse a
block that is empty, wraps, or reaches past `USERTOP`. Every copy touches only user addresses of
its block. For a non-empty block that does not wrap, with accesses that do not fault,
`copyinstr` and `copyoutstr` end as `strResult` says: the length with the NUL when one comes
within `min len (USERTOP - p)` bytes, else `EFAULT` if `USERTOP` came first and `ENAMETOOLONG` if
`len` did. A block that wraps is refused by both. -/
theorem copy_user_block {σ : Type} {p len : Nat} (hp : p < 2 ^ 32) (hlen : len < 2 ^ 32) :
    (¬ (1 ≤ len ∧ p + len ≤ usertop) →
      ∀ (ld : Nat → Run σ Errno UInt8) (st : Nat → UInt8 → Run σ Errno Unit) (k : Nat),
        copyin ld st p k len = Run.throw .EFAULT ∧ copyout ld st k p len = Run.throw .EFAULT) ∧
    (∀ ld ld' : Nat → Run σ Errno UInt8, (∀ a, p ≤ a → a < p + len → a < usertop → ld a = ld' a) →
      ∀ (st : Nat → UInt8 → Run σ Errno Unit) dest,
        copyin ld st p dest len = copyin ld' st p dest len ∧
          copyinstr ld st p dest len = copyinstr ld' st p dest len) ∧
    (∀ st st' : Nat → UInt8 → Run σ Errno Unit,
      (∀ a, p ≤ a → a < p + len → a < usertop → st a = st' a) →
      ∀ (ld : Nat → Run σ Errno UInt8) src,
        copyout ld st src p len = copyout ld st' src p len ∧
          copyoutstr ld st src p len = copyoutstr ld st' src p len) ∧
    (1 ≤ len → p + len ≤ 2 ^ 32 →
      ∀ (ld : Nat → Run σ Errno UInt8) (st : Nat → UInt8 → Run σ Errno Unit) m,
        Reads ld m → Stores st →
        (∀ dest s, ∃ s', copyinstr ld st p dest len s = some (strResult m p p len, s')) ∧
          ∀ src s, ∃ s', copyoutstr ld st src p len s = some (strResult m src p len, s')) ∧
    (2 ^ 32 < p + len →
      ∀ (ld : Nat → Run σ Errno UInt8) (st : Nat → UInt8 → Run σ Errno Unit) dest src,
        copyinstr ld st p dest len = Run.throw .EFAULT ∧
          copyoutstr ld st src p len = Run.throw .EFAULT) := by
  refine ⟨fun hfit ld st k => ⟨copyin_of_not_fits hp hlen k hfit, copyout_of_not_fits hp hlen k hfit⟩,
    fun ld ld' h st dest => ⟨copyin_congr hp hlen dest h, copyinstr_congr hp hlen dest h⟩,
    fun st st' h ld src => ⟨copyout_congr hp hlen src h, copyoutstr_congr hp hlen src h⟩,
    fun h1 hw ld st m hld hst => ⟨fun dest s => copyinstr_of_reads hlen h1 hw hld hst dest s,
      fun src s => copyoutstr_of_stores hlen h1 hw hld hst src s⟩,
    fun hw ld st dest src => ⟨copyinstr_of_wrap hp hlen hw dest, copyoutstr_of_wrap hp hlen hw src⟩⟩

/-- A block of 16 bytes at `0x1000`. -/
theorem copy_user_block_small :
    (0x1000 : Nat) < 2 ^ 32 ∧ (16 : Nat) < 2 ^ 32 ∧
    (¬ (1 ≤ 16 ∧ 0x1000 + 16 ≤ usertop) →
      ∀ (ld : Nat → Run Unit Errno UInt8) (st : Nat → UInt8 → Run Unit Errno Unit) (k : Nat),
        copyin ld st 0x1000 k 16 = Run.throw .EFAULT ∧ copyout ld st k 0x1000 16 = Run.throw .EFAULT) ∧
    (∀ ld ld' : Nat → Run Unit Errno UInt8,
      (∀ a, 0x1000 ≤ a → a < 0x1000 + 16 → a < usertop → ld a = ld' a) →
      ∀ (st : Nat → UInt8 → Run Unit Errno Unit) dest,
        copyin ld st 0x1000 dest 16 = copyin ld' st 0x1000 dest 16 ∧
          copyinstr ld st 0x1000 dest 16 = copyinstr ld' st 0x1000 dest 16) ∧
    (∀ st st' : Nat → UInt8 → Run Unit Errno Unit,
      (∀ a, 0x1000 ≤ a → a < 0x1000 + 16 → a < usertop → st a = st' a) →
      ∀ (ld : Nat → Run Unit Errno UInt8) src,
        copyout ld st src 0x1000 16 = copyout ld st' src 0x1000 16 ∧
          copyoutstr ld st src 0x1000 16 = copyoutstr ld st' src 0x1000 16) ∧
    (1 ≤ 16 → 0x1000 + 16 ≤ 2 ^ 32 →
      ∀ (ld : Nat → Run Unit Errno UInt8) (st : Nat → UInt8 → Run Unit Errno Unit) m,
        Reads ld m → Stores st →
        (∀ dest s, ∃ s', copyinstr ld st 0x1000 dest 16 s = some (strResult m 0x1000 0x1000 16, s')) ∧
          ∀ src s, ∃ s', copyoutstr ld st src 0x1000 16 s = some (strResult m src 0x1000 16, s')) ∧
    (2 ^ 32 < 0x1000 + 16 →
      ∀ (ld : Nat → Run Unit Errno UInt8) (st : Nat → UInt8 → Run Unit Errno Unit) dest src,
        copyinstr ld st 0x1000 dest 16 = Run.throw .EFAULT ∧
          copyoutstr ld st src 0x1000 16 = Run.throw .EFAULT) :=
  ⟨by norm_num, by norm_num, copy_user_block (by norm_num) (by norm_num)⟩

/-- `"a"` and its NUL at `0x1000`, and `'a'` everywhere else. -/
def wrapTestMem (a : Nat) : UInt8 := if a = 0x1001 then 0 else 0x61

/-- `copyinstr` from `0x1000` with `len = 0xffffffff`: the string's NUL is its second byte, well
within `min len (USERTOP - p)`, but the block wraps past `2 ^ 32` and the copy fails with
`EFAULT`. -/
theorem copyinstr_wrap_rejects :
    wrapTestMem 0x1000 ≠ 0 ∧ wrapTestMem 0x1001 = 0 ∧ 1 < min 0xffffffff (usertop - 0x1000) ∧
      copyinstr (fun a => (pure (wrapTestMem a) : Run Unit Errno UInt8)) (fun _ _ => pure ())
        0x1000 0 0xffffffff () = some (.error .EFAULT, ()) := by
  refine ⟨by decide, by decide, by decide, ?_⟩
  rw [copyinstr_of_wrap (by norm_num) (by norm_num) (by norm_num)]
  rfl

end Copy

end Os161
