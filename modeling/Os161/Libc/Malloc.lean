import Mathlib.Data.BitVec

/-!
# The C library's `malloc`

`malloc.c` keeps a first-fit heap between `__heapbase` and `__heaptop`: a run of blocks, each an
eight-byte `struct mheader` followed by its data. The header is two words of bit-fields (29-bit
offsets to the previous and next header in units of `MBLOCKSIZE`, a bit for `mh_inuse`, two magic
bits); MIPS is big-endian, and gcc gives the first bit-field of a word its most significant bits.

Memory is a map from addresses to words; addresses and `size_t` values are `BitVec 32`, so their
arithmetic wraps as the machine's does. `sbrk` moves the break within `[brkBase, brkLimit]` and
returns the old one. `errx` ends the process and is `none`.

`malloc` rounds `size` up with `(size + MBLOCKSIZE - 1) & ~(MBLOCKSIZE - 1)`, which is `0` for every
`size` of `2 ^ 32 - 7` or more; the block it then returns has fewer than 16 bytes
(`malloc_huge_size_lt`).
-/

namespace Os161

namespace Libc

namespace Malloc

/-- `MBLOCKSIZE`: the size of a header, and the unit blocks are rounded to. -/
def MBLOCKSIZE : BitVec 32 := 8

def MMAGIC : BitVec 2 := 2

structure Header where
  prevblock : BitVec 29
  pad : BitVec 1
  magic1 : BitVec 2
  nextblock : BitVec 29
  inuse : BitVec 1
  magic2 : BitVec 2
  deriving DecidableEq, Repr

namespace Header

variable (hd : Header)

def word0 : BitVec 32 := hd.prevblock ++ hd.pad ++ hd.magic1

def word1 : BitVec 32 := hd.nextblock ++ hd.inuse ++ hd.magic2

def ofWords (w0 w1 : BitVec 32) : Header :=
  ⟨w0.extractLsb' 3 29, w0.extractLsb' 2 1, w0.extractLsb' 0 2, w1.extractLsb' 3 29,
    w1.extractLsb' 2 1, w1.extractLsb' 0 2⟩

/-- `M_NEXTOFF`. -/
def nextoff : BitVec 32 := hd.nextblock.zeroExtend 32 <<< 3

/-- `M_PREVOFF`. -/
def prevoff : BitVec 32 := hd.prevblock.zeroExtend 32 <<< 3

/-- `M_SIZE`. -/
def size : BitVec 32 := hd.nextoff - MBLOCKSIZE

/-- `M_OK`. -/
def ok : Bool := hd.magic1 == MMAGIC && hd.magic2 == MMAGIC

end Header

/-- `M_MKFIELD`, as the 29-bit field keeps it. -/
def mkfield (off : BitVec 32) : BitVec 29 := (off >>> 3).truncate 29

structure Heap where
  mem : BitVec 32 → BitVec 32
  heapbase : BitVec 32
  heaptop : BitVec 32
  brkBase : BitVec 32
  brk : BitVec 32
  brkLimit : BitVec 32

/-- How the first-fit loop of `malloc` ends: at a free block that is big enough, or at
`__heaptop` with the `mh_nextblock` of the last header. -/
inductive Search
  | block (mh : BitVec 32)
  | top (rightprevblock : BitVec 29)
  deriving DecidableEq, Repr

namespace Heap

variable (h : Heap)

/-- The header at `a`. -/
def hdrAt (a : BitVec 32) : Header := Header.ofWords (h.mem a) (h.mem (a + 4))

/-- Store the header `hd` at `a`. The fields `malloc.c` assigns one at a time all lie in these
two words, so each assignment is a store of the header read back with that field changed. -/
def setHdr (a : BitVec 32) (hd : Header) : Heap :=
  { h with mem := fun b => if b = a then hd.word0 else if b = a + 4 then hd.word1 else h.mem b }

/-- `sbrk`: the break moves by the signed `intptr_t` the `size_t` argument becomes. -/
def sbrk (amount : BitVec 32) : Option (BitVec 32 × Heap) :=
  let new := (h.brk.toNat : Int) + amount.toInt
  if h.brkBase.toNat ≤ new ∧ new ≤ h.brkLimit.toNat then
    some (h.brk, { h with brk := BitVec.ofInt 32 new })
  else none

def mallocInit : Option Heap :=
  if h.heapbase ≠ 0 ∨ h.heaptop ≠ 0 then none
  else do
    let (x, h) ← h.sbrk 0
    if x = 0 then none
    else
      let h := { h with heapbase := x, heaptop := x }
      if x % MBLOCKSIZE ≠ 0 then do
        let adjust := MBLOCKSIZE - x % MBLOCKSIZE
        let (y, h) ← h.sbrk adjust
        if y ≠ h.heapbase then none
        else some { h with heapbase := h.heapbase + adjust, heaptop := h.heapbase + adjust }
      else some h

/-- `__malloc_sbrk`: the old break, or `NULL` when `sbrk` fails. -/
def mallocSbrk (size : BitVec 32) : Option (BitVec 32 × Heap) :=
  match h.sbrk size with
  | none => some (0, h)
  | some (x, h) => if x ≠ h.heaptop then none else some (x, { h with heaptop := h.heaptop + size })

def mallocSplit (mh size : BitVec 32) : Option Heap :=
  if size % MBLOCKSIZE ≠ 0 then none
  else
    let hd := h.hdrAt mh
    if hd.size - size < 2 * MBLOCKSIZE then some h
    else
      let mhnext := mh + hd.nextoff
      let oldsize := hd.size
      let h := h.setHdr mh { hd with nextblock := mkfield (size + MBLOCKSIZE) }
      let mhnew := mh + (h.hdrAt mh).nextoff
      if mhnew = mhnext then none
      else
        let h := h.setHdr mhnew
          ⟨mkfield (size + MBLOCKSIZE), 0, MMAGIC, mkfield (oldsize - size), 0, MMAGIC⟩
        if mhnext ≠ h.heaptop then
          some (h.setHdr mhnext { h.hdrAt mhnext with prevblock := (h.hdrAt mhnew).nextblock })
        else some h

/-- The first-fit loop. A loop of `malloc` that ends visits each `i` once, so `2 ^ 32 + 1` passes
reach its end or a header it has seen; a loop that comes back to a header never ends. -/
def search (size : BitVec 32) : Nat → BitVec 32 → BitVec 29 → Option Search
  | 0, _, _ => none
  | fuel + 1, i, rightprevblock =>
    if i < h.heaptop then
      let mh := h.hdrAt i
      if !mh.ok then none
      else if mh.prevblock ≠ rightprevblock then none
      else if mh.inuse = 1 ∨ mh.size < size then search size fuel (i + mh.nextoff) mh.nextblock
      else some (.block i)
    else if i ≠ h.heaptop then none
    else some (.top rightprevblock)

/-- `if (__heapbase == 0) __malloc_init();` -/
def mallocEnsureInit : Option Heap := if h.heapbase = 0 then h.mallocInit else some h

/-- `malloc`: the heap after the call and the pointer returned, `0` for `NULL`. -/
def malloc (size : BitVec 32) : Option (Heap × BitVec 32) := do
  let h ← h.mallocEnsureInit
  if h.heapbase = 0 ∨ h.heaptop = 0 ∨ h.heapbase > h.heaptop then none
  else
    let size := (size + MBLOCKSIZE - 1) &&& ~~~(MBLOCKSIZE - 1)
    match ← h.search size (2 ^ 32 + 1) h.heapbase 0 with
    | .block mh => do
      let h ← h.mallocSplit mh size
      some (h.setHdr mh { h.hdrAt mh with inuse := 1 }, mh + MBLOCKSIZE)
    | .top rightprevblock => do
      let (mh, h) ← h.mallocSbrk (size + MBLOCKSIZE)
      if mh = 0 then some (h, 0)
      else
        some (h.setHdr mh
          ⟨rightprevblock, 0, MMAGIC, mkfield (size + MBLOCKSIZE), 1, MMAGIC⟩, mh + MBLOCKSIZE)

/-- `__malloc_deadbeef`: `0xdeadbeef` in each of the `size / 4` words from `ptr`. -/
def mallocDeadbeef (ptr size : BitVec 32) : Heap :=
  { h with
    mem := fun b =>
      if (b - ptr).toNat < 4 * (size.toNat / 4) ∧ (b - ptr).toNat % 4 = 0 then 0xdeadbeef
      else h.mem b }

def mallocTrymerge (mh mhnext : BitVec 32) : Option Heap :=
  let a := h.hdrAt mh
  let b := h.hdrAt mhnext
  if a.nextblock ≠ b.prevblock then none
  else if a.inuse = 1 ∨ b.inuse = 1 then some h
  else
    let mhnextnext := mhnext + b.nextoff
    let h := h.setHdr mh
      { a with nextblock := mkfield (MBLOCKSIZE + a.size + MBLOCKSIZE + b.size) }
    let h :=
      if mhnextnext ≠ h.heaptop then
        h.setHdr mhnextnext { h.hdrAt mhnextnext with prevblock := (h.hdrAt mh).nextblock }
      else h
    some (h.mallocDeadbeef mhnext MBLOCKSIZE)

def free (x : BitVec 32) : Option Heap :=
  if x = 0 then some h
  else if h.heapbase = 0 ∨ h.heaptop = 0 ∨ h.heapbase > h.heaptop then none
  else if x < h.heapbase ∨ x ≥ h.heaptop then none
  else
    let mh := x - MBLOCKSIZE
    let hd := h.hdrAt mh
    if !hd.ok then none
    else if hd.inuse = 0 then none
    else do
      let h := h.setHdr mh { hd with inuse := 0 }
      let h := h.mallocDeadbeef (mh + MBLOCKSIZE) (h.hdrAt mh).size
      let mhnext := mh + (h.hdrAt mh).nextoff
      let h ← if mhnext ≠ h.heaptop then h.mallocTrymerge mh mhnext else some h
      if mh ≠ h.heapbase then h.mallocTrymerge (mh - (h.hdrAt mh).prevoff) mh else some h

end Heap

/-! ## Headers in memory -/

section Words

variable (a : BitVec 29) (b : BitVec 1) (c : BitVec 2)

theorem extractLsb'_high : (a ++ b ++ c).extractLsb' 3 29 = a := by
  ext i hi
  rw [BitVec.getElem_extractLsb', BitVec.getLsbD_append, BitVec.getLsbD_append,
    if_neg (by omega), if_neg (by omega), ← BitVec.getLsbD_eq_getElem]
  congr 1
  omega

theorem extractLsb'_mid : (a ++ b ++ c).extractLsb' 2 1 = b := by
  ext i hi
  rw [BitVec.getElem_extractLsb', BitVec.getLsbD_append, BitVec.getLsbD_append,
    if_neg (by omega), if_pos (by omega), ← BitVec.getLsbD_eq_getElem]
  congr 1
  omega

theorem extractLsb'_low : (a ++ b ++ c).extractLsb' 0 2 = c :=
  BitVec.extractLsb'_append_eq_right

end Words

namespace Header

variable (hd : Header)

@[simp] theorem ofWords_words : ofWords hd.word0 hd.word1 = hd := by
  simp only [ofWords, word0, word1, extractLsb'_high, extractLsb'_mid, extractLsb'_low]

theorem toNat_nextoff : hd.nextoff.toNat = hd.nextblock.toNat * 8 := by
  have := hd.nextblock.isLt
  simp only [nextoff, BitVec.toNat_shiftLeft, BitVec.truncate_eq_setWidth, BitVec.toNat_setWidth,
    Nat.shiftLeft_eq]
  omega

theorem size_of_nextblock_one (h : hd.nextblock = 1) : hd.size = 0 := by
  simp only [size, nextoff, h]
  decide

end Header

theorem toNat_mkfield (x : BitVec 32) : (mkfield x).toNat = x.toNat / 8 := by
  have := x.isLt
  simp only [mkfield, BitVec.truncate_eq_setWidth, BitVec.toNat_setWidth, BitVec.toNat_ushiftRight,
    Nat.shiftRight_eq_div_pow]
  omega

namespace Heap

variable (h : Heap)

@[simp] theorem hdrAt_setHdr_self (a : BitVec 32) (hd : Header) : (h.setHdr a hd).hdrAt a = hd := by
  simp [hdrAt, setHdr]

theorem hdrAt_setHdr_of_ne {a b : BitVec 32} (hd : Header) (h₁ : b ≠ a) (h₂ : b ≠ a + 4)
    (h₃ : b + 4 ≠ a) : (h.setHdr a hd).hdrAt b = h.hdrAt b := by
  have h₄ : b + 4 ≠ a + 4 := by bv_omega
  unfold hdrAt setHdr
  dsimp only
  rw [if_neg h₁, if_neg h₂, if_neg h₃, if_neg h₄]

@[simp] theorem setHdr_heaptop (a : BitVec 32) (hd : Header) : (h.setHdr a hd).heaptop = h.heaptop :=
  rfl

theorem hdrAt_setHdr_add {mh off : BitVec 32} (hd : Header) (h₀ : off ≠ 0) (h₈ : off.toNat % 8 = 0) :
    (h.setHdr (mh + off) hd).hdrAt mh = h.hdrAt mh :=
  hdrAt_setHdr_of_ne h hd (by bv_omega) (by bv_omega) (by bv_omega)

theorem mallocSplit_nextblock {mh size : BitVec 32} {h' : Heap} (hsz : size.toNat + 8 < 2 ^ 32)
    (hs : h.mallocSplit mh size = some h') :
    (h'.hdrAt mh).nextblock =
      if (h.hdrAt mh).size - size < 2 * MBLOCKSIZE then (h.hdrAt mh).nextblock
      else mkfield (size + MBLOCKSIZE) := by
  unfold mallocSplit at hs
  split at hs
  · cases hs
  rename_i h8
  have h8' : size.toNat % 8 = 0 := by simp only [MBLOCKSIZE, not_not] at h8; bv_omega
  dsimp only at hs
  split at hs
  · rename_i hlt
    rw [if_pos hlt, ← Option.some.inj hs]
  rename_i hlt
  rw [if_neg hlt]
  have hoff : (({ h.hdrAt mh with nextblock := mkfield (size + MBLOCKSIZE) } : Header).nextoff) =
      size + MBLOCKSIZE := by
    apply BitVec.eq_of_toNat_eq
    rw [Header.toNat_nextoff, toNat_mkfield]
    simp only [MBLOCKSIZE]
    bv_omega
  rw [hdrAt_setHdr_self, hoff] at hs
  split at hs
  · cases hs
  set h₁ := h.setHdr mh { h.hdrAt mh with nextblock := mkfield (size + MBLOCKSIZE) }
  set h₂ := h₁.setHdr (mh + (size + MBLOCKSIZE)) ⟨mkfield (size + MBLOCKSIZE), 0, MMAGIC,
    mkfield ((h.hdrAt mh).size - size), 0, MMAGIC⟩
  have hk₂ : (h₂.hdrAt mh).nextblock = mkfield (size + MBLOCKSIZE) := by
    rw [hdrAt_setHdr_add _ _ (by simp only [MBLOCKSIZE]; bv_omega)
      (by simp only [MBLOCKSIZE]; bv_omega), hdrAt_setHdr_self]
  split at hs
  · rw [← Option.some.inj hs]
    have h8n := Header.toNat_nextoff (h.hdrAt mh)
    by_cases hn : (h.hdrAt mh).nextoff = 0
    · simp only [hn, add_zero, hdrAt_setHdr_self]
      exact hk₂
    · rw [hdrAt_setHdr_add _ _ hn (by omega)]
      exact hk₂
  · rw [← Option.some.inj hs]
    exact hk₂

/-- A size of `2 ^ 32 - 7` or more rounds to `0`: `size + MBLOCKSIZE - 1` wraps below `8`. -/
theorem roundup_huge {n : BitVec 32} (hn : 2 ^ 32 - 7 ≤ n.toNat) :
    (n + MBLOCKSIZE - 1) &&& ~~~(MBLOCKSIZE - 1) = 0 := by
  have h : n + MBLOCKSIZE - 1 = 0 ∨ n + MBLOCKSIZE - 1 = 1 ∨ n + MBLOCKSIZE - 1 = 2 ∨
      n + MBLOCKSIZE - 1 = 3 ∨ n + MBLOCKSIZE - 1 = 4 ∨ n + MBLOCKSIZE - 1 = 5 ∨
      n + MBLOCKSIZE - 1 = 6 := by
    simp only [MBLOCKSIZE]
    bv_omega
  rcases h with h | h | h | h | h | h | h <;> rw [h] <;> decide

theorem Header.size_congr {a b : Header} (h : a.nextblock = b.nextblock) : a.size = b.size := by
  simp only [Header.size, Header.nextoff, h]

/-- A `malloc` of `2 ^ 32 - 7` bytes or more that does not return `NULL` returns a block of
fewer than 16 bytes, from any heap: the first free block, split down to no data, or a new block
of no data at the old break. -/
theorem malloc_huge_size_lt {n : BitVec 32} (hn : 2 ^ 32 - 7 ≤ n.toNat) {h' : Heap}
    {p : BitVec 32} (hm : h.malloc n = some (h', p)) (hp : p ≠ 0) :
    (h'.hdrAt (p - MBLOCKSIZE)).size.toNat < 16 := by
  unfold malloc at hm
  rw [roundup_huge hn] at hm
  obtain ⟨h₁, -, hm⟩ := Option.bind_eq_some_iff.1 hm
  split at hm
  · cases hm
  obtain ⟨r, -, hm⟩ := Option.bind_eq_some_iff.1 hm
  cases r with
  | block mh =>
    obtain ⟨h₂, hs, hm⟩ := Option.bind_eq_some_iff.1 hm
    cases hm
    rw [BitVec.add_sub_cancel, hdrAt_setHdr_self]
    show (h₂.hdrAt mh).size.toNat < 16
    have hk := mallocSplit_nextblock h₁ (by decide) hs
    split at hk
    · rename_i hlt
      rw [Header.size_congr hk]
      simp only [MBLOCKSIZE] at hlt
      bv_omega
    · rw [Header.size_of_nextblock_one _ (hk.trans (by decide))]
      decide
  | top r =>
    obtain ⟨⟨x, h₂⟩, -, hm⟩ := Option.bind_eq_some_iff.1 hm
    dsimp only at hm
    by_cases hx : x = 0
    · rw [if_pos hx] at hm
      cases hm
      exact absurd rfl hp
    · rw [if_neg hx] at hm
      cases hm
      rw [BitVec.add_sub_cancel, hdrAt_setHdr_self,
        Header.size_of_nextblock_one _ (show mkfield (0 + MBLOCKSIZE) = 1 by decide)]
      decide

end Heap

/-- A process that has not called `malloc`, with its break at `0x10000000` and room for a
megabyte. -/
def freshHeap : Heap := ⟨fun _ => 0, 0, 0, 0x10000000, 0x10000000, 0x10100000⟩

theorem malloc_huge_undersized :
    (∃ h' p, freshHeap.malloc 0xffffffff = some (h', p) ∧ p = 0x10000008 ∧
      (h'.hdrAt (p - MBLOCKSIZE)).size = 0) ∧
    ∀ (h : Heap) (n : BitVec 32), 2 ^ 32 - 7 ≤ n.toNat → ∀ h' p, h.malloc n = some (h', p) →
      p ≠ 0 → (h'.hdrAt (p - MBLOCKSIZE)).size.toNat < 16 := by
  refine ⟨?_, fun h n hn h' p hm hp => h.malloc_huge_size_lt hn hm hp⟩
  have hrun : (freshHeap.malloc 0xffffffff).map (fun r => (r.2, (r.1.hdrAt (r.2 - MBLOCKSIZE)).size)) =
      some (0x10000008, 0) := by
    decide +kernel
  obtain ⟨⟨h', p⟩, hm, hobs⟩ := Option.map_eq_some_iff.1 hrun
  simp only [Prod.mk.injEq] at hobs
  exact ⟨h', p, hm, hobs⟩

end Malloc

end Libc

end Os161
