import Os161.Libc.Malloc

/-!
# The heap `malloc` and `free` keep

Between `__heapbase` and `__heaptop` the headers follow one another: each `mh_nextblock` leads to
the next header and the last to `__heaptop`, each `mh_prevblock` is its predecessor's
`mh_nextblock`, and the magic fields hold `MMAGIC`. A heap so laid out is a list of blocks
(`Blk`), tied to the headers in memory by `Tiles`; `Rep h bs` says the initialised heap `h` is
the list `bs`.

For a request below `2 ^ 31 - 15` bytes, `malloc` on such a heap takes the first free block big
enough, split when the rest holds a header and a block of data (`Blk.split`), or a new block at
the break (`MallocRes`). It keeps the layout and the data of every block in use, and never exits
(`malloc_rep`).
-/

namespace Os161

namespace Libc

namespace Malloc

/-- A block of the heap: the address of its header, its `mh_nextblock` (its length in units of
`MBLOCKSIZE`, the header included) and whether it is in use. -/
structure Blk where
  addr : Nat
  next : Nat
  inuse : Bool
  deriving DecidableEq, Repr

namespace Blk

/-- The address of the next header, `M_NEXT`. -/
def fin (b : Blk) : Nat := b.addr + 8 * b.next

/-- `M_SIZE`. -/
def size (b : Blk) : Nat := 8 * b.next - 8

/-- `M_DATA`: the pointer `malloc` hands out for the block. -/
def data (b : Blk) : Nat := b.addr + 8

/-- Whether the first-fit loop takes the block for a request rounded to `size`. -/
def fits (size : Nat) (b : Blk) : Bool := !b.inuse && decide (size ≤ b.size)

/-- The header `hd` is the block's, after a block of `prev` units. `mh_pad` is never read. -/
def Hdr (b : Blk) (prev : Nat) (hd : Header) : Prop :=
  hd.prevblock = BitVec.ofNat 29 prev ∧ hd.nextblock = BitVec.ofNat 29 b.next ∧
    hd.inuse = BitVec.ofBool b.inuse ∧ hd.magic1 = MMAGIC ∧ hd.magic2 = MMAGIC

end Blk

/-- The header after the last of the blocks `bs` from `a`. -/
def endOf (a : Nat) : List Blk → Nat
  | [] => a
  | b :: bs => endOf b.fin bs

/-- The `mh_nextblock` of the last of the blocks, `prev` when there are none: the
`rightprevblock` the first-fit loop ends with. -/
def lastNext (prev : Nat) : List Blk → Nat
  | [] => prev
  | b :: bs => lastNext b.next bs

/-- The blocks `__malloc_split` leaves of the free block `b` for a request rounded to `size`:
`b` itself when the rest would not hold a header and `MBLOCKSIZE` of data, else `b` cut to
`size` and a free block after it. -/
def Blk.split (b : Blk) (size : Nat) : List Blk :=
  if b.size - size < 2 * 8 then [b]
  else [{ b with next := size / 8 + 1 }, ⟨b.addr + size + 8, b.next - (size / 8 + 1), false⟩]

/-- The first block marked in use, as `malloc` marks the block it returns. -/
def setInuse : List Blk → List Blk
  | [] => []
  | b :: bs => { b with inuse := true } :: bs

/-- What `malloc` of a request rounded to `size` does to the blocks `bs` of a heap whose top is
`top`, with `sbrk` bounded by `[lo, hi]`, and the pointer it returns: the first block that fits,
split and taken; or, when none fits, a new block at the top; or `NULL` when the break cannot
move. -/
inductive MallocRes (bs : List Blk) (size top lo hi : Nat) : List Blk → Nat → Prop
  | fit (pre post : List Blk) (b : Blk) : bs = pre ++ b :: post → b.fits size = true →
      (∀ c ∈ pre, c.fits size = false) →
      MallocRes bs size top lo hi (pre ++ setInuse (b.split size) ++ post) b.data
  | grow : (∀ c ∈ bs, c.fits size = false) → lo ≤ top + (size + 8) → top + (size + 8) ≤ hi →
      MallocRes bs size top lo hi (bs ++ [⟨top, size / 8 + 1, true⟩]) (top + 8)
  | null : (∀ c ∈ bs, c.fits size = false) → ¬(lo ≤ top + (size + 8) ∧ top + (size + 8) ≤ hi) →
      MallocRes bs size top lo hi bs 0

/-- From the address `a` on, after a block of `prev` units, the headers of `h` are those of the
blocks `bs`, each followed by the next. -/
inductive Tiles (h : Heap) : Nat → Nat → List Blk → Prop
  | nil {a prev : Nat} : Tiles h a prev []
  | cons {a prev : Nat} {b : Blk} {bs : List Blk} : b.addr = a → 1 ≤ b.next → b.fin < 2 ^ 32 →
      b.Hdr prev (h.hdrAt (BitVec.ofNat 32 a)) → Tiles h b.fin b.next bs → Tiles h a prev (b :: bs)

/-- The initialised heap `h` is the list of blocks `bs`: they tile `[__heapbase, __heaptop)`, the
base is aligned, and the top is the break, which only `malloc` moves. -/
structure Rep (h : Heap) (bs : List Blk) : Prop where
  base_ne : h.heapbase ≠ 0
  base_al : h.heapbase.toNat % 8 = 0
  top_brk : h.heaptop = h.brk
  tiles : Tiles h h.heapbase.toNat 0 bs
  top : endOf h.heapbase.toNat bs = h.heaptop.toNat

/-- A process that has not called `malloc`: no heap yet, and a break that `sbrk` can report and
move up to the next multiple of `MBLOCKSIZE`. -/
structure Fresh (h : Heap) : Prop where
  base : h.heapbase = 0
  top : h.heaptop = 0
  brk_ne : h.brk ≠ 0
  brk_lo : h.brkBase.toNat ≤ h.brk.toNat
  brk_hi : h.brk.toNat + (8 - h.brk.toNat % 8) % 8 ≤ h.brkLimit.toNat

/-- Every block of `cs` in use holds in `h'` the data it holds in `h`. -/
def LiveKept (h h' : Heap) (cs : List Blk) : Prop :=
  ∀ c ∈ cs, c.inuse = true → ∀ w : BitVec 32, c.data ≤ w.toNat → w.toNat < c.fin → h'.mem w = h.mem w

/-- The pointers a caller may pass to `free`: the data of a block in use. -/
def livePtrs (bs : List Blk) : List Nat := (bs.filter (·.inuse)).map Blk.data

/-! ### Tilings -/

namespace Tiles

variable {h h' : Heap}

theorem frame : ∀ {a p : Nat} {bs : List Blk}, Tiles h a p bs →
    (∀ b ∈ bs, h'.hdrAt (BitVec.ofNat 32 b.addr) = h.hdrAt (BitVec.ofNat 32 b.addr)) →
    Tiles h' a p bs
  | _, _, [], .nil, _ => .nil
  | _, _, b :: bs, .cons ha h1 hf hd ht, hs => by
    refine .cons ha h1 hf ?_ (ht.frame fun c hc => hs c (List.mem_cons_of_mem b hc))
    rw [← ha, hs b List.mem_cons_self]
    exact ha ▸ hd

theorem append_iff : ∀ {a p : Nat} {xs ys : List Blk},
    Tiles h a p (xs ++ ys) ↔ Tiles h a p xs ∧ Tiles h (endOf a xs) (lastNext p xs) ys
  | _, _, [], _ => ⟨fun h => ⟨.nil, h⟩, fun h => h.2⟩
  | a, p, b :: xs, ys => by
    constructor
    · rintro (_ | ⟨ha, h1, hf, hd, ht⟩)
      obtain ⟨hx, hy⟩ := append_iff.1 ht
      exact ⟨.cons ha h1 hf hd hx, ha ▸ hy⟩
    · rintro ⟨_ | ⟨ha, h1, hf, hd, hx⟩, hy⟩
      exact .cons ha h1 hf hd (append_iff.2 ⟨hx, hy⟩)

theorem bounds : ∀ {a p : Nat} {bs : List Blk}, Tiles h a p bs →
    a ≤ endOf a bs ∧ ∀ b ∈ bs, a ≤ b.addr ∧ b.fin ≤ endOf a bs
  | _, _, [], .nil => ⟨le_refl _, fun _ hb => absurd hb List.not_mem_nil⟩
  | _, _, b :: bs, .cons ha _ _ _ ht => by
    obtain ⟨he, hbs⟩ := ht.bounds
    refine ⟨?_, fun c hc => ?_⟩
    · simp only [endOf, Blk.fin] at he ⊢
      omega
    · rcases List.mem_cons.1 hc with rfl | hc
      · exact ⟨ha.ge, he⟩
      · obtain ⟨h₁, h₂⟩ := hbs c hc
        simp only [Blk.fin] at h₁
        exact ⟨by omega, h₂⟩

theorem endOf_lt {a p : Nat} {bs : List Blk} (ht : Tiles h a p bs) (ha : a < 2 ^ 32) :
    endOf a bs < 2 ^ 32 := by
  induction ht with
  | nil => exact ha
  | cons _ _ hf _ _ ih => exact ih hf

theorem length_le : ∀ {a p : Nat} {bs : List Blk}, Tiles h a p bs → a + 8 * bs.length ≤ endOf a bs
  | _, _, [], .nil => by simp [endOf]
  | _, _, b :: bs, .cons ha h1 _ _ ht => by
    have := ht.length_le
    simp only [endOf, Blk.fin, List.length_cons] at this ⊢
    omega

theorem addr_mod : ∀ {a p : Nat} {bs : List Blk}, Tiles h a p bs → a % 8 = 0 →
    ∀ b ∈ bs, b.addr % 8 = 0
  | _, _, [], .nil, _ => fun _ hb => absurd hb List.not_mem_nil
  | _, _, b :: bs, .cons ha _ _ _ ht, h8 => by
    have h8' : b.fin % 8 = 0 := by simp only [Blk.fin]; omega
    intro c hc
    rcases List.mem_cons.1 hc with rfl | hc
    · omega
    · exact ht.addr_mod h8' c hc

theorem block : ∀ {a p : Nat} {bs : List Blk}, Tiles h a p bs → ∀ {c : Blk}, c ∈ bs →
    1 ≤ c.next ∧ c.fin < 2 ^ 32
  | _, _, [], .nil, _, hc => absurd hc List.not_mem_nil
  | _, _, b :: bs, .cons _ h1 hf _ ht, c, hc => by
    rcases List.mem_cons.1 hc with rfl | hc
    · exact ⟨h1, hf⟩
    · exact ht.block hc

end Tiles

/-! ### Headers at aligned addresses -/

namespace Header

theorem toNat_size (hd : Header) (h : 1 ≤ hd.nextblock.toNat) :
    hd.size.toNat = hd.nextblock.toNat * 8 - 8 := by
  have hn := toNat_nextoff hd
  have := hd.nextblock.isLt
  have h8 : (8 : BitVec 32).toNat = 8 := rfl
  simp only [size, MBLOCKSIZE, BitVec.toNat_sub, hn, h8]
  omega

end Header

theorem ofNat_ne_of_mod {x y k : Nat} (hx : x < 2 ^ 32) (hy : y < 2 ^ 32) (hx8 : x % 8 = 0)
    (hy8 : y % 8 = 0) (hk : k < 8) (hne : x ≠ y ∨ k ≠ 0) :
    BitVec.ofNat 32 y + BitVec.ofNat 32 k ≠ BitVec.ofNat 32 x := by
  intro heq
  have := congrArg BitVec.toNat heq
  simp only [BitVec.toNat_add, BitVec.toNat_ofNat] at this
  omega

namespace Heap

variable (h : Heap)

theorem hdrAt_setHdr_of_aligned {x y : Nat} (hd : Header) (hx : x < 2 ^ 32) (hy : y < 2 ^ 32)
    (hx8 : x % 8 = 0) (hy8 : y % 8 = 0) (hne : x ≠ y) :
    (h.setHdr (BitVec.ofNat 32 x) hd).hdrAt (BitVec.ofNat 32 y) = h.hdrAt (BitVec.ofNat 32 y) := by
  have h₀ := ofNat_ne_of_mod hx hy hx8 hy8 (by omega : 0 < 8) (.inl hne)
  have h₄ := ofNat_ne_of_mod hx hy hx8 hy8 (by omega : 4 < 8) (.inr (by omega))
  have h₄' := ofNat_ne_of_mod hy hx hy8 hx8 (by omega : 4 < 8) (.inr (by omega))
  rw [BitVec.add_zero] at h₀
  exact hdrAt_setHdr_of_ne h hd h₀ (fun e => h₄' e.symm) h₄

end Heap

namespace Blk

variable {b : Blk} {p : Nat} {hd : Header}

theorem Hdr.ok (h : b.Hdr p hd) : hd.ok = true := by
  obtain ⟨-, -, -, h1, h2⟩ := h
  simp [Header.ok, h1, h2]

theorem Hdr.toNat_nextblock (h : b.Hdr p hd) (hf : b.fin < 2 ^ 32) : hd.nextblock.toNat = b.next := by
  rw [h.2.1, BitVec.toNat_ofNat]
  simp only [fin] at hf
  omega

theorem Hdr.toNat_size (h : b.Hdr p hd) (hf : b.fin < 2 ^ 32) (h1 : 1 ≤ b.next) :
    hd.size.toNat = b.size := by
  rw [Header.toNat_size hd (by rw [h.toNat_nextblock hf]; exact h1), h.toNat_nextblock hf, size]
  omega

theorem Hdr.nextoff_eq (h : b.Hdr p hd) (hf : b.fin < 2 ^ 32) :
    BitVec.ofNat 32 b.addr + hd.nextoff = BitVec.ofNat 32 b.fin := by
  apply BitVec.eq_of_toNat_eq
  simp only [fin] at hf
  rw [BitVec.toNat_add, Header.toNat_nextoff, h.toNat_nextblock hf, BitVec.toNat_ofNat,
    BitVec.toNat_ofNat, fin]
  omega

theorem Hdr.inuse_eq_one (h : b.Hdr p hd) : hd.inuse = 1 ↔ b.inuse = true := by
  rw [h.2.2.1]
  cases b.inuse <;> decide

end Blk

/-! ### What a store leaves alone -/

/-- `h'` holds what `h` holds at every word outside `[lo, hi)`. -/
def SameOutside (h h' : Heap) (lo hi : Nat) : Prop :=
  ∀ w : BitVec 32, w.toNat < lo ∨ hi ≤ w.toNat → h'.mem w = h.mem w

namespace SameOutside

variable {h h₁ h₂ : Heap} {lo hi : Nat}

theorem refl (h : Heap) (lo hi : Nat) : SameOutside h h lo hi := fun _ _ => rfl

theorem trans (h₁₂ : SameOutside h h₁ lo hi) (h₂₃ : SameOutside h₁ h₂ lo hi) :
    SameOutside h h₂ lo hi :=
  fun w hw => (h₂₃ w hw).trans (h₁₂ w hw)

theorem mono {lo' hi' : Nat} (hs : SameOutside h h₁ lo hi) (hlo : lo' ≤ lo) (hhi : hi ≤ hi') :
    SameOutside h h₁ lo' hi' :=
  fun w hw => hs w (by omega)

theorem hdrAt_eq (hs : SameOutside h h₁ lo hi) {y : Nat} (hy : y + 8 ≤ lo ∨ hi ≤ y)
    (hy32 : y + 8 ≤ 2 ^ 32) : h₁.hdrAt (BitVec.ofNat 32 y) = h.hdrAt (BitVec.ofNat 32 y) := by
  have h4 : (4 : BitVec 32).toNat = 4 := rfl
  have h₀ := hs (BitVec.ofNat 32 y) (by rw [BitVec.toNat_ofNat]; omega)
  have h₄ := hs (BitVec.ofNat 32 y + 4) (by rw [BitVec.toNat_add, BitVec.toNat_ofNat, h4]; omega)
  simp only [Heap.hdrAt, h₀, h₄]

end SameOutside

namespace Heap

variable (h : Heap)

@[simp] theorem setHdr_heapbase (a : BitVec 32) (hd : Header) : (h.setHdr a hd).heapbase = h.heapbase :=
  rfl

@[simp] theorem setHdr_brk (a : BitVec 32) (hd : Header) : (h.setHdr a hd).brk = h.brk := rfl

@[simp] theorem mallocDeadbeef_heapbase (ptr size : BitVec 32) :
    (h.mallocDeadbeef ptr size).heapbase = h.heapbase := rfl

@[simp] theorem mallocDeadbeef_heaptop (ptr size : BitVec 32) :
    (h.mallocDeadbeef ptr size).heaptop = h.heaptop := rfl

@[simp] theorem mallocDeadbeef_brk (ptr size : BitVec 32) : (h.mallocDeadbeef ptr size).brk = h.brk :=
  rfl

theorem setHdr_sameOutside {lo hi a : Nat} (hd : Header) (hlo : lo ≤ a) (hhi : a + 8 ≤ hi)
    (ha : a + 8 ≤ 2 ^ 32) : SameOutside h (h.setHdr (BitVec.ofNat 32 a) hd) lo hi := by
  intro w hw
  have h₀ : w ≠ BitVec.ofNat 32 a := fun e => by
    rw [e, BitVec.toNat_ofNat] at hw
    omega
  have h₄ : w ≠ BitVec.ofNat 32 a + 4 := fun e => by
    have h4 : (4 : BitVec 32).toNat = 4 := rfl
    rw [e, BitVec.toNat_add, BitVec.toNat_ofNat, h4] at hw
    omega
  simp only [setHdr, if_neg h₀, if_neg h₄]

theorem mallocDeadbeef_sameOutside {lo hi ptr size : Nat} (hlo : lo ≤ ptr) (hhi : ptr + size ≤ hi)
    (hp : ptr + size ≤ 2 ^ 32) :
    SameOutside h (h.mallocDeadbeef (BitVec.ofNat 32 ptr) (BitVec.ofNat 32 size)) lo hi := by
  intro w hw
  have hw' : ¬(w - BitVec.ofNat 32 ptr).toNat < 4 * ((BitVec.ofNat 32 size).toNat / 4) := by
    have := w.isLt
    rw [BitVec.toNat_sub, BitVec.toNat_ofNat, BitVec.toNat_ofNat]
    omega
  simp only [mallocDeadbeef, hw', false_and, if_false]

end Heap

theorem Tiles.sameOutside {h h' : Heap} {lo hi a p : Nat} {bs : List Blk} (ht : Tiles h a p bs)
    (hs : SameOutside h h' lo hi) (hc : ∀ c ∈ bs, c.addr + 8 ≤ lo ∨ hi ≤ c.addr) : Tiles h' a p bs :=
  ht.frame fun c hmem => by
    obtain ⟨h1, hf⟩ := ht.block hmem
    exact hs.hdrAt_eq (hc c hmem) (by simp only [Blk.fin] at hf; omega)

/-! ### The first-fit loop -/

namespace Heap

variable {h : Heap}

theorem search_succ_of_lt {size i : BitVec 32} {rp : BitVec 29} {fuel : Nat} (hi : i < h.heaptop)
    (hok : (h.hdrAt i).ok = true) (hp : (h.hdrAt i).prevblock = rp) :
    h.search size (fuel + 1) i rp =
      if (h.hdrAt i).inuse = 1 ∨ (h.hdrAt i).size < size then
        h.search size fuel (i + (h.hdrAt i).nextoff) (h.hdrAt i).nextblock
      else some (.block i) := by
  rw [search, if_pos hi]
  simp only [hok, hp, Bool.not_true, Bool.false_eq_true, if_false, ne_eq, not_true_eq_false]

theorem search_tiles {size : BitVec 32} : ∀ {a p : Nat} {bs : List Blk} {fuel : Nat},
    Tiles h a p bs → endOf a bs = h.heaptop.toNat → bs.length < fuel →
    h.search size fuel (BitVec.ofNat 32 a) (BitVec.ofNat 29 p) =
      some (match bs.find? (Blk.fits size.toNat) with
        | some b => .block (BitVec.ofNat 32 b.addr)
        | none => .top (BitVec.ofNat 29 (lastNext p bs)))
  | a, p, [], fuel + 1, .nil, he, _ => by
    have htop : BitVec.ofNat 32 a = h.heaptop := by
      apply BitVec.eq_of_toNat_eq
      have := h.heaptop.isLt
      simp only [endOf] at he
      rw [BitVec.toNat_ofNat, he]
      omega
    have hnl : ¬h.heaptop < h.heaptop := fun e => lt_irrefl _ (BitVec.lt_def.1 e)
    rw [search, htop, if_neg hnl, if_neg (not_not.2 rfl)]
    rfl
  | a, p, b :: bs, fuel + 1, .cons ha h1 hf hd ht, he, hl => by
    subst ha
    have hb := ht.bounds.1
    simp only [endOf] at he
    have hfin : b.fin = b.addr + 8 * b.next := rfl
    have hlt : BitVec.ofNat 32 b.addr < h.heaptop := by
      rw [BitVec.lt_def, BitVec.toNat_ofNat, ← he]
      omega
    have hcond : ((h.hdrAt (BitVec.ofNat 32 b.addr)).inuse = 1 ∨
        (h.hdrAt (BitVec.ofNat 32 b.addr)).size < size) ↔ b.fits size.toNat = false := by
      rw [hd.inuse_eq_one, BitVec.lt_def, hd.toNat_size hf h1]
      cases hi : b.inuse <;> simp [Blk.fits, hi]
    rw [search_succ_of_lt hlt hd.ok hd.1, hd.nextoff_eq hf, hd.2.1, List.find?_cons]
    cases hfit : b.fits size.toNat
    · rw [if_pos (hcond.2 hfit)]
      exact search_tiles ht he (by simp only [List.length_cons] at hl; omega)
    · rw [if_neg (fun hc => absurd (hcond.1 hc) (by rw [hfit]; decide))]

end Heap

theorem mkfield_eq (x : BitVec 32) : mkfield x = BitVec.ofNat 29 (x.toNat / 8) := by
  apply BitVec.eq_of_toNat_eq
  rw [toNat_mkfield, BitVec.toNat_ofNat]
  have := x.isLt
  omega

theorem Tiles.setPrev {h h' : Heap} {lo hi p p' : Nat} {c : Blk} {cs : List Blk}
    (ht : Tiles h c.addr p (c :: cs)) (hs : SameOutside h h' lo hi) (hhi : hi ≤ c.fin)
    (hc : h'.hdrAt (BitVec.ofNat 32 c.addr) =
      { h.hdrAt (BitVec.ofNat 32 c.addr) with prevblock := BitVec.ofNat 29 p' }) :
    Tiles h' c.addr p' (c :: cs) := by
  obtain _ | ⟨-, h1, hf, ⟨-, hn, hu, hm₁, hm₂⟩, hcs⟩ := ht
  refine .cons rfl h1 hf ?_ (hcs.sameOutside hs fun d hd => .inr ?_)
  · rw [hc]
    exact ⟨rfl, hn, hu, hm₁, hm₂⟩
  · exact le_trans hhi (hcs.bounds.2 d hd).1

namespace Heap

variable {h : Heap}

theorem mallocSplit_tiles {b : Blk} {post : List Blk} {prv : Nat} {sz : BitVec 32}
    (ht : Tiles h b.addr prv (b :: post)) (hend : endOf b.addr (b :: post) = h.heaptop.toNat)
    (h8 : b.addr % 8 = 0) (hfit : b.fits sz.toNat = true) (hsz8 : sz.toNat % 8 = 0) :
    ∃ h', h.mallocSplit (BitVec.ofNat 32 b.addr) sz = some h' ∧
      Tiles h' b.addr prv (b.split sz.toNat ++ post) ∧ SameOutside h h' b.addr (b.fin + 8) ∧
      h'.heapbase = h.heapbase ∧ h'.heaptop = h.heaptop ∧ h'.brk = h.brk := by
  have hpost := ht
  obtain _ | ⟨-, h1, hf, hd, hpost⟩ := hpost
  simp only [Blk.fits, Bool.and_eq_true, Bool.not_eq_true', decide_eq_true_eq] at hfit
  obtain ⟨hfree, hle⟩ := hfit
  have hsize := hd.toNat_size hf h1
  have hfin : b.fin = b.addr + 8 * b.next := rfl
  have hbsize : b.size = 8 * b.next - 8 := rfl
  have hb8 : (8 : BitVec 32).toNat = 8 := rfl
  have hmod : ¬sz % MBLOCKSIZE ≠ 0 := by
    rw [not_not]
    apply BitVec.eq_of_toNat_eq
    rw [BitVec.toNat_umod, MBLOCKSIZE, hb8]
    exact hsz8
  have hsub : ((h.hdrAt (BitVec.ofNat 32 b.addr)).size - sz).toNat = b.size - sz.toNat := by
    rw [BitVec.toNat_sub, hsize]
    simp only [Blk.size] at hle ⊢
    omega
  unfold mallocSplit
  rw [if_neg hmod]
  by_cases hroom : b.size - sz.toNat < 2 * 8
  · -- no room for another block: the block stays whole
    have hlt : (h.hdrAt (BitVec.ofNat 32 b.addr)).size - sz < 2 * MBLOCKSIZE := by
      rw [BitVec.lt_def, hsub]
      exact hroom
    rw [if_pos hlt]
    refine ⟨h, rfl, ?_, SameOutside.refl _ _ _, rfl, rfl, rfl⟩
    rw [Blk.split, if_pos hroom]
    exact ht
  have hge : ¬(h.hdrAt (BitVec.ofNat 32 b.addr)).size - sz < 2 * MBLOCKSIZE := by
    rw [BitVec.lt_def, hsub]
    exact hroom
  rw [if_neg hge]
  dsimp only
  set x := BitVec.ofNat 32 b.addr with hx
  set hd0 := h.hdrAt x with hhd0
  set an := b.addr + sz.toNat + 8 with han
  have hk : (sz + MBLOCKSIZE).toNat = sz.toNat + 8 := by
    rw [BitVec.toNat_add, MBLOCKSIZE, hb8]
    simp only [Blk.size] at hle
    omega
  have hoff : ({ hd0 with nextblock := mkfield (sz + MBLOCKSIZE) } : Header).nextoff =
      sz + MBLOCKSIZE := by
    apply BitVec.eq_of_toNat_eq
    rw [Header.toNat_nextoff, toNat_mkfield, hk]
    omega
  have hnew : x + (sz + MBLOCKSIZE) = BitVec.ofNat 32 an := by
    apply BitVec.eq_of_toNat_eq
    rw [BitVec.toNat_add, hk, hx, BitVec.toNat_ofNat, BitVec.toNat_ofNat]
    simp only [Blk.size] at hle
    omega
  have hne : ¬BitVec.ofNat 32 an = BitVec.ofNat 32 b.fin := fun e => by
    have := congrArg BitVec.toNat e
    rw [BitVec.toNat_ofNat, BitVec.toNat_ofNat] at this
    simp only [Blk.size] at hroom hle
    omega
  rw [hdrAt_setHdr_self, hoff, hnew, hd.nextoff_eq hf, if_neg hne]
  simp only [setHdr_heaptop]
  have hm₁ : mkfield (sz + MBLOCKSIZE) = BitVec.ofNat 29 (sz.toNat / 8 + 1) := by
    rw [mkfield_eq, hk]
    congr 1
    omega
  have hm₂ : mkfield (hd0.size - sz) = BitVec.ofNat 29 (b.next - (sz.toNat / 8 + 1)) := by
    rw [mkfield_eq, hsub]
    congr 1
    simp only [Blk.size] at hle ⊢
    omega
  have hsz : sz.toNat % 8 = 0 ∧ an + 8 ≤ b.fin := by
    simp only [Blk.size] at hroom
    omega
  set h₁ := h.setHdr x { hd0 with nextblock := mkfield (sz + MBLOCKSIZE) } with hh₁
  set h₂ := h₁.setHdr (BitVec.ofNat 32 an)
    ⟨mkfield (sz + MBLOCKSIZE), 0, MMAGIC, mkfield (hd0.size - sz), 0, MMAGIC⟩ with hh₂
  have hs₂ : SameOutside h h₂ b.addr b.fin :=
    (setHdr_sameOutside h _ le_rfl (by omega) (by omega)).trans
      (setHdr_sameOutside h₁ _ (by omega) (by omega) (by omega))
  have hx₂ : h₂.hdrAt x = { hd0 with nextblock := mkfield (sz + MBLOCKSIZE) } := by
    rw [hh₂, hdrAt_setHdr_of_aligned _ _ (by omega) (by omega) (by omega) h8 (by omega),
      hdrAt_setHdr_self]
  have hfin₂ : h₂.hdrAt (BitVec.ofNat 32 b.fin) = h.hdrAt (BitVec.ofNat 32 b.fin) :=
    hs₂.hdrAt_eq (.inr le_rfl) (by omega)
  have han₂ : h₂.hdrAt (BitVec.ofNat 32 an) =
      ⟨mkfield (sz + MBLOCKSIZE), 0, MMAGIC, mkfield (hd0.size - sz), 0, MMAGIC⟩ :=
    hdrAt_setHdr_self _ _ _
  have hmid : ∀ h' : Heap, h'.hdrAt x = h₂.hdrAt x →
      h'.hdrAt (BitVec.ofNat 32 an) = h₂.hdrAt (BitVec.ofNat 32 an) →
      Tiles h' b.fin (b.next - (sz.toNat / 8 + 1)) post →
      Tiles h' b.addr prv (b.split sz.toNat ++ post) := by
    intro h' hx' han' hpost'
    obtain ⟨hp, -, hu, hmg₁, hmg₂⟩ := hd
    rw [Blk.split, if_neg hroom]
    refine .cons rfl (show 1 ≤ sz.toNat / 8 + 1 by omega)
      (show b.addr + 8 * (sz.toNat / 8 + 1) < 2 ^ 32 by omega) ?_
      (.cons (show an = b.addr + 8 * (sz.toNat / 8 + 1) by omega)
        (show 1 ≤ b.next - (sz.toNat / 8 + 1) by omega)
        (show an + 8 * (b.next - (sz.toNat / 8 + 1)) < 2 ^ 32 by omega) ?_ ?_)
    · rw [hx', hx₂]
      exact ⟨hp, hm₁, hu, hmg₁, hmg₂⟩
    · rw [show ({ b with next := sz.toNat / 8 + 1 } : Blk).fin = an by simp only [Blk.fin]; omega,
        han', han₂]
      exact ⟨hm₁, hm₂, rfl, rfl, rfl⟩
    · rw [show (⟨an, b.next - (sz.toNat / 8 + 1), false⟩ : Blk).fin = b.fin by
        simp only [Blk.fin]; omega]
      exact hpost'
  rcases post with _ | ⟨c, post'⟩
  · -- `b` was the last block: the old `M_NEXT` is `__heaptop`
    have htop : BitVec.ofNat 32 b.fin = h.heaptop := by
      apply BitVec.eq_of_toNat_eq
      rw [BitVec.toNat_ofNat, ← hend]
      simp only [endOf]
      omega
    simp only [htop, ne_eq, not_true_eq_false, if_false]
    exact ⟨h₂, rfl, hmid h₂ rfl rfl .nil, hs₂.mono le_rfl (by omega), rfl, rfl, rfl⟩
  · -- the header after `b` now follows the new block
    have hcs := hpost
    obtain _ | ⟨hc, hc1, hcf, -, hrest⟩ := hcs
    have hend' := hrest.bounds.1
    simp only [endOf] at hend hend'
    have hcfin : c.fin = c.addr + 8 * c.next := rfl
    have hne' : BitVec.ofNat 32 b.fin ≠ h.heaptop := fun e => by
      have := congrArg BitVec.toNat e
      rw [BitVec.toNat_ofNat, ← hend] at this
      omega
    simp only [ne_eq, hne', not_false_eq_true, if_true]
    have han8 : an % 8 = 0 := by omega
    set h₃ := h₂.setHdr (BitVec.ofNat 32 b.fin)
      { h₂.hdrAt (BitVec.ofNat 32 b.fin) with
        prevblock := (h₂.hdrAt (BitVec.ofNat 32 an)).nextblock } with hh₃
    have hs₃ : SameOutside h h₃ b.addr (b.fin + 8) :=
      (hs₂.mono le_rfl (by omega)).trans (setHdr_sameOutside h₂ _ (by omega) le_rfl (by omega))
    rw [← hc] at hpost
    refine ⟨h₃, rfl, hmid h₃ ?_ ?_ ?_, hs₃, rfl, rfl, rfl⟩
    · exact hdrAt_setHdr_of_aligned _ _ (by omega) (by omega) (by omega) h8 (by omega)
    · exact hdrAt_setHdr_of_aligned _ _ (by omega) (by omega) (by omega) han8 (by omega)
    · rw [← hc]
      refine hpost.setPrev hs₃ (by omega) ?_
      rw [hc, hh₃, hdrAt_setHdr_self, hfin₂, han₂, hm₂]

end Heap

theorem Tiles.setUse {h : Heap} {a p : Nat} {b : Blk} {bs : List Blk} (ht : Tiles h a p (b :: bs))
    (v : Bool) :
    Tiles (h.setHdr (BitVec.ofNat 32 a) { h.hdrAt (BitVec.ofNat 32 a) with inuse := BitVec.ofBool v })
      a p ({ b with inuse := v } :: bs) := by
  obtain _ | ⟨ha, h1, hf, ⟨hp, hn, -, hm₁, hm₂⟩, hbs⟩ := ht
  have hfin : b.fin = b.addr + 8 * b.next := rfl
  have hs := h.setHdr_sameOutside { h.hdrAt (BitVec.ofNat 32 a) with inuse := BitVec.ofBool v }
    le_rfl le_rfl (by omega : a + 8 ≤ 2 ^ 32)
  refine .cons ha h1 hf ?_ (hbs.sameOutside hs fun c hc => .inr ?_)
  · rw [Heap.hdrAt_setHdr_self]
    exact ⟨hp, hn, rfl, hm₁, hm₂⟩
  · have := (hbs.bounds.2 c hc).1
    omega

theorem Tiles.setInuse {h : Heap} {a p : Nat} {bs : List Blk} (ht : Tiles h a p bs) (hne : bs ≠ []) :
    Tiles (h.setHdr (BitVec.ofNat 32 a) { h.hdrAt (BitVec.ofNat 32 a) with inuse := 1 }) a p
      (setInuse bs) := by
  rcases bs with _ | ⟨b, bs⟩
  · exact absurd rfl hne
  · exact ht.setUse true

theorem Tiles.order {h : Heap} {a p : Nat} {pre post : List Blk} {b : Blk}
    (ht : Tiles h a p (pre ++ b :: post)) :
    (∀ c ∈ pre, c.fin ≤ b.addr) ∧ ∀ c ∈ post, b.fin ≤ c.addr := by
  obtain ⟨hpre, hb⟩ := Tiles.append_iff.1 ht
  obtain _ | ⟨ha, -, -, -, hpost⟩ := hb
  exact ⟨fun c hc => ha ▸ (hpre.bounds.2 c hc).2, fun c hc => (hpost.bounds.2 c hc).1⟩

theorem SameOutside.liveKept {h h' : Heap} {lo hi : Nat} (hs : SameOutside h h' lo hi)
    {cs : List Blk} (hc : ∀ c ∈ cs, c.inuse = true → c.fin ≤ lo ∨ hi ≤ c.data) : LiveKept h h' cs :=
  fun c hmem hu w hlo hhi => hs w (by rcases hc c hmem hu with h | h <;> omega)

theorem toNat_and_not_seven (x : BitVec 32) : (x &&& ~~~7).toNat = x.toNat / 8 * 8 := by
  apply Nat.eq_of_testBit_eq
  intro i
  have h8 : x.toNat / 8 * 8 = (x.toNat >>> 3) <<< 3 := by
    rw [Nat.shiftRight_eq_div_pow, Nat.shiftLeft_eq]
  have hm : (~~~(7 : BitVec 32)).toNat = 2 ^ 32 - (7 + 1) := rfl
  have h7 : (7 : Nat) = 2 ^ 3 - 1 := rfl
  rw [BitVec.toNat_and, Nat.testBit_and, hm, Nat.testBit_two_pow_sub_succ (by omega), h8,
    Nat.testBit_shiftLeft, Nat.testBit_shiftRight, h7, Nat.testBit_two_pow_sub_one]
  by_cases hi : 3 ≤ i
  · rw [Nat.add_sub_cancel' hi]
    by_cases h32 : i < 32
    · simp [hi, h32, show ¬ i < 3 by omega]
    · have hxi : x.toNat < 2 ^ i := lt_of_lt_of_le x.isLt (Nat.pow_le_pow_right (by omega) (by omega))
      simp [h32, Nat.testBit_lt_two_pow hxi]
  · simp [hi, show i < 3 by omega]

theorem roundup_toNat {n : BitVec 32} (hn : n.toNat < 2 ^ 32 - 7) :
    ((n + MBLOCKSIZE - 1) &&& ~~~(MBLOCKSIZE - 1)).toNat = (n.toNat + 7) / 8 * 8 := by
  have h7 : MBLOCKSIZE - 1 = 7 := rfl
  have hs : (n + MBLOCKSIZE - 1).toNat = n.toNat + 7 := by
    have h8 : (8 : BitVec 32).toNat = 8 := rfl
    have h1 : (1 : BitVec 32).toNat = 1 := rfl
    rw [BitVec.toNat_sub, BitVec.toNat_add, MBLOCKSIZE, h8, h1]
    omega
  rw [h7, toNat_and_not_seven, hs]

theorem endOf_append (a : Nat) (xs ys : List Blk) : endOf a (xs ++ ys) = endOf (endOf a xs) ys := by
  induction xs generalizing a with
  | nil => rfl
  | cons b xs ih => exact ih b.fin

theorem lastNext_append (p : Nat) (xs ys : List Blk) :
    lastNext p (xs ++ ys) = lastNext (lastNext p xs) ys := by
  induction xs generalizing p with
  | nil => rfl
  | cons b xs ih => exact ih b.next

theorem endOf_setInuse_split (a : Nat) {b : Blk} {size : Nat} (h8 : size % 8 = 0)
    (hle : size ≤ b.size) : endOf a (setInuse (b.split size)) = b.fin := by
  have hbsize : b.size = 8 * b.next - 8 := rfl
  unfold Blk.split
  split
  · rfl
  · simp only [setInuse, endOf, Blk.fin]
    omega

namespace Rep

variable {h : Heap} {bs : List Blk}

theorem heaptop_ne (hr : Rep h bs) : h.heaptop ≠ 0 := fun e => by
  have h₀ := hr.tiles.bounds.1
  have hz : (0 : BitVec 32).toNat = 0 := rfl
  rw [hr.top, e, hz] at h₀
  exact hr.base_ne (BitVec.eq_of_toNat_eq (by rw [hz]; omega))

theorem base_le (hr : Rep h bs) : h.heapbase ≤ h.heaptop := by
  rw [BitVec.le_def, ← hr.top]
  exact hr.tiles.bounds.1

theorem mallocEnsureInit_eq (hr : Rep h bs) : h.mallocEnsureInit = some h := by
  rw [Heap.mallocEnsureInit, if_neg hr.base_ne]

theorem search_eq (hr : Rep h bs) (size : BitVec 32) :
    h.search size (2 ^ 32 + 1) h.heapbase 0 =
      some (match bs.find? (Blk.fits size.toNat) with
        | some b => .block (BitVec.ofNat 32 b.addr)
        | none => .top (BitVec.ofNat 29 (lastNext 0 bs))) := by
  have hl := hr.tiles.length_le
  have hb : BitVec.ofNat 32 h.heapbase.toNat = h.heapbase := by simp
  rw [← hb]
  refine Heap.search_tiles hr.tiles hr.top ?_
  have := h.heaptop.isLt
  rw [hr.top] at hl
  omega

theorem mallocSbrk_eq (hr : Rep h bs) {amount : BitVec 32} (ha : amount.toNat < 2 ^ 31) :
    h.mallocSbrk amount =
      if h.brkBase.toNat ≤ h.heaptop.toNat + amount.toNat ∧
          h.heaptop.toNat + amount.toNat ≤ h.brkLimit.toNat then
        some (h.heaptop, { h with brk := h.heaptop + amount, heaptop := h.heaptop + amount })
      else some (0, h) := by
  have hi : amount.toInt = amount.toNat := by
    rw [BitVec.toInt_eq_toNat_cond, if_pos (by omega)]
  unfold Heap.mallocSbrk Heap.sbrk
  dsimp only
  rw [hi, ← hr.top_brk]
  by_cases hm : h.brkBase.toNat ≤ h.heaptop.toNat + amount.toNat ∧
      h.heaptop.toNat + amount.toNat ≤ h.brkLimit.toNat
  · rw [if_pos (by exact_mod_cast hm), if_pos hm]
    dsimp only
    have hbrk : BitVec.ofInt 32 ((h.heaptop.toNat : Int) + (amount.toNat : Int)) = h.heaptop + amount := by
      apply BitVec.eq_of_toNat_eq
      have := h.brkLimit.isLt
      rw [BitVec.toNat_ofInt, BitVec.toNat_add]
      omega
    rw [if_neg (not_not.2 rfl), hbrk]
  · rw [if_neg (by exact_mod_cast hm), if_neg hm]

end Rep

theorem setInuse_append {xs : List Blk} (ys : List Blk) (hne : xs ≠ []) :
    setInuse (xs ++ ys) = setInuse xs ++ ys := by
  cases xs with
  | nil => exact absurd rfl hne
  | cons b xs => rfl

theorem split_ne_nil (b : Blk) (size : Nat) : b.split size ≠ [] := by
  unfold Blk.split
  split <;> simp

namespace Heap

variable {h : Heap}

theorem sbrk_of_le {amount : BitVec 32} (ha : amount.toNat < 2 ^ 31)
    (hlo : h.brkBase.toNat ≤ h.brk.toNat + amount.toNat)
    (hhi : h.brk.toNat + amount.toNat ≤ h.brkLimit.toNat) :
    h.sbrk amount = some (h.brk, { h with brk := h.brk + amount }) := by
  have hi : amount.toInt = amount.toNat := by
    rw [BitVec.toInt_eq_toNat_cond, if_pos (by omega)]
  have hbrk : BitVec.ofInt 32 ((h.brk.toNat : Int) + (amount.toNat : Int)) = h.brk + amount := by
    apply BitVec.eq_of_toNat_eq
    have := h.brkLimit.isLt
    rw [BitVec.toNat_ofInt, BitVec.toNat_add]
    omega
  unfold sbrk
  dsimp only
  rw [hi, if_pos (by constructor <;> omega), hbrk]

theorem mallocInit_fresh (hf : Fresh h) :
    ∃ h', h.mallocInit = some h' ∧ Rep h' [] ∧ h'.mem = h.mem ∧ h'.brkBase = h.brkBase ∧
      h'.brkLimit = h.brkLimit := by
  have hlim := h.brkLimit.isLt
  have hb := hf.brk_hi
  unfold mallocInit
  rw [if_neg (by simp only [ne_eq, hf.base, hf.top, not_true_eq_false, or_self, not_false_eq_true])]
  have hz : (0 : BitVec 32).toNat = 0 := rfl
  rw [sbrk_of_le (by rw [hz]; omega) (by rw [hz]; exact hf.brk_lo) (by omega)]
  have hbind : ∀ (r : BitVec 32 × Heap) (f : BitVec 32 × Heap → Option Heap), (some r >>= f) = f r :=
    fun _ _ => rfl
  rw [hbind]
  dsimp only
  have h0 : h.brk + 0 = h.brk := BitVec.add_zero _
  have hb8 : (8 : BitVec 32).toNat = 8 := rfl
  have hmod : (h.brk % MBLOCKSIZE).toNat = h.brk.toNat % 8 := by
    rw [BitVec.toNat_umod, MBLOCKSIZE, hb8]
  rw [if_neg hf.brk_ne, h0]
  by_cases h8 : h.brk % MBLOCKSIZE ≠ 0
  · have h8' : h.brk.toNat % 8 ≠ 0 := fun e => h8 (BitVec.eq_of_toNat_eq (by rw [hmod, e]; rfl))
    have hadj : (MBLOCKSIZE - h.brk % MBLOCKSIZE).toNat = 8 - h.brk.toNat % 8 := by
      rw [BitVec.toNat_sub, hmod, MBLOCKSIZE, hb8]
      omega
    rw [if_pos h8]
    have hlo := hf.brk_lo
    rw [sbrk_of_le (by omega) (by dsimp only; omega) (by dsimp only; omega), hbind]
    dsimp only
    rw [if_neg (not_not.2 rfl)]
    refine ⟨_, rfl, ⟨?_, ?_, rfl, .nil, rfl⟩, rfl, rfl, rfl⟩
    · intro e
      have := congrArg BitVec.toNat e
      rw [BitVec.toNat_add, hadj] at this
      exact absurd this (by rw [show (0 : BitVec 32).toNat = 0 from rfl]; omega)
    · dsimp only
      rw [BitVec.toNat_add, hadj]
      omega
  · rw [if_neg h8]
    refine ⟨_, rfl, ⟨hf.brk_ne, ?_, rfl, .nil, rfl⟩, rfl, rfl, rfl⟩
    dsimp only
    rw [← hmod, not_not.1 h8]
    rfl

/-- `malloc` on a heap laid out as `bs`, for a request below `2 ^ 31 - 15` bytes. -/
theorem malloc_rep {bs : List Blk} {n : BitVec 32} (hr : Rep h bs) (hn : n.toNat + 16 ≤ 2 ^ 31) :
    ∃ h' p bs', h.malloc n = some (h', p) ∧ Rep h' bs' ∧
      MallocRes bs ((n.toNat + 7) / 8 * 8) h.heaptop.toNat h.brkBase.toNat h.brkLimit.toNat bs'
        p.toNat ∧ LiveKept h h' bs := by
  have hsz := roundup_toNat (n := n) (by omega)
  have hchk : ¬(h.heapbase = 0 ∨ h.heaptop = 0 ∨ h.heapbase > h.heaptop) := by
    simp only [not_or, gt_iff_lt]
    exact ⟨hr.base_ne, hr.heaptop_ne,
      fun e => absurd (BitVec.lt_def.1 e) (Nat.not_lt.2 (BitVec.le_def.1 hr.base_le))⟩
  unfold malloc
  rw [hr.mallocEnsureInit_eq, show ∀ f : Heap → Option (Heap × BitVec 32), (some h >>= f) = f h from
    fun _ => rfl, if_neg hchk]
  dsimp only
  rw [hr.search_eq]
  set size := (n + MBLOCKSIZE - 1) &&& ~~~(MBLOCKSIZE - 1) with hsize
  have hbind : ∀ (r : Search) (f : Search → Option (Heap × BitVec 32)), (some r >>= f) = f r :=
    fun _ _ => rfl
  rw [hbind]
  have hb8 : (8 : BitVec 32).toNat = 8 := rfl
  rcases hf : bs.find? (Blk.fits size.toNat) with _ | b
  · -- no block fits: a new block at the break, or `NULL`
    have hnone : ∀ c ∈ bs, c.fits size.toNat = false := fun c hc => by
      simpa using List.find?_eq_none.1 hf c hc
    have hamt : (size + MBLOCKSIZE).toNat = size.toNat + 8 := by
      rw [BitVec.toNat_add, MBLOCKSIZE, hb8]
      omega
    have hbind' : ∀ (r : BitVec 32 × Heap) (f : BitVec 32 × Heap → Option (Heap × BitVec 32)),
        (some r >>= f) = f r := fun _ _ => rfl
    dsimp only
    rw [hr.mallocSbrk_eq (by omega), hamt]
    by_cases hm : h.brkBase.toNat ≤ h.heaptop.toNat + (size.toNat + 8) ∧
        h.heaptop.toNat + (size.toNat + 8) ≤ h.brkLimit.toNat
    · rw [if_pos hm, hbind']
      dsimp only
      rw [if_neg hr.heaptop_ne]
      set top := h.heaptop.toNat with htop
      have hlim := h.brkLimit.isLt
      have htopv : BitVec.ofNat 32 top = h.heaptop := by simp [htop]
      set amt := size + MBLOCKSIZE with hamt'
      set h₁ : Heap := { h with brk := h.heaptop + amt, heaptop := h.heaptop + amt } with hh₁
      set h₂ := h₁.setHdr h.heaptop ⟨BitVec.ofNat 29 (lastNext 0 bs), 0, MMAGIC, mkfield amt, 1,
        MMAGIC⟩ with hh₂
      have hs₁ : SameOutside h h₁ top (top + 8) := fun _ _ => rfl
      have hso : SameOutside h h₂ top (top + 8) := by
        rw [hh₂, ← htopv]
        exact hs₁.trans (setHdr_sameOutside h₁ _ le_rfl le_rfl (by omega))
      have hnew : (h₂.heaptop).toNat = top + (size.toNat + 8) := by
        rw [hh₂, setHdr_heaptop, hh₁]
        dsimp only
        rw [BitVec.toNat_add, hamt]
        omega
      refine ⟨h₂, _, bs ++ [⟨top, size.toNat / 8 + 1, true⟩], rfl, ⟨hr.base_ne, hr.base_al, rfl, ?_, ?_⟩,
        ?_, hso.liveKept fun c hc _ => .inl ((hr.tiles.bounds.2 c hc).2.trans hr.top.le)⟩
      · refine Tiles.append_iff.2 ⟨hr.tiles.sameOutside hso fun c hc => .inl ?_, ?_⟩
        · have hc₁ := (hr.tiles.bounds.2 c hc).2
          have hc₂ := (hr.tiles.block hc).1
          have hcf : c.fin = c.addr + 8 * c.next := rfl
          rw [hr.top] at hc₁
          omega
        · show Tiles h₂ (endOf h.heapbase.toNat bs) _ _
          rw [hr.top]
          refine .cons rfl (show 1 ≤ size.toNat / 8 + 1 by omega)
            (show top + 8 * (size.toNat / 8 + 1) < 2 ^ 32 by omega) ?_ .nil
          rw [htopv, hh₂, hdrAt_setHdr_self]
          refine ⟨rfl, ?_, rfl, rfl, rfl⟩
          show mkfield amt = BitVec.ofNat 29 (size.toNat / 8 + 1)
          rw [mkfield_eq, hamt]
          congr 1
          omega
      · show endOf h.heapbase.toNat (bs ++ _) = h₂.heaptop.toNat
        rw [endOf_append, hr.top, hnew]
        show top + 8 * (size.toNat / 8 + 1) = _
        omega
      · have hp : (h.heaptop + MBLOCKSIZE).toNat = top + 8 := by
          rw [BitVec.toNat_add, MBLOCKSIZE, hb8]
          omega
        rw [hp, ← hsz]
        exact .grow hnone hm.1 hm.2
    · rw [if_neg hm, hbind']
      dsimp only
      rw [if_pos rfl]
      refine ⟨h, 0, bs, rfl, hr, ?_, fun _ _ _ _ _ _ => rfl⟩
      rw [← hsz]
      exact .null hnone hm
  · -- the first block that fits is split and taken
    obtain ⟨hfit, pre, post, rfl, hpre⟩ := List.find?_eq_some_iff_append.1 hf
    obtain ⟨tpre, tb⟩ := Tiles.append_iff.1 hr.tiles
    have hba : b.addr = endOf h.heapbase.toNat pre := by
      obtain _ | ⟨ha, -⟩ := tb
      exact ha
    rw [← hba] at tb
    have hend : endOf b.addr (b :: post) = h.heaptop.toNat := by
      rw [← hr.top, endOf_append, ← hba]
    have h8 : b.addr % 8 = 0 :=
      hr.tiles.addr_mod hr.base_al b (List.mem_append_right _ List.mem_cons_self)
    obtain ⟨h₁, hs, ht₁, hso, hbase₁, htop₁, hbrk₁⟩ :=
      mallocSplit_tiles tb hend h8 hfit (by rw [hsz]; omega)
    obtain ⟨horder, horder'⟩ := hr.tiles.order
    have hbfin : b.fin = b.addr + 8 * b.next := rfl
    obtain ⟨hb1, hbf⟩ := hr.tiles.block (List.mem_append_right _ List.mem_cons_self)
    dsimp only
    rw [hs]
    set h₂ := h₁.setHdr (BitVec.ofNat 32 b.addr)
      { h₁.hdrAt (BitVec.ofNat 32 b.addr) with inuse := 1 } with hh₂
    have hso₂ : SameOutside h h₂ b.addr (b.fin + 8) :=
      hso.trans (setHdr_sameOutside h₁ _ le_rfl (by omega) (by omega))
    refine ⟨h₂, _, pre ++ setInuse (b.split size.toNat) ++ post, rfl, ⟨?_, ?_, ?_, ?_, ?_⟩, ?_, ?_⟩
    · rw [hh₂, setHdr_heapbase, hbase₁]
      exact hr.base_ne
    · rw [hh₂, setHdr_heapbase, hbase₁]
      exact hr.base_al
    · rw [hh₂, setHdr_heaptop, setHdr_brk, htop₁, hbrk₁]
      exact hr.top_brk
    · -- the blocks before `b` are untouched, `b` and the rest as the split left them
      rw [hh₂, setHdr_heapbase, hbase₁, List.append_assoc]
      refine Tiles.append_iff.2 ⟨tpre.sameOutside hso₂ fun c hc => .inl ?_, ?_⟩
      · have := horder c hc
        have := (tpre.block hc).1
        have hcf : c.fin = c.addr + 8 * c.next := rfl
        omega
      · rw [← hba, ← setInuse_append _ (split_ne_nil b _)]
        exact ht₁.setInuse (by simp [split_ne_nil])
    · rw [hh₂, setHdr_heapbase, setHdr_heaptop, hbase₁, htop₁, ← hr.top, List.append_assoc,
        endOf_append, endOf_append, ← hba, endOf_setInuse_split _ (by rw [hsz]; omega)
          (by simp only [Blk.fits, Bool.and_eq_true, decide_eq_true_eq] at hfit; exact hfit.2),
        endOf_append]
      rfl
    · have hp : (BitVec.ofNat 32 b.addr + MBLOCKSIZE).toNat = b.data := by
        rw [BitVec.toNat_add, BitVec.toNat_ofNat, MBLOCKSIZE, hb8, Blk.data]
        omega
      rw [hp, ← hsz]
      exact .fit pre post b rfl hfit fun c hc => by simpa using hpre c hc
    · refine hso₂.liveKept fun c hc hu => ?_
      rcases List.mem_append.1 hc with hc | hc
      · exact .inl (horder c hc)
      · rcases List.mem_cons.1 hc with rfl | hc
        · simp only [Blk.fits, Bool.and_eq_true, Bool.not_eq_true', hu] at hfit
          exact absurd hfit.1 (by decide)
        · have := horder' c hc
          exact .inr (by simp only [Blk.data]; omega)

end Heap

end Malloc

end Libc

end Os161
