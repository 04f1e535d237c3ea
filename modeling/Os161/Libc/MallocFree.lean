import Os161.Libc.MallocHeap

/-!
# `free` keeps the heap

`free` marks the block it is given free and calls `__malloc_trymerge` twice: on the block and the
one after it, then on the one before it and the block. On the list of blocks that is `freeList`.
On a heap laid out as a list of blocks, `free` of the data pointer of a block in use keeps the
layout and the data of every other block in use (`free_rep`), provided the pointer lies below
`__heaptop`, as `free` checks; the block `malloc(0)` puts at the break is the one that does not.
-/

namespace Os161

namespace Libc

namespace Malloc

/-- What `__malloc_trymerge` makes of two adjacent blocks: one free block when both are free. -/
def Blk.merge (a c : Blk) : List Blk :=
  if a.inuse || c.inuse then [a, c] else [⟨a.addr, a.next + c.next, false⟩]

/-- The first merge of `free`: the block `b` with the block after it, if there is one. -/
def mergeNext (b : Blk) : List Blk → List Blk
  | c :: cs => b.merge c ++ cs
  | [] => [b]

/-- The second merge of `free`: the last block of `pre` with the first of `ms`. -/
def mergePrev (pre ms : List Blk) : List Blk :=
  match pre.getLast?, ms with
  | some a, m :: ms => pre.dropLast ++ a.merge m ++ ms
  | _, ms => pre ++ ms

/-- What `free` of the block `b` between `pre` and `post` makes of the blocks: `b` marked free,
merged with the block after it, then with the block before it. -/
def freeList (pre : List Blk) (b : Blk) (post : List Blk) : List Blk :=
  mergePrev pre (mergeNext { b with inuse := false } post)

theorem LiveKept.trans {h₁ h₂ h₃ : Heap} {cs : List Blk} (h₁₂ : LiveKept h₁ h₂ cs)
    (h₂₃ : LiveKept h₂ h₃ cs) : LiveKept h₁ h₃ cs :=
  fun c hc hu w hlo hhi => (h₂₃ c hc hu w hlo hhi).trans (h₁₂ c hc hu w hlo hhi)

theorem LiveKept.mono {h h' : Heap} {cs cs' : List Blk} (hk : LiveKept h h' cs)
    (hsub : ∀ c ∈ cs', c.inuse = true → c ∈ cs) : LiveKept h h' cs' :=
  fun c hc hu => hk c (hsub c hc hu) hu

theorem Blk.mem_merge {a c e : Blk} {rest : List Blk} (he : e ∈ a :: c :: rest)
    (hu : e.inuse = true) : e ∈ a.merge c ++ rest := by
  unfold Blk.merge
  split
  · exact he
  · rename_i hfree
    simp only [Bool.or_eq_true, not_or, Bool.not_eq_true] at hfree
    simp only [List.mem_cons] at he
    rcases he with rfl | rfl | he
    · exact absurd hu (by rw [hfree.1]; decide)
    · exact absurd hu (by rw [hfree.2]; decide)
    · exact List.mem_append_right _ he

theorem Blk.endOf_merge (x : Nat) {a c : Blk} (hc : c.addr = a.fin) (rest : List Blk) :
    endOf x (a.merge c ++ rest) = endOf x (a :: c :: rest) := by
  unfold Blk.merge
  split
  · rfl
  · simp only [List.cons_append, List.nil_append, endOf]
    congr 1
    simp only [Blk.fin] at hc ⊢
    omega


theorem LiveKept.append {h h' : Heap} {xs ys : List Blk} (hx : LiveKept h h' xs)
    (hy : LiveKept h h' ys) : LiveKept h h' (xs ++ ys) := fun c hc =>
  (List.mem_append.1 hc).elim (hx c) (hy c)

theorem mergePrev_nil (ms : List Blk) : mergePrev [] ms = ms := rfl

theorem mergePrev_concat (pre : List Blk) (a m : Blk) (ms : List Blk) :
    mergePrev (pre ++ [a]) (m :: ms) = pre ++ a.merge m ++ ms := by
  simp [mergePrev]

theorem mergeNext_head {b : Blk} (post : List Blk) (hb : b.inuse = false) :
    ∃ m ms, mergeNext b post = m :: ms ∧ m.addr = b.addr ∧ m.inuse = false := by
  rcases post with _ | ⟨c, cs⟩
  · exact ⟨b, [], rfl, rfl, hb⟩
  · show ∃ m ms, b.merge c ++ cs = m :: ms ∧ m.addr = b.addr ∧ m.inuse = false
    unfold Blk.merge
    split
    · exact ⟨b, c :: cs, rfl, rfl, hb⟩
    · exact ⟨_, cs, rfl, rfl, rfl⟩

theorem mem_mergeNext {b e : Blk} {post : List Blk} (he : e ∈ post) (hu : e.inuse = true) :
    e ∈ mergeNext b post := by
  rcases post with _ | ⟨c, cs⟩
  · exact absurd he List.not_mem_nil
  · exact Blk.mem_merge (List.mem_cons_of_mem b he) hu

namespace Header

theorem toNat_prevoff (hd : Header) : hd.prevoff.toNat = hd.prevblock.toNat * 8 := by
  have := hd.prevblock.isLt
  simp only [prevoff, BitVec.toNat_shiftLeft, BitVec.truncate_eq_setWidth, BitVec.toNat_setWidth,
    Nat.shiftLeft_eq]
  omega

end Header

theorem Blk.Hdr.sub_prevoff {c : Blk} {p : Nat} {hd : Header} (h : c.Hdr p hd) (hp : 8 * p ≤ c.addr) :
    BitVec.ofNat 32 c.addr - hd.prevoff = BitVec.ofNat 32 (c.addr - 8 * p) := by
  apply BitVec.eq_of_toNat_eq
  rw [BitVec.toNat_sub, Header.toNat_prevoff, h.1, BitVec.toNat_ofNat, BitVec.toNat_ofNat,
    BitVec.toNat_ofNat]
  omega

namespace Heap

variable {h : Heap}

theorem mallocTrymerge_tiles {a c : Blk} {rest : List Blk} {prv : Nat}
    (ht : Tiles h a.addr prv (a :: c :: rest)) (hend : endOf a.addr (a :: c :: rest) = h.heaptop.toNat)
    (h8 : a.addr % 8 = 0) :
    ∃ h', h.mallocTrymerge (BitVec.ofNat 32 a.addr) (BitVec.ofNat 32 c.addr) = some h' ∧
      Tiles h' a.addr prv (a.merge c ++ rest) ∧ SameOutside h h' a.addr (c.fin + 8) ∧
      LiveKept h h' (a :: c :: rest) ∧
      h'.heapbase = h.heapbase ∧ h'.heaptop = h.heaptop ∧ h'.brk = h.brk := by
  have hall := ht
  obtain _ | ⟨-, ha1, haf, hda, htc⟩ := hall
  obtain _ | ⟨hca, hc1, hcf, hdc, hrest⟩ := htc
  rw [← hca] at hdc
  have hafin : a.fin = a.addr + 8 * a.next := rfl
  have hcfin : c.fin = c.addr + 8 * c.next := rfl
  have hend' := hrest.bounds.1
  simp only [endOf] at hend hend'
  unfold mallocTrymerge
  dsimp only
  rw [hdc.1, hda.2.1]
  simp only [ne_eq, not_true_eq_false, if_false]
  have hinuse : (h.hdrAt (BitVec.ofNat 32 a.addr)).inuse = 1 ∨
      (h.hdrAt (BitVec.ofNat 32 c.addr)).inuse = 1 ↔ (a.inuse || c.inuse) = true := by
    rw [hda.inuse_eq_one, hdc.inuse_eq_one, Bool.or_eq_true]
  by_cases hused : (a.inuse || c.inuse) = true
  · rw [if_pos (hinuse.2 hused)]
    refine ⟨h, rfl, ?_, .refl _ _ _, fun _ _ _ _ _ _ => rfl, rfl, rfl, rfl⟩
    rw [Blk.merge, if_pos hused]
    exact ht
  rw [if_neg (mt hinuse.1 hused)]
  simp only [Bool.or_eq_true, not_or, Bool.not_eq_true] at hused
  obtain ⟨hfa, hfc⟩ := hused
  set hA := h.hdrAt (BitVec.ofNat 32 a.addr) with hhA
  set hC := h.hdrAt (BitVec.ofNat 32 c.addr) with hhC
  have hb8 : (8 : BitVec 32).toNat = 8 := rfl
  have hk : mkfield (MBLOCKSIZE + hA.size + MBLOCKSIZE + hC.size) =
      BitVec.ofNat 29 (a.next + c.next) := by
    rw [mkfield_eq]
    congr 1
    simp only [BitVec.toNat_add, MBLOCKSIZE, hb8, hda.toNat_size haf ha1, hdc.toNat_size hcf hc1,
      Blk.size]
    omega
  rw [hdc.nextoff_eq hcf, hk]
  simp only [setHdr_heaptop]
  set h₁ := h.setHdr (BitVec.ofNat 32 a.addr)
    { hA with nextblock := BitVec.ofNat 29 (a.next + c.next) } with hh₁
  have hs₁ : SameOutside h h₁ a.addr (c.fin + 8) := setHdr_sameOutside h _ le_rfl (by omega) (by omega)
  have hmfin : (⟨a.addr, a.next + c.next, false⟩ : Blk).fin = c.fin := by
    simp only [Blk.fin]
    omega
  -- the old header of `c` is overwritten with `0xdeadbeef`, which no tiling of `m` reads
  have hdead : ∀ h₂ : Heap, SameOutside h h₂ a.addr (c.fin + 8) →
      h₂.hdrAt (BitVec.ofNat 32 a.addr) = h₁.hdrAt (BitVec.ofNat 32 a.addr) →
      Tiles h₂ c.fin (a.next + c.next) rest → h₂.heaptop = h.heaptop → h₂.heapbase = h.heapbase →
      h₂.brk = h.brk →
      ∃ h', some (h₂.mallocDeadbeef (BitVec.ofNat 32 c.addr) MBLOCKSIZE) = some h' ∧
        Tiles h' a.addr prv (a.merge c ++ rest) ∧ SameOutside h h' a.addr (c.fin + 8) ∧
        LiveKept h h' (a :: c :: rest) ∧
        h'.heapbase = h.heapbase ∧ h'.heaptop = h.heaptop ∧ h'.brk = h.brk := by
    intro h₂ hs₂ ha₂ hr₂ ht₂ hb₂ hk₂
    have hd₃ : SameOutside h₂ (h₂.mallocDeadbeef (BitVec.ofNat 32 c.addr) (BitVec.ofNat 32 8))
        c.addr c.fin := mallocDeadbeef_sameOutside h₂ le_rfl (by omega) (by omega)
    have hs₃ := hs₂.trans (hd₃.mono (by omega) (by omega))
    have hlive : LiveKept h _ (a :: c :: rest) := hs₃.liveKept fun e he hu => by
      simp only [List.mem_cons] at he
      rcases he with rfl | rfl | he
      · exact absurd hu (by rw [hfa]; decide)
      · exact absurd hu (by rw [hfc]; decide)
      · have := (hrest.bounds.2 e he).1
        simp only [Blk.data]
        omega
    refine ⟨_, rfl, ?_, hs₃, hlive, hb₂, ht₂, hk₂⟩
    rw [Blk.merge, if_neg (by simp [hfa, hfc])]
    refine .cons rfl (show 1 ≤ a.next + c.next by omega) (by rw [hmfin]; exact hcf) ?_ ?_
    · rw [show MBLOCKSIZE = BitVec.ofNat 32 8 from rfl, hd₃.hdrAt_eq (.inl (by omega)) (by omega),
        ha₂, hh₁, hdrAt_setHdr_self]
      obtain ⟨hp, -, hu, hmg₁, hmg₂⟩ := hda
      exact ⟨hp, rfl, by rw [hu, hfa], hmg₁, hmg₂⟩
    · rw [hmfin]
      exact hr₂.sameOutside hd₃ fun e he => .inr (hr₂.bounds.2 e he).1
  rcases rest with _ | ⟨d, rest⟩
  · have htop : BitVec.ofNat 32 c.fin = h.heaptop := by
      apply BitVec.eq_of_toNat_eq
      rw [BitVec.toNat_ofNat, ← hend]
      simp only [endOf]
      omega
    simp only [htop, not_true_eq_false, if_false]
    exact hdead h₁ hs₁ rfl .nil rfl rfl rfl
  · have hds := hrest
    obtain _ | ⟨hd, hd1, -, -, htail⟩ := hds
    have hdfin : d.fin = d.addr + 8 * d.next := rfl
    have hend'' := htail.bounds.1
    simp only [endOf] at hend
    have hne : BitVec.ofNat 32 c.fin ≠ h.heaptop := fun e => by
      have := congrArg BitVec.toNat e
      rw [BitVec.toNat_ofNat, ← hend] at this
      omega
    simp only [hne, not_false_eq_true, if_true]
    set h₂ := h₁.setHdr (BitVec.ofNat 32 c.fin)
      { h₁.hdrAt (BitVec.ofNat 32 c.fin) with
        prevblock := (h₁.hdrAt (BitVec.ofNat 32 a.addr)).nextblock } with hh₂
    have hs₂ : SameOutside h h₂ a.addr (c.fin + 8) :=
      hs₁.trans (setHdr_sameOutside h₁ _ (by omega) le_rfl (by omega))
    rw [← hd] at hrest
    refine hdead h₂ hs₂ ?_ ?_ rfl rfl rfl
    · exact hdrAt_setHdr_of_aligned _ _ (by omega) (by omega) (by omega) h8 (by omega)
    · rw [← hd]
      refine hrest.setPrev hs₂ (by omega) ?_
      rw [hd, hh₂, hdrAt_setHdr_self, hh₁, hdrAt_setHdr_self,
        hdrAt_setHdr_of_aligned _ _ (by omega) (by omega) h8 (by omega) (by omega)]


theorem freeNext_tiles {b : Blk} {post : List Blk} {prv : Nat}
    (ht : Tiles h b.addr prv (b :: post)) (hend : endOf b.addr (b :: post) = h.heaptop.toNat)
    (h8 : b.addr % 8 = 0) :
    ∃ h', (if BitVec.ofNat 32 b.fin ≠ h.heaptop then
        h.mallocTrymerge (BitVec.ofNat 32 b.addr) (BitVec.ofNat 32 b.fin) else some h) = some h' ∧
      Tiles h' b.addr prv (mergeNext b post) ∧
      endOf b.addr (mergeNext b post) = endOf b.addr (b :: post) ∧
      SameOutside h h' b.addr (2 ^ 32) ∧ LiveKept h h' post ∧
      h'.heapbase = h.heapbase ∧ h'.heaptop = h.heaptop ∧ h'.brk = h.brk := by
  have hb := ht
  obtain _ | ⟨-, -, hbf, -, hpost⟩ := hb
  have hfin : b.fin = b.addr + 8 * b.next := rfl
  rcases post with _ | ⟨c, cs⟩
  · have htop : BitVec.ofNat 32 b.fin = h.heaptop := by
      apply BitVec.eq_of_toNat_eq
      rw [BitVec.toNat_ofNat, ← hend]
      simp only [endOf]
      omega
    simp only [htop, ne_eq, not_true_eq_false, if_false]
    exact ⟨h, rfl, ht, rfl, .refl _ _ _, fun _ _ _ _ _ _ => rfl, rfl, rfl, rfl⟩
  · obtain _ | ⟨hca, hc1, hcf, -, hrest⟩ := hpost
    have hcfin : c.fin = c.addr + 8 * c.next := rfl
    have hend' := hrest.bounds.1
    simp only [endOf] at hend
    have hne : BitVec.ofNat 32 b.fin ≠ h.heaptop := fun e => by
      have := congrArg BitVec.toNat e
      rw [BitVec.toNat_ofNat, ← hend] at this
      omega
    simp only [hne, ne_eq, not_false_eq_true, if_true]
    rw [← hca]
    obtain ⟨h', heq, ht', hs, hk, hbase, htop, hbrk⟩ := mallocTrymerge_tiles ht (by simp [endOf, hend]) h8
    exact ⟨h', heq, ht', Blk.endOf_merge _ hca _, hs.mono le_rfl (by omega),
      hk.mono fun e he _ => List.mem_cons_of_mem b he, hbase, htop, hbrk⟩

theorem freePrev_tiles {pre ms : List Blk} {m : Blk}
    (ht : Tiles h h.heapbase.toNat 0 (pre ++ m :: ms)) (h8 : h.heapbase.toNat % 8 = 0)
    (hend : endOf h.heapbase.toNat (pre ++ m :: ms) = h.heaptop.toNat) :
    ∃ h', (if BitVec.ofNat 32 m.addr ≠ h.heapbase then
        h.mallocTrymerge (BitVec.ofNat 32 m.addr - (h.hdrAt (BitVec.ofNat 32 m.addr)).prevoff)
          (BitVec.ofNat 32 m.addr) else some h) = some h' ∧
      Tiles h' h.heapbase.toNat 0 (mergePrev pre (m :: ms)) ∧
      endOf h.heapbase.toNat (mergePrev pre (m :: ms)) = endOf h.heapbase.toNat (pre ++ m :: ms) ∧
      LiveKept h h' (pre ++ m :: ms) ∧
      h'.heapbase = h.heapbase ∧ h'.heaptop = h.heaptop ∧ h'.brk = h.brk := by
  obtain rfl | ⟨pre, a, rfl⟩ := List.eq_nil_or_concat pre
  · have hm : BitVec.ofNat 32 m.addr = h.heapbase := by
      obtain _ | ⟨hma, -, -, -, -⟩ := ht
      rw [hma, BitVec.ofNat_toNat, BitVec.setWidth_eq]
    simp only [hm, ne_eq, not_true_eq_false, if_false]
    exact ⟨h, rfl, ht, rfl, fun _ _ _ _ _ _ => rfl, rfl, rfl, rfl⟩
  rw [List.concat_eq_append, List.append_assoc, List.singleton_append] at ht hend ⊢
  obtain ⟨hpre, hrest⟩ := Tiles.append_iff.1 ht
  have hr := hrest
  obtain _ | ⟨hae, ha1, -, -, hmt⟩ := hr
  obtain _ | ⟨hma, hm1, hmf, hdm, -⟩ := hmt
  rw [← hae] at hrest
  rw [← hma] at hdm
  have hafin : a.fin = a.addr + 8 * a.next := rfl
  have hmfin : m.fin = m.addr + 8 * m.next := rfl
  have hA := hpre.bounds.1
  have ha8 : a.addr % 8 = 0 := ht.addr_mod h8 a (by simp)
  have hne : BitVec.ofNat 32 m.addr ≠ h.heapbase := fun e => by
    have := congrArg BitVec.toNat e
    rw [BitVec.toNat_ofNat] at this
    omega
  rw [if_pos hne, hdm.sub_prevoff (by omega), show m.addr - 8 * a.next = a.addr by omega]
  have hend' : endOf a.addr (a :: m :: ms) = h.heaptop.toNat := by
    rw [← hend, endOf_append, ← hae]
  obtain ⟨h', heq, ht', hs, hk, hbase, htop, hbrk⟩ := mallocTrymerge_tiles hrest hend' ha8
  refine ⟨h', heq, ?_, ?_, ?_, hbase, htop, hbrk⟩
  · rw [mergePrev_concat, List.append_assoc]
    refine Tiles.append_iff.2 ⟨hpre.sameOutside hs fun c hc => .inl ?_, hae ▸ ht'⟩
    have hcf := (hpre.bounds.2 c hc).2
    have hc1 := (hpre.block hc).1
    simp only [Blk.fin] at hcf
    omega
  · rw [mergePrev_concat, List.append_assoc, endOf_append, Blk.endOf_merge _ hma, ← endOf_append]
  · refine LiveKept.append (hs.liveKept fun c hc _ => .inl ?_) hk
    rw [hae]
    exact (hpre.bounds.2 c hc).2

/-- `free` of the data of a block in use, on a heap laid out as `pre ++ b :: post`: the block is
marked free and merged with the free blocks beside it, and every other block in use keeps its
data. The data lies below `__heaptop`, which `free` checks. -/
theorem free_rep {pre post : List Blk} {b : Blk} (hr : Rep h (pre ++ b :: post))
    (hu : b.inuse = true) (hx : b.data < h.heaptop.toNat) :
    ∃ h', h.free (BitVec.ofNat 32 b.data) = some h' ∧ Rep h' (freeList pre b post) ∧
      LiveKept h h' (pre ++ post) := by
  obtain ⟨hpre, hbt⟩ := Tiles.append_iff.1 hr.tiles
  have hb := hbt
  obtain _ | ⟨hba, hb1, hbf, hdb, hpost⟩ := hb
  rw [← hba] at hdb hbt
  have hfin : b.fin = b.addr + 8 * b.next := rfl
  have hdata : b.data = b.addr + 8 := rfl
  have hA := hpre.bounds.1
  have htop := h.heaptop.isLt
  have h8 : b.addr % 8 = 0 := hr.tiles.addr_mod hr.base_al b (by simp)
  have hend : endOf b.addr (b :: post) = h.heaptop.toNat := by
    rw [hba, ← endOf_append]
    exact hr.top
  have hb8 : (8 : BitVec 32).toNat = 8 := rfl
  have hx0 : BitVec.ofNat 32 b.data ≠ 0 := fun e => by
    have := congrArg BitVec.toNat e
    rw [BitVec.toNat_ofNat, show (0 : BitVec 32).toNat = 0 from rfl] at this
    omega
  have hbad : ¬(h.heapbase = 0 ∨ h.heaptop = 0 ∨ h.heapbase > h.heaptop) := by
    rintro (e | e | e)
    · exact hr.base_ne e
    · exact hr.heaptop_ne e
    · exact absurd hr.base_le (BitVec.not_le.2 e)
  have hrange : ¬(BitVec.ofNat 32 b.data < h.heapbase ∨ BitVec.ofNat 32 b.data ≥ h.heaptop) := by
    simp only [BitVec.lt_def, ge_iff_le, BitVec.le_def, BitVec.toNat_ofNat]
    omega
  have hmh : BitVec.ofNat 32 b.data - MBLOCKSIZE = BitVec.ofNat 32 b.addr := by
    apply BitVec.eq_of_toNat_eq
    rw [BitVec.toNat_sub, MBLOCKSIZE, hb8, BitVec.toNat_ofNat, BitVec.toNat_ofNat]
    omega
  unfold free
  rw [if_neg hx0, if_neg hbad, if_neg hrange]
  dsimp only
  rw [hmh, if_neg (by simp [hdb.ok]), if_neg (by rw [hdb.inuse_eq_one.2 hu]; decide)]
  set hd := h.hdrAt (BitVec.ofNat 32 b.addr) with hhd
  set h₁ := h.setHdr (BitVec.ofNat 32 b.addr) { hd with inuse := 0 } with hh₁
  have hsz : (h₁.hdrAt (BitVec.ofNat 32 b.addr)).size = BitVec.ofNat 32 b.size := by
    apply BitVec.eq_of_toNat_eq
    rw [hh₁, hdrAt_setHdr_self, BitVec.toNat_ofNat]
    rw [show ({ hd with inuse := 0 } : Header).size = hd.size from rfl, hdb.toNat_size hbf hb1]
    simp only [Blk.size]
    omega
  have hdat : BitVec.ofNat 32 b.addr + MBLOCKSIZE = BitVec.ofNat 32 b.data := by
    apply BitVec.eq_of_toNat_eq
    rw [BitVec.toNat_add, MBLOCKSIZE, hb8, BitVec.toNat_ofNat, BitVec.toNat_ofNat]
    omega
  rw [hsz, hdat]
  set h₂ := h₁.mallocDeadbeef (BitVec.ofNat 32 b.data) (BitVec.ofNat 32 b.size) with hh₂
  have hs₁ : SameOutside h h₁ b.addr (b.addr + 8) := setHdr_sameOutside h _ le_rfl le_rfl (by omega)
  have hs₂ : SameOutside h₁ h₂ b.data b.fin :=
    mallocDeadbeef_sameOutside h₁ le_rfl (by simp only [Blk.size]; omega) (by simp only [Blk.size]; omega)
  have hs₁₂ : SameOutside h h₂ b.addr b.fin := (hs₁.mono le_rfl (by omega)).trans (hs₂.mono (by omega) le_rfl)
  have hd₂ : h₂.hdrAt (BitVec.ofNat 32 b.addr) = { hd with inuse := 0 } := by
    rw [hs₂.hdrAt_eq (.inl (by omega)) (by omega), hh₁, hdrAt_setHdr_self]
  have ht₂ : Tiles h₂ b.addr (lastNext 0 pre) ({ b with inuse := false } :: post) := by
    refine (hbt.setUse false).sameOutside hs₂ fun c hc => ?_
    rcases List.mem_cons.1 hc with rfl | hc
    · exact .inl (by simp only [Blk.data]; omega)
    · exact .inr (hpost.bounds.2 c hc).1
  rw [hd₂, show BitVec.ofNat 32 b.addr + ({ hd with inuse := 0 } : Header).nextoff =
    BitVec.ofNat 32 b.fin from hdb.nextoff_eq hbf]
  have hend₂ : endOf b.addr ({ b with inuse := false } :: post) = h₂.heaptop.toNat := hend
  obtain ⟨h₃, heq₃, ht₃, hend₃, hs₃, hk₃, hbase₃, htop₃, hbrk₃⟩ := freeNext_tiles ht₂ hend₂ h8
  have hite : ∀ {c : Prop} [Decidable c] (x y : Option Heap) (k : Heap → Option Heap),
      (if c then x >>= k else y >>= k) = (if c then x else y) >>= k := by
    intro c _ x y k
    split <;> rfl
  have heq₃' : (if BitVec.ofNat 32 b.fin ≠ h₂.heaptop then
      h₂.mallocTrymerge (BitVec.ofNat 32 b.addr) (BitVec.ofNat 32 b.fin) else some h₂) = some h₃ := heq₃
  have hbind : ∀ (r : Heap) (k : Heap → Option Heap), (some r >>= k) = k r := fun _ _ => rfl
  rw [hite, heq₃', hbind]
  have hs₂₃ : SameOutside h h₃ b.addr (2 ^ 32) :=
    (hs₁₂.mono le_rfl (by omega)).trans hs₃
  obtain ⟨m, ms, hms, hma, -⟩ := mergeNext_head (b := { b with inuse := false }) post rfl
  have hbase : h₃.heapbase = h.heapbase := hbase₃
  have ht₃' : Tiles h₃ h₃.heapbase.toNat 0 (pre ++ m :: ms) := by
    rw [hbase, ← hms]
    refine Tiles.append_iff.2 ⟨hpre.sameOutside hs₂₃ fun c hc => .inl ?_, hba ▸ ht₃⟩
    have hcf := (hpre.bounds.2 c hc).2
    have hc1 := (hpre.block hc).1
    simp only [Blk.fin] at hcf
    omega
  have hend₃' : endOf h₃.heapbase.toNat (pre ++ m :: ms) = h₃.heaptop.toNat := by
    rw [hbase, ← hms, endOf_append, ← hba, hend₃, htop₃]
    exact hend
  obtain ⟨h₄, heq₄, ht₄, hend₄, hk₄, hbase₄, htop₄, hbrk₄⟩ :=
    freePrev_tiles ht₃' (hbase ▸ hr.base_al) hend₃'
  rw [hma] at heq₄
  rw [heq₄]
  refine ⟨h₄, rfl, ?_, ?_⟩
  · have hb₄ : h₄.heapbase = h.heapbase := hbase₄.trans hbase
    rw [freeList, hms]
    exact { base_ne := hb₄ ▸ hr.base_ne, base_al := hb₄ ▸ hr.base_al,
            top_brk := by rw [htop₄, htop₃, hbrk₄, hbrk₃]; exact hr.top_brk,
            tiles := hbase₄ ▸ ht₄, top := by rw [hbase₄, hend₄, hend₃', htop₄] }
  have hpreFin : ∀ c ∈ pre, c.fin ≤ b.addr := fun c hc => hba ▸ (hpre.bounds.2 c hc).2
  have hk₁₂ : LiveKept h h₂ (pre ++ post) := hs₁₂.liveKept fun c hc _ => by
    rcases List.mem_append.1 hc with hc | hc
    · exact .inl (hpreFin c hc)
    · exact .inr (by have := (hpost.bounds.2 c hc).1; simp only [Blk.data]; omega)
  have hk₂₃ : LiveKept h₂ h₃ (pre ++ post) :=
    (hs₃.liveKept fun c hc _ => .inl (hpreFin c hc)).append hk₃
  refine (hk₁₂.trans hk₂₃).trans (hk₄.mono fun c hc hu => ?_)
  rcases List.mem_append.1 hc with hc | hc
  · exact List.mem_append_left _ hc
  · exact List.mem_append_right _ (hms ▸ mem_mergeNext hc hu)

end Heap

end Malloc

end Libc

end Os161
