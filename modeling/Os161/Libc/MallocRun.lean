import Os161.Libc.MallocFree
import Os161.Lib.Sys
import Mathlib.Data.List.Chain

/-!
# A process that calls `malloc` and `free`

A process calls `malloc` and `free` in any order (`Call`). A call is valid (`Call.Valid`) when
its request is between one byte and `2 ^ 31 - 16` bytes, or when it frees `NULL` or a pointer that
`malloc` handed out and that has not been freed since. From a process that has not called
`malloc` yet (`Fresh`), every run of valid calls keeps the heap laid out as a list of blocks, each
with room for data and no two free ones adjacent (`reachable_coalesced`), and no valid call ever
exits (`call_never_exits`). A call leaves the data of the blocks in use alone, but for the block
`free` is given (`call_keeps_live_data`); `malloc` takes the first free block that fits
(`malloc_first_fit`) and returns `NULL` only when none fits and the break cannot move
(`malloc_null_iff`).

The list of blocks of a laid-out heap is the one its headers chain (`Rep.blocks_eq`), so whether a
call is valid can be tested on memory (`Call.Checked`), and a run of calls so tested from a
reachable heap reaches its end (`Reachable.runChecked`).

The request of at least one byte is needed: `malloc(0)` with no free block puts a block with no
data at the break, and the pointer it returns is `__heaptop`, which `free` rejects
(`free_malloc_zero`).
-/

namespace Os161

namespace Libc

namespace Malloc

/-- A call of the process into the allocator. -/
inductive Call where
  | malloc (n : BitVec 32)
  | free (p : BitVec 32)
  deriving DecidableEq, Repr

/-- The heap after a call, `none` when the call exits. -/
def Heap.call (h : Heap) : Call → Option Heap
  | .malloc n => (h.malloc n).map Prod.fst
  | .free p => h.free p

/-- The calls a correct process makes. -/
def Call.Valid (h : Heap) : Call → Prop
  | .malloc n => 1 ≤ n.toNat ∧ n.toNat + 16 ≤ 2 ^ 31
  | .free p => p = 0 ∨ ∃ bs, Rep h bs ∧ p.toNat ∈ livePtrs bs

/-- Every block has room for data. -/
def Sized (bs : List Blk) : Prop := ∀ b ∈ bs, 0 < b.size

/-- No two free blocks are adjacent: `free` has merged every free block with its free
neighbours. -/
def Coalesced (bs : List Blk) : Prop := bs.IsChain fun x y => x.inuse = true ∨ y.inuse = true

/-- The heap of a process: not yet set up, or laid out as blocks with room for data, no two free
blocks adjacent. -/
def Wf (h : Heap) : Prop := Fresh h ∨ ∃ bs, Rep h bs ∧ Sized bs ∧ Coalesced bs

/-- The heaps a process reaches from one that has not called `malloc`, by valid calls. -/
def Reachable : Heap → Prop :=
  Sys.Reach Fresh fun (c : Call) h h' => c.Valid h ∧ h.call c = some h'

/-! ### The list of blocks is determined by memory -/

theorem Tiles.unique {h : Heap} {a p p' : Nat} {bs bs' : List Blk} (ht : Tiles h a p bs)
    (ht' : Tiles h a p' bs') (he : endOf a bs = endOf a bs') : bs = bs' := by
  -- Both tilings start at `a`; the header there fixes the first block, and the rest start at
  -- its end.
  induction ht generalizing p' bs' with
  | nil =>
    have hl := ht'.length_le
    rw [← he] at hl
    cases bs' with
    | nil => rfl
    | cons => simp only [endOf, List.length_cons] at hl; omega
  | @cons a p b bs ha _ hf hd ht ih =>
    cases ht' with
    | nil =>
      have := ht.length_le
      simp only [endOf, Blk.fin] at this he
      omega
    | @cons _ _ b' bs' ha' _ hf' hd' ht' =>
      have hn : b.next = b'.next := by
        have := congrArg BitVec.toNat (hd.2.1.symm.trans hd'.2.1)
        simp only [BitVec.toNat_ofNat, Blk.fin] at this hf hf'
        omega
      have hu : b.inuse = b'.inuse := by
        have := hd.2.2.1.symm.trans hd'.2.2.1
        revert this
        cases b.inuse <;> cases b'.inuse <;> decide
      have hb : b = b' := by
        cases b
        cases b'
        simp only at ha ha' hn hu
        rw [ha, ha', hn, hu]
      subst hb
      rw [ih ht' he]

theorem Rep.unique {h : Heap} {bs bs' : List Blk} (hr : Rep h bs) (hr' : Rep h bs') : bs = bs' :=
  Tiles.unique hr.tiles hr'.tiles (hr.top.trans hr'.top.symm)

/-- The blocks whose headers chain from `a` up to `top`, at most `fuel` of them. -/
def Heap.blocksFrom (h : Heap) (top : Nat) : Nat → Nat → List Blk
  | 0, _ => []
  | fuel + 1, a =>
    if a < top then
      ⟨a, (h.hdrAt (BitVec.ofNat 32 a)).nextblock.toNat, decide ((h.hdrAt (BitVec.ofNat 32 a)).inuse = 1)⟩ ::
        h.blocksFrom top fuel (a + 8 * (h.hdrAt (BitVec.ofNat 32 a)).nextblock.toNat)
    else []

/-- The blocks of a heap as its headers give them, from `__heapbase` to `__heaptop`. -/
def Heap.blocks (h : Heap) : List Blk := h.blocksFrom h.heaptop.toNat h.heaptop.toNat h.heapbase.toNat

theorem Tiles.blocksFrom_eq {h : Heap} {top fuel a p : Nat} {bs : List Blk} (ht : Tiles h a p bs)
    (he : endOf a bs = top) (hl : bs.length ≤ fuel) : h.blocksFrom top fuel a = bs := by
  induction ht generalizing fuel with
  | nil =>
    cases fuel with
    | zero => rfl
    | succ fuel => rw [Heap.blocksFrom, if_neg (by rw [← he, endOf]; exact lt_irrefl _)]
  | @cons a p b bs ha h1 hf hd ht ih =>
    obtain ⟨fuel, rfl⟩ : ∃ k, fuel = k + 1 := Nat.exists_eq_add_one.2 (by simp at hl; omega)
    subst ha
    have hlt : b.addr < top := by
      have hb := ht.bounds.1
      rw [show endOf b.fin bs = top from he, Blk.fin] at hb
      omega
    have hnext : (h.hdrAt (BitVec.ofNat 32 b.addr)).nextblock.toNat = b.next := by
      rw [hd.2.1, BitVec.toNat_ofNat]
      simp only [Blk.fin] at hf
      omega
    have huse : decide ((h.hdrAt (BitVec.ofNat 32 b.addr)).inuse = 1) = b.inuse := by
      rw [hd.2.2.1]
      cases b.inuse <;> rfl
    rw [Heap.blocksFrom, if_pos hlt, hnext, huse]
    exact congrArg (b :: ·) (ih he (by simpa using hl))

theorem Rep.blocks_eq {h : Heap} {bs : List Blk} (hr : Rep h bs) : h.blocks = bs := by
  have hl := hr.tiles.length_le
  rw [hr.top] at hl
  exact hr.tiles.blocksFrom_eq hr.top (by omega)

theorem Fresh.blocks_eq_nil {h : Heap} (hf : Fresh h) : h.blocks = [] := by
  rw [Heap.blocks, hf.top]
  rfl

/-! ### Blocks with room for data -/

theorem Sized.append_iff {xs ys : List Blk} : Sized (xs ++ ys) ↔ Sized xs ∧ Sized ys := by
  simp only [Sized, List.mem_append, or_imp, forall_and]

theorem Sized.merge {a c : Blk} {rest : List Blk} (hs : Sized (a :: c :: rest)) :
    Sized (a.merge c ++ rest) := by
  unfold Blk.merge
  split
  · exact hs
  · intro e he
    rcases List.mem_cons.1 he with rfl | he
    · have := hs a List.mem_cons_self
      simp only [Blk.size] at this ⊢
      omega
    · exact hs e (List.mem_cons_of_mem _ (List.mem_cons_of_mem _ he))

theorem Sized.mergeNext {b : Blk} {post : List Blk} (hs : Sized (b :: post)) :
    Sized (Malloc.mergeNext b post) := by
  rcases post with _ | ⟨c, cs⟩
  · exact hs
  · exact hs.merge

theorem Sized.mergePrev {pre ms : List Blk} (hs : Sized (pre ++ ms)) : Sized (Malloc.mergePrev pre ms) := by
  obtain rfl | ⟨pre, a, rfl⟩ := List.eq_nil_or_concat pre
  · exact hs
  rcases ms with _ | ⟨m, ms⟩
  · simpa [Malloc.mergePrev] using hs
  rw [List.concat_eq_append, mergePrev_concat, List.append_assoc]
  rw [List.concat_eq_append, List.append_assoc, List.singleton_append] at hs
  obtain ⟨hpre, hrest⟩ := Sized.append_iff.1 hs
  exact Sized.append_iff.2 ⟨hpre, hrest.merge⟩

theorem Sized.freeList {pre post : List Blk} {b : Blk} (hs : Sized (pre ++ b :: post)) :
    Sized (Malloc.freeList pre b post) := by
  obtain ⟨hpre, hb⟩ := Sized.append_iff.1 hs
  have hb' : Sized ({ b with inuse := false } :: post) := fun c hc => by
    rcases List.mem_cons.1 hc with rfl | hc
    · exact hb b List.mem_cons_self
    · exact hb c (List.mem_cons_of_mem b hc)
  exact Sized.mergePrev (Sized.append_iff.2 ⟨hpre, hb'.mergeNext⟩)

theorem MallocRes.sized {bs bs' : List Blk} {size top lo hi p : Nat}
    (hres : MallocRes bs size top lo hi bs' p) (h8 : 8 ≤ size) (hm : size % 8 = 0) (hs : Sized bs) :
    Sized bs' := by
  cases hres with
  | fit pre post b hbs hfit _ =>
    subst hbs
    obtain ⟨hpre, hb⟩ := Sized.append_iff.1 hs
    simp only [Blk.fits, Bool.and_eq_true, decide_eq_true_eq] at hfit
    have hsplit : Sized (b.split size) := by
      unfold Blk.split
      split
      · exact fun c hc => (List.mem_singleton.1 hc) ▸ hb b List.mem_cons_self
      · intro c hc
        simp only [List.mem_cons, List.not_mem_nil, or_false] at hc
        rcases hc with rfl | rfl <;> simp only [Blk.size] at * <;> omega
    have hset : Sized (setInuse (b.split size)) := by
      rcases hsp : b.split size with _ | ⟨c, cs⟩
      · exact fun _ hc => absurd hc List.not_mem_nil
      · rw [hsp] at hsplit
        exact fun e he => (List.mem_cons.1 he).elim (fun h => h ▸ hsplit c List.mem_cons_self)
          fun he => hsplit e (List.mem_cons_of_mem c he)
    exact Sized.append_iff.2 ⟨Sized.append_iff.2 ⟨hpre, hset⟩,
      fun c hc => hb c (List.mem_cons_of_mem b hc)⟩
  | grow =>
    refine Sized.append_iff.2 ⟨hs, fun c hc => ?_⟩
    rw [List.mem_singleton.1 hc]
    simp only [Blk.size]
    omega
  | null => exact hs

/-! ### No two free blocks adjacent -/

theorem Coalesced.next_inuse {b c : Blk} {cs : List Blk} (hc : Coalesced (b :: c :: cs))
    (hb : b.inuse = false) : c.inuse = true := by
  have := (List.isChain_cons_cons.1 hc).1
  rw [hb] at this
  simpa using this

theorem Coalesced.mergeNext {b : Blk} {post : List Blk} (hpost : Coalesced post)
    (hb : b.inuse = false) : Coalesced (Malloc.mergeNext b post) := by
  rcases post with _ | ⟨c, cs⟩
  · exact .singleton b
  show Coalesced (b.merge c ++ cs)
  unfold Blk.merge
  split
  · rename_i hu
    rw [hb, Bool.false_or] at hu
    exact .cons_cons (.inr hu) hpost
  · rename_i hu
    rw [hb, Bool.false_or, Bool.not_eq_true] at hu
    rcases cs with _ | ⟨d, ds⟩
    · exact .singleton _
    · exact .cons_cons (.inr (hpost.next_inuse hu)) (List.isChain_cons_cons.1 hpost).2

theorem Coalesced.mergePrev {pre ms : List Blk} {m : Blk} (hpre : Coalesced pre)
    (hms : Coalesced (m :: ms)) (hm : m.inuse = false) : Coalesced (Malloc.mergePrev pre (m :: ms)) := by
  obtain rfl | ⟨pre, a, rfl⟩ := List.eq_nil_or_concat pre
  · exact hms
  rw [List.concat_eq_append] at hpre ⊢
  rw [mergePrev_concat]
  obtain ⟨hpre', -, hlast⟩ := List.isChain_append.1 hpre
  unfold Blk.merge
  split
  · rename_i hu
    rw [hm, Bool.or_false] at hu
    rw [show pre ++ [a, m] ++ ms = pre ++ [a] ++ m :: ms by simp]
    refine List.IsChain.append hpre hms fun x hx y hy => ?_
    rw [List.getLast?_concat, Option.mem_some_iff] at hx
    exact .inl (hx ▸ hu)
  · rename_i hu
    rw [hm, Bool.or_false, Bool.not_eq_true] at hu
    rw [List.append_assoc, List.singleton_append]
    refine List.IsChain.append hpre' (List.isChain_cons.2 ⟨fun y hy => ?_, ?_⟩) fun x hx y hy => ?_
    · exact .inr ((List.isChain_cons.1 hms).1 y hy |>.resolve_left (by rw [hm]; decide))
    · exact (List.isChain_cons.1 hms).2
    · rw [List.head?_cons, Option.mem_some_iff] at hy
      subst hy
      exact .inl ((hlast x hx a rfl).resolve_right (by rw [hu]; decide))

theorem Coalesced.freeList {pre post : List Blk} {b : Blk} (hc : Coalesced (pre ++ b :: post)) :
    Coalesced (Malloc.freeList pre b post) := by
  obtain ⟨hpre, hbp, -⟩ := List.isChain_append.1 hc
  obtain ⟨m, ms, hms, -, hm⟩ := mergeNext_head post (b := { b with inuse := false }) rfl
  have hms' : Coalesced (m :: ms) := hms ▸ Coalesced.mergeNext (List.isChain_cons.1 hbp).2 rfl
  rw [Malloc.freeList, hms]
  exact Coalesced.mergePrev hpre hms' hm

theorem MallocRes.coalesced {bs bs' : List Blk} {size top lo hi p : Nat}
    (hres : MallocRes bs size top lo hi bs' p) (hc : Coalesced bs) : Coalesced bs' := by
  cases hres with
  | fit pre post b hbs hfit _ =>
    subst hbs
    obtain ⟨hpre, hbp, -⟩ := List.isChain_append.1 hc
    simp only [Blk.fits, Bool.and_eq_true, Bool.not_eq_true', decide_eq_true_eq] at hfit
    have hpost := (List.isChain_cons.1 hbp).2
    have hhead : ∀ y ∈ post.head?, y.inuse = true := fun y hy =>
      ((List.isChain_cons.1 hbp).1 y hy).resolve_left (by rw [hfit.1]; decide)
    have hmid : Coalesced (setInuse (b.split size) ++ post) := by
      unfold Blk.split
      split
      · exact List.isChain_cons.2 ⟨fun _ _ => .inl rfl, hpost⟩
      · exact .cons_cons (.inl rfl) (List.isChain_cons.2 ⟨fun y hy => .inr (hhead y hy), hpost⟩)
    rw [List.append_assoc]
    refine List.IsChain.append hpre hmid fun x _ y hy => .inr ?_
    unfold Blk.split at hy
    split at hy <;> simp only [setInuse, List.cons_append, List.head?_cons, Option.mem_some_iff] at hy <;>
      exact hy ▸ rfl
  | grow => exact List.IsChain.append hc (.singleton _) fun _ _ y hy => .inr (by
      rw [List.head?_cons, Option.mem_some_iff] at hy
      exact hy ▸ rfl)
  | null => exact hc

theorem livePtrs_split {h : Heap} {bs : List Blk} {x : Nat} (hr : Rep h bs) (hs : Sized bs)
    (hx : x ∈ livePtrs bs) :
    ∃ pre b post, bs = pre ++ b :: post ∧ b.inuse = true ∧ x = b.data ∧ b.data < h.heaptop.toNat := by
  simp only [livePtrs, List.mem_map, List.mem_filter] at hx
  obtain ⟨b, ⟨hb, hu⟩, rfl⟩ := hx
  obtain ⟨pre, post, rfl⟩ := List.append_of_mem hb
  have hfin := (hr.tiles.bounds.2 b hb).2
  have hsz := hs b hb
  rw [hr.top] at hfin
  refine ⟨pre, b, post, rfl, hu, rfl, ?_⟩
  simp only [Blk.fin, Blk.data, Blk.size] at hfin hsz ⊢
  omega

/-! ### One call -/

namespace Heap

variable {h : Heap}

theorem malloc_of_fresh {h₀ : Heap} (hf : Fresh h) (hi : h.mallocInit = some h₀) (hr : Rep h₀ [])
    (n : BitVec 32) : h.malloc n = h₀.malloc n := by
  unfold malloc
  rw [mallocEnsureInit, if_pos hf.base, hi, hr.mallocEnsureInit_eq]

theorem call_malloc_rep {bs : List Blk} {n : BitVec 32} (hr : Rep h bs) (hs : Sized bs)
    (hc : Coalesced bs) (hv : (Call.malloc n).Valid h) : ∃ h', h.call (.malloc n) = some h' ∧ Wf h' := by
  obtain ⟨h₁, hn⟩ := hv
  obtain ⟨h', p, bs', hm, hr', hres, -⟩ := malloc_rep hr hn
  refine ⟨h', by rw [call, hm]; rfl, .inr ⟨bs', hr', hres.sized ?_ (by omega) hs, hres.coalesced hc⟩⟩
  omega

theorem call_free_rep {bs : List Blk} {p : BitVec 32} (hr : Rep h bs) (hs : Sized bs)
    (hc : Coalesced bs) (hv : (Call.free p).Valid h) : ∃ h', h.call (.free p) = some h' ∧ Wf h' := by
  rcases hv with rfl | ⟨bs', hr', hp⟩
  · exact ⟨h, by rw [call, free, if_pos rfl], .inr ⟨bs, hr, hs, hc⟩⟩
  rw [← hr.unique hr'] at hp
  obtain ⟨pre, b, post, rfl, hu, hpb, hlt⟩ := livePtrs_split hr hs hp
  obtain ⟨h', hfree, hr'', -⟩ := free_rep hr hu hlt
  have hpv : p = BitVec.ofNat 32 b.data := by
    rw [← hpb]
    simp
  exact ⟨h', by rw [call, hpv, hfree], .inr ⟨_, hr'', Sized.freeList hs, Coalesced.freeList hc⟩⟩

theorem call_wf {c : Call} (hw : Wf h) (hv : c.Valid h) : ∃ h', h.call c = some h' ∧ Wf h' := by
  rcases hw with hf | ⟨bs, hr, hs, hco⟩
  · cases c with
    | malloc n =>
      obtain ⟨h₀, hi, hr₀, -⟩ := mallocInit_fresh hf
      obtain ⟨h', hc, hw'⟩ :=
        call_malloc_rep (h := h₀) hr₀ (fun _ hb => absurd hb List.not_mem_nil) .nil hv
      refine ⟨h', ?_, hw'⟩
      rw [call, malloc_of_fresh hf hi hr₀]
      exact hc
    | free p =>
      rcases hv with rfl | ⟨bs, hr, -⟩
      · exact ⟨h, by rw [call, free, if_pos rfl], .inl hf⟩
      · exact absurd hf.base hr.base_ne
  · cases c with
    | malloc n => exact call_malloc_rep hr hs hco hv
    | free p => exact call_free_rep hr hs hco hv

end Heap

/-! ### Runs -/

theorem reachable_wf {h : Heap} (hr : Reachable h) : Wf h :=
  Sys.Reach.induct_inv (fun _ hf => .inl hf)
    (fun _ _ _ hw ⟨hv, hc⟩ => by
      obtain ⟨h', hc', hw'⟩ := Heap.call_wf hw hv
      rw [hc] at hc'
      exact Option.some.inj hc' ▸ hw') hr

theorem fresh_freshHeap : Fresh freshHeap := ⟨rfl, rfl, by decide, by decide, by decide⟩

theorem Wf.rep_blocks {h : Heap} (hw : Wf h) (hne : h.blocks ≠ []) : Rep h h.blocks := by
  rcases hw with hf | ⟨bs, hr, -⟩
  · exact absurd hf.blocks_eq_nil hne
  · rwa [hr.blocks_eq]

theorem Reachable.rep_of_blocks {h : Heap} {b : Blk} {bs : List Blk} (hr : Reachable h)
    (hb : h.blocks = b :: bs) : Rep h (b :: bs) :=
  hb ▸ (reachable_wf hr).rep_blocks (by rw [hb]; exact List.cons_ne_nil _ _)

/-- `Call.Valid` with the blocks read off memory: a test that runs. -/
def Call.Checked (h : Heap) : Call → Prop
  | .malloc n => 1 ≤ n.toNat ∧ n.toNat + 16 ≤ 2 ^ 31
  | .free p => p = 0 ∨ p.toNat ∈ livePtrs h.blocks

instance (h : Heap) (c : Call) : Decidable (c.Checked h) :=
  match c with
  | .malloc _ => inferInstanceAs (Decidable (_ ∧ _))
  | .free _ => inferInstanceAs (Decidable (_ ∨ _))

theorem Call.Checked.valid {h : Heap} {c : Call} (hw : Wf h) (hc : c.Checked h) : c.Valid h := by
  cases c with
  | malloc n => exact hc
  | free p =>
    rcases hc with rfl | hp
    · exact .inl rfl
    have hne : h.blocks ≠ [] := by
      rintro he
      rw [he] at hp
      exact List.not_mem_nil hp
    exact .inr ⟨h.blocks, hw.rep_blocks hne, hp⟩

/-- The heap a run of calls leads to, each call checked before it is made; `none` when a check
fails or a call exits. -/
def Heap.runChecked (h : Heap) : List Call → Option Heap
  | [] => some h
  | c :: cs => if c.Checked h then (h.call c).bind (·.runChecked cs) else none

theorem Reachable.runChecked {h h' : Heap} {cs : List Call} (hr : Reachable h)
    (hx : h.runChecked cs = some h') : Reachable h' := by
  induction cs generalizing h with
  | nil =>
    rw [Heap.runChecked, Option.some.injEq] at hx
    exact hx ▸ hr
  | cons c cs ih =>
    rw [Heap.runChecked] at hx
    by_cases hc : c.Checked h
    · rw [if_pos hc] at hx
      obtain ⟨h₁, h₁c, hx⟩ := Option.bind_eq_some_iff.1 hx
      exact ih (.step c hr ⟨hc.valid (reachable_wf hr), h₁c⟩) hx
    · rw [if_neg hc] at hx
      cases hx

/-- No valid call of a process ever exits. -/
theorem call_never_exits {h : Heap} {c : Call} (hr : Reachable h) (hv : c.Valid h) :
    ∃ h', h.call c = some h' ∧ Reachable h' := by
  obtain ⟨h', hc, -⟩ := Heap.call_wf (reachable_wf hr) hv
  exact ⟨h', hc, .step c hr ⟨hv, hc⟩⟩

theorem call_never_exits_first_malloc : ∃ h', freshHeap.call (.malloc 1) = some h' ∧ Reachable h' :=
  call_never_exits (.init fresh_freshHeap) ⟨by decide, by decide⟩

/-- Every heap a process reaches is not set up yet, or is laid out as exactly one list of blocks,
each with room for data, with no two free blocks adjacent. -/
theorem reachable_coalesced {h : Heap} (hr : Reachable h) :
    Fresh h ∨ ∃ bs, Rep h bs ∧ Sized bs ∧ Coalesced bs ∧ ∀ bs', Rep h bs' → bs' = bs := by
  rcases reachable_wf hr with hf | ⟨bs, hrep, hs, hc⟩
  · exact .inl hf
  · exact .inr ⟨bs, hrep, hs, hc, fun _ h' => h'.unique hrep⟩

/-- Two blocks handed out, then both freed: the second `free` merges its block with the one
before. -/
def mergeRun : List Call := [.malloc 8, .malloc 8, .free 0x10000008, .free 0x10000018]

theorem reachable_coalesced_merge :
    ∃ h, freshHeap.runChecked mergeRun = some h ∧ h.blocks = [⟨0x10000000, 4, false⟩] ∧ (Fresh h ∨
      ∃ bs, Rep h bs ∧ Sized bs ∧ Coalesced bs ∧ ∀ bs', Rep h bs' → bs' = bs) := by
  have hx : (freshHeap.runChecked mergeRun).map Heap.blocks = some [⟨0x10000000, 4, false⟩] := by
    decide +kernel
  obtain ⟨h, hh, hb⟩ := Option.map_eq_some_iff.1 hx
  exact ⟨h, hh, hb, reachable_coalesced (Reachable.runChecked (.init fresh_freshHeap) hh)⟩

/-! ### Heaps to run the results on -/

/-- `freshHeap` after `__malloc_init`: the break is aligned, so the heap starts there. -/
def setUpHeap : Heap := { freshHeap with heapbase := 0x10000000, heaptop := 0x10000000 }

theorem rep_setUpHeap : Rep setUpHeap [] := ⟨by decide, by decide, rfl, .nil, rfl⟩

/-- The set-up heap with one block of `MBLOCKSIZE` bytes of data, in use or free. -/
def heapOne (u : Bool) : Heap :=
  { setUpHeap.setHdr 0x10000000 ⟨0, 0, MMAGIC, 2, BitVec.ofBool u, MMAGIC⟩ with
    heaptop := 0x10000010, brk := 0x10000010 }

theorem rep_heapOne (u : Bool) : Rep (heapOne u) [⟨0x10000000, 2, u⟩] := by
  refine ⟨show (0x10000000 : BitVec 32) ≠ 0 by decide,
    show (0x10000000 : BitVec 32).toNat % 8 = 0 by decide, rfl,
    .cons rfl (show 1 ≤ 2 by decide) (show 0x10000000 + 8 * 2 < 2 ^ 32 by decide) ?_ .nil, rfl⟩
  show Blk.Hdr _ 0 ((setUpHeap.setHdr 0x10000000 _).hdrAt (BitVec.ofNat 32 0x10000000))
  rw [show (BitVec.ofNat 32 0x10000000 : BitVec 32) = 0x10000000 from rfl, Heap.hdrAt_setHdr_self]
  exact ⟨rfl, rfl, rfl, rfl, rfl⟩

/-! ### What a call does -/

/-- On a heap laid out as `bs`, `malloc` takes the first free block big enough for the rounded
request. -/
theorem malloc_first_fit {h : Heap} {bs : List Blk} {n : BitVec 32} {b : Blk} (hr : Rep h bs)
    (hn : n.toNat + 16 ≤ 2 ^ 31) (hb : bs.find? (Blk.fits ((n.toNat + 7) / 8 * 8)) = some b) :
    ∃ h', h.malloc n = some (h', BitVec.ofNat 32 b.data) := by
  obtain ⟨h', p, bs', hm, -, hres, -⟩ := Heap.malloc_rep hr hn
  have hmem := List.mem_of_find?_eq_some hb
  have hfits := List.find?_some hb
  generalize hq : p.toNat = q at hres
  cases hres with
  | fit pre post c hbs hfit hpre =>
    have hc : bs.find? (Blk.fits ((n.toNat + 7) / 8 * 8)) = some c :=
      List.find?_eq_some_iff_append.2 ⟨hfit, pre, post, hbs, fun x hx => by simp [hpre x hx]⟩
    rw [hb, Option.some.injEq] at hc
    subst hc
    refine ⟨h', ?_⟩
    rw [hm, ← hq]
    simp
  | grow hnone => exact absurd (hnone b hmem) (by rw [hfits]; decide)
  | null hnone => exact absurd (hnone b hmem) (by rw [hfits]; decide)

/-- Four blocks handed out, then the first and the third freed: a free block of 8 bytes, one in
use, a free block of 24 bytes and one in use. -/
def firstFitRun : List Call :=
  [.malloc 8, .malloc 8, .malloc 24, .malloc 8, .free 0x10000008, .free 0x10000028]

/-- `malloc(16)` passes over the free block that is too small and takes the next free one. -/
theorem malloc_first_fit_skips :
    ∃ h, freshHeap.runChecked firstFitRun = some h ∧
      h.blocks = [⟨0x10000000, 2, false⟩, ⟨0x10000010, 2, true⟩, ⟨0x10000020, 4, false⟩,
        ⟨0x10000040, 2, true⟩] ∧
      ∃ h', h.malloc 16 = some (h', BitVec.ofNat 32 (⟨0x10000020, 4, false⟩ : Blk).data) := by
  have hx : (freshHeap.runChecked firstFitRun).map Heap.blocks = some [⟨0x10000000, 2, false⟩,
      ⟨0x10000010, 2, true⟩, ⟨0x10000020, 4, false⟩, ⟨0x10000040, 2, true⟩] := by
    decide +kernel
  obtain ⟨h, hh, hb⟩ := Option.map_eq_some_iff.1 hx
  have hr := (Reachable.runChecked (.init fresh_freshHeap) hh).rep_of_blocks hb
  exact ⟨h, hh, hb, malloc_first_fit hr (by decide) (by decide)⟩

/-- On a heap laid out as `bs`, `malloc` returns `NULL` exactly when no free block is big enough
and the break cannot move by the block it needs. -/
theorem malloc_null_iff {h : Heap} {bs : List Blk} {n : BitVec 32} (hr : Rep h bs)
    (hn : n.toNat + 16 ≤ 2 ^ 31) :
    ∃ h' p, h.malloc n = some (h', p) ∧
      (p = 0 ↔ (∀ c ∈ bs, c.fits ((n.toNat + 7) / 8 * 8) = false) ∧
        ¬(h.brkBase.toNat ≤ h.heaptop.toNat + ((n.toNat + 7) / 8 * 8 + 8) ∧
          h.heaptop.toNat + ((n.toNat + 7) / 8 * 8 + 8) ≤ h.brkLimit.toNat)) := by
  obtain ⟨h', p, bs', hm, -, hres, -⟩ := Heap.malloc_rep hr hn
  refine ⟨h', p, hm, ?_⟩
  have hp0 : p = 0 ↔ p.toNat = 0 := ⟨fun e => e ▸ rfl, fun e => BitVec.eq_of_toNat_eq e⟩
  rw [hp0]
  generalize hq : p.toNat = q at hres
  have htop := h.heaptop.isLt
  cases hres with
  | fit pre post c hbs hfit _ =>
    have hmem : c ∈ bs := hbs ▸ List.mem_append_right _ List.mem_cons_self
    simp only [Blk.data]
    refine ⟨fun e => by omega, fun hx => absurd (hx.1 c hmem) (by rw [hfit]; decide)⟩
  | grow _ hlo hhi => exact ⟨fun e => by omega, fun hx => absurd ⟨hlo, hhi⟩ hx.2⟩
  | null hnone hno => exact ⟨fun _ => ⟨hnone, hno⟩, fun _ => rfl⟩

/-- A process whose break can move by one block of 8 bytes only. -/
def tightHeap : Heap := { freshHeap with brkLimit := 0x10000010 }

/-- After `malloc(8)` has taken the room `sbrk` had, `malloc(1)` returns `NULL`. -/
theorem malloc_null_iff_tight :
    ∃ h, tightHeap.runChecked [.malloc 8] = some h ∧ h.blocks = [⟨0x10000000, 2, true⟩] ∧
      ∃ h' p, h.malloc 1 = some (h', p) ∧ p = 0 ∧
        (p = 0 ↔ (∀ c ∈ [(⟨0x10000000, 2, true⟩ : Blk)], c.fits (((1 : BitVec 32).toNat + 7) / 8 * 8) = false) ∧
          ¬(h.brkBase.toNat ≤ h.heaptop.toNat + (((1 : BitVec 32).toNat + 7) / 8 * 8 + 8) ∧
            h.heaptop.toNat + (((1 : BitVec 32).toNat + 7) / 8 * 8 + 8) ≤ h.brkLimit.toNat)) := by
  have hx : (tightHeap.runChecked [.malloc 8]).map (fun h => (h.blocks, h.heaptop.toNat,
      h.brkBase.toNat, h.brkLimit.toNat)) =
      some ([⟨0x10000000, 2, true⟩], 0x10000010, 0x10000000, 0x10000010) := by
    decide +kernel
  obtain ⟨h, hh, hobs⟩ := Option.map_eq_some_iff.1 hx
  simp only [Prod.mk.injEq] at hobs
  obtain ⟨hb, htop, hlo, hhi⟩ := hobs
  have hf : Fresh tightHeap := ⟨rfl, rfl, by decide, by decide, by decide⟩
  have hr := (Reachable.runChecked (.init hf) hh).rep_of_blocks hb
  obtain ⟨h', p, hm, hiff⟩ := malloc_null_iff hr (n := 1) (by decide)
  have hnull : p = 0 := hiff.2 ⟨by decide, by rw [htop, hlo, hhi]; decide⟩
  exact ⟨h, hh, hb, h', p, hm, hnull, hiff⟩

/-- A valid call on a well-formed heap keeps the data of every block in use, except the block
`free` is given. -/
theorem call_keeps_live_data {h h' : Heap} {c : Call} {bs : List Blk} {b : Blk} (hr : Rep h bs)
    (hs : Sized bs) (hv : c.Valid h) (hc : h.call c = some h') (hb : b ∈ bs) (hu : b.inuse = true)
    (hne : c ≠ .free (BitVec.ofNat 32 b.data)) :
    ∀ w : BitVec 32, b.data ≤ w.toNat → w.toNat < b.fin → h'.mem w = h.mem w := by
  cases c with
  | malloc n =>
    obtain ⟨h₁, p, bs', hm, -, -, hk⟩ := Heap.malloc_rep hr hv.2
    rw [Heap.call, hm, Option.map_some, Option.some.injEq] at hc
    subst hc
    exact hk b hb hu
  | free p =>
    rcases hv with rfl | ⟨bs', hr', hp⟩
    · rw [Heap.call, Heap.free, if_pos rfl, Option.some.injEq] at hc
      subst hc
      exact fun _ _ _ => rfl
    rw [← hr.unique hr'] at hp
    obtain ⟨pre, b₀, post, rfl, hu₀, hpb, hlt⟩ := livePtrs_split hr hs hp
    obtain ⟨h₁, hfree, -, hk⟩ := Heap.free_rep hr hu₀ hlt
    have hpv : p = BitVec.ofNat 32 b₀.data := by
      rw [← hpb]
      simp
    rw [Heap.call, hpv, hfree, Option.some.injEq] at hc
    subst hc
    have hb' : b ∈ pre ++ post := by
      rcases List.mem_append.1 hb with hb | hb
      · exact List.mem_append_left _ hb
      rcases List.mem_cons.1 hb with rfl | hb
      · exact absurd (by rw [hpv]) hne
      · exact List.mem_append_right _ hb
    exact hk b hb' hu

theorem call_keeps_live_data_malloc :
    ∃ h', (heapOne true).call (.malloc 1) = some h' ∧
      ∀ w : BitVec 32, (⟨0x10000000, 2, true⟩ : Blk).data ≤ w.toNat →
        w.toNat < (⟨0x10000000, 2, true⟩ : Blk).fin → h'.mem w = (heapOne true).mem w := by
  have hs : Sized [(⟨0x10000000, 2, true⟩ : Blk)] := fun _ hb => by
    rw [List.mem_singleton.1 hb]
    decide
  have hv : (Call.malloc 1).Valid (heapOne true) := ⟨by decide, by decide⟩
  obtain ⟨h', hc, -⟩ := Heap.call_wf (.inr ⟨_, rep_heapOne true, hs, .singleton _⟩) hv
  exact ⟨h', hc, call_keeps_live_data (rep_heapOne true) hs hv hc List.mem_cons_self rfl
    (by simp)⟩

theorem Heap.free_of_top_le {h : Heap} {bs : List Blk} {p : BitVec 32} (hr : Rep h bs)
    (hp : h.heaptop ≤ p) : h.free p = none := by
  have hp0 : p ≠ 0 := fun e => hr.heaptop_ne (by
    rw [e] at hp
    exact BitVec.eq_of_toNat_eq (by have := BitVec.le_def.1 hp; simp at this ⊢; omega))
  have hchk : ¬(h.heapbase = 0 ∨ h.heaptop = 0 ∨ h.heapbase > h.heaptop) := by
    rintro (e | e | e)
    · exact hr.base_ne e
    · exact hr.heaptop_ne e
    · exact absurd hr.base_le (BitVec.not_le.2 e)
  rw [Heap.free, if_neg hp0, if_neg hchk, if_pos (.inr hp)]

/-- `malloc(0)` on a heap with no free block puts a block with no data at the break; `free` of
the pointer it returns, a block in use, exits. -/
theorem free_malloc_zero {h : Heap} {bs : List Blk} (hr : Rep h bs) (hused : ∀ b ∈ bs, b.inuse = true)
    (hroom : h.brkBase.toNat ≤ h.heaptop.toNat + 8 ∧ h.heaptop.toNat + 8 ≤ h.brkLimit.toNat) :
    ∃ h' p bs', h.malloc 0 = some (h', p) ∧ Rep h' bs' ∧ p.toNat ∈ livePtrs bs' ∧
      h'.free p = none := by
  obtain ⟨h', p, bs', hm, hr', hres, -⟩ := Heap.malloc_rep hr (n := 0) (by decide)
  have hz : ((0 : BitVec 32).toNat + 7) / 8 * 8 = 0 := rfl
  rw [hz] at hres
  refine ⟨h', p, bs', hm, hr', ?_⟩
  generalize hq : p.toNat = q at hres
  cases hres with
  | fit pre post c hbs hfit _ =>
    have hmem : c ∈ bs := hbs ▸ List.mem_append_right _ List.mem_cons_self
    simp only [Blk.fits, hused c hmem, Bool.not_true, Bool.false_and] at hfit
    exact absurd hfit (by decide)
  | grow _ _ _ =>
    have htop : h'.heaptop.toNat = h.heaptop.toNat + 8 := by
      rw [← hr'.top, endOf_append]
      rfl
    refine ⟨by simp [livePtrs, Blk.data], Heap.free_of_top_le hr' (BitVec.le_def.2 ?_)⟩
    rw [htop, hq]
  | null _ hno => exact absurd (by simpa using hroom) hno

theorem free_malloc_zero_setUp :
    ∃ h' p bs', setUpHeap.malloc 0 = some (h', p) ∧ Rep h' bs' ∧ p.toNat ∈ livePtrs bs' ∧
      h'.free p = none :=
  free_malloc_zero rep_setUpHeap (fun _ hb => absurd hb List.not_mem_nil) (by decide)

end Malloc

end Libc

end Os161
