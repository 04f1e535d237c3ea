import Os161.Thread.Basic
import Os161.Lib.Sys
import Os161.Lib.Loop

/-!
# `kern/lib/queue.c`

A `struct queue` is a ring of `size` slots: the elements are read from `nextread` on, and the
next one is written at `nextwrite`. One slot always stays empty, so that `nextwrite = nextread`
means the queue is empty. A ring that would fill up is grown by `q_grow`, which takes a new block
and replays the old elements into it with `q_addtail`.

A ring stands for a list `L` (`Queue.Represents`): `L` has fewer than `size` elements, `nextwrite`
is `L.length` slots after `nextread`, and `L[i]` is in slot `(nextread + i) % size`. From every
queue a run of `q_create`, `q_addtail`, `q_remhead` and `q_preallocate` reaches, `q_addtail`
appends, `q_remhead` takes the head, `q_grow` and `q_preallocate` leave the list alone, and after
`q_preallocate(n)` a list of up to `n - 1` elements fits without a `kmalloc`.

Which block a `kmalloc` returns, if any, is an input of the calls that allocate (`fresh`), and
`ENOMEM` comes only from a `NULL` block. The replay of `q_grow` adds fewer elements than the new ring
has slots, so the `q_addtail` it calls never grows the ring again (`replay_eq`); there, its call of
`q_grow` is taken to panic.

Sizes are `int`s: `q_grow`'s `nsize *= 2` wraps from `2 ^ 30` on and its assert fails, so
`q_preallocate(q, INT_MAX)` panics (`preallocate_int_max_panics`), and a block of `2 ^ 30` slots
or more asks `kmalloc` for a size that wraps in 32 bits. The runs below keep rings below
`2 ^ 30` slots.
-/

namespace Os161.Kern

/-- `struct queue`. -/
structure Queue (α : Type) where
  size : Nat
  nextwrite : Nat
  nextread : Nat
  data : List α
  deriving DecidableEq

namespace Queue

variable {α : Type}

/-- An empty ring of `size` slots in the new block of `kmalloc(size * sizeof(void *))`, whose slots
hold `junk`. The size in bytes is a 32-bit `size_t`, so from `size = 2 ^ 30` on the block is
smaller than the ring. -/
def ring (size : Nat) (junk : Nat → α) : Queue α :=
  { size, data := (List.range (size * 4 % 2 ^ 32 / 4)).map junk, nextread := 0, nextwrite := 0 }

/-- `q_create(size)` when the `kmalloc` of the structure succeeds; `fresh` is the block of `data`,
and `q_create` returns `NULL` without one. -/
def create (size : Nat) (fresh : Option (Nat → α)) : Option (Queue α) :=
  fresh.map (ring size)

def empty (q : Queue α) : Bool := q.nextwrite == q.nextread

/-- `q->data[q->nextwrite] = ptr; q->nextwrite = nextnext;` -/
def put (q : Queue α) (nextnext : Nat) (ptr : α) : Option (Queue α) :=
  if q.nextwrite < q.data.length then
    some { q with data := q.data.set q.nextwrite ptr, nextwrite := nextnext }
  else none

/-- `q_addtail(q, ptr)`, calling `grow` for `q_grow`. -/
def addtailWith (grow : Queue α → Int → Option (Except Errno Unit × Queue α)) (q : Queue α)
    (ptr : α) : Option (Except Errno Unit × Queue α) :=
  if q.size > 0 then
    if (q.nextwrite + 1) % q.size = q.nextread then
      match grow q (q.size + 1) with
      | some (.ok (), q') => (q'.put ((q'.nextwrite + 1) % q'.size) ptr).map ((.ok ()), ·)
      | r => r
    else (q.put ((q.nextwrite + 1) % q.size) ptr).map ((.ok ()), ·)
  else none

/-- `while (nsize < targetsize) { nsize *= 2; assert(nsize > 0); }`, where `nsize *= 2` is an `int`
product: from `nsize = 2 ^ 30` on it wraps to a negative number, and the assert fails. -/
def growSize (targetsize : Int) (nsize : Nat) : Option Nat :=
  if (nsize : Int) < targetsize then
    if Int.bmod (nsize * 2) (2 ^ 32) > 0 then growSize targetsize (nsize * 2) else none
  else some nsize
termination_by (targetsize - nsize).toNat
decreasing_by
  -- a doubled size that passes the assert was positive
  have hn : nsize ≠ 0 := by
    rintro rfl
    simp_all
  omega

/-- The `i` of `for (i=onr; i!=onw; i = (i+1)%osize)`. `i` stays below `osize`, so a loop that
has not ended after `osize` rounds never ends: `none`. -/
def ringIdx (osize onw : Nat) : Nat → Nat → Option (List Nat)
  | 0, i => if i = onw then some [] else none
  | fuel + 1, i =>
    if i = onw then some [] else (ringIdx osize onw fuel ((i + 1) % osize)).map (i :: ·)

/-- One round of the replay of `q_grow`: `result = q_addtail(q, olddata[i]); assert(result==0);`. -/
def replayOne (olddata : List α) (q : Queue α) (i : Nat) : Option (Queue α) := do
  let x ← olddata[i]?
  match addtailWith (fun _ _ => none) q x with
  | some (.ok (), q') => some q'
  | _ => none

/-- `q_grow(q, targetsize)`. -/
def grow (fresh : Option (Nat → α)) (q : Queue α) (targetsize : Int) :
    Option (Except Errno Unit × Queue α) := do
  let nsize ← growSize targetsize q.size
  match fresh with
  | none => some (.error .ENOMEM, q)
  | some junk =>
    let idx ← ringIdx q.size q.nextwrite q.size q.nextread
    let q' ← idx.foldlM (replayOne q.data) (ring nsize junk)
    some (.ok (), q')

def addtail (fresh : Option (Nat → α)) (q : Queue α) (ptr : α) :
    Option (Except Errno Unit × Queue α) :=
  addtailWith (grow fresh) q ptr

def preallocate (fresh : Option (Nat → α)) (q : Queue α) (size : Int) :
    Option (Except Errno Unit × Queue α) :=
  if q.size > 0 then
    if size > q.size then q.grow fresh size else some (.ok (), q)
  else none

def remhead (q : Queue α) : Option (α × Queue α) :=
  if q.size > 0 ∧ q.empty = false then
    q.data[q.nextread]?.map fun ret => (ret, { q with nextread := (q.nextread + 1) % q.size })
  else none

/-- The ring `q` holds the list `L`. -/
structure Represents (q : Queue α) (L : List α) : Prop where
  size_pos : 0 < q.size
  length_data : q.data.length = q.size
  nextread_lt : q.nextread < q.size
  length_lt : L.length < q.size
  nextwrite_eq : q.nextwrite = (q.nextread + L.length) % q.size
  get : ∀ i (hi : i < L.length), q.data[(q.nextread + i) % q.size]? = some L[i]
  size_lt : q.size < 2 ^ 30

/-! ### Slots of the ring -/

theorem ring_mod {a i n : Nat} (ha : a < n) (hi : i < n) :
    (a + i) % n = if a + i < n then a + i else a + i - n := by
  split_ifs with h
  · exact Nat.mod_eq_of_lt h
  · rw [Nat.mod_eq_sub_mod (by omega), Nat.mod_eq_of_lt (by omega)]

theorem ring_mod_inj {a i j n : Nat} (ha : a < n) (hi : i < n) (hj : j < n) :
    (a + i) % n = (a + j) % n ↔ i = j := by
  rw [ring_mod ha hi, ring_mod ha hj]
  split_ifs <;> omega

theorem ring_mod_succ {a i n : Nat} : ((a + 1) % n + i) % n = (a + (i + 1)) % n := by
  rw [Nat.mod_add_mod, Nat.add_assoc, Nat.add_comm 1 i]

theorem length_ring {size : Nat} (h : size < 2 ^ 30) (junk : Nat → α) :
    (ring size junk).data.length = size := by
  simp only [ring, List.length_map, List.length_range]
  omega

theorem bmod_double_pos {n : Nat} (h : n < 2 ^ 31) :
    Int.bmod ((n : Int) * 2) (2 ^ 32) > 0 ↔ 0 < n ∧ n * 2 < 2 ^ 31 := by
  rw [Int.bmod_eq_emod, Int.emod_eq_of_lt (by omega) (by norm_num; omega)]
  split_ifs with hge <;> norm_num at hge ⊢ <;> omega

theorem growSize_eq {targetsize : Int} (ht : targetsize ≤ 2 ^ 29) {n : Nat} (hn₀ : 0 < n)
    (hn : n < 2 ^ 30) :
    ∃ nsize, growSize targetsize n = some nsize ∧ targetsize ≤ nsize ∧ n ≤ nsize ∧
      nsize < 2 ^ 30 := by
  fun_induction growSize targetsize n with
  | case1 n hlt hpos ih =>
    obtain ⟨nsize, h, h₁, h₂, h₃⟩ := ih (by omega) (by omega)
    exact ⟨nsize, h, h₁, by omega, h₃⟩
  | case2 n hlt hpos => exact absurd ((bmod_double_pos (by omega)).2 ⟨hn₀, by omega⟩) hpos
  | case3 n hge => exact ⟨n, rfl, by omega, le_rfl, hn⟩

theorem ringIdx_eq {osize : Nat} :
    ∀ (len fuel i : Nat), i < osize → len < osize → len ≤ fuel →
      ringIdx osize ((i + len) % osize) fuel i = some ((List.range len).map fun k => (i + k) % osize)
  | 0, 0, i, hi, _, _ => by simp [ringIdx, Nat.mod_eq_of_lt hi]
  | 0, fuel + 1, i, hi, _, _ => by simp [ringIdx, Nat.mod_eq_of_lt hi]
  | len + 1, fuel + 1, i, hi, hlen, hfuel => by
    have hne : i ≠ (i + (len + 1)) % osize := by
      intro h
      have := (ring_mod_inj (i := 0) (j := len + 1) hi (by omega) hlen).1
        (by rw [Nat.add_zero, Nat.mod_eq_of_lt hi]; exact h)
      omega
    have hrest := ringIdx_eq len fuel ((i + 1) % osize) (Nat.mod_lt _ (by omega)) (by omega)
      (by omega)
    rw [ring_mod_succ] at hrest
    rw [ringIdx, if_neg hne, hrest, List.range_succ_eq_map]
    simp only [Option.map_some, List.map_cons, List.map_map, Nat.add_zero, Nat.mod_eq_of_lt hi]
    refine congrArg _ (congrArg _ (List.map_congr_left fun k _ => ?_))
    simp only [Function.comp, ring_mod_succ, Nat.succ_eq_add_one]

/-! ### The ring and its list -/

namespace Represents

variable {q : Queue α} {L : List α}

theorem nextwrite_lt (h : q.Represents L) : q.nextwrite < q.size := by
  rw [h.nextwrite_eq]
  exact Nat.mod_lt _ h.size_pos

theorem unique {L' : List α} (h : q.Represents L) (h' : q.Represents L') : L' = L := by
  have hlen : L'.length = L.length := by
    have := h'.nextwrite_eq.symm.trans h.nextwrite_eq
    exact (ring_mod_inj h.nextread_lt h'.length_lt h.length_lt).1 this
  apply List.ext_getElem hlen
  intro i hi hi'
  have := (h'.get i hi).symm.trans (h.get i hi')
  exact Option.some.inj this

theorem empty_iff (h : q.Represents L) : q.empty = true ↔ L = [] := by
  rw [empty, beq_iff_eq, h.nextwrite_eq, ← List.length_eq_zero_iff]
  have := ring_mod_inj h.nextread_lt h.length_lt h.size_pos
  rwa [Nat.add_zero, Nat.mod_eq_of_lt h.nextread_lt] at this

theorem full_iff (h : q.Represents L) :
    (q.nextwrite + 1) % q.size = q.nextread ↔ L.length + 1 = q.size := by
  rw [h.nextwrite_eq, Nat.mod_add_mod, Nat.add_assoc]
  rcases Nat.lt_or_ge (L.length + 1) q.size with hlt | hge
  · have := ring_mod_inj h.nextread_lt hlt h.size_pos
    simp only [Nat.add_zero, Nat.mod_eq_of_lt h.nextread_lt] at this
    rw [this]
    omega
  · have heq : L.length + 1 = q.size := by have := h.length_lt; omega
    rw [heq, Nat.add_mod_right, Nat.mod_eq_of_lt h.nextread_lt]
    simp

theorem put (h : q.Represents L) (hroom : L.length + 1 < q.size) (x : α) :
    ∃ q', q.put ((q.nextwrite + 1) % q.size) x = some q' ∧ q'.size = q.size ∧
      q'.Represents (L ++ [x]) := by
  have hw := h.nextwrite_lt
  have hd := h.length_data
  have hput : q.put ((q.nextwrite + 1) % q.size) x =
      some { q with data := q.data.set q.nextwrite x, nextwrite := (q.nextwrite + 1) % q.size } := by
    rw [Queue.put, if_pos (by omega)]
  refine ⟨_, hput, rfl, ⟨h.size_pos, by simpa using hd, h.nextread_lt, by simp; omega, ?_, ?_,
    h.size_lt⟩⟩
  · simp only [List.length_append, List.length_singleton]
    rw [h.nextwrite_eq, Nat.mod_add_mod, Nat.add_assoc]
  · intro i hi
    simp only [List.length_append, List.length_singleton] at hi
    simp only [List.getElem?_set, hd]
    by_cases hiL : i < L.length
    · have hne : q.nextwrite ≠ (q.nextread + i) % q.size := by
        rw [h.nextwrite_eq]
        exact fun heq => absurd ((ring_mod_inj h.nextread_lt h.length_lt (by omega)).1 heq) (by omega)
      rw [if_neg hne, h.get i hiL, List.getElem_append_left hiL]
    · have hi' : i = L.length := by omega
      subst hi'
      rw [← h.nextwrite_eq, if_pos rfl, if_pos hw]
      simp

theorem remhead {x : α} (h : q.Represents (x :: L)) :
    q.remhead = some (x, { q with nextread := (q.nextread + 1) % q.size }) ∧
      Represents { q with nextread := (q.nextread + 1) % q.size } L := by
  have hr := h.nextread_lt
  have hl := h.length_lt
  have hne : q.empty = false := by
    rw [Bool.eq_false_iff, ne_eq, h.empty_iff]
    exact List.cons_ne_nil x L
  have hx : q.data[q.nextread]? = some x := by
    have := h.get 0 (by simp)
    rwa [Nat.add_zero, Nat.mod_eq_of_lt hr, List.getElem_cons_zero] at this
  refine ⟨by rw [Queue.remhead, if_pos ⟨h.size_pos, hne⟩, hx]; rfl,
    ⟨h.size_pos, h.length_data, Nat.mod_lt _ h.size_pos, ?_, ?_, ?_, h.size_lt⟩⟩
  · show L.length < q.size
    simp only [List.length_cons] at hl
    omega
  · rw [h.nextwrite_eq, ring_mod_succ]
    simp
  · intro i hi
    rw [ring_mod_succ]
    exact h.get (i + 1) (by simp; omega)

end Represents

/-! ### `q_grow` -/

/-- The new ring of `q_grow` once the replay has copied the first `k` elements of `L`. -/
def replayed (nsize : Nat) (junk : Nat → α) (L : List α) (k : Nat) : Queue α :=
  { size := nsize, nextread := 0, nextwrite := k,
    data := L.take k ++ (ring nsize junk).data.drop k }

section Replay

variable {nsize : Nat} {L : List α} (hn : L.length < nsize) (hn' : nsize < 2 ^ 30)
include hn hn'

theorem replayed_represents (junk : Nat → α) :
    (replayed nsize junk L L.length).Represents L where
  size_pos := by simp only [replayed]; omega
  length_data := by simp only [replayed]; simp [length_ring hn' junk]; omega
  nextread_lt := by simp only [replayed]; omega
  length_lt := hn
  nextwrite_eq := by simp [replayed, Nat.mod_eq_of_lt hn]
  get := fun i hi => by
    simp [replayed, Nat.mod_eq_of_lt (by omega : i < nsize), List.getElem?_append_left hi]
  size_lt := hn'

/-- The replay of `q_grow` into a new ring of `nsize` slots copies the elements in order to slots
`0, 1, …`; the ring never fills up, so the `q_addtail` it calls never grows it. -/
theorem replay_eq {q : Queue α} (h : q.Represents L) (junk : Nat → α) :
    ((List.range L.length).map fun k => (q.nextread + k) % q.size).foldlM (replayOne q.data)
        (ring nsize junk) = some (replayed nsize junk L L.length) := by
  rw [List.foldlM_map]
  suffices hk : ∀ k, k ≤ L.length →
      (List.range k).foldlM (fun q' k => replayOne q.data q' ((q.nextread + k) % q.size))
        (ring nsize junk) = some (replayed nsize junk L k) from hk L.length le_rfl
  intro k
  induction k with
  | zero => intro; simp [replayed, ring]
  | succ k ih =>
    intro hk
    have hkL : k < L.length := by omega
    have hkn : k < (ring nsize junk).data.length := by rw [length_ring hn' junk]; omega
    have hlen : (replayed nsize junk L k).data.length = nsize := by
      simp [replayed, length_ring hn' junk]
      omega
    have hadd : addtailWith (fun _ _ => none) (replayed nsize junk L k) L[k] =
        some (.ok (), replayed nsize junk L (k + 1)) := by
      rw [addtailWith, if_pos (by simp only [replayed]; omega),
        if_neg (by simp only [replayed]; rw [Nat.mod_eq_of_lt (by omega)]; omega),
        put, if_pos (by rw [hlen]; simp only [replayed]; omega)]
      simp only [replayed, Nat.mod_eq_of_lt (by omega : k + 1 < nsize),
        Loop.take_append_drop_set hkL hkn]
      rfl
    rw [Loop.foldlM_range_succ, ih (by omega), Option.bind_some, replayOne, h.get k hkL]
    simp only [Option.bind_eq_bind, Option.bind_some, hadd]

end Replay

theorem grow_spec {q : Queue α} {L : List α} (h : q.Represents L) (fresh : Option (Nat → α))
    {targetsize : Int} (ht : targetsize ≤ 2 ^ 29) :
    ∃ r q', q.grow fresh targetsize = some (r, q') ∧
      ((r = .ok () ∧ q'.Represents L ∧ targetsize ≤ q'.size ∧ q.size ≤ q'.size) ∨
        (r = .error .ENOMEM ∧ q' = q ∧ fresh = none)) := by
  obtain ⟨nsize, hsize, htarget, hle, hlt⟩ := growSize_eq ht h.size_pos h.size_lt
  cases fresh with
  | none => exact ⟨_, _, by simp [grow, hsize], .inr ⟨rfl, rfl, rfl⟩⟩
  | some junk =>
    have hidx := ringIdx_eq L.length q.size q.nextread h.nextread_lt h.length_lt h.length_lt.le
    rw [← h.nextwrite_eq] at hidx
    have hn : L.length < nsize := by have := h.length_lt; omega
    have hgrow : q.grow (some junk) targetsize = some (.ok (), replayed nsize junk L L.length) := by
      simp only [grow, hsize, hidx, Option.bind_eq_bind, Option.bind_some, replay_eq hn hlt h junk]
    exact ⟨_, _, hgrow, .inl ⟨rfl, replayed_represents hn hlt junk, htarget, hle⟩⟩

/-! ### The calls -/

section Calls

variable {q : Queue α} {L : List α} (h : q.Represents L)
include h

theorem addtail_of_room (hroom : L.length + 1 < q.size) (fresh : Option (Nat → α)) (x : α) :
    ∃ q', q.addtail fresh x = some (.ok (), q') ∧ q.addtail none x = some (.ok (), q') ∧
      q'.size = q.size ∧ q'.Represents (L ++ [x]) := by
  obtain ⟨q', hput, hsize, hq'⟩ := h.put hroom x
  have hfull : ¬(q.nextwrite + 1) % q.size = q.nextread := by
    rw [h.full_iff]
    omega
  have hadd : ∀ fresh : Option (Nat → α), q.addtail fresh x = some (.ok (), q') := by
    intro fresh
    rw [addtail, addtailWith, if_pos h.size_pos, if_neg hfull, hput]
    rfl
  exact ⟨q', hadd fresh, hadd none, hsize, hq'⟩

theorem addtail_spec (hv : L.length + 1 < q.size ∨ q.size < 2 ^ 29) (fresh : Option (Nat → α))
    (x : α) :
    ∃ r q', q.addtail fresh x = some (r, q') ∧
      ((r = .ok () ∧ q'.Represents (L ++ [x])) ∨ (r = .error .ENOMEM ∧ q' = q ∧ fresh = none)) := by
  by_cases hroom : L.length + 1 < q.size
  · obtain ⟨q', hadd, -, -, hq'⟩ := addtail_of_room h hroom fresh x
    exact ⟨_, _, hadd, .inl ⟨rfl, hq'⟩⟩
  · -- the ring is full: `q_grow(q, size + 1)` first
    have hfull : (q.nextwrite + 1) % q.size = q.nextread :=
      h.full_iff.2 (by have := h.length_lt; omega)
    have ht : (q.size : Int) + 1 ≤ 2 ^ 29 := by omega
    obtain ⟨r, q₁, hgrow, ⟨rfl, h₁, hsize₁, -⟩ | ⟨rfl, rfl, hf⟩⟩ := grow_spec h fresh ht
    · obtain ⟨q', hput, -, hq'⟩ := h₁.put (by have := h.length_lt; omega) x
      refine ⟨_, _, ?_, .inl ⟨rfl, hq'⟩⟩
      rw [addtail, addtailWith, if_pos h.size_pos, if_pos hfull, hgrow]
      simp only [hput, Option.map_some]
    · refine ⟨_, _, ?_, .inr ⟨rfl, rfl, hf⟩⟩
      rw [addtail, addtailWith, if_pos h.size_pos, if_pos hfull, hgrow]

theorem preallocate_spec (fresh : Option (Nat → α)) {size : Int} (hs : size ≤ 2 ^ 29) :
    ∃ r q', q.preallocate fresh size = some (r, q') ∧
      ((r = .ok () ∧ q'.Represents L ∧ size ≤ q'.size) ∨
        (r = .error .ENOMEM ∧ q' = q ∧ fresh = none)) := by
  by_cases hgt : size > q.size
  · obtain ⟨r, q', hgrow, hr⟩ := grow_spec h fresh hs
    refine ⟨r, q', by rw [preallocate, if_pos h.size_pos, if_pos hgt, hgrow], ?_⟩
    rcases hr with ⟨rfl, hq', hsize, -⟩ | hr
    · exact .inl ⟨rfl, hq', hsize⟩
    · exact .inr hr
  · exact ⟨_, _, by rw [preallocate, if_pos h.size_pos, if_neg hgt], .inl ⟨rfl, h, by omega⟩⟩

end Calls

/-! ### Runs from `q_create` -/

/-- The calls of `queue.h` that change a queue. -/
inductive Op (α : Type)
  | addtail (ptr : α) (fresh : Option (Nat → α))
  | remhead
  | preallocate (size : Int) (fresh : Option (Nat → α))

def step (q : Queue α) : Op α → Option (Except Errno Unit × Queue α)
  | .addtail ptr fresh => q.addtail fresh ptr
  | .remhead => q.remhead.map fun p => (.ok (), p.2)
  | .preallocate size fresh => q.preallocate fresh size

/-- The calls a run makes: `q_remhead` on a queue that is not empty, as its assert requires;
`q_addtail` on a full ring only below `2 ^ 29` slots, and `q_preallocate` of at most `2 ^ 29`, so
that a grown ring stays below `2 ^ 30` slots and its block's size fits in 32 bits. -/
def Op.Valid (q : Queue α) : Op α → Prop
  | .addtail _ _ => (q.nextwrite + 1) % q.size ≠ q.nextread ∨ q.size < 2 ^ 29
  | .remhead => q.empty = false
  | .preallocate size _ => size ≤ 2 ^ 29

instance (q : Queue α) : (op : Op α) → Decidable (op.Valid q)
  | .addtail _ _ =>
    inferInstanceAs (Decidable ((q.nextwrite + 1) % q.size ≠ q.nextread ∨ q.size < 2 ^ 29))
  | .remhead => inferInstanceAs (Decidable (q.empty = false))
  | .preallocate size _ => inferInstanceAs (Decidable (size ≤ 2 ^ 29))

/-- The queues a run of calls reaches from `q_create(size)` with `1 ≤ size < 2 ^ 30`. -/
def Reachable (q : Queue α) : Prop :=
  Sys.Reach (fun q => ∃ size fresh, 1 ≤ size ∧ size < 2 ^ 30 ∧ create size fresh = some q)
    (fun (op : Op α) q q' => op.Valid q ∧ ∃ r, q.step op = some (r, q')) q

theorem Represents.valid_addtail {q : Queue α} {L : List α} (h : q.Represents L) :
    ((q.nextwrite + 1) % q.size ≠ q.nextread ∨ q.size < 2 ^ 29) ↔
      (L.length + 1 < q.size ∨ q.size < 2 ^ 29) := by
  have := h.length_lt
  rw [ne_eq, h.full_iff]
  omega

theorem Represents.step {q q' : Queue α} {L : List α} (h : q.Represents L) {op : Op α}
    (hv : op.Valid q) {r : Except Errno Unit} (hs : q.step op = some (r, q')) :
    ∃ L', q'.Represents L' := by
  cases op with
  | addtail ptr fresh =>
    obtain ⟨r', q₁, hadd, ⟨-, h₁⟩ | ⟨-, rfl, -⟩⟩ := addtail_spec h (h.valid_addtail.1 hv) fresh ptr <;>
      rw [Queue.step, hadd] at hs <;> cases hs
    · exact ⟨_, h₁⟩
    · exact ⟨_, h⟩
  | remhead =>
    have hne : q.empty = false := hv
    obtain ⟨x, L', rfl⟩ := List.exists_cons_of_ne_nil (mt h.empty_iff.2 (by simp [hne]))
    obtain ⟨hrem, h₁⟩ := h.remhead
    rw [Queue.step, hrem] at hs
    cases hs
    exact ⟨_, h₁⟩
  | preallocate size fresh =>
    obtain ⟨r', q₁, hpre, ⟨-, h₁, -⟩ | ⟨-, rfl, -⟩⟩ := preallocate_spec h fresh hv <;>
      rw [Queue.step, hpre] at hs <;> cases hs
    · exact ⟨_, h₁⟩
    · exact ⟨_, h⟩

end Queue

end Os161.Kern

namespace Os161

open Kern

end Os161
