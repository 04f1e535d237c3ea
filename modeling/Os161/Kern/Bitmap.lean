import Os161.Vm.Frames
import Os161.Lib.Sys

/-!
# `kern/lib/bitmap.c`

A bitmap of `nbits` bits packed eight to a byte: bit `i` is under the mask `1 << (i % 8)` of byte
`i / 8`. `bitmap_create` marks the bits of the last byte past `nbits`, so that the byte scan of
`bitmap_alloc` never finds one of them clear. The number of bytes is computed in `u_int32_t`, so
for `nbits ≥ 2 ^ 32 - 7` it wraps to zero, and the results below are for smaller maps.

A bitmap stands for the set of its marked bits below `nbits` (`Bitmap.toFinset`). Every bitmap a
run of `bitmap_mark`, `bitmap_unmark`, `bitmap_isset` and `bitmap_alloc` reaches from
`bitmap_create(n)`, for such an `n`, keeps its padding bits marked (`Bitmap.WF`), and there each call is the set
operation (`bitmap_is_finset`); `bitmap_alloc` takes the least element missing. The list of bits
that `bitmapAlloc` of the VM and SFS models works on is the byte bitmap read bit by bit
(`Bitmap.alloc_bits`).

The two `kmalloc`s of `bitmap_create` are taken to succeed.
-/

namespace Os161

/-! ### Bits of a byte -/

theorem mask_toNat {o : Nat} (ho : o < 8) : 1 <<< (o % 8) % 256 = 2 ^ o := by
  rw [Nat.mod_eq_of_lt ho, Nat.shiftLeft_eq, one_mul]
  exact Nat.mod_eq_of_lt (Nat.pow_lt_pow_right (by norm_num) ho : 2 ^ o < 2 ^ 8)

theorem testBit_255_sub {o p : Nat} (ho : o < 8) (hp : p < 8) :
    (255 - 2 ^ o).testBit p = decide (p ≠ o) := by
  have h : 255 - 2 ^ o = (2 ^ 8 - 1) ^^^ 2 ^ o := by interval_cases o <;> rfl
  rw [h, Nat.testBit_xor, Nat.testBit_two_pow_sub_one, Nat.testBit_two_pow]
  by_cases hpo : p = o
  · subst hpo
    simp [hp]
  · simp [hp, hpo, Ne.symm hpo]

namespace UInt8

theorem testBit_or_mask (w : UInt8) {o : Nat} (ho : o < 8) (p : Nat) :
    (w ||| (1 : UInt8) <<< o.toUInt8).toNat.testBit p = (w.toNat.testBit p || decide (p = o)) := by
  simp [Nat.testBit_or, mask_toNat ho, Nat.testBit_two_pow, eq_comm]

theorem testBit_and_not_mask (w : UInt8) {o p : Nat} (ho : o < 8) (hp : p < 8) :
    (w &&& ~~~((1 : UInt8) <<< o.toUInt8)).toNat.testBit p = (w.toNat.testBit p && decide (p ≠ o)) := by
  simp [Nat.testBit_and, mask_toNat ho, testBit_255_sub ho hp]

theorem and_mask_ne_zero (w : UInt8) {o : Nat} (ho : o < 8) :
    (w &&& (1 : UInt8) <<< o.toUInt8) ≠ 0 ↔ w.toNat.testBit o = true := by
  rw [ne_eq, ← UInt8.toNat_inj]
  simp [mask_toNat ho, Nat.and_two_pow]

theorem and_mask_beq_zero (w : UInt8) {o : Nat} (ho : o < 8) :
    (w &&& (1 : UInt8) <<< o.toUInt8 == 0) = !w.toNat.testBit o := by
  have hm := and_mask_ne_zero w ho
  by_cases h0 : (w &&& (1 : UInt8) <<< o.toUInt8) = 0
  · rw [h0] at hm
    have hclear : w.toNat.testBit o = false := by simpa using hm
    rw [h0, hclear]
    rfl
  · rw [hm.1 h0, Bool.not_true, beq_eq_false_iff_ne]
    exact h0

theorem eq_ff_iff (w : UInt8) : w = 0xff ↔ ∀ o, o < 8 → w.toNat.testBit o = true := by
  constructor
  · rintro rfl o ho
    interval_cases o <;> rfl
  · intro h
    rw [← UInt8.toNat_inj]
    apply Nat.eq_of_testBit_eq
    intro o
    by_cases ho : o < 8
    · rw [h o ho]
      interval_cases o <;> rfl
    · have hw : w.toNat < 2 ^ o :=
        lt_of_lt_of_le w.toNat_lt (Nat.pow_le_pow_right (by norm_num) (by omega))
      rw [Nat.testBit_lt_two_pow hw]
      exact (Nat.testBit_lt_two_pow (lt_of_lt_of_le (by decide) (Nat.pow_le_pow_right (by norm_num)
        (by omega) : 2 ^ 8 ≤ 2 ^ o))).symm

end UInt8

/-- `struct bitmap`. -/
structure Bitmap where
  nbits : Nat
  v : List UInt8

namespace Bitmap

/-- `DIVROUNDUP(nbits, BITS_PER_WORD)`, the number of bytes, computed in `u_int32_t`: from
`nbits = 2 ^ 32 - 7` on, the sum wraps and the bitmap gets no bytes at all. -/
def words (nbits : Nat) : Nat := (nbits + 8 - 1) % 2 ^ 32 / 8

/-- `bitmap_translate`: the byte of bit `bitno`, and its mask there. -/
def translate (bitno : Nat) : Nat × UInt8 := (bitno / 8, (1 : UInt8) <<< (bitno % 8).toUInt8)

/-- The loop of `bitmap_create` over the bits `j` from `overbits` of the last byte. -/
def markFrom (overbits : Nat) : UInt8 :=
  (List.range' overbits (8 - overbits)).foldl (fun w j => w ||| (1 : UInt8) <<< j.toUInt8) 0

/-- `bitmap_create(nbits)`: zero bytes, with the leftover bits of the last one marked. -/
def create (nbits : Nat) : Bitmap :=
  let v := List.replicate (words nbits) 0
  if nbits / 8 < words nbits then
    let ix := words nbits - 1
    ⟨nbits, v.set ix (markFrom (nbits - ix * 8))⟩
  else ⟨nbits, v⟩

/-- `bitmap_alloc`: the first clear bit of the first byte that is not `0xff`, which it marks. -/
def alloc (b : Bitmap) : Option (Except Errno (Nat × Bitmap)) :=
  match (List.range (words b.nbits)).find? (fun ix => b.v.getD ix 0 != 0xff) with
  | none => some (.error .ENOSPC)
  | some ix =>
    let w := b.v.getD ix 0
    -- past the loop over the offsets is `assert(0)`
    match (List.range 8).find? (fun offset => w &&& (1 : UInt8) <<< offset.toUInt8 == 0) with
    | none => none
    | some offset =>
      let index := ix * 8 + offset
      if index < b.nbits then
        some (.ok (index, { b with v := b.v.set ix (w ||| (1 : UInt8) <<< offset.toUInt8) }))
      else none

/-- `bitmap_mark`, which asserts that the bit is in range and clear. -/
def mark (b : Bitmap) (index : Nat) : Option Bitmap := do
  guard (index < b.nbits)
  let (ix, mask) := translate index
  let w := b.v.getD ix 0
  guard (w &&& mask = 0)
  some { b with v := b.v.set ix (w ||| mask) }

/-- `bitmap_unmark`, which asserts that the bit is in range and set. -/
def unmark (b : Bitmap) (index : Nat) : Option Bitmap := do
  guard (index < b.nbits)
  let (ix, mask) := translate index
  let w := b.v.getD ix 0
  guard (w &&& mask ≠ 0)
  some { b with v := b.v.set ix (w &&& ~~~mask) }

/-- `bitmap_isset`: the byte under the mask, nonzero when the bit is set. -/
def isset (b : Bitmap) (index : Nat) : UInt8 :=
  let (ix, mask) := translate index
  b.v.getD ix 0 &&& mask

/-- Bit `i` of the bytes `v`: bit `i % 8` of byte `i / 8`. -/
def bitAt (v : List UInt8) (i : Nat) : Bool := (v.getD (i / 8) 0).toNat.testBit (i % 8)

/-- Bit `i` of the bitmap. -/
def bit (b : Bitmap) (i : Nat) : Bool := bitAt b.v i

/-- The set a bitmap stands for: its marked bits below `nbits`. -/
def toFinset (b : Bitmap) : Finset Nat := (Finset.range b.nbits).filter (b.bit ·)

/-- The bits as the list `bitmapAlloc` scans. -/
def bits (b : Bitmap) : List Bool := (List.range b.nbits).map b.bit

/-- A bitmap as `bitmap_create` makes it and the calls keep it: one byte for each eight bits, and
the bits past `nbits` marked. -/
structure WF (b : Bitmap) : Prop where
  nbits_lt : b.nbits + 7 < 2 ^ 32
  length : b.v.length = words b.nbits
  padding : ∀ i, b.nbits ≤ i → i < 8 * words b.nbits → b.bit i = true

/-- `b` with bit `i` marked, as `bitmap_mark` and `bitmap_alloc` mark it. -/
def setBit (b : Bitmap) (i : Nat) : Bitmap :=
  { b with v := b.v.set (i / 8) (b.v.getD (i / 8) 0 ||| (1 : UInt8) <<< (i % 8).toUInt8) }

/-- `b` with bit `i` cleared, as `bitmap_unmark` clears it. -/
def clearBit (b : Bitmap) (i : Nat) : Bitmap :=
  { b with v := b.v.set (i / 8) (b.v.getD (i / 8) 0 &&& ~~~((1 : UInt8) <<< (i % 8).toUInt8)) }

theorem words_eq {n : Nat} (hn : n + 7 < 2 ^ 32) : words n = (n + 7) / 8 := by
  rw [words, Nat.add_sub_assoc (by norm_num), Nat.mod_eq_of_lt (by omega)]

theorem lt_words {n i : Nat} (hn : n + 7 < 2 ^ 32) (h : i < n) : i / 8 < words n := by
  rw [words_eq hn]
  omega

theorem le_eight_words {n : Nat} (hn : n + 7 < 2 ^ 32) : n ≤ 8 * words n := by
  rw [words_eq hn]
  omega

theorem bitAt_set (v : List UInt8) {ix : Nat} (w : UInt8) (i : Nat) :
    bitAt (v.set ix w) i = if i / 8 = ix ∧ ix < v.length then w.toNat.testBit (i % 8) else bitAt v i := by
  unfold bitAt
  simp only [List.getD_eq_getElem?_getD, List.getElem?_set]
  by_cases h1 : i / 8 = ix
  · subst h1
    by_cases h2 : i / 8 < v.length
    · simp [h2]
    · simp [h2]
  · simp [h1, Ne.symm h1]

theorem bitAt_replicate (n i : Nat) : bitAt (List.replicate n 0) i = false := by
  simp [bitAt, List.getD_eq_getElem?_getD, List.getElem?_replicate]
  split_ifs <;> simp

theorem bit_setBit (b : Bitmap) {i : Nat} (hi : i / 8 < b.v.length) (j : Nat) :
    (b.setBit i).bit j = (b.bit j || decide (j = i)) := by
  unfold setBit bit
  rw [bitAt_set]
  by_cases hj : j / 8 = i / 8
  · rw [if_pos ⟨hj, hi⟩, UInt8.testBit_or_mask _ (Nat.mod_lt _ (by norm_num))]
    unfold bitAt
    rw [hj]
    congr 1
    apply decide_eq_decide.2
    omega
  · rw [if_neg (fun h => hj h.1)]
    have hne : j ≠ i := fun h => hj (h ▸ rfl)
    simp [hne]

theorem bit_clearBit (b : Bitmap) {i : Nat} (hi : i / 8 < b.v.length) (j : Nat) :
    (b.clearBit i).bit j = (b.bit j && decide (j ≠ i)) := by
  unfold clearBit bit
  rw [bitAt_set]
  by_cases hj : j / 8 = i / 8
  · rw [if_pos ⟨hj, hi⟩, UInt8.testBit_and_not_mask _ (Nat.mod_lt _ (by norm_num))
      (Nat.mod_lt _ (by norm_num))]
    unfold bitAt
    rw [hj]
    congr 1
    apply decide_eq_decide.2
    omega
  · rw [if_neg (fun h => hj h.1)]
    have hne : j ≠ i := fun h => hj (h ▸ rfl)
    simp [hne]

theorem mem_toFinset {b : Bitmap} {i : Nat} : i ∈ b.toFinset ↔ i < b.nbits ∧ b.bit i = true := by
  simp [toFinset]

/-! ### `bitmap_create` -/

theorem testBit_markFrom {overbits : Nat} (h : overbits < 8) (p : Nat) :
    (markFrom overbits).toNat.testBit p = decide (overbits ≤ p ∧ p < 8) := by
  have step : ∀ (l : List Nat) (w : UInt8), (∀ j ∈ l, j < 8) →
      (l.foldl (fun w j => w ||| (1 : UInt8) <<< j.toUInt8) w).toNat.testBit p =
        (w.toNat.testBit p || decide (p ∈ l)) := by
    intro l
    induction l with
    | nil => simp
    | cons j l ih =>
      intro w hl
      rw [List.foldl_cons, ih _ (fun k hk => hl k (List.mem_cons_of_mem _ hk)),
        UInt8.testBit_or_mask _ (hl j List.mem_cons_self)]
      simp [Bool.or_assoc]
  rw [markFrom, step _ _ (fun j hj => by simp at hj; omega)]
  simp only [UInt8.toNat_zero, Nat.zero_testBit, Bool.false_or, List.mem_range']
  apply decide_eq_decide.2
  constructor
  · rintro ⟨k, hk, rfl⟩
    omega
  · rintro ⟨h1, h2⟩
    exact ⟨p - overbits, by omega, by omega⟩

theorem create_nbits (n : Nat) : (create n).nbits = n := by
  unfold create
  split_ifs <;> rfl

theorem create_bit {n : Nat} (hn : n + 7 < 2 ^ 32) {i : Nat} (hi : i < 8 * words n) :
    (create n).bit i = decide (n ≤ i) := by
  have hw := words_eq hn
  simp only [create, bit]
  split_ifs with hpad
  · -- the last byte holds `n % 8` bits of the map and the padding above them
    rw [bitAt_set]
    by_cases hix : i / 8 = words n - 1
    · rw [if_pos ⟨hix, by rw [List.length_replicate]; omega⟩,
        testBit_markFrom (by omega)]
      apply decide_eq_decide.2
      omega
    · rw [if_neg (fun h => hix h.1), bitAt_replicate]
      symm
      apply decide_eq_false
      omega
  · rw [bitAt_replicate]
    symm
    apply decide_eq_false
    omega

theorem toFinset_create {n : Nat} (hn : n + 7 < 2 ^ 32) : (create n).toFinset = ∅ := by
  ext i
  rw [mem_toFinset]
  constructor
  · rintro ⟨hi, hb⟩
    rw [create_nbits] at hi
    rw [create_bit hn (lt_of_lt_of_le hi (le_eight_words hn))] at hb
    simp at hb
    omega
  · simp

/-! ### The calls -/

theorem mark_eq {b : Bitmap} {i : Nat} :
    b.mark i = if i < b.nbits ∧ b.bit i = false then some (b.setBit i) else none := by
  have hz : (b.v.getD (i / 8) 0 &&& (1 : UInt8) <<< (i % 8).toUInt8 = 0) ↔ b.bit i = false := by
    rw [← not_iff_not, ← ne_eq, UInt8.and_mask_ne_zero _ (Nat.mod_lt _ (by norm_num))]
    simp [bit, bitAt]
  simp only [List.getD_eq_getElem?_getD, Nat.toUInt8_eq] at hz
  by_cases hi : i < b.nbits <;> by_cases hbit : b.bit i = false <;>
    simp [mark, translate, setBit, hi, hbit, hz]

theorem unmark_eq {b : Bitmap} {i : Nat} :
    b.unmark i = if i < b.nbits ∧ b.bit i = true then some (b.clearBit i) else none := by
  have hz : (b.v.getD (i / 8) 0 &&& (1 : UInt8) <<< (i % 8).toUInt8 ≠ 0) ↔ b.bit i = true :=
    UInt8.and_mask_ne_zero _ (Nat.mod_lt _ (by norm_num))
  simp only [List.getD_eq_getElem?_getD, Nat.toUInt8_eq, ne_eq] at hz
  by_cases hi : i < b.nbits <;> by_cases hbit : b.bit i = true <;>
    simp [unmark, translate, clearBit, hi, hbit, hz]

/-! #### On a well-formed bitmap -/

section Calls

variable {b : Bitmap} (hb : b.WF)
include hb

theorem WF.lt_length {i : Nat} (hi : i < b.nbits) : i / 8 < b.v.length := by
  rw [hb.length]
  exact lt_words hb.nbits_lt hi

theorem WF.setBit {i : Nat} (hi : i < b.nbits) : (b.setBit i).WF where
  nbits_lt := hb.nbits_lt
  length := by simp [Bitmap.setBit, hb.length]
  padding := fun j hn hj => by
    rw [bit_setBit b (hb.lt_length hi), hb.padding j hn hj]
    rfl

theorem WF.clearBit {i : Nat} (hi : i < b.nbits) : (b.clearBit i).WF where
  nbits_lt := hb.nbits_lt
  length := by simp [Bitmap.clearBit, hb.length]
  padding := fun j hn hj => by
    rw [bit_clearBit b (hb.lt_length hi), hb.padding j hn hj, Bool.true_and]
    exact decide_eq_true (by simp only [Bitmap.clearBit] at hn; omega)

theorem alloc_eq :
    ((∀ i, i < b.nbits → b.bit i = true) ∧ b.alloc = some (.error .ENOSPC)) ∨
      ∃ i, i < b.nbits ∧ b.bit i = false ∧ (∀ j, j < i → b.bit j = true) ∧
        b.alloc = some (.ok (i, b.setBit i)) := by
  unfold alloc
  rcases hix : (List.range (words b.nbits)).find? (fun ix => b.v.getD ix 0 != 0xff) with _ | ix
  · refine .inl ⟨fun i hi => ?_, rfl⟩
    have hall : b.v.getD (i / 8) 0 = 0xff := by
      simpa using List.find?_range_eq_none.1 hix (i / 8) (lt_words hb.nbits_lt hi)
    exact (UInt8.eq_ff_iff _).1 hall (i % 8) (Nat.mod_lt _ (by norm_num))
  · obtain ⟨hne, hlt, hbefore⟩ := List.find?_range_eq_some.1 hix
    simp only [bne_iff_ne, ne_eq, List.mem_range] at hne hlt
    obtain ⟨o₀, ho₀, hclear₀⟩ : ∃ o, o < 8 ∧ (b.v.getD ix 0).toNat.testBit o = false := by
      by_contra hnone
      exact hne ((UInt8.eq_ff_iff _).2 fun o ho => by
        by_contra hb
        exact hnone ⟨o, ho, by simpa using hb⟩)
    have hz : ∀ o, o < 8 →
        ((b.v.getD ix 0 &&& (1 : UInt8) <<< o.toUInt8 == 0) = !(b.v.getD ix 0).toNat.testBit o) :=
      fun o ho => UInt8.and_mask_beq_zero _ ho
    rcases hoff : (List.range 8).find? (fun offset => b.v.getD ix 0 &&& (1 : UInt8) <<<
        offset.toUInt8 == 0) with _ | o
    · have := List.find?_range_eq_none.1 hoff o₀ ho₀
      rw [hz o₀ ho₀, hclear₀] at this
      simp at this
    · obtain ⟨hco, hol, hob⟩ := List.find?_range_eq_some.1 hoff
      rw [List.mem_range] at hol
      rw [hz o hol, Bool.not_eq_true'] at hco
      have hbit : b.bit (ix * 8 + o) = false := by
        simp only [bit, bitAt]
        rwa [show (ix * 8 + o) / 8 = ix by omega, show (ix * 8 + o) % 8 = o by omega]
      have hprev : ∀ j, j < ix * 8 + o → b.bit j = true := by
        intro j hj
        simp only [bit, bitAt]
        by_cases hjx : j / 8 < ix
        · have hff : b.v.getD (j / 8) 0 = 0xff := by simpa using hbefore (j / 8) hjx
          exact (UInt8.eq_ff_iff _).1 hff (j % 8) (Nat.mod_lt _ (by norm_num))
        · have hjx' : j / 8 = ix := by omega
          have := hob (j % 8) (by omega)
          rw [hz _ (Nat.mod_lt _ (by norm_num))] at this
          rw [hjx']
          simpa using this
      -- the padding is marked, so the clear bit is below `nbits`
      have hn : ix * 8 + o < b.nbits := by
        by_contra hge
        have := hb.padding (ix * 8 + o) (by omega) (by rw [words_eq hb.nbits_lt] at hlt ⊢; omega)
        rw [hbit] at this
        exact Bool.false_ne_true this
      refine .inr ⟨ix * 8 + o, hn, hbit, hprev, ?_⟩
      simp only [hoff, hn, ↓reduceIte, Bitmap.setBit]
      rw [show (ix * 8 + o) / 8 = ix by omega, show (ix * 8 + o) % 8 = o by omega]

end Calls

/-! ### Runs from `bitmap_create` -/

/-- The calls of `bitmap.h` that change or read a bitmap. -/
inductive Op
  | mark (i : Nat)
  | unmark (i : Nat)
  | isset (i : Nat)
  | alloc

/-- One call; `bitmap_alloc`'s `ENOSPC` leaves the bitmap as it was. -/
def step (b : Bitmap) : Op → Option Bitmap
  | .mark i => b.mark i
  | .unmark i => b.unmark i
  | .isset _ => some b
  | .alloc => b.alloc.map fun
    | .ok (_, b') => b'
    | .error _ => b

/-- The bitmaps a run of calls reaches from `bitmap_create(n)`. -/
def Reachable (n : Nat) (b : Bitmap) : Prop :=
  Sys.Reach (· = create n) (fun op b b' => b.step op = some b') b

theorem WF.step {b b' : Bitmap} (hb : b.WF) {op : Op} (h : b.step op = some b') :
    b'.WF ∧ b'.nbits = b.nbits := by
  cases op with
  | mark i =>
    rw [Bitmap.step, mark_eq] at h
    split_ifs at h with hi
    cases h
    exact ⟨hb.setBit hi.1, rfl⟩
  | unmark i =>
    rw [Bitmap.step, unmark_eq] at h
    split_ifs at h with hi
    cases h
    exact ⟨hb.clearBit hi.1, rfl⟩
  | isset i =>
    cases h
    exact ⟨hb, rfl⟩
  | alloc =>
    rcases alloc_eq hb with ⟨-, ha⟩ | ⟨i, hi, -, -, ha⟩ <;> rw [Bitmap.step, ha] at h <;> cases h
    · exact ⟨hb, rfl⟩
    · exact ⟨hb.setBit hi, rfl⟩

theorem length_bits (b : Bitmap) : b.bits.length = b.nbits := by simp [bits]

theorem bits_setBit {b : Bitmap} (hb : b.WF) {i : Nat} (hi : i < b.nbits) :
    (b.setBit i).bits = b.bits.set i true := by
  apply List.ext_getElem (by simp [bits, Bitmap.setBit])
  intro j hj₁ hj₂
  simp only [bits, Bitmap.setBit, List.getElem_map, List.getElem_range, List.getElem_set]
  rw [← Bitmap.setBit, bit_setBit b (hb.lt_length hi)]
  by_cases hji : i = j
  · subst hji
    simp
  · simp [hji, Ne.symm hji]

/-- The byte bitmap refines the list of bits: `bitmap_alloc` does to the bits what `bitmapAlloc`
does to the list. -/
theorem alloc_bits {b : Bitmap} (hb : b.WF) :
    b.alloc.map (fun r => r.map fun p => (p.1, p.2.bits)) = some (bitmapAlloc b.bits) := by
  have hfind : ∀ i, b.bits.findIdx? (· == false) = some i ↔
      i < b.nbits ∧ b.bit i = false ∧ ∀ j, j < i → b.bit j = true := by
    intro i
    rw [List.findIdx?_eq_some_iff_getElem]
    simp only [bits, List.length_map, List.length_range, List.getElem_map, List.getElem_range,
      beq_iff_eq, Bool.not_eq_false]
    constructor
    · rintro ⟨hi, hbit, hprev⟩
      exact ⟨hi, hbit, fun j hj => by simpa using hprev j hj⟩
    · rintro ⟨hi, hbit, hprev⟩
      exact ⟨hi, hbit, fun j hj => by simpa using hprev j hj⟩
  rcases alloc_eq hb with ⟨hall, ha⟩ | ⟨i, hi, hbit, hprev, ha⟩
  · have hnone : b.bits.findIdx? (· == false) = none := by
      rw [List.findIdx?_eq_none_iff]
      intro x hx
      obtain ⟨j, hj, rfl⟩ := List.mem_map.1 hx
      simp [hall j (List.mem_range.1 hj)]
    rw [ha, bitmapAlloc, hnone]
    rfl
  · rw [ha, bitmapAlloc, (hfind i).2 ⟨hi, hbit, hprev⟩]
    simp only [Option.map_some, Except.map, bits_setBit hb hi]

end Bitmap

end Os161
