import Mathlib

/-!
# Byte-addressed memory

A memory is a function from addresses to bytes. `store` writes a run of bytes upward from an
address and `load` reads a run back; a word is four bytes, most significant first. What a
layout proof needs is the frame lemma (`store_apply_of_lt_or_le`: a store leaves every other
address alone) and the read-back lemmas (`load_store`, `loadWord_storeWords`).

A C string is a list of bytes none of which is NUL; in memory it is followed by one.

`blit` copies a block from one memory into another, as `memmove` or a block device does.
-/

namespace ByteMem

/-- A string as C keeps it: its bytes, none of them NUL. -/
structure CStr where
  bytes : List UInt8
  no_nul : (0 : UInt8) ∉ bytes
  deriving DecidableEq

/-- `strlen`. -/
def CStr.length (s : CStr) : Nat := s.bytes.length

/-- Write `bs` at `a`, `a + 1`, and so on. -/
def store (m : Nat → UInt8) (a : Nat) : List UInt8 → Nat → UInt8
  | [] => m
  | b :: bs => store (Function.update m a b) (a + 1) bs

/-- The `n` bytes from `a` up. -/
def load (m : Nat → UInt8) (a n : Nat) : List UInt8 :=
  (List.range n).map fun i => m (a + i)

section Store

variable {m : Nat → UInt8} {a : Nat}

theorem store_append (m : Nat → UInt8) (a : Nat) (xs ys : List UInt8) :
    store m a (xs ++ ys) = store (store m a xs) (a + xs.length) ys := by
  induction xs generalizing m a with
  | nil => rfl
  | cons x xs ih =>
    rw [List.cons_append, store, store, ih, List.length_cons, Nat.add_assoc, Nat.add_comm 1]

/-- A store leaves the addresses outside its run alone. -/
theorem store_apply_of_lt_or_le {bs : List UInt8} {x : Nat} (h : x < a ∨ a + bs.length ≤ x) :
    store m a bs x = m x := by
  induction bs generalizing m a with
  | nil => rfl
  | cons b bs ih =>
    rw [store, ih (by simp only [List.length_cons] at h; omega)]
    exact Function.update_of_ne (by simp only [List.length_cons] at h; omega) _ _

theorem store_apply_add {bs : List UInt8} {i : Nat} (hi : i < bs.length) :
    store m a bs (a + i) = bs[i] := by
  induction bs generalizing m a i with
  | nil => simp at hi
  | cons b bs ih =>
    rw [store]
    cases i with
    | zero =>
      rw [store_apply_of_lt_or_le (by omega)]
      simp
    | succ i =>
      rw [show a + (i + 1) = a + 1 + i by omega, ih (by simpa using hi)]
      rfl

theorem load_congr {m' : Nat → UInt8} {n : Nat} (h : ∀ i < n, m (a + i) = m' (a + i)) :
    load m a n = load m' a n := by
  apply List.map_congr_left
  intro i hi
  exact h i (List.mem_range.1 hi)

theorem load_store (m : Nat → UInt8) (a : Nat) (bs : List UInt8) :
    load (store m a bs) a bs.length = bs := by
  apply List.ext_getElem
  · simp [load]
  · intro i hi _
    simp only [load, List.getElem_map, List.getElem_range]
    exact store_apply_add (by simpa [load] using hi)

theorem load_store_of_disjoint {bs : List UInt8} {b n : Nat} (h : b + n ≤ a ∨ a + bs.length ≤ b) :
    load (store m a bs) b n = load m b n :=
  load_congr fun _ _ => store_apply_of_lt_or_le (by omega)

end Store

/-- `m` with the `n` bytes from `a` on replaced by the `n` bytes of `src` from `b` on. -/
def blit (m : Nat → UInt8) (a : Nat) (src : Nat → UInt8) (b n : Nat) : Nat → UInt8 :=
  fun x => if a ≤ x ∧ x < a + n then src (b + (x - a)) else m x

section Blit

variable {m src : Nat → UInt8} {a b n : Nat}

theorem blit_apply_of_lt_or_le {x : Nat} (h : x < a ∨ a + n ≤ x) : blit m a src b n x = m x :=
  if_neg (by omega)

theorem blit_apply_add {i : Nat} (hi : i < n) : blit m a src b n (a + i) = src (b + i) := by
  rw [blit, if_pos (by omega), Nat.add_sub_cancel_left]

theorem load_blit : load (blit m a src b n) a n = load src b n :=
  List.map_congr_left fun _ hi => blit_apply_add (List.mem_range.1 hi)

@[simp] theorem blit_zero : blit m a src b 0 = m := by
  funext x
  exact blit_apply_of_lt_or_le (by omega)

theorem blit_blit_zero (z : Nat → UInt8) :
    blit m a (blit z 0 src b n) 0 n = blit m a src b n := by
  funext x
  by_cases h : a ≤ x ∧ x < a + n
  · rw [blit, if_pos h, blit, if_pos (by omega), blit, if_pos h, Nat.sub_zero, Nat.zero_add]
  · rw [blit, if_neg h, blit, if_neg h]

end Blit

/-- The bytes of a 32-bit word, most significant first. -/
def wordBytes (w : Nat) : List UInt8 :=
  [UInt8.ofNat (w / 2 ^ 24), UInt8.ofNat (w / 2 ^ 16), UInt8.ofNat (w / 2 ^ 8), UInt8.ofNat w]

/-- The word at `a`, most significant byte first. -/
def loadWord (m : Nat → UInt8) (a : Nat) : Nat :=
  (m a).toNat * 2 ^ 24 + (m (a + 1)).toNat * 2 ^ 16 + (m (a + 2)).toNat * 2 ^ 8 + (m (a + 3)).toNat

/-- Words stored one after another from `a`. -/
def storeWords (m : Nat → UInt8) (a : Nat) (ws : List Nat) : Nat → UInt8 :=
  store m a (ws.flatMap wordBytes)

section Words

variable {m : Nat → UInt8} {a : Nat}

@[simp] theorem length_flatMap_wordBytes (ws : List Nat) :
    (ws.flatMap wordBytes).length = 4 * ws.length := by
  induction ws with
  | nil => rfl
  | cons w ws ih =>
    rw [List.flatMap_cons, List.length_append, ih, List.length_cons]
    simp only [wordBytes, List.length_cons, List.length_nil]
    omega

theorem take_flatMap_wordBytes (ws : List Nat) (k : Nat) :
    (ws.flatMap wordBytes).take (4 * k) = (ws.take k).flatMap wordBytes := by
  induction ws generalizing k with
  | nil => simp
  | cons w ws ih =>
    cases k with
    | zero => simp
    | succ k =>
      have h4 : 4 * (k + 1) = (wordBytes w).length + 4 * k := by
        simp only [wordBytes, List.length_cons, List.length_nil]
        omega
      rw [List.flatMap_cons, List.take_succ_cons, List.flatMap_cons, h4,
        List.take_length_add_append, ih]

theorem loadWord_congr {m' : Nat → UInt8} (h : ∀ i < 4, m (a + i) = m' (a + i)) :
    loadWord m a = loadWord m' a := by
  have h0 := h 0 (by omega)
  simp only [Nat.add_zero] at h0
  simp only [loadWord, h0, h 1 (by omega), h 2 (by omega), h 3 (by omega)]

theorem loadWord_store_wordBytes {w : Nat} (hw : w < 2 ^ 32) :
    loadWord (store m a (wordBytes w)) a = w := by
  have hb : ∀ i (hi : i < 4), store m a (wordBytes w) (a + i) = (wordBytes w)[i] :=
    fun i hi => store_apply_add (by simpa [wordBytes] using hi)
  have h0 := hb 0 (by omega)
  simp only [Nat.add_zero] at h0
  simp only [loadWord, h0, hb 1 (by omega), hb 2 (by omega), hb 3 (by omega)]
  simp only [wordBytes, List.getElem_cons_zero, List.getElem_cons_succ, UInt8.toNat_ofNat']
  omega

theorem loadWord_store_of_disjoint {bs : List UInt8} {b : Nat} (h : b + 4 ≤ a ∨ a + bs.length ≤ b) :
    loadWord (store m a bs) b = loadWord m b :=
  loadWord_congr fun _ _ => store_apply_of_lt_or_le (by omega)

/-- Word `i` of a stored run of words reads back. -/
theorem loadWord_storeWords {ws : List Nat} {i : Nat} (hi : i < ws.length)
    (hw : ws[i] < 2 ^ 32) : loadWord (storeWords m a ws) (a + 4 * i) = ws[i] := by
  induction ws generalizing m a i with
  | nil => simp at hi
  | cons w ws ih =>
    rw [storeWords, List.flatMap_cons, store_append]
    cases i with
    | zero =>
      rw [Nat.mul_zero, Nat.add_zero, loadWord_store_of_disjoint (Or.inl (by simp [wordBytes])),
        loadWord_store_wordBytes (w := w) hw]
      rfl
    | succ i =>
      have hlen : (wordBytes w).length = 4 := rfl
      rw [hlen, show a + 4 * (i + 1) = a + 4 + 4 * i by omega]
      exact ih (by simpa using hi) hw

theorem loadWord_storeWords_of_disjoint {ws : List Nat} {b : Nat}
    (h : b + 4 ≤ a ∨ a + 4 * ws.length ≤ b) : loadWord (storeWords m a ws) b = loadWord m b := by
  unfold storeWords
  exact loadWord_store_of_disjoint (by rw [length_flatMap_wordBytes]; exact h)

theorem load_storeWords_of_disjoint {ws : List Nat} {b n : Nat}
    (h : b + n ≤ a ∨ a + 4 * ws.length ≤ b) : load (storeWords m a ws) b n = load m b n := by
  unfold storeWords
  exact load_store_of_disjoint (by rw [length_flatMap_wordBytes]; exact h)

end Words

/-- The bytes of a 16-bit halfword, most significant first. -/
def halfBytes (h : Nat) : List UInt8 := [UInt8.ofNat (h / 2 ^ 8), UInt8.ofNat h]

/-- The halfword at `a`, most significant byte first. -/
def loadHalf (m : Nat → UInt8) (a : Nat) : Nat := (m a).toNat * 2 ^ 8 + (m (a + 1)).toNat

section Halves

variable {m : Nat → UInt8} {a : Nat}

theorem loadHalf_congr {m' : Nat → UInt8} (h : ∀ i < 2, m (a + i) = m' (a + i)) :
    loadHalf m a = loadHalf m' a := by
  have h0 := h 0 (by omega)
  simp only [Nat.add_zero] at h0
  simp only [loadHalf, h0, h 1 (by omega)]

theorem loadHalf_store_halfBytes {h : Nat} (hh : h < 2 ^ 16) :
    loadHalf (store m a (halfBytes h)) a = h := by
  have hb : ∀ i (hi : i < 2), store m a (halfBytes h) (a + i) = (halfBytes h)[i] :=
    fun i hi => store_apply_add (by simpa [halfBytes] using hi)
  have h0 := hb 0 (by omega)
  simp only [Nat.add_zero] at h0
  simp only [loadHalf, h0, hb 1 (by omega)]
  simp only [halfBytes, List.getElem_cons_zero, List.getElem_cons_succ, UInt8.toNat_ofNat']
  omega

theorem loadHalf_store_of_disjoint {bs : List UInt8} {b : Nat} (h : b + 2 ≤ a ∨ a + bs.length ≤ b) :
    loadHalf (store m a bs) b = loadHalf m b :=
  loadHalf_congr fun _ _ => store_apply_of_lt_or_le (by omega)

end Halves

theorem loadWord_lt (m : Nat → UInt8) (a : Nat) : loadWord m a < 2 ^ 32 := by
  have := (m a).toNat_lt
  have := (m (a + 1)).toNat_lt
  have := (m (a + 2)).toNat_lt
  have := (m (a + 3)).toNat_lt
  simp only [loadWord]
  omega

theorem loadHalf_lt (m : Nat → UInt8) (a : Nat) : loadHalf m a < 2 ^ 16 := by
  have := (m a).toNat_lt
  have := (m (a + 1)).toNat_lt
  simp only [loadHalf]
  omega

end ByteMem
