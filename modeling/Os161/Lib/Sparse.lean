import Mathlib.Data.List.AList

/-!
# Arrays kept sparsely

A table of words that reads `0` wherever nothing else was written, kept as the association list
of its other entries. Writing `0` erases an entry, so the list only ever holds the entries that
are not `0`: a table of a thousand words that are almost all `0` stays a short list, and reading
or writing it costs a walk over that list only.

What a proof needs of such a table is what it needs of a function: `get_set_self` and
`get_set_of_ne`.
-/

/-- A map from keys to values that is `0` at all keys but the ones it lists. -/
structure Sparse (α β : Type*) where
  entries : AList (fun _ : α => β)

namespace Sparse

variable {α β : Type*} [DecidableEq α] [Zero β]

/-- The table where every key reads `0`. -/
def empty : Sparse α β := ⟨∅⟩

/-- The value at `a`. -/
def get (m : Sparse α β) (a : α) : β := (AList.lookup a m.entries).getD 0

/-- Write `b` at `a`. -/
def set [DecidableEq β] (m : Sparse α β) (a : α) (b : β) : Sparse α β :=
  if b = 0 then ⟨AList.erase a m.entries⟩ else ⟨AList.insert a b m.entries⟩

@[simp] theorem get_empty (a : α) : (empty : Sparse α β).get a = 0 := by
  simp [get, empty, AList.lookup_empty]

variable [DecidableEq β]

@[simp] theorem get_set_self (m : Sparse α β) (a : α) (b : β) : (m.set a b).get a = b := by
  unfold get set
  by_cases hb : b = 0
  · rw [if_pos hb, AList.lookup_erase, hb]
    rfl
  · rw [if_neg hb, AList.lookup_insert]
    rfl

@[simp] theorem get_set_of_ne (m : Sparse α β) {a a' : α} (b : β) (h : a ≠ a') :
    (m.set a' b).get a = m.get a := by
  unfold get set
  by_cases hb : b = 0
  · rw [if_pos hb, AList.lookup_erase_ne h]
  · rw [if_neg hb, AList.lookup_insert_ne h]

theorem get_set (m : Sparse α β) (a a' : α) (b : β) :
    (m.set a' b).get a = if a = a' then b else m.get a := by
  split_ifs with h
  · subst h
    exact get_set_self m a b
  · exact get_set_of_ne m b h

end Sparse
