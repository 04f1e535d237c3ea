import Mathlib

/-!
# The constants and types the asst1 problems share

`catsem.c` and `catlock.c` each declare `NFOODBOWLS`, `NCATS`, `NMICE`, `N_ITERATIONS` and the enum
`dish_availability`, with the same values; they are declared here once. A thread of either
problem is a cat or a mouse, and each waits for the other species.
-/

namespace Os161

namespace Asst1

/-- `NFOODBOWLS`. -/
def nfoodbowls : Nat := 2

/-- `NCATS`. -/
def ncats : Nat := 6

/-- `NMICE`. -/
def nmice : Nat := 2

/-- `N_ITERATIONS`. -/
def nIterations : Nat := 4

inductive Species
  | cat
  | mouse
  deriving DecidableEq, Repr

def Species.other : Species → Species
  | .cat => .mouse
  | .mouse => .cat

/-- `dish_availability`: bowl 1 is `dish1_avail` or `not_avail`, bowl 2 `dish2_avail` or
`not_avail`. -/
inductive DishAvailability
  | dish1Avail
  | dish2Avail
  | notAvail
  deriving DecidableEq, Repr

/-- The bowls are `Fin 2`. Their literals `0` and `1` take `0 < 2` from this one instance, so a
bowl is the same term in every problem. -/
scoped instance neZeroTwo : NeZero 2 := ⟨by decide⟩

/-- `dish_available[0] = dish1_avail; dish_available[1] = dish2_avail;`. -/
def dishesAvail : Fin 2 → DishAvailability
  | 0 => .dish1Avail
  | 1 => .dish2Avail

theorem countP_set_add {α : Type} {p : α → Bool} {l : List α} {i : Nat} (hi : i < l.length)
    (b : α) :
    (l.set i b).countP p + (if p l[i] then 1 else 0) = l.countP p + (if p b then 1 else 0) := by
  have := @List.boole_getElem_le_countP _ p l i hi
  rw [List.countP_set hi]
  omega

theorem sum_map_set {α : Type} (f : α → Int) :
    ∀ (l : List α) {i : Nat} (hi : i < l.length) (b : α),
      ((l.set i b).map f).sum = (l.map f).sum - f l[i] + f b
  | a :: l, 0, _, b => by
    simp only [List.set_cons_zero, List.map_cons, List.sum_cons, List.getElem_cons_zero]
    omega
  | a :: l, i + 1, hi, b => by
    simp only [List.set_cons_succ, List.map_cons, List.sum_cons, List.getElem_cons_succ]
    rw [sum_map_set f l (by simpa using hi) b]
    omega

theorem add_le_sum_map {α : Type} (f : α → Int) :
    ∀ (l : List α), (∀ x ∈ l, 0 ≤ f x) → ∀ {i j : Nat} (hi : i < l.length) (hj : j < l.length),
      i ≠ j → f l[i] + f l[j] ≤ (l.map f).sum
  | a :: l, hnn, 0, j + 1, _, hj, _ => by
    have hl : ∀ x ∈ l.map f, 0 ≤ x := by
      simpa using fun x hx => hnn x (List.mem_cons_of_mem a hx)
    have := List.single_le_sum hl _ (List.mem_map_of_mem (List.getElem_mem (by simpa using hj)))
    simp only [List.getElem_cons_zero, List.getElem_cons_succ, List.map_cons, List.sum_cons]
    omega
  | a :: l, hnn, i + 1, 0, hi, _, _ => by
    have hl : ∀ x ∈ l.map f, 0 ≤ x := by
      simpa using fun x hx => hnn x (List.mem_cons_of_mem a hx)
    have := List.single_le_sum hl _ (List.mem_map_of_mem (List.getElem_mem (by simpa using hi)))
    simp only [List.getElem_cons_zero, List.getElem_cons_succ, List.map_cons, List.sum_cons]
    omega
  | a :: l, hnn, i + 1, j + 1, hi, hj, hij => by
    have := add_le_sum_map f l (fun x hx => hnn x (List.mem_cons_of_mem a hx))
      (by simpa using hi) (by simpa using hj) (by omega)
    have ha := hnn a List.mem_cons_self
    simp only [List.getElem_cons_succ, List.map_cons, List.sum_cons]
    omega

theorem neg_length_le_sum_map {α : Type} (f : α → Int) :
    ∀ l : List α, (∀ x ∈ l, -1 ≤ f x) → -(l.length : Int) ≤ (l.map f).sum
  | [], _ => by simp
  | a :: l, h => by
    have hl := neg_length_le_sum_map f l fun x hx => h x (List.mem_cons_of_mem a hx)
    have ha := h a List.mem_cons_self
    simp only [List.length_cons, List.map_cons, List.sum_cons]
    omega

theorem getElem?_set_of_getElem? {α : Type} {l : List α} {i : Nat} {a : α} (hi : l[i]? = some a)
    (b : α) (j : Nat) : (l.set i b)[j]? = if j = i then some b else l[j]? := by
  have hlt := (List.getElem?_eq_some_iff.1 hi).1
  rw [List.getElem?_set]
  by_cases hj : j = i
  · subst hj
    simp [hlt]
  · simp [Ne.symm hj, hj]

theorem countP_set_of_eq {α : Type} {p : α → Bool} {l : List α} {i : Nat} (hi : i < l.length)
    {b : α} (h : p b = p l[i]) : (l.set i b).countP p = l.countP p := by
  have := @countP_set_add _ p _ _ hi b
  rw [h] at this
  omega

theorem countP_set_of_false_true {α : Type} {p : α → Bool} {l : List α} {i : Nat}
    (hi : i < l.length) {b : α} (h₁ : p l[i] = false) (h₂ : p b = true) :
    (l.set i b).countP p = l.countP p + 1 := by
  have := @countP_set_add _ p _ _ hi b
  rw [h₁, h₂] at this
  simpa using this

theorem countP_set_of_true_false {α : Type} {p : α → Bool} {l : List α} {i : Nat}
    (hi : i < l.length) {b : α} (h₁ : p l[i] = true) (h₂ : p b = false) :
    (l.set i b).countP p + 1 = l.countP p := by
  have := @countP_set_add _ p _ _ hi b
  rw [h₁, h₂] at this
  simpa using this

end Asst1

end Os161
