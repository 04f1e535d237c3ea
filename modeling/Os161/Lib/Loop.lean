import Mathlib.Logic.Relation

/-!
# Loops in `Option`

A loop over a list that can stop early is a `List.foldlM` in `Option`. A reflexive and
transitive relation that each round keeps between the state before it and the state after, the
whole loop keeps between its first state and its last (`foldlM_rel`).

A `for (i = 0; i < n; i++)` loop is a `foldlM` over `List.range n`, taken apart at its last round
by `foldlM_range_succ`. A loop that copies a list into a block slot by slot has, after `n`
rounds, the first `n` elements of the list followed by the rest of the block
(`take_append_drop_set`).
-/

namespace Loop

variable {α β : Type*} {R : α → α → Prop}

theorem foldlM_rel (refl : ∀ a, R a a) (trans : ∀ {a b c}, R a b → R b c → R a c)
    {f : α → β → Option α} (step : ∀ a x a', f a x = some a' → R a a') :
    ∀ (xs : List β) {a a' : α}, xs.foldlM f a = some a' → R a a'
  | [], a, a', h => by
    rw [List.foldlM_nil, Option.pure_def, Option.some.injEq] at h
    exact h ▸ refl a
  | x :: xs, a, a', h => by
    rw [List.foldlM_cons] at h
    obtain ⟨b, hb, h⟩ := Option.bind_eq_some_iff.1 h
    exact trans (step a x b hb) (foldlM_rel refl trans step xs h)

theorem foldlM_range_succ (f : α → Nat → Option α) (n : Nat) (a : α) :
    (List.range (n + 1)).foldlM f a = ((List.range n).foldlM f a).bind (f · n) := by
  rw [List.range_succ, List.foldlM_append]
  simp only [List.foldlM_cons, List.foldlM_nil, bind_pure]
  rfl

theorem take_append_drop_set {l₁ l₂ : List β} {n : Nat} (h₁ : n < l₁.length) (h₂ : n < l₂.length) :
    (l₁.take n ++ l₂.drop n).set n l₁[n] = l₁.take (n + 1) ++ l₂.drop (n + 1) := by
  have hlen : (l₁.take n).length = n := List.length_take_of_le (by omega)
  rw [List.drop_eq_getElem_cons h₂, List.set_append_right _ _ (by omega), hlen, Nat.sub_self,
    List.set_cons_zero, List.take_succ_eq_append_getElem h₁, List.append_assoc]
  rfl

end Loop
