import Mathlib.Logic.Relation

/-!
# Computations that panic, return an error, or change a state

A C function that returns an error number, hands its results back through pointers and may panic
is a `Run σ ε α`: from a state it panics (`none`), or it ends in a state with a result or an
error. An error keeps the state the function left, as C does. `bind` runs the rest only after a
result; an error or a panic ends the whole computation. `attempt` is the C idiom
`result = f(); if (result) { ...; return result; }`: it hands back the error as a value.

A relation between the state before and the state after that every step keeps is kept by the whole
computation when it is reflexive and transitive (`Rel.bind`), so a frame condition or an invariant
is proved one function at a time, each from the lemmas of the functions it calls.
-/

/-- A computation on states `σ` with errors `ε` and results `α`. -/
def Run (σ ε α : Type) : Type := σ → Option (Except ε α × σ)

namespace Run

variable {σ ε α β : Type}

/-- Return `a` without touching the state. -/
protected def pure (a : α) : Run σ ε α := fun s => some (.ok a, s)

/-- Run `x`, then `f` on its result. -/
protected def bind (x : Run σ ε α) (f : α → Run σ ε β) : Run σ ε β := fun s =>
  match x s with
  | some (.ok a, s') => f a s'
  | some (.error e, s') => some (.error e, s')
  | none => none

instance : Monad (Run σ ε) where
  pure := Run.pure
  bind := Run.bind

instance : LawfulMonad (Run σ ε) := LawfulMonad.mk' _
  (fun x => by
    funext s
    show Run.bind x (fun a => Run.pure (id a)) s = x s
    unfold Run.bind Run.pure
    rcases x s with _ | ⟨_ | a, s'⟩ <;> rfl)
  (fun _ _ => rfl)
  (fun x f g => by
    funext s
    show Run.bind (Run.bind x f) g s = Run.bind x (fun a => Run.bind (f a) g) s
    unfold Run.bind
    rcases x s with _ | ⟨_ | a, s'⟩ <;> rfl)

/-- Return error `e`. -/
def throw (e : ε) : Run σ ε α := fun s => some (.error e, s)

/-- A panic, or a failed `assert`. -/
def fail : Run σ ε α := fun _ => none

/-- Run `x` and hand back its error, if any, as a value. -/
def attempt (x : Run σ ε α) : Run σ ε (Except ε α) := fun s =>
  match x s with
  | some (r, s') => some (.ok r, s')
  | none => none

/-- The current state. -/
def get : Run σ ε σ := fun s => some (.ok s, s)

/-- Replace the state by `s`. -/
def set (s : σ) : Run σ ε Unit := fun _ => some (.ok (), s)

/-- Change the state by `f`. -/
def modify (f : σ → σ) : Run σ ε Unit := fun s => some (.ok (), f s)

/-- `assert(p)`. -/
def assert (p : Prop) [Decidable p] : Run σ ε Unit := fun s => if p then some (.ok (), s) else none

/-- A change of state that may panic, with no result. -/
def lift (f : σ → Option σ) : Run σ ε Unit := fun s => (f s).map fun s' => (.ok (), s')

/-- An `Option` whose `none` is a panic. -/
def ofOption : Option α → Run σ ε α
  | some a => Run.pure a
  | none => fail

/-- `if (e) return e;` for a result already in hand. -/
def ofExcept : Except ε α → Run σ ε α
  | .ok a => Run.pure a
  | .error e => throw e

/-- `x` on the first part of a pair of states, the second left alone. -/
def onFst {τ : Type} (x : Run σ ε α) : Run (σ × τ) ε α := fun p =>
  match x p.1 with
  | some (r, s') => some (r, (s', p.2))
  | none => none

/-- `x` on the state paired with `t`: its result and the second part it leaves, which an error
drops. -/
def withSnd {τ : Type} (t : τ) (x : Run (σ × τ) ε α) : Run σ ε (α × τ) := fun s =>
  match x (s, t) with
  | some (.ok a, (s', t')) => some (.ok (a, t'), s')
  | some (.error e, (s', _)) => some (.error e, s')
  | none => none

section Apply

variable (s : σ)

@[simp] theorem pure_apply (a : α) : (pure a : Run σ ε α) s = some (.ok a, s) := rfl

theorem bind_apply (x : Run σ ε α) (f : α → Run σ ε β) :
    (x >>= f) s = match x s with
      | some (.ok a, s') => f a s'
      | some (.error e, s') => some (.error e, s')
      | none => none := rfl

@[simp] theorem throw_apply (e : ε) : (throw e : Run σ ε α) s = some (.error e, s) := rfl

@[simp] theorem fail_apply : (fail : Run σ ε α) s = none := rfl

@[simp] theorem get_apply : (get : Run σ ε σ) s = some (.ok s, s) := rfl

@[simp] theorem set_apply (s' : σ) : (set s' : Run σ ε Unit) s = some (.ok (), s') := rfl

@[simp] theorem modify_apply (f : σ → σ) : (modify f : Run σ ε Unit) s = some (.ok (), f s) := rfl

@[simp] theorem assert_apply (p : Prop) [Decidable p] :
    (assert p : Run σ ε Unit) s = if p then some (.ok (), s) else none := rfl

@[simp] theorem lift_apply (f : σ → Option σ) :
    (lift f : Run σ ε Unit) s = (f s).map fun s' => (.ok (), s') := rfl

@[simp] theorem pure_bind (a : α) (f : α → Run σ ε β) : (pure a >>= f) = f a := rfl

@[simp] theorem throw_bind (e : ε) (f : α → Run σ ε β) : (throw e >>= f) = throw e := rfl

@[simp] theorem ofExcept_ok (a : α) : (ofExcept (.ok a) : Run σ ε α) = pure a := rfl

@[simp] theorem ofExcept_error (e : ε) : (ofExcept (.error e) : Run σ ε α) = throw e := rfl

theorem attempt_apply (x : Run σ ε α) :
    attempt x s = match x s with
      | some (r, s') => some (.ok r, s')
      | none => none := rfl

end Apply

section Bind

variable {x : Run σ ε α} {f : α → Run σ ε β} {s s'' : σ}

theorem bind_eq_some {r : Except ε β} :
    (x >>= f) s = some (r, s'') ↔
      (∃ a s', x s = some (.ok a, s') ∧ f a s' = some (r, s'')) ∨
        ∃ e, x s = some (.error e, s'') ∧ r = .error e := by
  rw [bind_apply]
  constructor
  · intro h
    split at h
    · exact .inl ⟨_, _, ‹_›, h⟩
    · cases h
      exact .inr ⟨_, ‹_›, rfl⟩
    · cases h
  · rintro (⟨a, s', hx, hf⟩ | ⟨e, hx, rfl⟩)
    · rw [hx]
      exact hf
    · rw [hx]

theorem bind_eq_ok {b : β} :
    (x >>= f) s = some (.ok b, s'') ↔ ∃ a s', x s = some (.ok a, s') ∧ f a s' = some (.ok b, s'') := by
  rw [bind_eq_some]
  constructor
  · rintro (h | ⟨e, -, h⟩)
    · exact h
    · cases h
  · exact .inl

theorem bind_of_ok {a : α} {s' : σ} (hx : x s = some (.ok a, s')) : (x >>= f) s = f a s' := by
  rw [bind_apply, hx]

theorem bind_of_error {e : ε} {s' : σ} (hx : x s = some (.error e, s')) :
    (x >>= f) s = some (.error e, s') := by
  rw [bind_apply, hx]

end Bind

/-! ### Loops over lists -/

theorem forM_congr {l : List α} {f g : α → Run σ ε PUnit} (h : ∀ a ∈ l, f a = g a) :
    l.forM f = l.forM g := by
  induction l with
  | nil => rfl
  | cons a l ih =>
    change f a >>= (fun _ => l.forM f) = g a >>= (fun _ => l.forM g)
    rw [h a List.mem_cons_self, ih fun b hb => h b (List.mem_cons_of_mem a hb)]

/-! ### Relations kept by a computation -/

/-- Every way `x` ends from `s` is in a state `s'` with `R s s'`. -/
def Rel (R : σ → σ → Prop) (x : Run σ ε α) : Prop := ∀ s r s', x s = some (r, s') → R s s'

namespace Rel

variable {R : σ → σ → Prop}

theorem pure (refl : ∀ s, R s s) (a : α) : Rel R (pure a : Run σ ε α) := by
  rintro s r s' h
  cases h
  exact refl s

theorem throw (refl : ∀ s, R s s) (e : ε) : Rel R (Run.throw e : Run σ ε α) := by
  rintro s r s' h
  cases h
  exact refl s

theorem fail : Rel R (Run.fail : Run σ ε α) := by
  rintro s r s' h
  cases h

theorem get (refl : ∀ s, R s s) : Rel R (Run.get : Run σ ε σ) := by
  rintro s r s' h
  cases h
  exact refl s

theorem modify {f : σ → σ} (h : ∀ s, R s (f s)) : Rel R (Run.modify f : Run σ ε Unit) := by
  rintro s r s' hs
  cases hs
  exact h s

theorem assert (refl : ∀ s, R s s) (p : Prop) [Decidable p] : Rel R (Run.assert p : Run σ ε Unit) := by
  rintro s r s' h
  rw [assert_apply] at h
  split at h
  · cases h
    exact refl s
  · cases h

theorem lift {f : σ → Option σ} (h : ∀ s s', f s = some s' → R s s') :
    Rel R (Run.lift f : Run σ ε Unit) := by
  rintro s r s' hs
  obtain ⟨s₁, h₁, hs⟩ := Option.map_eq_some_iff.1 hs
  cases hs
  exact h s s' h₁

theorem ofOption (refl : ∀ s, R s s) (o : Option α) : Rel R (Run.ofOption o : Run σ ε α) := by
  cases o
  · exact fail
  · exact pure refl _

theorem ofExcept (refl : ∀ s, R s s) (r : Except ε α) : Rel R (Run.ofExcept r : Run σ ε α) := by
  cases r
  · exact throw refl _
  · exact pure refl _

theorem attempt {x : Run σ ε α} (hx : Rel R x) : Rel R (Run.attempt x) := by
  rintro s r s' h
  rw [attempt_apply] at h
  split at h
  · cases h
    exact hx s _ _ ‹_›
  · cases h

/-- A computation made of steps that keep a reflexive and transitive relation keeps it. -/
theorem bind (trans : ∀ {a b c}, R a b → R b c → R a c)
    {x : Run σ ε α} {f : α → Run σ ε β} (hx : Rel R x) (hf : ∀ a, Rel R (f a)) :
    Rel R (x >>= f) := by
  rintro s r s'' h
  rcases bind_eq_some.1 h with ⟨a, s', h₁, h₂⟩ | ⟨e, h₁, -⟩
  · exact trans (hx s _ s' h₁) (hf a s' _ s'' h₂)
  · exact hx s _ s'' h₁

theorem set {s' : σ} (h : ∀ s, R s s') : Rel R (Run.set s' : Run σ ε Unit) := by
  rintro s r s'' hs
  cases hs
  exact h s

theorem onFst {τ : Type} {x : Run σ ε α} (hx : Rel R x) :
    Rel (fun p q : σ × τ => R p.1 q.1) (Run.onFst x : Run (σ × τ) ε α) := by
  rintro ⟨s, t⟩ r ⟨s', t'⟩ h
  simp only [Run.onFst] at h
  split at h
  · cases h
    exact hx s _ _ ‹_›
  · cases h

omit R in
theorem onFst_snd {τ : Type} (x : Run σ ε α) :
    Rel (fun p q : σ × τ => q.2 = p.2) (Run.onFst x : Run (σ × τ) ε α) := by
  rintro ⟨s, t⟩ r ⟨s', t'⟩ h
  simp only [Run.onFst] at h
  split at h
  · cases h
    rfl
  · cases h

theorem withSnd {τ : Type} {t : τ} {x : Run (σ × τ) ε α}
    (hx : Rel (fun p q : σ × τ => R p.1 q.1) x) : Rel R (Run.withSnd t x) := by
  rintro s r s' h
  simp only [Run.withSnd] at h
  split at h
  · cases h
    exact hx (s, t) _ _ ‹_›
  · cases h
    exact hx (s, t) _ _ ‹_›
  · cases h

theorem forM (refl : ∀ s, R s s) (trans : ∀ {a b c}, R a b → R b c → R a c)
    {f : α → Run σ ε PUnit} (hf : ∀ a, Rel R (f a)) : ∀ l : List α, Rel R (l.forM f)
  | [] => pure refl _
  | a :: l => by
    change Rel R (f a >>= fun _ => l.forM f)
    refine bind @trans (hf a) ?_
    intro _
    exact forM refl trans hf l

theorem foldlM (refl : ∀ s, R s s) (trans : ∀ {a b c}, R a b → R b c → R a c)
    {f : β → α → Run σ ε β} (hf : ∀ b a, Rel R (f b a)) : ∀ (l : List α) (b : β),
      Rel R (l.foldlM f b)
  | [], b => pure refl b
  | a :: l, b => by
    rw [List.foldlM_cons]
    refine bind @trans (hf b a) ?_
    intro b'
    exact foldlM refl trans hf l b'

theorem mono {R' : σ → σ → Prop} (hR : ∀ s s', R s s' → R' s s') {x : Run σ ε α} (h : Rel R x) :
    Rel R' x :=
  fun s r s' hs => hR s s' (h s r s' hs)

end Rel

end Run
