import Os161.Asst1.Basic
import Os161.Synch.Basic
import Os161.Lib.Sys

/-!
# Cats and mice with locks and a condition variable

`catlock.c`: the cats and mice share the two bowls under `dish_lock`. Each waits on `dish_cv`
while no bowl is free or the other species eats, then takes a bowl, eats without the lock, and
gives the bowl back under the lock with a `cv_broadcast`. `count_lock` guards `join_count`, on
which the driver spins.

A thread is at a label of its loop (`Pc`): at each `lock_acquire`, at the test of the `while`
around `cv_wait`, at the `lock_acquire` that `cv_wait` ends with, eating, and at the critical
section after eating. Every read and write of the globals is made holding `dish_lock` (or
`count_lock` for `join_count`), so each critical section runs as one step. A `lock_acquire` that
sleeps leaves the label as it is, and the thread runs it again once woken.

Over every interleaving (`catlock_safe`): `num_free_dishes` is the number of bowls available,
the cats eating, the mice eating and the free bowls make `NFOODBOWLS`, cats and mice never eat
together, and no bowl has two animals. The inductive invariant (`Inv`) says who is at which bowl:
an animal names a bowl in its select exactly while it is at one, and a bowl is named by one
animal when it is taken and by none when it is available.
-/

namespace Os161

namespace Asst1

namespace CatLock

inductive LockName
  | dishLock
  | countLock
  deriving DecidableEq, Repr

/-- The labels of `catlock` and `mouselock`: before `lock_acquire(dish_lock)`, at the test of the
`while`, in `cv_wait`'s `lock_acquire`, eating, before `lock_acquire(dish_lock)` after eating,
in the critical section that gives the bowl back, before `lock_acquire(count_lock)`, in its
critical section, and returned. -/
inductive Pc
  | acquire
  | test
  | reacquire
  | eat
  | acquireAgain
  | leave
  | acquireCount
  | join
  | done
  deriving DecidableEq, Repr

/-- The labels from taking a bowl to giving it back. -/
def Pc.atBowl : Pc → Bool
  | .eat | .acquireAgain | .leave => true
  | _ => false

structure Animal where
  species : Species
  pc : Pc
  iteration : Nat
  /-- `cat_dish_select` or `mice_dish_select` -/
  dishSelect : Nat
  deriving DecidableEq, Repr

/-- The locks and `dish_cv`, the animals by thread number, the globals of `catlock.c`, and
whether the driver's spin has ended. -/
structure State where
  synch : Synch Nat LockName Empty Unit
  animals : List Animal
  numFreeDishes : Int
  numMiceEating : Int
  numCatEating : Int
  dishAvailable : Fin 2 → DishAvailability
  joinCount : Int
  driverDone : Bool

namespace State

def setAnimal (w : State) (i : Nat) (a : Animal) : State := { w with animals := w.animals.set i a }

/-- `num_cat_eating` or `num_mice_eating`. -/
def eating (w : State) : Species → Int
  | .cat => w.numCatEating
  | .mouse => w.numMiceEating

def addEating (w : State) : Species → Int → State
  | .cat, d => { w with numCatEating := w.numCatEating + d }
  | .mouse, d => { w with numMiceEating := w.numMiceEating + d }

/-- `lock_acquire(l)` by thread `i`, whose label moves to `pc` once it returns. -/
def lockAcq (w : State) (i : Nat) (a : Animal) (l : LockName) (pc : Pc) : State :=
  let r := w.synch.lockAcquire i l
  { w with synch := r.2 }.setAnimal i (if r.1 then { a with pc := pc } else a)

/-- Bowl `k` is taken: the select set, `dish_available[k] = not_avail`, `num_free_dishes--`,
`lock_release(dish_lock)`. -/
def takeDish (w : State) (i : Nat) (a : Animal) (k : Fin 2) : State :=
  { w with
    dishAvailable := Function.update w.dishAvailable k .notAvail
    numFreeDishes := w.numFreeDishes - 1
    synch := w.synch.lockRelease .dishLock }.setAnimal i { a with pc := .eat, dishSelect := k.val + 1 }

/-- The bowl named by the select is given back. -/
def putDish (w : State) (dishSelect : Nat) : State :=
  if dishSelect = 1 then { w with dishAvailable := Function.update w.dishAvailable 0 .dish1Avail }
  else if dishSelect = 2 then
    { w with dishAvailable := Function.update w.dishAvailable 1 .dish2Avail }
  else w

/-- Animal `a`, thread `i`, runs to its next label. -/
def animalStep (w : State) (i : Nat) (a : Animal) : Option State :=
  match a.pc with
  | .acquire => some (w.lockAcq i a .dishLock .test)
  | .test =>
    if w.numFreeDishes ≤ 0 ∨ 0 < w.eating a.species.other then
      some ({ w with synch := w.synch.cvWait i () .dishLock }.setAnimal i { a with pc := .reacquire })
    else
      let w := w.addEating a.species 1
      if w.dishAvailable 0 = .dish1Avail then some (w.takeDish i a 0)
      else if w.dishAvailable 1 = .dish2Avail then some (w.takeDish i a 1)
      -- `assert(num_free_dishes <= 0)`, and on with `dish_lock` still held
      else if w.numFreeDishes ≤ 0 then some (w.setAnimal i { a with pc := .acquireAgain })
      else none
  | .reacquire => some (w.lockAcq i a .dishLock .test)
  | .eat => some (w.setAnimal i { a with pc := .acquireAgain })
  | .acquireAgain => some (w.lockAcq i a .dishLock .leave)
  | .leave =>
    let w := (w.putDish a.dishSelect).addEating a.species (-1)
    some ({ w with
      numFreeDishes := w.numFreeDishes + 1
      synch := (w.synch.cvBroadcast ()).lockRelease .dishLock }.setAnimal i { a with
        pc := if a.iteration + 1 < nIterations then .acquire else .acquireCount
        iteration := a.iteration + 1
        dishSelect := 0 })
  | .acquireCount => some (w.lockAcq i a .countLock .join)
  | .join =>
    some ({ w with joinCount := w.joinCount + 1, synch := w.synch.lockRelease .countLock }.setAnimal
      i { a with pc := .done })
  | .done => none

/-- The driver's `while(join_count != 9);`. -/
def driverStep (w : State) : Option State :=
  if w.driverDone then none
  else if w.joinCount ≠ 9 then some w
  else some { w with driverDone := true }

/-- Thread `i`, if it is not asleep, runs to its next label: animal `i`, or the driver after the
animals. -/
def step (w : State) (i : Nat) : Option State :=
  if w.synch.sleepers.any (·.1 = i) then none
  else match w.animals[i]? with
    | some a => w.animalStep i a
    | none => if i = w.animals.length then w.driverStep else none

/-- `catmouselock` once it has forked the cats, numbered from 0, and the mice after them. -/
def init : State where
  synch := { held := fun _ => false, holder := fun _ => none, count := nofun, sleepers := [] }
  animals := List.replicate ncats ⟨.cat, .acquire, 0, 0⟩ ++ List.replicate nmice ⟨.mouse, .acquire, 0, 0⟩
  numFreeDishes := nfoodbowls
  numMiceEating := 0
  numCatEating := 0
  dishAvailable := dishesAvail
  joinCount := 1
  driverDone := false

/-- The states `catmouselock` reaches, its threads run in any order. -/
def Reachable (w : State) : Prop := Sys.Reach (· = init) (fun i w w' => w.step i = some w') w

/-- `dish_available[k]` is available. -/
def available (w : State) (k : Fin 2) : Bool := w.dishAvailable k ≠ .notAvail

/-- The number of bowls available. -/
def numAvailable (w : State) : Nat :=
  (if w.available 0 then 1 else 0) + (if w.available 1 then 1 else 0)

/-- The animals whose select names bowl `k`. -/
def occupants (w : State) (k : Fin 2) : Nat := w.animals.countP (·.dishSelect = k.val + 1)

/-- The animals of a species at a bowl. -/
def atBowls (w : State) (sp : Species) : Nat :=
  w.animals.countP fun a => a.species = sp ∧ a.dishSelect ≠ 0

variable {w w' : State} {i : Nat} {a : Animal}

theorem step_animal (ha : w.animals[i]? = some a) (h : w.step i = some w') :
    w.animalStep i a = some w' := by
  simp only [step, ha] at h
  split_ifs at h
  exact h

section Simp

variable (w : State) (i : Nat) (a : Animal) (sp sp' : Species) (d : Int)

@[simp] theorem setAnimal_animals : (w.setAnimal i a).animals = w.animals.set i a := rfl
@[simp] theorem setAnimal_eating : (w.setAnimal i a).eating = w.eating := rfl
@[simp] theorem setAnimal_numFreeDishes : (w.setAnimal i a).numFreeDishes = w.numFreeDishes := rfl
@[simp] theorem setAnimal_dishAvailable : (w.setAnimal i a).dishAvailable = w.dishAvailable := rfl
@[simp] theorem addEating_animals : (w.addEating sp d).animals = w.animals := by cases sp <;> rfl
@[simp] theorem addEating_numFreeDishes : (w.addEating sp d).numFreeDishes = w.numFreeDishes := by
  cases sp <;> rfl
@[simp] theorem addEating_dishAvailable : (w.addEating sp d).dishAvailable = w.dishAvailable := by
  cases sp <;> rfl
@[simp] theorem addEating_eating :
    (w.addEating sp d).eating sp' = if sp' = sp then w.eating sp' + d else w.eating sp' := by
  cases sp <;> cases sp' <;> rfl
@[simp] theorem putDish_animals (n : Nat) : (w.putDish n).animals = w.animals := by
  unfold putDish; split_ifs <;> rfl
@[simp] theorem putDish_eating (n : Nat) : (w.putDish n).eating = w.eating := by
  unfold putDish; split_ifs <;> rfl
@[simp] theorem putDish_numFreeDishes (n : Nat) : (w.putDish n).numFreeDishes = w.numFreeDishes := by
  unfold putDish; split_ifs <;> rfl

end Simp

theorem Species.eq_or_eq_other (sp sp₀ : Species) : sp = sp₀ ∨ sp = sp₀.other := by
  cases sp <;> cases sp₀ <;> simp [Species.other]

@[simp] theorem Species.other_ne (sp : Species) : sp.other ≠ sp := by
  cases sp <;> simp [Species.other]

@[simp] theorem Species.other_other (sp : Species) : sp.other.other = sp := by
  cases sp <;> rfl

theorem available_dishesAvail (k : Fin 2) : dishesAvail k ≠ .notAvail := by
  revert k
  decide

theorem putDish_dishAvailable {n : Nat} {k : Fin 2} (h : n = k.val + 1) :
    (w.putDish n).dishAvailable = Function.update w.dishAvailable k (dishesAvail k) := by
  obtain ⟨_ | _ | _, hk⟩ := k
  · subst h
    rfl
  · subst h
    rfl
  · omega

/-- Who is at which bowl: an animal's select names a bowl exactly while it is at one; a bowl
taken is named by one animal and an available one by none; the free bowls and the taken ones
make `NFOODBOWLS`; each species' count is its animals at a bowl, and one species eats at a
time. -/
structure Inv (w : State) : Prop where
  select_le : ∀ a ∈ w.animals, a.dishSelect ≤ 2
  select_atBowl : ∀ a ∈ w.animals, a.dishSelect ≠ 0 ↔ a.pc.atBowl = true
  dish_shape : ∀ k, w.dishAvailable k = dishesAvail k ∨ w.dishAvailable k = .notAvail
  occupants_eq : ∀ k, w.occupants k = if w.available k then 0 else 1
  free_add : w.numFreeDishes + w.occupants 0 + w.occupants 1 = nfoodbowls
  eating_eq : ∀ sp, w.eating sp = w.atBowls sp
  exclusive : ∀ sp, 0 < w.eating sp → w.eating sp.other = 0

theorem Inv.init : init.Inv where
  select_le a ha := by
    simp only [State.init, List.mem_append, List.mem_replicate] at ha
    rcases ha with ⟨-, rfl⟩ | ⟨-, rfl⟩ <;> decide
  select_atBowl a ha := by
    simp only [State.init, List.mem_append, List.mem_replicate] at ha
    rcases ha with ⟨-, rfl⟩ | ⟨-, rfl⟩ <;> decide
  dish_shape k := .inl rfl
  occupants_eq := by decide
  free_add := by decide
  eating_eq sp := by cases sp <;> decide
  exclusive sp := by cases sp <;> decide

theorem Inv.setAnimal (hw : w.Inv) (ha : w.animals[i]? = some a) {a' : Animal}
    (hs : a'.species = a.species) (hd : a'.dishSelect = a.dishSelect)
    (hb : a'.pc.atBowl = a.pc.atBowl) : (w.setAnimal i a').Inv := by
  obtain ⟨hi, rfl⟩ := List.getElem?_eq_some_iff.1 ha
  have hmem : ∀ x ∈ w.animals.set i a', x ∈ w.animals ∨ x = a' := fun x hx =>
    (List.mem_or_eq_of_mem_set hx).imp id id
  have hocc : ∀ k, (w.setAnimal i a').occupants k = w.occupants k := fun k =>
    countP_set_of_eq hi (by simp [hd])
  refine ⟨fun x hx => ?_, fun x hx => ?_, hw.dish_shape, fun k => ?_, ?_, fun sp => ?_,
    hw.exclusive⟩
  · rcases hmem x hx with hx | rfl
    · exact hw.select_le x hx
    · rw [hd]
      exact hw.select_le _ (List.getElem_mem hi)
  · rcases hmem x hx with hx | rfl
    · exact hw.select_atBowl x hx
    · rw [hd, hb]
      exact hw.select_atBowl _ (List.getElem_mem hi)
  · rw [hocc]
    exact hw.occupants_eq k
  · rw [hocc, hocc]
    exact hw.free_add
  · simp only [atBowls, setAnimal_eating, setAnimal_animals]
    rw [countP_set_of_eq hi (by simp [hd, hs])]
    exact hw.eating_eq sp

theorem Inv.eating_nonneg (hw : w.Inv) (sp : Species) : 0 ≤ w.eating sp := by
  rw [hw.eating_eq sp]
  exact Int.natCast_nonneg _

theorem Inv.select_eq_zero (hw : w.Inv) (ha : a ∈ w.animals) (hb : a.pc.atBowl = false) :
    a.dishSelect = 0 := by
  by_contra hne
  have := (hw.select_atBowl a ha).1 hne
  rw [hb] at this
  cases this

theorem Inv.takeDish (hw : w.Inv) (ha : w.animals[i]? = some a) (hpc : a.pc = .test) {k : Fin 2}
    (hk : w.dishAvailable k = dishesAvail k) (hother : ¬0 < w.eating a.species.other) :
    ((w.addEating a.species 1).takeDish i a k).Inv := by
  obtain ⟨hi, hai⟩ := List.getElem?_eq_some_iff.1 ha
  have hsel : a.dishSelect = 0 :=
    hw.select_eq_zero (hai ▸ List.getElem_mem hi) (by rw [hpc]; rfl)
  have hav : w.available k = true := by simpa [available, hk] using available_dishesAvail k
  have hocc : w.occupants k = 0 := by simpa [hav] using hw.occupants_eq k
  have hother' : w.eating a.species.other = 0 := by
    have := hw.eating_nonneg a.species.other
    omega
  obtain ⟨a', ha'⟩ : ∃ a' : Animal, a' = { a with pc := .eat, dishSelect := k.val + 1 } := ⟨_, rfl⟩
  have hd' : a'.dishSelect = k.val + 1 := by rw [ha']
  set w' := (w.addEating a.species 1).takeDish i a k
  have hanim : w'.animals = w.animals.set i a' := by simp [w', State.takeDish, ha']
  have hdish : w'.dishAvailable = Function.update w.dishAvailable k .notAvail := by
    simp [w', State.takeDish]
  have hocc' : ∀ k', w'.occupants k' = w.occupants k' + if k' = k then 1 else 0 := by
    intro k'
    simp only [occupants, hanim]
    by_cases hk' : k' = k
    · subst hk'
      rw [if_pos rfl]
      exact countP_set_of_false_true hi (by simp [hai, hsel]) (by simp [hd'])
    · rw [if_neg hk', Nat.add_zero]
      exact countP_set_of_eq hi (by simp [hai, hsel, hd', Fin.val_inj, Ne.symm hk'])
  refine ⟨fun x hx => ?_, fun x hx => ?_, fun k' => ?_, fun k' => ?_, ?_, fun sp => ?_,
    fun sp hsp => ?_⟩
  · rw [hanim] at hx
    rcases List.mem_or_eq_of_mem_set hx with hx | rfl
    · exact hw.select_le x hx
    · rw [hd']
      omega
  · rw [hanim] at hx
    rcases List.mem_or_eq_of_mem_set hx with hx | rfl
    · exact hw.select_atBowl x hx
    · simp [ha', Pc.atBowl]
  · rw [hdish]
    by_cases hk' : k' = k
    · subst hk'
      simp
    · simpa [Function.update_of_ne hk'] using hw.dish_shape k'
  · rw [hocc']
    by_cases hk' : k' = k
    · subst hk'
      simp [available, hdish, hocc]
    · simpa [available, hdish, Function.update_of_ne hk', hk'] using hw.occupants_eq k'
  · rw [hocc', hocc']
    have := hw.free_add
    have hfree : w'.numFreeDishes = w.numFreeDishes - 1 := by simp [w', State.takeDish]
    rcases (by omega : k = 0 ∨ k = 1) with rfl | rfl <;> simp [hfree] <;> omega
  · have heat : w'.eating = (w.addEating a.species 1).eating := rfl
    simp only [heat, addEating_eating, atBowls, hanim, hw.eating_eq sp]
    by_cases hs : sp = a.species
    · subst hs
      rw [if_pos rfl, countP_set_of_false_true hi (by simp [hai, hsel]) (by simp [ha'])]
      push_cast
      rfl
    · rw [if_neg hs, countP_set_of_eq hi (by simp [hai, hsel, ha', Ne.symm hs])]
  · have heat : w'.eating = (w.addEating a.species 1).eating := rfl
    rw [heat] at hsp ⊢
    rcases Species.eq_or_eq_other sp a.species with rfl | rfl
    · simp [hother']
    · simp [hother'] at hsp

theorem Inv.leave (hw : w.Inv) (ha : w.animals[i]? = some a) (hpc : a.pc = .leave) {a' : Animal}
    (hs : a'.species = a.species) (hd : a'.dishSelect = 0) (hb : a'.pc.atBowl = false)
    (s : Synch Nat LockName Empty Unit) :
    ({ (w.putDish a.dishSelect).addEating a.species (-1) with
      numFreeDishes := ((w.putDish a.dishSelect).addEating a.species (-1)).numFreeDishes + 1
      synch := s }.setAnimal i a').Inv := by
  obtain ⟨hi, hai⟩ := List.getElem?_eq_some_iff.1 ha
  have hmem : a ∈ w.animals := hai ▸ List.getElem_mem hi
  have hsel : a.dishSelect ≠ 0 := (hw.select_atBowl a hmem).2 (by rw [hpc]; rfl)
  have hle := hw.select_le a hmem
  obtain ⟨k, hak⟩ : ∃ k : Fin 2, a.dishSelect = k.val + 1 := ⟨⟨a.dishSelect - 1, by omega⟩, by
    show a.dishSelect = a.dishSelect - 1 + 1
    omega⟩
  have hocc : w.occupants k = 1 := by
    have hpos := @List.boole_getElem_le_countP _ (fun x => x.dishSelect = k.val + 1) _ _ hi
    simp only [hai, hak, decide_true, if_true] at hpos
    have := hw.occupants_eq k
    split_ifs at this <;> simp only [occupants] at this ⊢ <;> omega
  have hnav : w.available k = false := by
    have := hw.occupants_eq k
    split_ifs at this with h
    · omega
    · simpa using h
  set w' := { (w.putDish a.dishSelect).addEating a.species (-1) with
      numFreeDishes := ((w.putDish a.dishSelect).addEating a.species (-1)).numFreeDishes + 1
      synch := s }.setAnimal i a'
  have hanim : w'.animals = w.animals.set i a' := by simp [w']
  have hdish : w'.dishAvailable = Function.update w.dishAvailable k (dishesAvail k) := by
    simp only [w', setAnimal_dishAvailable, addEating_dishAvailable]
    exact putDish_dishAvailable hak
  have hocc' : ∀ k', w'.occupants k' + (if k' = k then 1 else 0) = w.occupants k' := by
    intro k'
    simp only [occupants, hanim]
    by_cases hk' : k' = k
    · subst hk'
      rw [if_pos rfl]
      exact countP_set_of_true_false hi (by simp [hai, hak]) (by simp [hd])
    · rw [if_neg hk', Nat.add_zero]
      exact countP_set_of_eq hi (by simp [hai, hak, hd, Fin.val_inj, Ne.symm hk'])
  have heat : ∀ sp, w'.eating sp = if sp = a.species then w.eating sp - 1 else w.eating sp := by
    intro sp
    simp only [w', setAnimal_eating]
    rw [show ({ (w.putDish a.dishSelect).addEating a.species (-1) with
      numFreeDishes := ((w.putDish a.dishSelect).addEating a.species (-1)).numFreeDishes + 1
      synch := s } : State).eating = ((w.putDish a.dishSelect).addEating a.species (-1)).eating by
      cases a.species <;> rfl]
    simp [Int.sub_eq_add_neg]
  have hself : 0 < w.atBowls a.species := List.countP_pos_iff.2 ⟨a, hmem, by simp [hsel]⟩
  refine ⟨fun x hx => ?_, fun x hx => ?_, fun k' => ?_, fun k' => ?_, ?_, fun sp => ?_,
    fun sp hsp => ?_⟩
  · rw [hanim] at hx
    rcases List.mem_or_eq_of_mem_set hx with hx | rfl
    · exact hw.select_le x hx
    · rw [hd]
      omega
  · rw [hanim] at hx
    rcases List.mem_or_eq_of_mem_set hx with hx | rfl
    · exact hw.select_atBowl x hx
    · simp [hd, hb]
  · rw [hdish]
    by_cases hk' : k' = k
    · subst hk'
      simp
    · simpa [Function.update_of_ne hk'] using hw.dish_shape k'
  · have := hocc' k'
    by_cases hk' : k' = k
    · subst hk'
      simp only [hocc] at this
      simp [available, hdish, available_dishesAvail, Nat.add_right_cancel_iff.1 this]
    · rw [if_neg hk', Nat.add_zero] at this
      simpa [available, hdish, Function.update_of_ne hk', this] using hw.occupants_eq k'
  · have h0 := hocc' 0
    have h1 := hocc' 1
    have := hw.free_add
    have hfree : w'.numFreeDishes = w.numFreeDishes + 1 := by simp [w']
    rw [hfree]
    rcases (by omega : k = 0 ∨ k = 1) with rfl | rfl <;> simp at h0 h1 <;> omega
  · rw [heat sp, hw.eating_eq sp]
    simp only [atBowls, hanim]
    by_cases hsp : sp = a.species
    · subst hsp
      rw [if_pos rfl]
      have := @countP_set_of_true_false _ (fun x => x.species = a.species ∧ x.dishSelect ≠ 0) _ _
        hi a' (by simp [hai, hsel]) (by simp [hd])
      omega
    · have hc := @countP_set_of_eq _ (fun x => x.species = sp ∧ x.dishSelect ≠ 0) _ _ hi a'
        (by simp [hai, hd, hs, Ne.symm hsp])
      rw [if_neg hsp, hc]
  · rw [heat] at hsp ⊢
    rcases Species.eq_or_eq_other sp a.species with rfl | rfl
    · rw [if_pos rfl] at hsp
      rw [if_neg (Species.other_ne _)]
      exact hw.exclusive _ (by omega)
    · rw [if_neg (Species.other_ne _)] at hsp
      have := hw.exclusive _ hsp
      rw [Species.other_other] at this ⊢
      have := hw.eating_eq a.species
      omega

theorem Inv.of_fields (hw : w.Inv) (h₁ : w'.animals = w.animals)
    (h₂ : w'.numFreeDishes = w.numFreeDishes) (h₃ : w'.eating = w.eating)
    (h₄ : w'.dishAvailable = w.dishAvailable) : w'.Inv := by
  have hocc : w'.occupants = w.occupants := by
    unfold occupants
    rw [h₁]
  have hav : w'.available = w.available := by
    unfold available
    rw [h₄]
  have hat : w'.atBowls = w.atBowls := by
    unfold atBowls
    rw [h₁]
  constructor
  · rw [h₁]
    exact hw.select_le
  · rw [h₁]
    exact hw.select_atBowl
  · rw [h₄]
    exact hw.dish_shape
  · rw [hocc, hav]
    exact hw.occupants_eq
  · rw [hocc, h₂]
    exact hw.free_add
  · rw [h₃, hat]
    exact hw.eating_eq
  · rw [h₃]
    exact hw.exclusive

theorem Inv.withSynch (hw : w.Inv) (s : Synch Nat LockName Empty Unit) :
    { w with synch := s }.Inv :=
  hw.of_fields rfl rfl rfl rfl

theorem Inv.lockAcq (hw : w.Inv) (ha : w.animals[i]? = some a) {l : LockName} {pc : Pc}
    (hpc : pc.atBowl = a.pc.atBowl) : (w.lockAcq i a l pc).Inv := by
  unfold State.lockAcq
  refine (hw.withSynch (w.synch.lockAcquire i l).2).setAnimal ha ?_ ?_ ?_ <;> split
  all_goals first | rfl | exact hpc

theorem Inv.step (hw : w.Inv) (h : w.step i = some w') : w'.Inv := by
  cases ha : w.animals[i]? with
  | none =>
    have hd : w.driverStep = some w' := by
      simp only [State.step, ha] at h
      split_ifs at h
      exact h
    unfold driverStep at hd
    split_ifs at hd <;> cases hd
    · exact hw
    · exact hw.of_fields rfl rfl rfl rfl
  | some a =>
    have h := step_animal ha h
    cases hpc : a.pc <;> simp only [animalStep, hpc] at h
    case acquire | reacquire | acquireCount | acquireAgain =>
      cases h
      exact hw.lockAcq ha (by rw [hpc]; rfl)
    case eat =>
      cases h
      exact hw.setAnimal ha rfl rfl (by rw [hpc]; rfl)
    case join =>
      cases h
      have hj : ({ w with joinCount := w.joinCount + 1, synch := w.synch.lockRelease .countLock } :
          State).Inv := hw.of_fields rfl rfl rfl rfl
      exact hj.setAnimal ha rfl rfl (by rw [hpc]; rfl)
    case done => cases h
    case leave =>
      cases h
      refine hw.leave ha hpc ?_ ?_ ?_ _
      · rfl
      · rfl
      · split <;> rfl
    case test =>
      split_ifs at h with hwait h0 h1 h2
      · cases h
        refine (hw.withSynch (w.synch.cvWait i () .dishLock)).setAnimal ha ?_ ?_ ?_
        · rfl
        · rfl
        · rw [hpc]
          rfl
      · cases h
        exact hw.takeDish ha hpc (by rw [← addEating_dishAvailable w a.species 1]; exact h0)
          (not_or.1 hwait).2
      · cases h
        exact hw.takeDish ha hpc (by rw [← addEating_dishAvailable w a.species 1]; exact h1)
          (not_or.1 hwait).2
      · simp only [addEating_numFreeDishes] at h2
        exact absurd (Or.inl h2) hwait

theorem Inv.reachable (h : w.Reachable) : w.Inv :=
  Sys.Reach.induct_inv (fun _ h => h ▸ Inv.init) (fun _ _ _ hw hs => hw.step hs) h

theorem atBowls_add_atBowls (h : ∀ a ∈ w.animals, a.dishSelect ≤ 2) :
    w.atBowls .cat + w.atBowls .mouse = w.occupants 0 + w.occupants 1 := by
  unfold atBowls occupants
  generalize w.animals = l at h ⊢
  induction l with
  | nil => rfl
  | cons a l ih =>
    have ha := h a List.mem_cons_self
    have hl := ih fun x hx => h x (List.mem_cons_of_mem a hx)
    simp only [List.countP_cons]
    rcases a with ⟨_ | _, _, _, _ | _ | _ | d⟩ <;> simp at ha hl ⊢ <;> omega

theorem Inv.numFreeDishes_eq (hw : w.Inv) : w.numFreeDishes = w.numAvailable := by
  have h₀ := hw.occupants_eq 0
  have h₁ := hw.occupants_eq 1
  have := hw.free_add
  unfold numAvailable
  split_ifs at h₀ h₁ ⊢ <;> simp only [nfoodbowls] at this <;> omega

theorem Inv.eating_add (hw : w.Inv) :
    w.numCatEating + w.numMiceEating + w.numFreeDishes = nfoodbowls := by
  have hc : w.numCatEating = w.atBowls .cat := hw.eating_eq .cat
  have hm : w.numMiceEating = w.atBowls .mouse := hw.eating_eq .mouse
  have := atBowls_add_atBowls hw.select_le
  have := hw.free_add
  omega

theorem Inv.cat_or_mouse (hw : w.Inv) : w.numCatEating = 0 ∨ w.numMiceEating = 0 := by
  have := hw.exclusive .cat
  have := hw.eating_nonneg .cat
  simp only [eating, Species.other] at *
  omega

theorem Inv.occupants_le (hw : w.Inv) (k : Fin 2) : w.occupants k ≤ 1 := by
  rw [hw.occupants_eq k]
  split <;> omega

theorem Inv.test_isSome (hw : w.Inv) (hpc : a.pc = .test) : (w.animalStep i a).isSome := by
  simp only [animalStep, hpc]
  split_ifs with hwait h0 h1 h2 <;> try rfl
  -- neither bowl is available: both are taken, and none is free
  simp only [addEating_dishAvailable] at h0 h1
  have hav : ∀ k, w.dishAvailable k ≠ dishesAvail k → w.available k = false := fun k hk => by
    rcases hw.dish_shape k with h | h
    · exact absurd h hk
    · simp [available, h]
  have h₀ := hw.occupants_eq 0
  have h₁ := hw.occupants_eq 1
  rw [hav 0 h0] at h₀
  rw [hav 1 h1] at h₁
  have := hw.free_add
  have := (not_or.1 hwait).1
  simp only [nfoodbowls, Bool.false_eq_true, if_false] at *
  omega

end State

open State in
theorem catlock_safe {w : State} (h : w.Reachable) :
    w.numFreeDishes = w.numAvailable ∧
      w.numCatEating + w.numMiceEating + w.numFreeDishes = nfoodbowls ∧
      (w.numCatEating = 0 ∨ w.numMiceEating = 0) ∧ ∀ k, w.occupants k ≤ 1 := by
  have hw := Inv.reachable h
  exact ⟨hw.numFreeDishes_eq, hw.eating_add, hw.cat_or_mouse, hw.occupants_le⟩

/-- Cat 0 takes bowl 0; mouse 6 finds a cat eating and waits on `dish_cv`. -/
def waitRun : List Nat := [0, 0, 6, 6]

theorem catlock_safe_waitRun :
    ∃ w, Sys.exec (fun i w => State.step w i) State.init waitRun = some w ∧
      w.numFreeDishes = w.numAvailable ∧
      w.numCatEating + w.numMiceEating + w.numFreeDishes = nfoodbowls ∧
      (w.numCatEating = 0 ∨ w.numMiceEating = 0) ∧ ∀ k, w.occupants k ≤ 1 := by
  obtain ⟨w, hw⟩ := Option.isSome_iff_exists.1
    (by decide : (Sys.exec (fun i w => State.step w i) State.init waitRun).isSome)
  exact ⟨w, hw, catlock_safe (Sys.Reach.of_exec (Sys.Reach.init rfl) hw)⟩

theorem catlock_assert_holds {w : State} (h : w.Reachable) :
    ∀ i a, w.animals[i]? = some a → a.pc = .test → (w.animalStep i a).isSome :=
  fun _ _ _ hpc => (State.Inv.reachable h).test_isSome hpc

theorem catlock_assert_holds_waitRun :
    ∃ w, Sys.exec (fun i w => State.step w i) State.init waitRun = some w ∧
      ∀ i a, w.animals[i]? = some a → a.pc = .test → (w.animalStep i a).isSome := by
  obtain ⟨w, hw⟩ := Option.isSome_iff_exists.1
    (by decide : (Sys.exec (fun i w => State.step w i) State.init waitRun).isSome)
  exact ⟨w, hw, catlock_assert_holds (Sys.Reach.of_exec (Sys.Reach.init rfl) hw)⟩

end CatLock

end Asst1

end Os161
