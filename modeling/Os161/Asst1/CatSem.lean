import Os161.Asst1.Basic
import Os161.Synch.Basic
import Os161.Lib.Sys

/-!
# Cats and mice with semaphores

`catsem.c`: `NCATS` cat and `NMICE` mouse threads share two bowls through the counting semaphore
`sem` (count 2) and the binary semaphore `thread_lock`, which guards `num_cat_eating`,
`num_mice_eating` and `dish_available`; the driver waits for them with `P(join_count)`.

A thread is at a label of its loop (`Pc`), and a step runs the code from one label to the next.
The labels stand at each `P` and `V` and where `sem_eat` sleeps. The code between two of them
reads and writes the shared variables only while `thread_lock` is held, so running it as one step
loses no interleaving. A `P` that sleeps leaves the label as it is: the thread runs it again
once woken, as the loop in `P` does.

Each of the two tokens of `sem` is its count or an animal between its `P(sem)` and its `V(sem)`
(`tokens`). A cat that finds a mouse eating, or a mouse a cat, gives back `thread_lock` and starts
its iteration again without `V(sem)`: the back-off loses a token (`backOff_leaks`,
`catsem_token_leak`).
-/

namespace Os161

namespace Asst1

namespace CatSem

/-- The three semaphores of `catmousesem`. -/
inductive SemName
  | sem
  | threadLock
  | joinCount
  deriving DecidableEq, Repr

/-- The labels of `catsem` and `mousesem`: before `P(sem)`, before `P(thread_lock)`, at the test
of the other species, eating, before the second `P(thread_lock)`, giving back the bowl, before
`V(sem)`, before `V(join_count)`, and returned. -/
inductive Pc
  | pSem
  | pThreadLock
  | check
  | eat
  | pThreadLockAgain
  | leave
  | vSem
  | vJoinCount
  | done
  deriving DecidableEq, Repr

/-- The labels between `P(sem)` and `V(sem)`. -/
def Pc.holdsToken : Pc → Bool
  | .pThreadLock | .check | .eat | .pThreadLockAgain | .leave | .vSem => true
  | _ => false

structure Animal where
  species : Species
  pc : Pc
  iteration : Nat
  /-- `cat_dish_select` or `mice_dish_select` -/
  dishSelect : Nat
  deriving DecidableEq, Repr

/-- The shared state: the semaphores, the animals by thread number, the globals of `catsem.c`,
and the driver's completed `P(join_count)`s. -/
structure State where
  synch : Synch Nat Empty SemName Empty
  animals : List Animal
  numMiceEating : Int
  numCatEating : Int
  dishAvailable : Fin 2 → DishAvailability
  joined : Nat

namespace State

def setAnimal (w : State) (i : Nat) (a : Animal) : State := { w with animals := w.animals.set i a }

/-- `num_cat_eating` or `num_mice_eating`. -/
def eating (w : State) : Species → Int
  | .cat => w.numCatEating
  | .mouse => w.numMiceEating

def addEating (w : State) : Species → Int → State
  | .cat, d => { w with numCatEating := w.numCatEating + d }
  | .mouse, d => { w with numMiceEating := w.numMiceEating + d }

/-- `P(x)` by thread `i`, whose label moves to `pc` once it returns. -/
def semP (w : State) (i : Nat) (a : Animal) (x : SemName) (pc : Pc) : Option State :=
  (w.synch.P i x).map fun (ok, s) =>
    { w with synch := s }.setAnimal i (if ok then { a with pc := pc } else a)

/-- `V(x)` by thread `i`, which is then `a`. -/
def semV (w : State) (i : Nat) (x : SemName) (a : Animal) : Option State :=
  (w.synch.V x).map fun s => { w with synch := s }.setAnimal i a

/-- Bowl `k` is taken: `dish_available[k] = not_avail`, the select set, `V(thread_lock)`. -/
def takeDish (w : State) (i : Nat) (a : Animal) (k : Fin 2) : Option State :=
  { w with dishAvailable := Function.update w.dishAvailable k .notAvail }.semV i .threadLock
    { a with pc := .eat, dishSelect := k.val + 1 }

/-- The bowl named by the select is given back. -/
def putDish (w : State) (dishSelect : Nat) : State :=
  if dishSelect = 1 then { w with dishAvailable := Function.update w.dishAvailable 0 .dish1Avail }
  else if dishSelect = 2 then
    { w with dishAvailable := Function.update w.dishAvailable 1 .dish2Avail }
  else w

/-- Animal `a`, thread `i`, runs to its next label. -/
def animalStep (w : State) (i : Nat) (a : Animal) : Option State :=
  match a.pc with
  | .pSem => w.semP i a .sem .pThreadLock
  | .pThreadLock => w.semP i a .threadLock .check
  | .check =>
    if 0 < w.eating a.species.other then
      -- `V(thread_lock); iteration--; continue;`, with no `V(sem)`
      w.semV i .threadLock { a with pc := .pSem }
    else
      let w := w.addEating a.species 1
      if w.dishAvailable 0 = .dish1Avail then w.takeDish i a 0
      else if w.dishAvailable 1 = .dish2Avail then w.takeDish i a 1
      -- no bowl: on to `P(thread_lock)` without giving it back
      else some (w.setAnimal i { a with pc := .pThreadLockAgain })
  | .eat => some (w.setAnimal i { a with pc := .pThreadLockAgain })
  | .pThreadLockAgain => w.semP i a .threadLock .leave
  | .leave =>
    ((w.putDish a.dishSelect).addEating a.species (-1)).semV i .threadLock
      { a with pc := .vSem, dishSelect := 0 }
  | .vSem =>
    w.semV i .sem { a with
      pc := if a.iteration + 1 < nIterations then .pSem else .vJoinCount
      iteration := a.iteration + 1 }
  | .vJoinCount => w.semV i .joinCount { a with pc := .done }
  | .done => none

/-- The driver's `for(i=0;i<8;i++) P(join_count);`, as thread `i`. -/
def driverStep (w : State) (i : Nat) : Option State :=
  if w.joined < 8 then
    (w.synch.P i .joinCount).map fun (ok, s) =>
      { w with synch := s, joined := if ok then w.joined + 1 else w.joined }
  else none

/-- Thread `i`, if it is not asleep, runs to its next label: animal `i`, or the driver after the
animals. -/
def step (w : State) (i : Nat) : Option State :=
  if w.synch.sleepers.any (·.1 = i) then none
  else match w.animals[i]? with
    | some a => w.animalStep i a
    | none => if i = w.animals.length then w.driverStep i else none

/-- `catmousesem` once it has forked the cats, numbered from 0, and the mice after them. -/
def init : State where
  synch :=
    { held := fun _ => false
      holder := fun _ => none
      count := fun | .sem => 2 | .threadLock => 1 | .joinCount => 0
      sleepers := [] }
  animals := List.replicate ncats ⟨.cat, .pSem, 0, 0⟩ ++ List.replicate nmice ⟨.mouse, .pSem, 0, 0⟩
  numMiceEating := 0
  numCatEating := 0
  dishAvailable := dishesAvail
  joined := 0

/-- The tokens of `sem`: its count and the animals between their `P(sem)` and their `V(sem)`. -/
def tokens (w : State) : Int := w.synch.count .sem + w.animals.countP (·.pc.holdsToken)

variable {w w' : State} {i : Nat} {a : Animal}

theorem step_animal (ha : w.animals[i]? = some a) (h : w.step i = some w') :
    w.animalStep i a = some w' := by
  simp only [step, ha] at h
  split_ifs at h
  exact h

/-- A back-off loses a token of `sem`: the animal leaves its iteration, and the count stays. -/
theorem backOff_leaks (ha : w.animals[i]? = some a) (hpc : a.pc = .check)
    (hother : 0 < w.eating a.species.other) (h : w.step i = some w') :
    w'.tokens + 1 = w.tokens := by
  have h' := step_animal ha h
  simp only [animalStep, hpc, hother, if_true, semV] at h'
  obtain ⟨s, hv, rfl⟩ := Option.map_eq_some_iff.1 h'
  obtain ⟨-, -, rfl⟩ := Synch.V_eq_some hv
  have hi : i < w.animals.length := (List.getElem?_eq_some_iff.1 ha).1
  have hai : w.animals[i] = a := (List.getElem?_eq_some_iff.1 ha).2
  have h₁ : w.animals[i].pc.holdsToken = true := by rw [hai, hpc]; rfl
  have h₂ : ({ a with pc := .pSem } : Animal).pc.holdsToken = false := rfl
  have hc : (w.animals.set i { a with pc := .pSem }).countP (·.pc.holdsToken) + 1 =
      w.animals.countP (·.pc.holdsToken) := by
    have hle := @List.boole_getElem_le_countP _ (·.pc.holdsToken) w.animals i hi
    rw [@List.countP_set _ (·.pc.holdsToken) w.animals i _ hi]
    simp only [h₁, h₂, if_true, Bool.false_eq_true, if_false] at hle ⊢
    omega
  simp only [tokens, setAnimal, Synch.threadWakeup_count]
  rw [Function.update_of_ne (by decide), ← hc]
  omega

end State

/-- Mouse 6 takes a token and starts eating; cat 0 takes the other, finds the mouse eating and
backs off. -/
def leakRun : List Nat := [6, 6, 6, 0, 0, 0]

theorem catsem_token_leak :
    State.init.tokens = 2 ∧ ∃ w, Sys.exec (fun i w => State.step w i) State.init leakRun = some w ∧
      w.tokens = 1 ∧ w.animals[0]? = some ⟨.cat, .pSem, 0, 0⟩ ∧
      w.animals[6]? = some ⟨.mouse, .eat, 0, 1⟩ := by
  have h : (Sys.exec (fun i w => State.step w i) State.init leakRun).map
      (fun w => (w.tokens, w.animals[0]?, w.animals[6]?)) =
      some (1, some ⟨.cat, .pSem, 0, 0⟩, some ⟨.mouse, .eat, 0, 1⟩) := by
    decide
  obtain ⟨w, hw, h⟩ := Option.map_eq_some_iff.1 h
  simp only [Prod.mk.injEq] at h
  exact ⟨by decide, w, hw, h⟩

end CatSem

end Asst1

end Os161
