import Os161.Asst1.Basic
import Os161.Synch.Calls
import Os161.Lib.Sys

/-!
# The stoplight

`stoplight.c`: `NCARS` car threads cross an intersection of four quadrants, each guarded by a lock.
A car takes `P` of the semaphore of its direction, prints `approaching`, takes the locks of the
quadrants on its route in one `lock_acquire`, `lock_acquire_two` or `lock_acquire_three`, gives
the semaphore back with `V`, prints a region for each quadrant and `leaving`, releases its locks
in one call, and runs `V(join_sem)`.

A car thread is its list of statements (`approachintersection`, after `random()` has chosen the
direction and the turn) and the index of the next one, and a step runs one statement: a call
into `synch.c`, atomic up to its return or its sleep, or a `message`, which only prints. A call
that sleeps leaves the index where it is, and the car runs the call again once woken.

What a car has run decides what it holds: the quadrants its calls have taken and not released
(`holdsAfter`), and the semaphore counts it has taken (`tokensAfter`). Over every interleaving
(`stoplight_safe`), a car from its first region until its `leaving` holds the locks of exactly
the quadrants on its route, so no two cars share a quadrant; cars from one direction enter in
the order they print `approaching`; and while a car has not finished, some car can run.
-/

namespace Os161

namespace Asst1

namespace Stoplight

/-- `NCARS`. -/
def ncars : Nat := 20

/-- `NORTH`, `EAST`, `SOUTH`, `WEST`. -/
inductive Dir
  | north
  | east
  | south
  | west
  deriving DecidableEq, Repr

/-- `TURN_LEFT`, `TURN_RIGHT`, `GO_STRAIGHT`. -/
inductive Turn
  | left
  | right
  | straight
  deriving DecidableEq, Repr

inductive Quadrant
  | nw
  | ne
  | sw
  | se
  deriving DecidableEq, Repr

instance {P : Dir → Prop} [DecidablePred P] : Decidable (∀ d, P d) :=
  decidable_of_iff (P .north ∧ P .east ∧ P .south ∧ P .west)
    ⟨fun ⟨h₁, h₂, h₃, h₄⟩ d => by cases d <;> assumption, fun h => ⟨h _, h _, h _, h _⟩⟩

instance {P : Quadrant → Prop} [DecidablePred P] : Decidable (∀ q, P q) :=
  decidable_of_iff (P .nw ∧ P .ne ∧ P .sw ∧ P .se)
    ⟨fun ⟨h₁, h₂, h₃, h₄⟩ q => by cases q <;> assumption, fun h => ⟨h _, h _, h _, h _⟩⟩

/-- `from_north`, `from_east`, `from_south`, `from_west` and `join_sem`. -/
inductive SemName
  | fromDir (d : Dir)
  | joinSem
  deriving DecidableEq, Repr

instance {P : SemName → Prop} [DecidablePred P] : Decidable (∀ s, P s) :=
  decidable_of_iff ((∀ d, P (.fromDir d)) ∧ P .joinSem)
    ⟨fun ⟨h₁, h₂⟩ s => by cases s <;> simp_all, fun h => ⟨fun _ => h _, h _⟩⟩

/-- The first parameter of `message`. -/
inductive Msg
  | approaching
  | region1
  | region2
  | region3
  | leaving
  deriving DecidableEq, Repr

/-- A line `message` prints: the message, `carnumber`, `cardirection`, `destdirection`. -/
structure Message where
  msg : Msg
  car : Nat
  dir : Dir
  dest : Dir
  deriving DecidableEq, Repr

/-- A statement of a car thread: a call into `synch.c`, or a `message`. -/
inductive Op
  | call (c : SynchOp Quadrant SemName Empty)
  | message (m : Msg) (dest : Dir)
  deriving DecidableEq, Repr

/-- `gostraight(cardirection)`. -/
def gostraight : Dir → List Op
  | .north => [.message .approaching .south, .call (.acquireTwo .nw .sw),
      .call (.V (.fromDir .north)), .message .region1 .south, .message .region2 .south,
      .message .leaving .south, .call (.releaseTwo .nw .sw)]
  | .east => [.message .approaching .west, .call (.acquireTwo .ne .nw),
      .call (.V (.fromDir .east)), .message .region1 .west, .message .region2 .west,
      .message .leaving .west, .call (.releaseTwo .ne .nw)]
  | .south => [.message .approaching .north, .call (.acquireTwo .se .ne),
      .call (.V (.fromDir .south)), .message .region1 .north, .message .region2 .north,
      .message .leaving .north, .call (.releaseTwo .se .ne)]
  | .west => [.message .approaching .east, .call (.acquireTwo .sw .se),
      .call (.V (.fromDir .west)), .message .region1 .east, .message .region2 .east,
      .message .leaving .east, .call (.releaseTwo .sw .se)]

/-- `turnleft(cardirection)`. -/
def turnleft : Dir → List Op
  | .north => [.message .approaching .east, .call (.acquireThree .nw .sw .se),
      .call (.V (.fromDir .north)), .message .region1 .east, .message .region2 .east,
      .message .region3 .east, .message .leaving .east, .call (.releaseThree .nw .sw .se)]
  | .east => [.message .approaching .south, .call (.acquireThree .ne .nw .sw),
      .call (.V (.fromDir .east)), .message .region1 .south, .message .region2 .south,
      .message .region3 .south, .message .leaving .south, .call (.releaseThree .ne .nw .sw)]
  | .south => [.message .approaching .west, .call (.acquireThree .se .ne .nw),
      .call (.V (.fromDir .south)), .message .region1 .west, .message .region2 .west,
      .message .region3 .west, .message .leaving .west, .call (.releaseThree .se .ne .nw)]
  | .west => [.message .approaching .north, .call (.acquireThree .sw .se .ne),
      .call (.V (.fromDir .west)), .message .region1 .north, .message .region2 .north,
      .message .region3 .north, .message .leaving .north, .call (.releaseThree .sw .se .ne)]

/-- `turnright(cardirection)`. -/
def turnright : Dir → List Op
  | .north => [.message .approaching .west, .call (.acquire .nw), .call (.V (.fromDir .north)),
      .message .region1 .west, .message .leaving .west, .call (.release .nw)]
  | .east => [.message .approaching .north, .call (.acquire .ne), .call (.V (.fromDir .east)),
      .message .region1 .north, .message .leaving .north, .call (.release .ne)]
  | .south => [.message .approaching .east, .call (.acquire .se), .call (.V (.fromDir .south)),
      .message .region1 .east, .message .leaving .east, .call (.release .se)]
  | .west => [.message .approaching .south, .call (.acquire .sw), .call (.V (.fromDir .west)),
      .message .region1 .south, .message .leaving .south, .call (.release .sw)]

/-- `approachintersection` once `random()` has chosen the direction and the turn. -/
def approachintersection (d : Dir) (t : Turn) : List Op :=
  .call (.P (.fromDir d)) ::
    ((match t with
      | .left => turnleft d
      | .right => turnright d
      | .straight => gostraight d) ++ [.call (.V .joinSem)])

/-! ### What a car has run -/

/-- Whether quadrant `q` is locked after the statement, from `b` before it. -/
def Op.holds (q : Quadrant) (b : Bool) : Op → Bool
  | .call c => if q ∈ c.takes true true then true else if q ∈ c.releases true then false else b
  | .message _ _ => b

/-- Whether the statements `ops` leave quadrant `q` locked. -/
def holdsAfter (ops : List Op) (q : Quadrant) : Bool := ops.foldl (fun b op => op.holds q b) false

/-- What the statement takes from semaphore `s`: one for a `P`, back for a `V`. -/
def Op.taken (s : SemName) : Op → Int
  | .call (.P s') => if s' = s then 1 else 0
  | .call (.V s') => if s' = s then -1 else 0
  | _ => 0

/-- What the statements `ops` have taken from semaphore `s`. -/
def tokensAfter (ops : List Op) (s : SemName) : Int := (ops.map (·.taken s)).sum

def Op.prints (m : Msg) : Op → Bool
  | .message m' _ => m' = m
  | .call _ => false

/-- The addresses the statement can sleep on. -/
def Op.chans : Op → List (Chan Quadrant SemName Empty)
  | .call c => c.chans
  | .message _ _ => []

/-- The quadrants the statement releases. -/
def Op.releases : Op → List Quadrant
  | .call c => c.releases true
  | .message _ _ => []

/-- The quadrants of a `lock_acquire_two` or `lock_acquire_three`. -/
def Op.takesMany : Op → List Quadrant
  | .call c => c.takesMany
  | .message _ _ => []

/-- The quadrant a car from each direction enters. -/
def Dir.entry : Dir → Quadrant
  | .north => .nw
  | .east => .ne
  | .south => .se
  | .west => .sw

/-- The quadrant a car passes next, counterclockwise. -/
def Quadrant.next : Quadrant → Quadrant
  | .nw => .sw
  | .sw => .se
  | .se => .ne
  | .ne => .nw

/-- The quadrants on a car's route: one for a right turn, two straight on, three for a left. -/
def route (d : Dir) : Turn → List Quadrant
  | .right => [d.entry]
  | .straight => [d.entry, d.entry.next]
  | .left => [d.entry, d.entry.next, d.entry.next.next]

structure Car where
  dir : Dir
  turn : Turn
  /-- the index of the next statement -/
  pc : Nat
  deriving DecidableEq, Repr

namespace Car

def program (c : Car) : List Op := approachintersection c.dir c.turn

/-- The statements the car has run. -/
def ran (c : Car) : List Op := c.program.take c.pc

def next? (c : Car) : Option Op := c.program[c.pc]?

def advance (c : Car) : Car := { c with pc := c.pc + 1 }

def holds (c : Car) (q : Quadrant) : Bool := holdsAfter c.ran q

def tokens (c : Car) (s : SemName) : Int := tokensAfter c.ran s

def printed (c : Car) (m : Msg) : Bool := c.ran.any (·.prints m)

end Car

/-! ### The programs, statement by statement

Each of the twelve programs is checked once, at every index: these are the facts of the code the
invariant rests on. -/

namespace Car

variable {c : Car}

theorem length_program_le (c : Car) : c.program.length ≤ 10 := by
  obtain ⟨d, t, pc⟩ := c
  show (approachintersection d t).length ≤ 10
  cases d <;> cases t <;> decide

theorem tokens_bounds (hc : c.pc ≤ c.program.length) (s : SemName) :
    (if s = .joinSem then -1 else 0) ≤ c.tokens s ∧
      c.tokens s ≤ if s = .fromDir c.dir then 1 else 0 := by
  obtain ⟨d, t, pc⟩ := c
  change pc ≤ (approachintersection d t).length at hc
  revert s
  revert pc
  cases d <;> cases t <;> decide

theorem chans_next (hc : c.pc ≤ c.program.length) :
    ∀ op ∈ c.next?, ∀ ch ∈ op.chans,
      (ch matches .lock _) ∨ (ch = .sem (.fromDir c.dir) ∧ c.tokens (.fromDir c.dir) = 0) := by
  obtain ⟨d, t, pc⟩ := c
  change pc ≤ (approachintersection d t).length at hc
  revert pc
  cases d <;> cases t <;> decide

theorem next_of_holds (hc : c.pc ≤ c.program.length) :
    ∀ q, c.holds q = true → ∃ op ∈ c.next?, op.chans = [] := by
  obtain ⟨d, t, pc⟩ := c
  change pc ≤ (approachintersection d t).length at hc
  revert pc
  cases d <;> cases t <;> decide

theorem next_of_token (hc : c.pc ≤ c.program.length) :
    c.tokens (.fromDir c.dir) = 1 → c.next?.isSome := by
  obtain ⟨d, t, pc⟩ := c
  change pc ≤ (approachintersection d t).length at hc
  revert pc
  cases d <;> cases t <;> decide

theorem holds_of_region (hc : c.pc ≤ c.program.length) :
    c.printed .region1 = true → c.printed .leaving = false →
      ∀ q, c.holds q = decide (q ∈ route c.dir c.turn) := by
  obtain ⟨d, t, pc⟩ := c
  change pc ≤ (approachintersection d t).length at hc
  revert pc
  cases d <;> cases t <;> decide

theorem region_or_entry (hc : c.pc ≤ c.program.length) :
    c.printed .approaching = true → c.tokens (.fromDir c.dir) = 0 →
      c.printed .region1 = true ∨ c.holds c.dir.entry = true := by
  obtain ⟨d, t, pc⟩ := c
  change pc ≤ (approachintersection d t).length at hc
  revert pc
  cases d <;> cases t <;> decide

theorem entry_of_region (hc : c.pc ≤ c.program.length) :
    ∀ op ∈ c.next?, op.prints .region1 = true → c.holds c.dir.entry = true := by
  obtain ⟨d, t, pc⟩ := c
  change pc ≤ (approachintersection d t).length at hc
  revert pc
  cases d <;> cases t <;> decide

theorem tokens_advance_of_given (hc : c.pc < c.program.length) :
    c.printed .approaching = true → c.tokens (.fromDir c.dir) = 0 →
      c.advance.tokens (.fromDir c.dir) = 0 := by
  obtain ⟨d, t, pc⟩ := c
  change pc < (approachintersection d t).length at hc
  revert pc
  cases d <;> cases t <;> decide

theorem token_of_approaching (hc : c.pc ≤ c.program.length) :
    ∀ op ∈ c.next?, op.prints .approaching = true → c.tokens (.fromDir c.dir) = 1 := by
  obtain ⟨d, t, pc⟩ := c
  change pc ≤ (approachintersection d t).length at hc
  revert pc
  cases d <;> cases t <;> decide

theorem holds_of_releases (hc : c.pc ≤ c.program.length) :
    ∀ op ∈ c.next?, ∀ q ∈ op.releases, c.holds q = true := by
  obtain ⟨d, t, pc⟩ := c
  change pc ≤ (approachintersection d t).length at hc
  revert pc
  cases d <;> cases t <;> decide

theorem takesMany_nodup (hc : c.pc ≤ c.program.length) :
    ∀ op ∈ c.next?, op.takesMany.Nodup := by
  obtain ⟨d, t, pc⟩ := c
  change pc ≤ (approachintersection d t).length at hc
  revert pc
  cases d <;> cases t <;> decide

theorem approaching_of_region (hc : c.pc ≤ c.program.length) :
    c.printed .region1 = true → c.printed .approaching = true := by
  obtain ⟨d, t, pc⟩ := c
  change pc ≤ (approachintersection d t).length at hc
  revert pc
  cases d <;> cases t <;> decide

/-! What running the next statement does. -/

variable {op : Op}

@[simp] theorem advance_dir : c.advance.dir = c.dir := rfl
@[simp] theorem advance_turn : c.advance.turn = c.turn := rfl
@[simp] theorem advance_program : c.advance.program = c.program := rfl

theorem lt_of_next (h : c.next? = some op) : c.pc < c.program.length :=
  (List.getElem?_eq_some_iff.1 h).1

theorem ran_advance (h : c.next? = some op) : c.advance.ran = c.ran ++ [op] := by
  rw [ran, advance_program, advance, List.take_add_one]
  exact congrArg (c.ran ++ ·.toList) h

theorem holds_advance (h : c.next? = some op) (q : Quadrant) :
    c.advance.holds q = op.holds q (c.holds q) := by
  rw [holds, ran_advance h, holdsAfter, List.foldl_append]
  rfl

theorem tokens_advance (h : c.next? = some op) (s : SemName) :
    c.advance.tokens s = c.tokens s + op.taken s := by
  rw [tokens, ran_advance h, tokensAfter, List.map_append, List.sum_append]
  simp [tokens, tokensAfter]

theorem printed_advance (h : c.next? = some op) (m : Msg) :
    c.advance.printed m = (c.printed m || op.prints m) := by
  rw [printed, ran_advance h, List.any_append]
  simp [printed]

end Car

/-! ### The threads -/

/-- The locks and semaphores, the cars by thread number, what `message` has printed, and the
`P(join_sem)`s `createcars` has completed. -/
structure State where
  synch : Synch Nat Quadrant SemName Empty
  cars : List Car
  log : List Message
  joined : Nat

/-- `m` of car `i` is among the lines of `log`. -/
def printed (log : List Message) (m : Msg) (i : Nat) : Bool :=
  log.any fun e => e.msg = m ∧ e.car = i

/-- `m₁` of car `i` was printed at a moment when `m₂` of car `j` was not yet. -/
def PrintedBefore (log : List Message) (m₁ : Msg) (i : Nat) (m₂ : Msg) (j : Nat) : Prop :=
  ∃ p, p <+: log ∧ printed p m₁ i ∧ printed p m₂ j = false

@[simp] theorem printed_nil (m : Msg) (i : Nat) : printed [] m i = false := rfl

theorem printed_append (log : List Message) (e : Message) (m : Msg) (i : Nat) :
    printed (log ++ [e]) m i = (printed log m i || decide (e.msg = m ∧ e.car = i)) := by
  simp [printed, List.any_append]

theorem printed_of_prefix {p log : List Message} (hp : p <+: log) {m : Msg} {i : Nat}
    (h : printed p m i = true) : printed log m i = true := by
  obtain ⟨e, he, h⟩ := List.any_eq_true.1 h
  exact List.any_eq_true.2 ⟨e, hp.subset he, h⟩

theorem PrintedBefore.irrefl {log : List Message} {m : Msg} {i : Nat} :
    ¬PrintedBefore log m i m i := by
  rintro ⟨p, -, h₁, h₂⟩
  rw [h₁] at h₂
  cases h₂

theorem PrintedBefore.printed_first {log : List Message} {m₁ m₂ : Msg} {i j : Nat}
    (h : PrintedBefore log m₁ i m₂ j) : printed log m₁ i = true := by
  obtain ⟨p, hp, h₁, -⟩ := h
  exact printed_of_prefix hp h₁

theorem PrintedBefore.of_snoc {log : List Message} {e : Message} {m₁ m₂ : Msg} {i j : Nat}
    (h : PrintedBefore (log ++ [e]) m₁ i m₂ j) :
    PrintedBefore log m₁ i m₂ j ∨ printed (log ++ [e]) m₂ j = false := by
  obtain ⟨p, hp, h₁, h₂⟩ := h
  rcases List.prefix_concat_iff.1 hp with rfl | hp
  · exact .inr h₂
  · exact .inl ⟨p, hp, h₁, h₂⟩

theorem PrintedBefore.snoc {log : List Message} {e : Message} {m₁ m₂ : Msg} {i j : Nat}
    (h : PrintedBefore log m₁ i m₂ j) : PrintedBefore (log ++ [e]) m₁ i m₂ j := by
  obtain ⟨p, hp, h₁, h₂⟩ := h
  exact ⟨p, hp.trans (List.prefix_append _ _), h₁, h₂⟩

/-! ### Calls with no condition variable -/

section Calls

variable {s s' : Synch Nat Quadrant SemName Empty} {t : Nat} {op : SynchOp Quadrant SemName Empty}
  {ok : Bool}

theorem releases_of_call_false (h : s.call t true op = some (false, s')) : op.releases true = [] := by
  cases op with
  | release _ | releaseTwo _ _ | releaseThree _ _ _ => simp [Synch.call] at h
  | V _ =>
    simp only [Synch.call, Option.map_eq_some_iff, Prod.mk.injEq] at h
    obtain ⟨_, -, h, -⟩ := h
    cases h
  | cvWait k _ | cvSignal k | cvBroadcast k => exact k.elim
  | _ => rfl

theorem takes_false (op : SynchOp Quadrant SemName Empty) : op.takes true false = [] := by
  cases op <;> rfl

theorem ok_of_call_V {sem : SemName} (h : s.call t true (.V sem) = some (ok, s')) : ok = true := by
  simp only [Synch.call, Option.map_eq_some_iff, Prod.mk.injEq] at h
  obtain ⟨_, -, h, -⟩ := h
  exact h.symm

theorem taken_call (op : SynchOp Quadrant SemName Empty) (sem : SemName) :
    (Op.call op).taken sem = (if op = .P sem then 1 else 0) - (if op = .V sem then 1 else 0) := by
  cases op with
  | V s' => by_cases h : s' = sem <;> simp [Op.taken, h]
  | _ => simp [Op.taken]

end Calls

namespace State

def setCar (w : State) (i : Nat) (c : Car) : State := { w with cars := w.cars.set i c }

/-- Car `c`, thread `i`, runs its next statement. -/
def carStep (w : State) (i : Nat) (c : Car) : Option State :=
  match c.next? with
  | some (.message m dest) =>
    some ({ w with log := w.log ++ [(⟨m, i, c.dir, dest⟩ : Message)] }.setCar i c.advance)
  | some (.call op) =>
    -- no condition variable here, so a run after a wakeup is as the first
    (w.synch.call i true op).map fun (ok, s) =>
      { w with synch := s }.setCar i (if ok then c.advance else c)
  | none => none

/-- `for (i = 0; i < NCARS; i++) P(join_sem);` in `createcars`, as thread `i`. -/
def driverStep (w : State) (i : Nat) : Option State :=
  if w.joined < ncars then
    (w.synch.P i .joinSem).map fun (ok, s) =>
      { w with synch := s, joined := if ok then w.joined + 1 else w.joined }
  else none

def runnable (w : State) (i : Nat) : Bool := !w.synch.sleepers.any (·.1 = i)

/-- Car `i` has printed its first region and not yet `leaving`. -/
def inIntersection (w : State) (i : Nat) : Bool :=
  printed w.log .region1 i && !printed w.log .leaving i

/-- Thread `i`, if it is not asleep, runs its next statement: car `i`, or the driver after the
cars. -/
def step (w : State) (i : Nat) : Option State :=
  if w.synch.sleepers.any (·.1 = i) then none
  else match w.cars[i]? with
    | some c => w.carStep i c
    | none => if i = w.cars.length then w.driverStep i else none

/-- The counts `createcars` creates its semaphores with. -/
def initCount : SemName → Int
  | .fromDir _ => 1
  | .joinSem => 0

/-- `createcars` once it has forked the cars, car `k` with the direction and the turn `random()`
gives it. -/
def init (choice : Fin ncars → Dir × Turn) : State where
  synch := { held := fun _ => false, holder := fun _ => none, count := initCount, sleepers := [] }
  cars := List.ofFn fun k => (⟨(choice k).1, (choice k).2, 0⟩ : Car)
  log := []
  joined := 0

/-- The states `createcars` reaches for the choices `random()` makes, its threads run in any
order. -/
def Reachable (choice : Fin ncars → Dir × Turn) (w : State) : Prop :=
  Sys.Reach (· = init choice) (fun i w w' => w.step i = some w') w

variable {w w' : State} {i : Nat} {c : Car}

section Simp

variable (w : State) (i : Nat) (c : Car)

@[simp] theorem setCar_synch : (w.setCar i c).synch = w.synch := rfl
@[simp] theorem setCar_cars : (w.setCar i c).cars = w.cars.set i c := rfl
@[simp] theorem setCar_log : (w.setCar i c).log = w.log := rfl
@[simp] theorem setCar_joined : (w.setCar i c).joined = w.joined := rfl

end Simp

theorem runnable_iff : w.runnable i = true ↔ ∀ ch, (i, ch) ∉ w.synch.sleepers := by
  simp only [runnable, Bool.not_eq_true', List.any_eq_false, decide_eq_true_eq, Prod.forall]
  exact ⟨fun h ch hm => h i ch hm rfl, fun h _ ch hm hi => h ch (hi ▸ hm)⟩

theorem carStep_eq_some (h : w.carStep i c = some w') :
    (∃ m dest, c.next? = some (.message m dest) ∧
      w' = { w with log := w.log ++ [(⟨m, i, c.dir, dest⟩ : Message)] }.setCar i c.advance) ∨
    ∃ op ok s, c.next? = some (.call op) ∧ w.synch.call i true op = some (ok, s) ∧
      w' = { w with synch := s }.setCar i (if ok then c.advance else c) := by
  unfold carStep at h
  split at h
  · rename_i m dest hn
    exact .inl ⟨m, dest, hn, (Option.some.inj h).symm⟩
  · rename_i op hn
    obtain ⟨⟨ok, s⟩, hc, rfl⟩ := Option.map_eq_some_iff.1 h
    exact .inr ⟨op, ok, s, hn, hc, rfl⟩
  · cases h

theorem step_eq_some (h : w.step i = some w') :
    w.runnable i = true ∧ ((∃ c, w.cars[i]? = some c ∧ w.carStep i c = some w') ∨
      (w.cars[i]? = none ∧ i = w.cars.length ∧ w.driverStep i = some w')) := by
  unfold step at h
  by_cases hs : w.synch.sleepers.any (·.1 = i) = true
  · rw [if_pos hs] at h
    cases h
  rw [if_neg hs] at h
  refine ⟨by rw [runnable, Bool.eq_false_iff.2 hs]; rfl, ?_⟩
  cases hc : w.cars[i]? with
  | some c =>
    rw [hc] at h
    exact .inl ⟨c, rfl, h⟩
  | none =>
    rw [hc] at h
    dsimp only at h
    split_ifs at h with hl
    exact .inr ⟨rfl, hl, h⟩

/-! ### The invariant -/

/-- What holds in every reachable state. The locks: `held` and `holder` agree, the holder of a
quadrant is the one car whose statements leave it locked, and nobody sleeps on a free lock. The
semaphores: the counts are nonnegative, nobody sleeps on a positive count, and each count and
what the cars and the driver have taken from it make the count it was created with. A sleeper is
a car asleep in its next statement, on one of its addresses, or the driver on `join_sem`. The
log: a car's lines are what its statements have printed, and cars from one direction enter in the
order they approach. -/
structure Inv (w : State) : Prop where
  length_eq : w.cars.length = ncars
  pc_le : ∀ c ∈ w.cars, c.pc ≤ c.program.length
  heldOk : w.synch.HeldOk
  holder_iff : ∀ q i, w.synch.holder q = some i ↔ ∃ c, w.cars[i]? = some c ∧ c.holds q = true
  sleepersHeld : w.synch.SleepersHeld
  semsAwake : w.synch.SemsAwake
  count_nonneg : ∀ s, 0 ≤ w.synch.count s
  tokens : ∀ s, w.synch.count s + (w.cars.map (·.tokens s)).sum +
    (if s = .joinSem then (w.joined : Int) else 0) = initCount s
  asleep : ∀ i ch, (i, ch) ∈ w.synch.sleepers →
    (∃ c, w.cars[i]? = some c ∧ ∃ op ∈ c.next?, ch ∈ op.chans) ∨
      (i = w.cars.length ∧ ch = .sem .joinSem)
  printed_iff : ∀ i c, w.cars[i]? = some c → ∀ m, printed w.log m i = c.printed m
  given : ∀ i j ci cj, w.cars[i]? = some ci → w.cars[j]? = some cj → ci.dir = cj.dir →
    PrintedBefore w.log .approaching i .approaching j → printed w.log .approaching j = true →
      ci.tokens (.fromDir ci.dir) = 0
  fifo : ∀ i j ci cj, w.cars[i]? = some ci → w.cars[j]? = some cj → ci.dir = cj.dir →
    PrintedBefore w.log .approaching i .approaching j → ¬PrintedBefore w.log .region1 j .region1 i

theorem Inv.init (choice : Fin ncars → Dir × Turn) : (State.init choice).Inv := by
  have hcars : ∀ c ∈ (State.init choice).cars, c.pc = 0 := by
    intro c hc
    obtain ⟨k, rfl⟩ := List.mem_ofFn.1 hc
    rfl
  have hget : ∀ (i : Nat) (c : Car), (State.init choice).cars[i]? = some c → c.pc = 0 :=
    fun i c h =>
    hcars c (List.mem_of_getElem? h)
  have hran : ∀ c : Car, c.pc = 0 → c.ran = [] := fun c h => by
    simp [Car.ran, h]
  refine ⟨by simp [State.init, ncars], fun c hc => by simp [hcars c hc], fun _ => by simp [State.init],
    fun q i => ?_, fun _ _ h => by simp [State.init] at h, fun _ _ _ h => by simp [State.init] at h,
    fun s => by cases s <;> simp [State.init, initCount], fun s => ?_,
    fun _ _ h => by simp [State.init] at h, fun i c hc m => ?_, ?_, ?_⟩
  · simp only [State.init, reduceCtorEq, false_iff, not_exists, not_and]
    intro c hc
    simp [Car.holds, hran c (hget i c hc), holdsAfter]
  · have hsum : ((State.init choice).cars.map (·.tokens s)).sum = 0 := by
      have hz : ∀ c ∈ (State.init choice).cars, c.tokens s = 0 := fun c hc => by
        simp [Car.tokens, hran c (hcars c hc), tokensAfter]
      rw [List.map_congr_left hz]
      simp
    rw [hsum]
    cases s <;> simp [State.init]
  · simp [State.init, Car.printed, hran c (hget i c hc)]
  · intro _ _ _ _ _ _ _ h
    obtain ⟨p, hp, h₁, -⟩ := h
    rw [List.prefix_nil.1 hp] at h₁
    cases h₁
  · intro _ _ _ _ _ _ _ h
    obtain ⟨p, hp, h₁, -⟩ := h
    rw [List.prefix_nil.1 hp] at h₁
    cases h₁

theorem Inv.pc_le_of (hw : w.Inv) (hc : w.cars[i]? = some c) : c.pc ≤ c.program.length :=
  hw.pc_le c (List.mem_of_getElem? hc)

theorem Inv.tokens_eq_zero (hw : w.Inv) {j k : Nat} {cj ck : Car} (hj : w.cars[j]? = some cj)
    (hk : w.cars[k]? = some ck) (hjk : j ≠ k) (hd : cj.dir = ck.dir)
    (h1 : ck.tokens (.fromDir ck.dir) = 1) : cj.tokens (.fromDir cj.dir) = 0 := by
  obtain ⟨hjl, rfl⟩ := List.getElem?_eq_some_iff.1 hj
  obtain ⟨hkl, rfl⟩ := List.getElem?_eq_some_iff.1 hk
  rw [hd] at ⊢
  have hnn : ∀ c ∈ w.cars, 0 ≤ c.tokens (.fromDir w.cars[k].dir) := fun c hc => by
    simpa using (Car.tokens_bounds (hw.pc_le c hc) (.fromDir w.cars[k].dir)).1
  have hsum := add_le_sum_map (·.tokens (.fromDir w.cars[k].dir)) w.cars hnn hjl hkl hjk
  have htok := hw.tokens (.fromDir w.cars[k].dir)
  have hcount := hw.count_nonneg (.fromDir w.cars[k].dir)
  have hj0 := hnn _ (List.getElem_mem hjl)
  simp only [reduceCtorEq, if_false, initCount] at htok hsum
  omega

theorem Inv.approaching_of_region (hw : w.Inv) (hc : w.cars[i]? = some c)
    (h : printed w.log .region1 i = true) : printed w.log .approaching i = true := by
  rw [hw.printed_iff i c hc] at h ⊢
  exact Car.approaching_of_region (hw.pc_le_of hc) h

theorem Inv.eq_of_holds (hw : w.Inv) {j k : Nat} {cj ck : Car} (hj : w.cars[j]? = some cj)
    (hk : w.cars[k]? = some ck) {q : Quadrant} (hqj : cj.holds q = true)
    (hqk : ck.holds q = true) : j = k := by
  have h₁ := (hw.holder_iff q j).2 ⟨cj, hj, hqj⟩
  have h₂ := (hw.holder_iff q k).2 ⟨ck, hk, hqk⟩
  rw [h₁] at h₂
  exact Option.some.inj h₂

/-- Car `i` prints its next line. -/
theorem Inv.message (hw : w.Inv) (hr : w.runnable i = true) (hc : w.cars[i]? = some c)
    {m : Msg} {dest : Dir} (hn : c.next? = some (.message m dest)) :
    ({ w with log := w.log ++ [(⟨m, i, c.dir, dest⟩ : Message)] }.setCar i c.advance).Inv := by
  obtain ⟨hi, hci⟩ := List.getElem?_eq_some_iff.1 hc
  have hget := getElem?_set_of_getElem? hc c.advance
  have hholds : ∀ q, c.advance.holds q = c.holds q := fun q => by
    rw [Car.holds_advance hn]
    rfl
  have htok : ∀ s, c.advance.tokens s = c.tokens s := fun s => by
    rw [Car.tokens_advance hn]
    simp [Op.taken]
  have hprinted : ∀ m', c.advance.printed m' = (c.printed m' || decide (m = m')) := fun m' => by
    rw [Car.printed_advance hn]
    simp [Op.prints]
  have hlog : ∀ m' j, printed (w.log ++ [(⟨m, i, c.dir, dest⟩ : Message)]) m' j =
      (printed w.log m' j || decide (m = m' ∧ i = j)) := fun m' j => printed_append _ _ _ _
  have hback : ∀ (j : Nat) (cj : Car), (w.cars.set i c.advance)[j]? = some cj →
      ∃ cj₀ : Car, w.cars[j]? = some cj₀ ∧ cj₀.dir = cj.dir ∧ ∀ s, cj₀.tokens s = cj.tokens s :=
    fun j cj h => by
      rw [hget] at h
      split_ifs at h with hj
      · obtain rfl := Option.some.inj h
        exact ⟨c, by rw [hj]; exact hc, rfl, fun s => (htok s).symm⟩
      · exact ⟨cj, h, rfl, fun _ => rfl⟩
  constructor
  · simp [hw.length_eq]
  · intro c' hc'
    rcases List.mem_or_eq_of_mem_set hc' with hc' | rfl
    · exact hw.pc_le c' hc'
    · exact Car.lt_of_next hn
  · exact hw.heldOk
  · intro q j
    rw [setCar_synch, hw.holder_iff q j, setCar_cars, hget]
    split_ifs with hj
    · subst hj
      simp [hc, hholds]
    · rfl
  · exact hw.sleepersHeld
  · exact hw.semsAwake
  · exact hw.count_nonneg
  · intro s
    have hsum := sum_map_set (·.tokens s) w.cars hi c.advance
    simp only [hci, htok] at hsum
    have := hw.tokens s
    dsimp only [setCar_synch, setCar_cars, setCar_joined]
    omega
  · intro j ch hm
    rcases hw.asleep j ch hm with ⟨c', hc', hop⟩ | hd
    · have hj : j ≠ i := by
        rintro rfl
        exact runnable_iff.1 hr ch hm
      exact .inl ⟨c', by rw [setCar_cars, hget, if_neg hj, hc'], hop⟩
    · exact .inr (by simpa using hd)
  · intro j c' hc' m'
    rw [setCar_cars, hget] at hc'
    rw [setCar_log, hlog]
    split_ifs at hc' with hj
    · subst hj
      obtain rfl := Option.some.inj hc'
      rw [hprinted, hw.printed_iff _ _ hc]
      simp
    · rw [hw.printed_iff _ _ hc']
      simp [Ne.symm hj]
  · intro j k cj ck hj hk hd hpb hpk
    simp only [setCar_log] at hpb hpk
    obtain ⟨cj₀, hj₀, hdj, htj⟩ := hback j cj hj
    obtain ⟨ck₀, hk₀, hdk, -⟩ := hback k ck hk
    rw [← htj, ← hdj]
    rcases hpb.of_snoc with hpb | hnot
    · by_cases hk0 : printed w.log .approaching k = true
      · exact hw.given j k cj₀ ck₀ hj₀ hk₀ (by rw [hdj, hdk, hd]) hpb hk0
      · simp only [hlog, Bool.eq_false_iff.2 hk0, Bool.false_or, decide_eq_true_eq] at hpk
        obtain ⟨rfl, rfl⟩ := hpk
        rw [hc] at hk₀
        obtain rfl := Option.some.inj hk₀
        have hjk : j ≠ i := by
          rintro rfl
          exact PrintedBefore.irrefl hpb
        exact hw.tokens_eq_zero hj₀ hc hjk (by rw [hdj, hdk, hd])
          (Car.token_of_approaching (hw.pc_le_of hc) _ hn (by simp [Op.prints]))
    · rw [hnot] at hpk
      cases hpk
  · intro j k cj ck hj hk hd hpa hpr
    simp only [setCar_log] at hpa hpr
    obtain ⟨cj₀, hj₀, hdj, htj⟩ := hback j cj hj
    obtain ⟨ck₀, hk₀, hdk, -⟩ := hback k ck hk
    have hd₀ : cj₀.dir = ck₀.dir := by rw [hdj, hdk, hd]
    have hrk := hpr.printed_first
    simp only [hlog] at hrk
    have hak : printed w.log .approaching k = true := by
      rcases Bool.or_eq_true_iff.1 hrk with hrk | hrk
      · exact hw.approaching_of_region hk₀ hrk
      · obtain ⟨rfl, rfl⟩ := of_decide_eq_true hrk
        rw [hc] at hk₀
        obtain rfl := Option.some.inj hk₀
        have hle : c.advance.pc ≤ c.advance.program.length := Car.lt_of_next hn
        have := Car.approaching_of_region hle (by rw [hprinted]; simp)
        rw [hprinted] at this
        rw [hw.printed_iff _ _ hc]
        simpa using this
    have hpa₀ : PrintedBefore w.log .approaching j .approaching k := by
      rcases hpa.of_snoc with hpa | hnot
      · exact hpa
      · simp only [hlog, hak, Bool.true_or] at hnot
        cases hnot
    rcases hpr.of_snoc with hpr | hnot
    · exact hw.fifo j k cj₀ ck₀ hj₀ hk₀ hd₀ hpa₀ hpr
    · simp only [hlog, Bool.or_eq_false_iff] at hnot
      rcases Bool.or_eq_true_iff.1 hrk with hrk | hrk
      · exact hw.fifo j k cj₀ ck₀ hj₀ hk₀ hd₀ hpa₀ ⟨w.log, List.prefix_refl _, hrk, hnot.1⟩
      · obtain ⟨rfl, rfl⟩ := of_decide_eq_true hrk
        rw [hc] at hk₀
        obtain rfl := Option.some.inj hk₀
        have hjt := hw.given j i cj₀ c hj₀ hc hd₀ hpa₀ hak
        have hja := hpa₀.printed_first
        rw [hw.printed_iff _ _ hj₀] at hja
        rcases Car.region_or_entry (hw.pc_le_of hj₀) hja hjt with hjr | hje
        · rw [← hw.printed_iff _ _ hj₀, hnot.1] at hjr
          cases hjr
        · have hie := Car.entry_of_region (hw.pc_le_of hc) _ hn (by simp [Op.prints])
          rw [hd₀] at hje
          exact PrintedBefore.irrefl (hw.eq_of_holds hj₀ hc hje hie ▸ hpa₀)

theorem Inv.call (hw : w.Inv) (hr : w.runnable i = true) (hc : w.cars[i]? = some c)
    {op : SynchOp Quadrant SemName Empty} (hn : c.next? = some (.call op)) {ok : Bool}
    {s : Synch Nat Quadrant SemName Empty} (h : w.synch.call i true op = some (ok, s)) :
    ({ w with synch := s }.setCar i (if ok then c.advance else c)).Inv := by
  obtain ⟨hi, hci⟩ := List.getElem?_eq_some_iff.1 hc
  have hpc := hw.pc_le_of hc
  have hholds : ∀ q, (if ok then c.advance else c).holds q = if q ∈ op.takes true ok then true
      else if q ∈ op.releases true then false else c.holds q := fun q => by
    cases ok
    · rw [if_neg Bool.false_ne_true, takes_false, releases_of_call_false h]
      simp
    · rw [if_pos rfl, Car.holds_advance hn]
      rfl
  have htok : ∀ sem, (if ok then c.advance else c).tokens sem =
      c.tokens sem + if ok then (Op.call op).taken sem else 0 := fun sem => by
    cases ok
    · simp
    · simp [Car.tokens_advance hn]
  have hprinted : ∀ m, (if ok then c.advance else c).printed m = c.printed m := fun m => by
    cases ok
    · rfl
    · simp [Car.printed_advance hn, Op.prints]
  have hdir : (if ok then c.advance else c).dir = c.dir := by
    cases ok <;> rfl
  have hpc' : (if ok then c.advance else c).pc ≤ (if ok then c.advance else c).program.length := by
    cases ok
    · exact hpc
    · exact Car.lt_of_next hn
  have hslept : ok = false → (if ok then c.advance else c) = c := fun hok => by
    subst hok
    rfl
  have hgiven : c.printed .approaching = true → c.tokens (.fromDir c.dir) = 0 →
      (if ok then c.advance else c).tokens (.fromDir c.dir) = 0 := fun ha h0 => by
    cases ok
    · exact h0
    · exact Car.tokens_advance_of_given (Car.lt_of_next hn) ha h0
  have hget := getElem?_set_of_getElem? hc (if ok then c.advance else c)
  generalize (if ok then c.advance else c) = c' at *
  have hback : ∀ (j : Nat) (cj : Car), (w.cars.set i c')[j]? = some cj →
      ∃ cj₀ : Car, w.cars[j]? = some cj₀ ∧ cj₀.dir = cj.dir := fun j cj hj => by
    rw [hget] at hj
    by_cases hji : j = i
    · rw [if_pos hji] at hj
      obtain rfl := Option.some.inj hj
      exact ⟨c, by rw [hji]; exact hc, hdir.symm⟩
    · rw [if_neg hji] at hj
      exact ⟨cj, hj, rfl⟩
  constructor
  · simp [hw.length_eq]
  · intro x hx
    rcases List.mem_or_eq_of_mem_set hx with hx | rfl
    · exact hw.pc_le x hx
    · exact hpc'
  · exact Synch.call_heldOk hw.heldOk h
  · intro q j
    rw [setCar_cars, hget]
    dsimp only [setCar_synch]
    by_cases hj : j = i
    · subst hj
      rw [if_pos rfl, (Synch.call_holder hw.heldOk h).2 q]
      simp only [Option.some.injEq, exists_eq_left', hholds]
      split_ifs <;> simp [hw.holder_iff, hc]
    · have hrel : ∀ l ∈ op.releases true, w.synch.holder l = some i := fun l hl =>
        (hw.holder_iff l i).2 ⟨c, hc, Car.holds_of_releases hpc _ hn l hl⟩
      rw [if_neg hj, Synch.call_holder_other hw.heldOk hrel h hj q, hw.holder_iff]
  · exact Synch.call_sleepersHeld hw.heldOk hw.sleepersHeld (Car.takesMany_nodup hpc _ hn) h
  · exact Synch.call_semsAwake hw.semsAwake h
  · exact fun sem => Synch.call_count_nonneg h (hw.count_nonneg sem)
  · intro sem
    have hsum := sum_map_set (·.tokens sem) w.cars hi c'
    simp only [hci, htok] at hsum
    have hcount := Synch.call_count h sem
    have := hw.tokens sem
    dsimp only [setCar_synch, setCar_cars, setCar_joined]
    rw [hsum, hcount]
    cases ok
    · have hV : op ≠ .V sem := fun hV => by
        subst hV
        cases ok_of_call_V h
      simp only [Bool.false_eq_true, and_false, if_false, if_neg hV] at this ⊢
      omega
    · rw [if_pos rfl, taken_call]
      simp only [and_true] at this ⊢
      split_ifs at this ⊢ <;> omega
  · intro j ch hm
    rcases Synch.call_sleepers h hm with hm₀ | ⟨hok, hj, hch⟩
    · rcases hw.asleep j ch hm₀ with ⟨x, hx, hop⟩ | hd
      · have hj : j ≠ i := by
          rintro rfl
          exact runnable_iff.1 hr ch hm₀
        exact .inl ⟨x, by rw [setCar_cars, hget, if_neg hj, hx], hop⟩
      · exact .inr (by simpa using hd)
    · simp only at hj
      subst hj
      exact .inl ⟨c, by rw [setCar_cars, hget, if_pos rfl, hslept hok], .call op, hn, hch⟩
  · intro j x hx m
    rw [setCar_cars, hget] at hx
    by_cases hj : j = i
    · rw [if_pos hj] at hx
      obtain rfl := Option.some.inj hx
      rw [hprinted, setCar_log]
      exact hj ▸ hw.printed_iff _ _ hc m
    · rw [if_neg hj] at hx
      exact hw.printed_iff _ _ hx m
  · intro j k cj ck hj hk hd hpb hpk
    simp only [setCar_log] at hpb hpk
    obtain ⟨ck₀, hk₀, hdk⟩ := hback k ck hk
    rw [setCar_cars, hget] at hj
    by_cases hji : j = i
    · rw [if_pos hji] at hj
      subst hji
      obtain rfl := Option.some.inj hj
      have h0 := hw.given j k c ck₀ hc hk₀ (by rw [hdk, ← hd, hdir]) hpb hpk
      have hpa := hpb.printed_first
      rw [hw.printed_iff _ _ hc] at hpa
      rw [hdir]
      exact hgiven hpa h0
    · rw [if_neg hji] at hj
      exact hw.given j k cj ck₀ hj hk₀ (by rw [hdk, hd]) hpb hpk
  · intro j k cj ck hj hk hd hpa
    obtain ⟨cj₀, hj₀, hdj⟩ := hback j cj hj
    obtain ⟨ck₀, hk₀, hdk⟩ := hback k ck hk
    exact hw.fifo j k cj₀ ck₀ hj₀ hk₀ (by rw [hdj, hdk, hd]) hpa

theorem Inv.driver (hw : w.Inv) (hl : i = w.cars.length) {ok : Bool}
    {s : Synch Nat Quadrant SemName Empty} (h : w.synch.P i .joinSem = some (ok, s)) :
    { w with synch := s, joined := if ok then w.joined + 1 else w.joined }.Inv := by
  have h' : w.synch.call i true (.P .joinSem) = some (ok, s) := h
  have hholder : s.holder = w.synch.holder := funext fun q => by
    rw [(Synch.call_holder hw.heldOk h').2 q]
    simp [SynchOp.takes, SynchOp.releases]
  refine ⟨hw.length_eq, hw.pc_le, Synch.call_heldOk hw.heldOk h', fun q j => ?_,
    Synch.call_sleepersHeld hw.heldOk hw.sleepersHeld (by exact List.nodup_nil) h',
    Synch.call_semsAwake hw.semsAwake h', fun sem => Synch.call_count_nonneg h' (hw.count_nonneg sem),
    fun sem => ?_, fun j ch hm => ?_, hw.printed_iff, hw.given, hw.fifo⟩
  · rw [hholder]
    exact hw.holder_iff q j
  · have := hw.tokens sem
    rw [Synch.call_count h' sem]
    dsimp only
    cases ok <;> cases sem <;> simp_all
    omega
  · rcases Synch.call_sleepers h' hm with hm | ⟨-, hj, hch⟩
    · exact hw.asleep j ch hm
    · simp only [SynchOp.chans, List.mem_singleton] at hch
      exact .inr ⟨hj.trans hl, hch⟩

theorem Inv.step (hw : w.Inv) (h : w.step i = some w') : w'.Inv := by
  obtain ⟨hr, ⟨c, hc, h⟩ | ⟨-, hl, h⟩⟩ := step_eq_some h
  · rcases carStep_eq_some h with ⟨m, dest, hn, rfl⟩ | ⟨op, ok, s, hn, hcall, rfl⟩
    · exact hw.message hr hc hn
    · exact hw.call hr hc hn hcall
  · unfold driverStep at h
    split_ifs at h
    obtain ⟨⟨ok, s⟩, hP, rfl⟩ := Option.map_eq_some_iff.1 h
    exact hw.driver hl hP

theorem Inv.reachable {choice : Fin ncars → Dir × Turn} (h : w.Reachable choice) : w.Inv :=
  Sys.Reach.induct_inv (fun _ h => h ▸ Inv.init choice) (fun _ _ _ hw hs => hw.step hs) h

/-! ### What the invariant gives -/

theorem Inv.holder_iff_route (hw : w.Inv) (hc : w.cars[i]? = some c)
    (hin : w.inIntersection i = true) (q : Quadrant) :
    w.synch.holder q = some i ↔ q ∈ route c.dir c.turn := by
  simp only [inIntersection, Bool.and_eq_true, Bool.not_eq_true'] at hin
  rw [hw.printed_iff i c hc, hw.printed_iff i c hc] at hin
  have hh := Car.holds_of_region (hw.pc_le_of hc) hin.1 hin.2 q
  rw [hw.holder_iff q i]
  constructor
  · rintro ⟨c', hc', hq⟩
    rw [hc] at hc'
    obtain rfl := Option.some.inj hc'
    rw [hh] at hq
    exact of_decide_eq_true hq
  · intro hq
    exact ⟨c, hc, by rw [hh]; exact decide_eq_true hq⟩

theorem Inv.count_le (hw : w.Inv) (sem : SemName) : w.synch.count sem ≤ ncars + 1 := by
  have hlow : ∀ x ∈ w.cars, -1 ≤ x.tokens sem := fun x hx => by
    have := (Car.tokens_bounds (hw.pc_le x hx) sem).1
    split_ifs at this <;> omega
  have hsum := neg_length_le_sum_map _ w.cars hlow
  have := hw.tokens sem
  rw [hw.length_eq] at hsum
  cases sem <;> simp only [initCount, reduceCtorEq, if_false, if_true] at this <;> omega

theorem Inv.step_isSome (hw : w.Inv) (hc : w.cars[i]? = some c) (hlt : c.pc < c.program.length)
    (hr : w.runnable i = true) : (w.step i).isSome := by
  have hs : w.synch.sleepers.any (·.1 = i) = false := by simpa [runnable] using hr
  obtain ⟨op, hn⟩ : ∃ op, c.next? = some op := ⟨_, List.getElem?_eq_getElem hlt⟩
  rw [State.step, if_neg (by simp [hs]), hc]
  dsimp only
  rw [carStep, hn]
  cases op with
  | message m dest => rfl
  | call op =>
    dsimp only
    rw [Option.isSome_map]
    cases op with
    | P sem =>
      have := hw.count_nonneg sem
      simp only [Synch.call, Synch.P]
      split_ifs <;> first | rfl | omega
    | V sem =>
      have := hw.count_nonneg sem
      have := hw.count_le sem
      simp only [Synch.call, Synch.V, Option.isSome_map]
      rw [if_pos (by simp only [intMax, ncars] at *; omega)]
      rfl
    | cvWait k _ | cvSignal k | cvBroadcast k => exact k.elim
    | _ => rfl

theorem Inv.asleep_car (hw : w.Inv) (hc : w.cars[i]? = some c) {ch : Chan Quadrant SemName Empty}
    (hch : (i, ch) ∈ w.synch.sleepers) : ∃ op ∈ c.next?, ch ∈ op.chans := by
  rcases hw.asleep i ch hch with ⟨c', hc', hx⟩ | ⟨hi, -⟩
  · rw [hc] at hc'
    exact Option.some.inj hc' ▸ hx
  · have := (List.getElem?_eq_some_iff.1 hc).1
    omega

theorem exists_asleep (hr : w.runnable i = false) : ∃ ch, (i, ch) ∈ w.synch.sleepers := by
  by_contra hne
  have := runnable_iff.2 fun ch hch => hne ⟨ch, hch⟩
  rw [hr] at this
  cases this

theorem Inv.runs_of_lock (hw : w.Inv) {j : Nat} {q : Quadrant}
    (hm : (j, Chan.lock q) ∈ w.synch.sleepers) :
    ∃ (k : Nat) (c : Car), w.cars[k]? = some c ∧ c.pc < c.program.length ∧
      w.runnable k = true := by
  obtain ⟨k, hk⟩ := Option.isSome_iff_exists.1 ((hw.heldOk q).1 (hw.sleepersHeld j q hm))
  obtain ⟨c, hc, hq⟩ := (hw.holder_iff q k).1 hk
  obtain ⟨op, hn, hnil⟩ := Car.next_of_holds (hw.pc_le_of hc) q hq
  refine ⟨k, c, hc, Car.lt_of_next hn, runnable_iff.2 fun ch hch => ?_⟩
  obtain ⟨op', hn', hop⟩ := hw.asleep_car hc hch
  rw [Option.mem_def, hn] at hn'
  rw [← Option.some.inj hn', hnil] at hop
  cases hop

theorem lock_of_matches {ch : Chan Quadrant SemName Empty} (h : (ch matches .lock _) = true) :
    ∃ q, ch = .lock q := by
  cases ch with
  | lock q => exact ⟨q, rfl⟩
  | _ => simp at h

theorem Inv.exists_runnable (hw : w.Inv)
    (h : ∃ (i : Nat) (c : Car), w.cars[i]? = some c ∧ c.pc < c.program.length) :
    ∃ (i : Nat) (c : Car), w.cars[i]? = some c ∧ c.pc < c.program.length ∧
      w.runnable i = true := by
  obtain ⟨i, c, hc, hlt⟩ := h
  cases hr : w.runnable i
  case true => exact ⟨i, c, hc, hlt, hr⟩
  obtain ⟨ch, hch⟩ := exists_asleep hr
  obtain ⟨op, hn, hop⟩ := hw.asleep_car hc hch
  rcases Car.chans_next (hw.pc_le_of hc) op hn ch hop with hl | ⟨rfl, h0⟩
  · obtain ⟨q, rfl⟩ := lock_of_matches hl
    exact hw.runs_of_lock hch
  -- the count is zero, so a car of the same direction has taken it
  have hcount : w.synch.count (.fromDir c.dir) = 0 := by
    have := hw.count_nonneg (.fromDir c.dir)
    by_contra hne
    exact hw.semsAwake _ (by omega) i hch
  have hsum := hw.tokens (.fromDir c.dir)
  simp only [hcount, reduceCtorEq, if_false, initCount, zero_add, add_zero] at hsum
  obtain ⟨x, hx, hx0⟩ := List.exists_mem_ne_zero_of_sum_ne_zero (by rw [hsum]; decide)
  obtain ⟨ck, hck, rfl⟩ := List.mem_map.1 hx
  obtain ⟨k, hk⟩ := List.mem_iff_getElem?.1 hck
  have hb := Car.tokens_bounds (hw.pc_le ck hck) (.fromDir c.dir)
  have hd : c.dir = ck.dir := by
    by_contra hne
    simp only [reduceCtorEq, if_false, SemName.fromDir.injEq, hne] at hb
    omega
  have h1 : ck.tokens (.fromDir ck.dir) = 1 := by
    simp only [reduceCtorEq, if_false, hd, if_true] at hb hx0
    omega
  have hlt' : ck.pc < ck.program.length := by
    obtain ⟨op', hn'⟩ := Option.isSome_iff_exists.1 (Car.next_of_token (hw.pc_le ck hck) h1)
    exact Car.lt_of_next hn'
  cases hrk : w.runnable k
  case true => exact ⟨k, ck, hk, hlt', hrk⟩
  -- the car that took it sleeps on a lock
  obtain ⟨ch', hch'⟩ := exists_asleep hrk
  obtain ⟨op', hn', hop'⟩ := hw.asleep_car hk hch'
  rcases Car.chans_next (hw.pc_le ck hck) op' hn' ch' hop' with hl' | ⟨-, h0'⟩
  · obtain ⟨q, rfl⟩ := lock_of_matches hl'
    exact hw.runs_of_lock hch'
  · omega

theorem Inv.route_disjoint (hw : w.Inv) {j : Nat} {ci cj : Car} (hij : i ≠ j)
    (hi : w.cars[i]? = some ci) (hj : w.cars[j]? = some cj) (hini : w.inIntersection i = true)
    (hinj : w.inIntersection j = true) {q : Quadrant} (hq : q ∈ route ci.dir ci.turn) :
    q ∉ route cj.dir cj.turn := fun hq' => by
  have h₁ := (hw.holder_iff_route hi hini q).2 hq
  have h₂ := (hw.holder_iff_route hj hinj q).2 hq'
  rw [h₁] at h₂
  exact hij (Option.some.inj h₂)

end State

open State in
theorem stoplight_safe {choice : Fin ncars → Dir × Turn} {w : State} (h : w.Reachable choice) :
    (∀ i c, w.cars[i]? = some c → w.inIntersection i = true →
      ∀ q, w.synch.holder q = some i ↔ q ∈ route c.dir c.turn) ∧
    (∀ i j ci cj, i ≠ j → w.cars[i]? = some ci → w.cars[j]? = some cj →
      w.inIntersection i = true → w.inIntersection j = true →
        ∀ q ∈ route ci.dir ci.turn, q ∉ route cj.dir cj.turn) ∧
    (∀ i j ci cj, w.cars[i]? = some ci → w.cars[j]? = some cj → ci.dir = cj.dir →
      PrintedBefore w.log .approaching i .approaching j →
        ¬PrintedBefore w.log .region1 j .region1 i) ∧
    ((∃ (i : Nat) (c : Car), w.cars[i]? = some c ∧ c.pc < c.program.length) →
      ∃ (i : Nat) (c : Car), w.cars[i]? = some c ∧ c.pc < c.program.length ∧
        w.runnable i = true ∧ (w.step i).isSome) := by
  have hw := Inv.reachable h
  refine ⟨fun i c hc hin => hw.holder_iff_route hc hin,
    fun i j ci cj hij hi hj hini hinj q hq => hw.route_disjoint hij hi hj hini hinj hq, hw.fifo,
    fun hex => ?_⟩
  obtain ⟨i, c, hc, hlt, hr⟩ := hw.exists_runnable hex
  exact ⟨i, c, hc, hlt, hr, hw.step_isSome hc hlt hr⟩

/-- Car 0 turns left from the north; car 1, straight on from the north, takes the semaphore car 0
gave back and sleeps on the quadrant car 0 holds. -/
def northChoice : Fin ncars → Dir × Turn :=
  fun k => if k.val = 0 then (.north, .left) else (.north, .straight)

def northRun : List Nat := [0, 0, 0, 0, 0, 1, 1, 1]

theorem stoplight_safe_northRun :
    ∃ w, Sys.exec (fun i w => State.step w i) (State.init northChoice) northRun = some w ∧
    (∀ i c, w.cars[i]? = some c → w.inIntersection i = true →
      ∀ q, w.synch.holder q = some i ↔ q ∈ route c.dir c.turn) ∧
    (∀ i j ci cj, i ≠ j → w.cars[i]? = some ci → w.cars[j]? = some cj →
      w.inIntersection i = true → w.inIntersection j = true →
        ∀ q ∈ route ci.dir ci.turn, q ∉ route cj.dir cj.turn) ∧
    (∀ i j ci cj, w.cars[i]? = some ci → w.cars[j]? = some cj → ci.dir = cj.dir →
      PrintedBefore w.log .approaching i .approaching j →
        ¬PrintedBefore w.log .region1 j .region1 i) ∧
    ((∃ (i : Nat) (c : Car), w.cars[i]? = some c ∧ c.pc < c.program.length) →
      ∃ (i : Nat) (c : Car), w.cars[i]? = some c ∧ c.pc < c.program.length ∧
        w.runnable i = true ∧ (w.step i).isSome) := by
  obtain ⟨w, hw⟩ := Option.isSome_iff_exists.1
    (by decide : (Sys.exec (fun i w => State.step w i) (State.init northChoice) northRun).isSome)
  exact ⟨w, hw, stoplight_safe (Sys.Reach.of_exec (Sys.Reach.init rfl) hw)⟩

end Stoplight

end Asst1

end Os161
