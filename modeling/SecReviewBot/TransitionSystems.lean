import Mathlib.Data.List.Basic

/-!
# Runs of a deterministic transition system

A system is an initial state and a step function. All nondeterminism of the
environment (which call arrives next, its arguments, how far the clock moved)
is in the input, so a run is a list of inputs and every statement about all
interleavings is a statement about all lists.

The two rules used below are the usual invariant rule and an exact version of
it: when a step condition decides whether one step keeps a property, it also
decides whether a whole run keeps it.
-/

namespace TransitionSystems

universe u v

structure System (State : Type u) (Input : Type v) where
  initial : State
  step : State → Input → State

namespace System

variable {State : Type u} {Input : Type v} (M : System State Input)

def runFrom (s : State) : List Input → State
  | [] => s
  | i :: rest => runFrom (M.step s i) rest

/-- The state a run starting in the initial state ends in. -/
def run (inputs : List Input) : State := M.runFrom M.initial inputs

/-- Every state of the run, the first and the last included. -/
def visitedFrom (s : State) : List Input → List State
  | [] => [s]
  | i :: rest => s :: visitedFrom (M.step s i) rest

def visited (inputs : List Input) : List State := M.visitedFrom M.initial inputs

/-- Every step of the run, as the state before it and its input. -/
def stepsFrom (s : State) : List Input → List (State × Input)
  | [] => []
  | i :: rest => (s, i) :: stepsFrom (M.step s i) rest

def steps (inputs : List Input) : List (State × Input) := M.stepsFrom M.initial inputs

def Reachable (s : State) : Prop := ∃ inputs, M.run inputs = s

theorem runFrom_append (s : State) (xs ys : List Input) :
    M.runFrom s (xs ++ ys) = M.runFrom (M.runFrom s xs) ys := by
  induction xs generalizing s with
  | nil => rfl
  | cons i rest ih => exact ih (M.step s i)

theorem run_concat (inputs : List Input) (i : Input) :
    M.run (inputs ++ [i]) = M.step (M.run inputs) i :=
  M.runFrom_append M.initial inputs [i]

theorem stepsFrom_append (s : State) (xs ys : List Input) :
    M.stepsFrom s (xs ++ ys) = M.stepsFrom s xs ++ M.stepsFrom (M.runFrom s xs) ys := by
  induction xs generalizing s with
  | nil => rfl
  | cons i rest ih => exact congrArg ((s, i) :: ·) (ih (M.step s i))

theorem steps_concat (inputs : List Input) (i : Input) :
    M.steps (inputs ++ [i]) = M.steps inputs ++ [(M.run inputs, i)] :=
  M.stepsFrom_append M.initial inputs [i]

theorem last_mem_steps (inputs : List Input) (i : Input) :
    (M.run inputs, i) ∈ M.steps (inputs ++ [i]) := by
  rw [steps_concat]
  exact List.mem_append_right _ (List.mem_singleton_self _)

theorem reachable_initial : M.Reachable M.initial := ⟨[], rfl⟩

theorem reachable_runFrom {s : State} (h : M.Reachable s) (inputs : List Input) :
    M.Reachable (M.runFrom s inputs) := by
  obtain ⟨earlier, rfl⟩ := h
  exact ⟨earlier ++ inputs, M.runFrom_append _ _ _⟩

theorem reachable_step {s : State} (h : M.Reachable s) (i : Input) :
    M.Reachable (M.step s i) :=
  M.reachable_runFrom h [i]

theorem runFrom_invariant {Inv : State → Prop}
    (preserved : ∀ s i, Inv s → Inv (M.step s i)) {s : State} (hs : Inv s)
    (inputs : List Input) : Inv (M.runFrom s inputs) := by
  induction inputs generalizing s with
  | nil => exact hs
  | cons i rest ih => exact ih (preserved s i hs)

/-- The invariant rule. -/
theorem reachable_invariant {Inv : State → Prop} (initially : Inv M.initial)
    (preserved : ∀ s i, Inv s → Inv (M.step s i)) {s : State} (h : M.Reachable s) :
    Inv s := by
  obtain ⟨inputs, rfl⟩ := h
  exact M.runFrom_invariant preserved initially inputs

theorem stepsFrom_invariant {Inv : State → Prop}
    (preserved : ∀ s i, Inv s → Inv (M.step s i)) {s : State} (hs : Inv s)
    {inputs : List Input} {p : State × Input} (hp : p ∈ M.stepsFrom s inputs) : Inv p.1 := by
  induction inputs generalizing s with
  | nil => cases hp
  | cons i rest ih =>
    rcases List.mem_cons.mp hp with rfl | later
    · exact hs
    · exact ih (preserved s i hs) later

theorem steps_reachable {s : State} (h : M.Reachable s) {inputs : List Input}
    {p : State × Input} (hp : p ∈ M.stepsFrom s inputs) : M.Reachable p.1 := by
  have preserved : ∀ s i, M.Reachable s → M.Reachable (M.step s i) :=
    fun _ i h => M.reachable_step h i
  exact M.stepsFrom_invariant preserved h hp

theorem stepsFrom_input {s : State} {inputs : List Input} {p : State × Input}
    (hp : p ∈ M.stepsFrom s inputs) : p.2 ∈ inputs := by
  induction inputs generalizing s with
  | nil => cases hp
  | cons i rest ih =>
    rcases List.mem_cons.mp hp with rfl | later
    · exact List.mem_cons_self
    · exact List.mem_cons_of_mem _ (ih later)

/-- The invariant rule for a run all of whose steps meet `C`. -/
theorem visitedFrom_invariant {C : State → Input → Prop} {Inv : State → Prop}
    (preserved : ∀ s i, C s i → Inv s → Inv (M.step s i)) {s : State} (hs : Inv s)
    {inputs : List Input} (each : ∀ p ∈ M.stepsFrom s inputs, C p.1 p.2) {t : State}
    (visited : t ∈ M.visitedFrom s inputs) : Inv t := by
  induction inputs generalizing s with
  | nil =>
    obtain rfl := List.mem_singleton.mp visited
    exact hs
  | cons i rest ih =>
    rcases List.mem_cons.mp visited with rfl | later
    · exact hs
    · have next : Inv (M.step s i) := preserved s i (each (s, i) List.mem_cons_self) hs
      exact ih next (fun p hp => each p (List.mem_cons_of_mem _ hp)) later

theorem reachable_visited {inputs : List Input} {t : State} (visited : t ∈ M.visited inputs) :
    M.Reachable t := by
  have preserved : ∀ s i, True → M.Reachable s → M.Reachable (M.step s i) :=
    fun _ i _ h => M.reachable_step h i
  exact M.visitedFrom_invariant preserved M.reachable_initial (fun _ _ => trivial) visited

theorem runFrom_visited (s : State) (inputs : List Input) :
    M.runFrom s inputs ∈ M.visitedFrom s inputs := by
  induction inputs generalizing s with
  | nil => exact List.mem_cons_self
  | cons i rest ih => exact List.mem_cons_of_mem _ (ih (M.step s i))

theorem run_visited (inputs : List Input) : M.run inputs ∈ M.visited inputs :=
  M.runFrom_visited M.initial inputs

/-- A measure that grows by one at the counted steps and nowhere else counts them. -/
theorem runFrom_count {Inv : State → Prop} (preserved : ∀ s i, Inv s → Inv (M.step s i))
    (measure : State → Nat) (counted : State × Input → Bool) {s : State} (hs : Inv s)
    (inputs : List Input)
    (each : ∀ p ∈ M.stepsFrom s inputs, Inv p.1 →
      measure (M.step p.1 p.2) = measure p.1 + if counted p then 1 else 0) :
    measure (M.runFrom s inputs) = measure s + (M.stepsFrom s inputs).countP counted := by
  induction inputs generalizing s with
  | nil => simp [runFrom, stepsFrom]
  | cons i rest ih =>
    have here : measure (M.step s i) = measure s + if counted (s, i) then 1 else 0 :=
      each (s, i) List.mem_cons_self hs
    have later := ih (preserved s i hs) fun p hp => each p (List.mem_cons_of_mem _ hp)
    rw [runFrom, stepsFrom, later, here, List.countP_cons]
    omega

/-- Exact rule, from any state. `Base` holds unconditionally along inputs that
are `Allowed`; among the states that satisfy it, `C` says of one step whether
the step keeps `P`. -/
theorem holds_from_iff (Allowed : Input → Prop) (Base P : State → Prop)
    (C : State → Input → Prop)
    (base : ∀ s i, Allowed i → Base s → Base (M.step s i))
    (exactly : ∀ s i, Allowed i → Base s → P s → (P (M.step s i) ↔ C s i))
    {s : State} (hbase : Base s) (hs : P s) (inputs : List Input)
    (allowed : ∀ i ∈ inputs, Allowed i) :
    (∀ t ∈ M.visitedFrom s inputs, P t) ↔
      ∀ p ∈ M.stepsFrom s inputs, C p.1 p.2 := by
  induction inputs generalizing s with
  | nil => simp [visitedFrom, stepsFrom, hs]
  | cons i rest ih =>
    have here : Allowed i := allowed i List.mem_cons_self
    have later : ∀ j ∈ rest, Allowed j := fun j hj => allowed j (List.mem_cons_of_mem _ hj)
    constructor
    · intro all p hp
      have next : P (M.step s i) := by
        apply all
        cases rest <;> simp [visitedFrom]
      rcases List.mem_cons.mp hp with rfl | hp
      · exact (exactly s i here hbase hs).mp next
      · exact (ih (base s i here hbase) next later).mp
          (fun t ht => all t (List.mem_cons_of_mem _ ht)) p hp
    · intro all t ht
      have next : P (M.step s i) :=
        (exactly s i here hbase hs).mpr (all (s, i) List.mem_cons_self)
      rcases List.mem_cons.mp ht with rfl | ht
      · exact hs
      · exact (ih (base s i here hbase) next later).mpr
          (fun p hp => all p (List.mem_cons_of_mem _ hp)) t ht

/-- A run of allowed inputs keeps `P` in every state it visits exactly when
every one of its steps meets `C`. -/
theorem holds_along_iff (Allowed : Input → Prop) (Base P : State → Prop)
    (C : State → Input → Prop) (initially : Base M.initial) (holds : P M.initial)
    (base : ∀ s i, Allowed i → Base s → Base (M.step s i))
    (exactly : ∀ s i, Allowed i → Base s → P s → (P (M.step s i) ↔ C s i))
    (inputs : List Input) (allowed : ∀ i ∈ inputs, Allowed i) :
    (∀ t ∈ M.visited inputs, P t) ↔ ∀ p ∈ M.steps inputs, C p.1 p.2 :=
  M.holds_from_iff Allowed Base P C base exactly initially holds inputs allowed

end System

end TransitionSystems
