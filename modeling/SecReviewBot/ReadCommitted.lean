import Mathlib.Logic.Function.Basic
import SecReviewBot.TransitionSystems

/-!
# Transactions under read committed

A transaction is a program of statements. A read sees what is committed when it
runs, with the transaction's own writes on top; a locking read waits while
another transaction has the row lock, and keeps the lock to the end; a write may
violate a constraint, and an error rolls everything back. A schedule says which
transaction runs its next statement, the last one being the commit; a statement
that has to wait does nothing.

A transaction that nobody disturbs ends as it would alone. Two copies of one
program that first looks and then locks show both outcomes: when one copy looks
after the other has committed it can see that, and when both have looked before
the first commit the second one goes on from what it saw.
-/

namespace ReadCommitted

open TransitionSystems

universe u

inductive Program (S R E : Type u) where
  | read (next : S → Program S R E)
  | lock (next : S → Program S R E)
  | write (change : S → Except E S) (next : S → Program S R E)
  | done (result : Except E R)

/-- The own writes of a transaction, after one more. -/
def overlay {S E : Type u} (change : S → Except E S) (pending : S → S) (s : S) : S :=
  match change (pending s) with
  | .ok next => next
  | .error _ => pending s

namespace Program

variable {S R E : Type u}

/-- What the program ends with when nobody disturbs it. -/
def alone : Program S R E → (S → S) → S → Except E R × S
  | .read next, pending, s => (next (pending s)).alone pending s
  | .lock next, pending, s => (next (pending s)).alone pending s
  | .write change next, pending, s =>
    match change (pending s) with
    | .error e => (.error e, s)
    | .ok _ => (next (overlay change pending s)).alone (overlay change pending) s
  | .done (.ok result), pending, s => (.ok result, pending s)
  | .done (.error e), _, s => (.error e, s)

/-- The number of statements that takes. -/
def statements : Program S R E → (S → S) → S → Nat
  | .read next, pending, s => (next (pending s)).statements pending s + 1
  | .lock next, pending, s => (next (pending s)).statements pending s + 1
  | .write change next, pending, s =>
    match change (pending s) with
    | .error _ => 1
    | .ok _ => (next (overlay change pending s)).statements (overlay change pending) s + 1
  | .done _, _, _ => 1

end Program

structure Transaction (S R E : Type u) where
  program : Program S R E
  pending : S → S
  outcome : Option (Except E R)

structure Session (ι S R E : Type u) where
  committed : S
  owner : Option ι
  transactions : ι → Transaction S R E

section Steps

variable {ι S R E : Type u} [DecidableEq ι]

namespace Session

def set (s : Session ι S R E) (i : ι) (t : Transaction S R E) : Session ι S R E :=
  { s with transactions := Function.update s.transactions i t }

/-- Commit or roll back, and release the lock. -/
def close (s : Session ι S R E) (i : ι) (result : Except E R) (committed : S) :
    Session ι S R E where
  committed := committed
  owner := if s.owner = some i then none else s.owner
  transactions := Function.update s.transactions i
    { s.transactions i with outcome := some result }

def step (s : Session ι S R E) (i : ι) : Session ι S R E :=
  let t := s.transactions i
  match t.outcome with
  | some _ => s
  | none =>
    match t.program with
    | .read next => s.set i { t with program := next (t.pending s.committed) }
    | .lock next =>
      if s.owner = none ∨ s.owner = some i then
        { s.set i { t with program := next (t.pending s.committed) } with owner := some i }
      else s
    | .write change next =>
      match change (t.pending s.committed) with
      | .error e => s.close i (.error e) s.committed
      | .ok _ => s.set i
          { t with pending := overlay change t.pending
                   program := next (overlay change t.pending s.committed) }
    | .done (.ok result) => s.close i (.ok result) (t.pending s.committed)
    | .done (.error e) => s.close i (.error e) s.committed

end Session

/-- The transactions start together. -/
def concurrently (program : ι → Program S R E) (s : S) : System (Session ι S R E) ι where
  initial := ⟨s, none, fun i => ⟨program i, id, none⟩⟩
  step := Session.step

/-- Nobody else has the lock. -/
def Free (i : ι) (s : Session ι S R E) : Prop := s.owner = none ∨ s.owner = some i

/-- The transaction is under way, and this is what it ends with, in how many
statements, if nobody disturbs it. -/
structure Runs (i : ι) (s : Session ι S R E) (value : Except E R × S) (left : Nat) : Prop where
  running : (s.transactions i).outcome = none
  value : (s.transactions i).program.alone (s.transactions i).pending s.committed = value
  left : (s.transactions i).program.statements (s.transactions i).pending s.committed = left

structure Ended (i : ι) (s : Session ι S R E) (value : Except E R × S) : Prop where
  outcome : (s.transactions i).outcome = some value.1
  committed : s.committed = value.2

theorem step_ended {i : ι} {s : Session ι S R E} (h : (s.transactions i).outcome ≠ none) :
    s.step i = s := by
  cases outcome : (s.transactions i).outcome with
  | none => exact absurd outcome h
  | some result => simp only [Session.step, outcome]

theorem step_other (s : Session ι S R E) {i j : ι} (other : j ≠ i) :
    (s.step i).transactions j = s.transactions j := by
  simp only [Session.step]
  split
  · rfl
  · split
    · simp [Session.set, other]
    · split
      · simp [Session.set, other]
      · rfl
    · split
      · simp [Session.close, other]
      · simp [Session.set, other]
    · simp [Session.close, other]
    · simp [Session.close, other]

theorem close_ended (i : ι) (s : Session ι S R E) (value : Except E R × S) :
    Ended i (s.close i value.1 value.2) value :=
  ⟨by simp [Session.close], rfl⟩

theorem close_owner {i : ι} {s : Session ι S R E} (free : Free i s) (result : Except E R)
    (committed : S) : (s.close i result committed).owner = none := by
  rcases free with free | free <;> simp [Session.close, free]

/-- One statement: the transaction waits, or ends, or goes on towards the same
end. -/
theorem step_runs {i : ι} {s : Session ι S R E} {value : Except E R × S} {left : Nat}
    (h : Runs i s value left) :
    (¬ Free i s ∧ s.step i = s) ∨ (left = 1 ∧ s.step i = s.close i value.1 value.2) ∨
      ∃ rest, left = rest + 1 ∧ Runs i (s.step i) value rest ∧
        (s.step i).committed = s.committed ∧ (Free i s → Free i (s.step i)) := by
  obtain ⟨running, ends, count⟩ := h
  simp only [Session.step, running]
  split
  · next next program =>
    simp only [program, Program.alone, Program.statements] at ends count
    exact .inr (.inr ⟨_, count.symm, ⟨by simp [Session.set], by simpa [Session.set] using ends,
      by simp [Session.set]⟩, rfl, fun free => free⟩)
  · next next program =>
    simp only [program, Program.alone, Program.statements] at ends count
    split
    · exact .inr (.inr ⟨_, count.symm, ⟨by simp [Session.set],
        by simpa [Session.set] using ends, by simp [Session.set]⟩, rfl, fun _ => .inr rfl⟩)
    · next taken => exact .inl ⟨taken, rfl⟩
  · next change next program =>
    simp only [program, Program.alone, Program.statements] at ends count
    split
    · next e fails =>
      simp only [fails] at ends count
      obtain rfl := ends
      exact .inr (.inl ⟨count.symm, rfl⟩)
    · next written succeeds =>
      simp only [succeeds] at ends count
      exact .inr (.inr ⟨_, count.symm, ⟨by simp [Session.set],
        by simpa [Session.set] using ends, by simp [Session.set]⟩, rfl, fun free => free⟩)
  · next result program =>
    simp only [program, Program.alone, Program.statements] at ends count
    obtain rfl := ends
    exact .inr (.inl ⟨count.symm, rfl⟩)
  · next e program =>
    simp only [program, Program.alone, Program.statements] at ends count
    obtain rfl := ends
    exact .inr (.inl ⟨count.symm, rfl⟩)

/-- One statement of a transaction that nobody disturbs. -/
theorem step_alone {i : ι} {s : Session ι S R E} {value : Except E R × S} {left : Nat}
    (h : Runs i s value left) (free : Free i s) :
    (left = 1 ∧ Ended i (s.step i) value ∧ (s.step i).owner = none) ∨
      ∃ rest, left = rest + 1 ∧ Runs i (s.step i) value rest ∧ Free i (s.step i) ∧
        (s.step i).committed = s.committed := by
  rcases step_runs h with ⟨taken, -⟩ | ⟨last, closed⟩ | ⟨rest, count, runs, same, stays⟩
  · exact absurd free taken
  · rw [closed]
    exact .inl ⟨last, close_ended i s value, close_owner free _ _⟩
  · exact .inr ⟨rest, count, runs, stays free, same⟩

theorem statements_pos (program : Program S R E) (pending : S → S) (s : S) :
    0 < program.statements pending s := by
  cases program with
  | read next => exact Nat.succ_pos _
  | lock next => exact Nat.succ_pos _
  | done result => exact Nat.succ_pos _
  | write change next =>
    simp only [Program.statements]
    split <;> exact Nat.succ_pos _

theorem run_ended (program : ι → Program S R E) (start : S) {i : ι} {s : Session ι S R E}
    (h : (s.transactions i).outcome ≠ none) (n : Nat) :
    (concurrently program start).runFrom s (List.replicate n i) = s := by
  induction n with
  | zero => rfl
  | succ n ih =>
    have still : (concurrently program start).step s i = s := step_ended h
    rw [List.replicate_succ, System.runFrom, still]
    exact ih

/-- The transaction runs some statements in a row. -/
theorem run_alone (program : ι → Program S R E) (start : S) {i : ι} {s : Session ι S R E}
    {value : Except E R × S} {left : Nat} (h : Runs i s value left) (free : Free i s) {n : Nat}
    (enough : left ≤ n) :
    Ended i ((concurrently program start).runFrom s (List.replicate n i)) value ∧
      ((concurrently program start).runFrom s (List.replicate n i)).owner = none := by
  induction n generalizing s left with
  | zero =>
    have positive := statements_pos (s.transactions i).program (s.transactions i).pending s.committed
    rw [h.left] at positive
    omega
  | succ n ih =>
    rw [List.replicate_succ, System.runFrom]
    rcases step_alone h free with ⟨-, ended, unlocked⟩ | ⟨rest, rfl, runs, free, -⟩
    · have finished : ((s.step i).transactions i).outcome ≠ none := by
        rw [ended.outcome]
        exact Option.some_ne_none _
      have still : (concurrently program start).runFrom (s.step i) (List.replicate n i) =
          s.step i := run_ended program start finished n
      exact still ▸ ⟨ended, unlocked⟩
    · exact ih runs free (Nat.le_of_succ_le_succ enough)

theorem run_other (program : ι → Program S R E) (start : S) {i j : ι} (other : j ≠ i)
    (s : Session ι S R E) (n : Nat) :
    ((concurrently program start).runFrom s (List.replicate n i)).transactions j =
      s.transactions j := by
  induction n generalizing s with
  | zero => rfl
  | succ n ih =>
    rw [List.replicate_succ, System.runFrom, ih]
    exact step_other s other

theorem step_owner {i : ι} {s : Session ι S R E} (owner : s.owner = some i)
    (running : ((s.step i).transactions i).outcome = none) : (s.step i).owner = some i := by
  revert running
  simp only [Session.step]
  split
  · exact fun _ => owner
  · split
    · exact fun _ => owner
    · rw [if_pos (.inr owner)]
      exact fun _ => rfl
    · split
      · simp [Session.close]
      · exact fun _ => owner
    · simp [Session.close]
    · simp [Session.close]

end Steps

section Duplicates

variable {S R E : Type}

/-- Both copies start from `c`. -/
def duplicates (program : Program S R E) (c : S) : System (Session Bool S R E) Bool :=
  concurrently (fun _ => program) c

theorem other_ne (i : Bool) : (!i) ≠ i := by
  cases i <;> decide

/-- Every transaction has ended. -/
def Finished (s : Session Bool S R E) : Prop := ∀ i, (s.transactions i).outcome ≠ none

/-- One copy has ended and the other one is left alone. -/
structure Follows (i : Bool) (s : Session Bool S R E) (result : Except E R)
    (value : Except E R × S) : Prop where
  ended : (s.transactions i).outcome = some result
  alone : Ended (!i) s value ∨ ∃ left, Runs (!i) s value left ∧ Free (!i) s

theorem follows_step {i : Bool} {s : Session Bool S R E} {result : Except E R}
    {value : Except E R × S} (h : Follows i s result value) (j : Bool) :
    Follows i (s.step j) result value := by
  by_cases here : j = i
  · subst here
    have finished : (s.transactions j).outcome ≠ none := by simp [h.ended]
    rw [step_ended finished]
    exact h
  · obtain rfl : j = !i := Bool.eq_not_of_ne here
    have other : i ≠ !i := fun same => here same.symm
    refine ⟨by rw [step_other s other, h.ended], ?_⟩
    rcases h.alone with ended | ⟨left, runs, free⟩
    · have finished : (s.transactions (!i)).outcome ≠ none := by simp [ended.outcome]
      rw [step_ended finished]
      exact .inl ended
    · rcases step_alone runs free with ⟨-, ended, -⟩ | ⟨rest, -, runs, free, -⟩
      · exact .inl ended
      · exact .inr ⟨rest, runs, free⟩

theorem follows_run {program : Program S R E} {c : S} {i : Bool} {s : Session Bool S R E}
    {result : Except E R} {value : Except E R × S} (h : Follows i s result value)
    {schedule : List Bool} (finished : Finished ((duplicates program c).runFrom s schedule)) :
    (((duplicates program c).runFrom s schedule).transactions i).outcome = some result ∧
      Ended (!i) ((duplicates program c).runFrom s schedule) value := by
  have preserved : ∀ s j, Follows i s result value →
      Follows i ((duplicates program c).step s j) result value :=
    fun s j follows => follows_step follows j
  have follows := (duplicates program c).runFrom_invariant preserved h schedule
  refine ⟨follows.ended, ?_⟩
  rcases follows.alone with ended | ⟨left, runs, -⟩
  · exact ended
  · exact absurd runs.running (finished (!i))

/-- A program that looks, locks if it saw nothing, and then does its work. What
it did shows when another copy looks; another copy that has looked before is
refused. -/
structure LooksThenLocks (look next : S → Program S R E) (c final : S) (first again : R) (e : E)
    (count : Nat) : Prop where
  fresh : look c = .lock next
  works : (Program.read look).alone id c = (.ok first, final)
  count : (Program.read look).statements id c = count
  recorded : look final = .done (.ok again)
  refused : (Program.lock next).alone id final = (.error e, final)

variable {look next : S → Program S R E} {c final : S} {first again : R} {e : E} {count : Nat}

/-- One copy runs all its statements before the other one looks. -/
theorem serial_duplicates (h : LooksThenLocks look next c final first again e count) {i : Bool}
    {schedule : List Bool} (serial : schedule.take count = List.replicate count i)
    (finished : Finished ((duplicates (.read look) c).run schedule)) :
    (((duplicates (.read look) c).run schedule).transactions i).outcome = some (.ok first) ∧
      (((duplicates (.read look) c).run schedule).transactions (!i)).outcome =
        some (.ok again) ∧
      ((duplicates (.read look) c).run schedule).committed = final := by
  have runs : Runs i (duplicates (.read look) c).initial (.ok first, final) count :=
    ⟨rfl, h.works, h.count⟩
  obtain ⟨ended, unlocked⟩ :=
    run_alone (fun _ => Program.read look) c runs (.inl rfl) (Nat.le_refl count)
  have waiting := run_other (fun _ => Program.read look) c (other_ne i)
    (duplicates (.read look) c).initial count
  have split : (duplicates (.read look) c).run schedule =
      (duplicates (.read look) c).runFrom ((duplicates (.read look) c).runFrom
        (duplicates (.read look) c).initial (List.replicate count i)) (schedule.drop count) := by
    rw [← (duplicates (.read look) c).runFrom_append, ← serial, List.take_append_drop]
    rfl
  rw [split] at finished ⊢
  generalize middle : (duplicates (.read look) c).runFrom (duplicates (.read look) c).initial
    (List.replicate count i) = s at finished
  rw [show (concurrently (fun _ => Program.read look) c).runFrom
    (duplicates (.read look) c).initial (List.replicate count i) = s from middle]
    at ended unlocked waiting
  have second : Runs (!i) s (.ok again, final)
      ((s.transactions (!i)).program.statements (s.transactions (!i)).pending s.committed) := by
    refine ⟨?_, ?_, rfl⟩
    · rw [waiting]
      rfl
    · rw [waiting, ended.committed]
      simp [duplicates, concurrently, Program.alone, h.recorded]
  have follows : Follows i s (.ok first) (.ok again, final) :=
    ⟨ended.outcome, .inr ⟨_, second, .inl unlocked⟩⟩
  obtain ⟨won, replayed⟩ := follows_run follows finished
  exact ⟨won, replayed.outcome, replayed.committed⟩

/-- The copy that will get its work done: it has the lock, or is about to ask
for it. -/
structure Leads (next : S → Program S R E) (c final : S) (first : R) (i : Bool)
    (s : Session Bool S R E) (left : Nat) : Prop where
  runs : Runs i s (.ok first, final) left
  start : s.committed = c
  ahead : s.owner = some i ∨ s.owner = none ∧ s.transactions i = ⟨.lock next, id, none⟩

theorem Leads.free {i : Bool} {s : Session Bool S R E} {left : Nat}
    (h : Leads next c final first i s left) : Free i s :=
  h.ahead.elim .inr fun ahead => .inl ahead.1

theorem leads_step {i : Bool} {s : Session Bool S R E} {left : Nat}
    (h : Leads next c final first i s left) :
    (left = 1 ∧ Ended i (s.step i) (.ok first, final) ∧ (s.step i).owner = none) ∨
      ∃ rest, left = rest + 1 ∧ Leads next c final first i (s.step i) rest := by
  rcases step_alone h.runs h.free with ended | ⟨rest, count, runs, -, same⟩
  · exact .inl ended
  · refine .inr ⟨rest, count, runs, same.trans h.start, .inl ?_⟩
    rcases h.ahead with owner | ⟨unlocked, waits⟩
    · exact step_owner owner runs.running
    · simp [Session.step, waits, unlocked]

/-- Both copies have looked before either has committed. -/
inductive Races (next : S → Program S R E) (c final : S) (first : R) (e : E)
    (s : Session Bool S R E) : Prop
  | leading (i : Bool) (left : Nat) (leads : Leads next c final first i s left)
      (waits : s.transactions (!i) = ⟨.lock next, id, none⟩)
  | decided (i : Bool) (follows : Follows i s (.ok first) (.error e, final))

theorem races_step (works : (Program.lock next).alone id c = (.ok first, final))
    (refused : (Program.lock next).alone id final = (.error e, final))
    {s : Session Bool S R E} (h : Races next c final first e s) (j : Bool) :
    Races next c final first e (s.step j) := by
  cases h with
  | decided i follows => exact .decided i (follows_step follows j)
  | leading i left leads waits =>
    by_cases here : j = i
    · subst here
      have waits' : (s.step j).transactions (!j) = ⟨.lock next, id, none⟩ := by
        rw [step_other s (other_ne j), waits]
      rcases leads_step leads with ⟨-, ended, unlocked⟩ | ⟨rest, -, leads⟩
      · refine .decided j ⟨ended.outcome, .inr ⟨_, ⟨?_, ?_, rfl⟩, .inl unlocked⟩⟩
        · rw [waits']
        · rw [waits', ended.committed]
          exact refused
      · exact .leading j rest leads waits'
    · obtain rfl : j = !i := Bool.eq_not_of_ne here
      rcases leads.ahead with owner | ⟨unlocked, ready⟩
      · have blocked : s.step (!i) = s := by
          simp [Session.step, waits, owner]
        rw [blocked]
        exact .leading i left leads waits
      · -- the other copy is faster
        have taken : s.step (!i) = { s.set (!i) ⟨next c, id, none⟩ with owner := some (!i) } := by
          simp [Session.step, waits, unlocked, leads.start]
        refine .leading (!i) ((next c).statements id c) ⟨⟨?_, ?_, ?_⟩, ?_, .inl ?_⟩ ?_
        · simp [taken, Session.set]
        · simpa [taken, Session.set, leads.start, Program.alone] using works
        · simp [taken, Session.set, leads.start]
        · simp [taken, Session.set, leads.start]
        · simp [taken]
        · simp [taken, Session.set, ready]

theorem leading_copies (i : Bool) (schedule : List Bool) :
    ∃ n rest, schedule = List.replicate n i ++ rest ∧
      (rest = [] ∨ ∃ more, rest = (!i) :: more) := by
  induction schedule with
  | nil => exact ⟨0, [], rfl, .inl rfl⟩
  | cons j schedule ih =>
    by_cases here : j = i
    · obtain ⟨n, rest, rfl, ends⟩ := ih
      exact ⟨n + 1, rest, by rw [here, List.replicate_succ, List.cons_append], ends⟩
    · exact ⟨0, j :: schedule, rfl, .inr ⟨schedule, by rw [Bool.eq_not_of_ne here]⟩⟩

/-- The copy that looks first leads while the other one has not started. -/
theorem prefix_leads (h : LooksThenLocks look next c final first again e count) (i : Bool)
    {n : Nat} (early : n + 1 < count) :
    Leads next c final first i
      ((duplicates (.read look) c).run (List.replicate (n + 1) i)) (count - (n + 1)) := by
  induction n with
  | zero =>
    have looked : (duplicates (.read look) c).run (List.replicate 1 i) =
        (duplicates (.read look) c).initial.set i ⟨.lock next, id, none⟩ := by
      simp [System.run, System.runFrom, duplicates, concurrently, Session.step, h.fresh]
    have works := h.works
    have counted := h.count
    simp only [Program.alone, Program.statements, h.fresh, id] at works counted
    rw [looked]
    refine ⟨⟨?_, ?_, ?_⟩, rfl, .inr ⟨rfl, ?_⟩⟩
    · simp [Session.set]
    · simpa [Session.set, Program.alone, duplicates, concurrently] using works
    · simp [Session.set, Program.statements, duplicates, concurrently, ← counted]
    · simp [Session.set]
  | succ n ih =>
    have before := ih (Nat.lt_of_succ_lt early)
    rw [List.replicate_succ', (duplicates (.read look) c).run_concat]
    rcases leads_step before with ⟨last, -, -⟩ | ⟨rest, left, leads⟩
    · omega
    · obtain rfl : rest = count - (n + 1 + 1) := by omega
      exact leads

/-- The second copy looks while the first one leads. -/
theorem second_looks (h : LooksThenLocks look next c final first again e count) {i : Bool}
    {s : Session Bool S R E} {left : Nat} (leads : Leads next c final first i s left)
    (begun : s.transactions (!i) = ⟨.read look, id, none⟩) :
    Races next c final first e (s.step (!i)) := by
  have looked : s.step (!i) = s.set (!i) ⟨.lock next, id, none⟩ := by
    simp [Session.step, begun, leads.start, h.fresh]
  have same : (s.step (!i)).transactions i = s.transactions i := step_other s (other_ne i).symm
  refine .leading i left ⟨⟨?_, ?_, ?_⟩, ?_, ?_⟩ ?_
  · rw [same]
    exact leads.runs.running
  · rw [same, looked]
    exact leads.runs.value
  · rw [same, looked]
    exact leads.runs.left
  · rw [looked]
    exact leads.start
  · rw [same, looked]
    exact leads.ahead
  · simp [looked, Session.set]

/-- Both copies look before either has committed: one of them is refused. -/
theorem racing_duplicates (h : LooksThenLocks look next c final first again e count)
    {schedule : List Bool} (racing : ¬ ∃ i, schedule.take count = List.replicate count i)
    (finished : Finished ((duplicates (.read look) c).run schedule)) :
    ∃ i, (((duplicates (.read look) c).run schedule).transactions i).outcome =
        some (.ok first) ∧
      (((duplicates (.read look) c).run schedule).transactions (!i)).outcome =
        some (.error e) := by
  have locked : (Program.lock next).alone id c = (.ok first, final) := by
    have works := h.works
    simp only [Program.alone, id, h.fresh] at works
    exact works
  cases schedule with
  | nil => exact absurd rfl (finished true)
  | cons i schedule =>
    obtain ⟨n, rest, rfl, ends⟩ := leading_copies i schedule
    have begins : i :: (List.replicate n i ++ rest) = List.replicate (n + 1) i ++ rest := by
      rw [List.replicate_succ, List.cons_append]
    rw [begins] at racing finished ⊢
    have early : n + 1 < count := by
      by_contra late
      apply racing
      refine ⟨i, ?_⟩
      rw [List.take_append_of_le_length (by simpa using late), List.take_replicate]
      congr 1
      omega
    have leads := prefix_leads h i early
    have untouched := run_other (fun _ => Program.read look) c (other_ne i)
      (duplicates (.read look) c).initial (n + 1)
    rw [System.run, (duplicates (.read look) c).runFrom_append] at finished ⊢
    generalize middle : (duplicates (.read look) c).runFrom (duplicates (.read look) c).initial
      (List.replicate (n + 1) i) = s at finished ⊢
    rw [show (duplicates (.read look) c).run (List.replicate (n + 1) i) = s from middle] at leads
    rw [show (concurrently (fun _ => Program.read look) c).runFrom
      (duplicates (.read look) c).initial (List.replicate (n + 1) i) = s from middle] at untouched
    have begun : s.transactions (!i) = ⟨.read look, id, none⟩ := untouched
    rcases ends with rfl | ⟨more, rfl⟩
    · have absent := finished (!i)
      rw [System.runFrom, begun] at absent
      exact absurd rfl absent
    · have races := second_looks h leads begun
      have preserved : ∀ s j, Races next c final first e s →
          Races next c final first e ((duplicates (.read look) c).step s j) :=
        fun s j races => races_step locked h.refused races j
      have raced := (duplicates (.read look) c).runFrom_invariant preserved races more
      rw [System.runFrom] at finished ⊢
      cases raced with
      | leading j left leads waits => exact absurd leads.runs.running (finished j)
      | decided j follows =>
        refine ⟨j, follows.ended, ?_⟩
        rcases follows.alone with ended | ⟨left, runs, -⟩
        · exact ended.outcome
        · exact absurd runs.running (finished (!j))

end Duplicates

end ReadCommitted
