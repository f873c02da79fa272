import Mathlib.Data.List.Nodup
import Mathlib.Data.List.Perm.Basic
import Mathlib.Logic.Relation

/-!
# Bounded fan-out

A numbered job is worked off by tasks of which at most `limit` run at a time: the window is
filled, and each time a task is collected its result is stored and the window is filled
again. Tasks complete in any order and are reported in batches, so a task that has
completed stays in the window until its turn comes.

A task is named by its number in the order of creation. The log of the items started is
part of the state, so that how often an item was started can be asked.
-/

namespace BoundedFanOut

/-- `count` items, where the result of each goes, and how many may run at a time. -/
structure Job where
  count : Nat
  slot : Nat → Nat
  limit : Nat

structure Window (β : Type*) where
  nextIndex : Nat
  started : List Nat
  pending : List (Nat × Nat)
  results : List (Option β)

inductive Failure (ε : Type*) where
  | notPending (task : Nat)
  | outOfRange (slot : Nat)
  | raised (error : ε)

variable {β ε : Type*}

section Loop

variable (job : Job) (outcome : Nat → Except ε (Option β))

def opened (initial : List (Option β)) : Window β where
  nextIndex := 0
  started := []
  pending := []
  results := initial

def schedule (w : Window β) : Window β where
  nextIndex := w.nextIndex + 1
  started := w.started ++ [w.nextIndex]
  pending := w.pending ++ [(w.started.length, job.slot w.nextIndex)]
  results := w.results

/-- Take a task out of the window and store its result. -/
def take (w : Window β) (task : Nat) : Except (Failure ε) (Window β) :=
  match w.pending.lookup task with
  | none => .error (.notPending task)
  | some slot =>
    match outcome (w.started.getD task 0) with
    | .error error => .error (.raised error)
    | .ok result =>
      if slot < w.results.length then
        .ok { w with
          pending := w.pending.filter fun entry => entry.1 ≠ task
          results := w.results.set slot result }
      else .error (.outOfRange slot)

/-- The condition of the inner loop. -/
def Refills (w : Window β) : Prop := w.nextIndex < job.count ∧ w.pending.length < job.limit

/-- What waiting for the first completed task may report: some of the tasks in the window,
each once. -/
def Reported (w : Window β) (done : List Nat) : Prop :=
  done ≠ [] ∧ done.Nodup ∧ ∀ task ∈ done, task ∈ w.pending.map Prod.fst

/-- The window with the tasks collected so far and those reported and not yet collected. -/
structure Moment (β : Type*) where
  window : Window β
  reported : List Nat
  collected : List Nat

inductive Step : Moment β → Moment β → Prop
  | start {w : Window β} {reported collected : List Nat} (more : Refills job w) :
    Step ⟨w, reported, collected⟩ ⟨schedule job w, reported, collected⟩
  | report {w : Window β} {done collected : List Nat} (still : ¬ Refills job w)
    (reported : Reported w done) : Step ⟨w, [], collected⟩ ⟨w, done, collected⟩
  | collect {w w' : Window β} {task : Nat} {reported collected : List Nat}
    (still : ¬ Refills job w) (taken : take outcome w task = .ok w') :
    Step ⟨w, task :: reported, collected⟩ ⟨w', reported, collected ++ [task]⟩

/-- The moments the loop goes through, over all orders and batches of completion. -/
def Reached (initial : List (Option β)) : Moment β → Prop :=
  Relation.ReflTransGen (Step job outcome) ⟨opened initial, [], []⟩

/-- The loop is left: nothing to start, to collect or to wait for. -/
def Ended (m : Moment β) : Prop := ¬ Refills job m.window ∧ m.reported = [] ∧ m.window.pending = []

end Loop

/-- The results stored in the order of `tasks`. -/
def store {α : Type*} (slot : α → Nat) (result : α → Option β) (tasks : List α)
    (results : List (Option β)) : List (Option β) :=
  tasks.foldl (fun stored task => stored.set (slot task) (result task)) results

/-- The tasks below `next` that were not collected. -/
def running (next : Nat) (collected : List Nat) : List Nat :=
  (List.range next).filter fun task => task ∉ collected

structure Underway (job : Job) (result : Nat → Option β) (initial : List (Option β))
    (m : Moment β) : Prop where
  started : m.window.started = List.range m.window.nextIndex
  bounded : m.window.nextIndex ≤ job.count
  pending : m.window.pending =
    (running m.window.nextIndex m.collected).map fun task => (task, job.slot task)
  known : ∀ task ∈ m.collected, task < m.window.nextIndex
  once : m.collected.Nodup
  awaited : m.reported.Nodup ∧ ∀ task ∈ m.reported, task ∈ m.window.pending.map Prod.fst
  room : m.window.pending.length ≤ job.limit
  results : m.window.results = store job.slot result m.collected initial

variable {job : Job} {outcome : Nat → Except ε (Option β)} {result : Nat → Option β}
  {initial : List (Option β)} {collected : List Nat} {m m' : Moment β}

section Store

variable {α : Type*} (slot : α → Nat) (result : α → Option β)

theorem length_store (tasks : List α) (results : List (Option β)) :
    (store slot result tasks results).length = results.length := by
  induction tasks generalizing results with
  | nil => rfl
  | cons task rest ih => exact (ih _).trans List.length_set

theorem store_concat (tasks : List α) (task : α) (results : List (Option β)) :
    store slot result (tasks ++ [task]) results =
      (store slot result tasks results).set (slot task) (result task) :=
  List.foldl_append ..

/-- Where no two tasks share a slot the order of storing does not matter. -/
theorem store_perm {tasks others : List α} (same : tasks.Perm others)
    (apart : ∀ a ∈ tasks, ∀ b ∈ tasks, slot a = slot b → a = b) (results : List (Option β)) :
    store slot result tasks results = store slot result others results := by
  refine same.foldl_eq' ?_ results
  intro a memA b memB stored
  by_cases eq : slot a = slot b
  · rw [apart a memA b memB eq]
  · exact List.set_comm _ _ eq

/-- A result that depends on its slot only is found there. -/
theorem getElem?_store {value : Nat → Option β} {tasks : List α}
    (own : ∀ task ∈ tasks, result task = value (slot task)) {results : List (Option β)} {i : Nat}
    (inside : i < results.length) :
    (store slot result tasks results)[i]? =
      if i ∈ tasks.map slot then some (value i) else results[i]? := by
  induction tasks generalizing results with
  | nil => simp [store]
  | cons task rest ih =>
    obtain ⟨first, others⟩ := List.forall_mem_cons.mp own
    have stored : i < (results.set (slot task) (result task)).length := by
      rw [List.length_set]
      exact inside
    have later := ih others stored
    rw [store] at later
    rw [store, List.foldl_cons, later]
    simp only [List.map_cons]
    by_cases mem : i ∈ rest.map slot
    · rw [if_pos mem, if_pos (List.mem_cons_of_mem _ mem)]
    · rw [if_neg mem]
      by_cases same : i = slot task
      · rw [if_pos (List.mem_cons.mpr (.inl same)), first, ← same, List.getElem?_set_self inside]
      · rw [if_neg (List.not_mem_cons_of_ne_of_not_mem same mem),
          List.getElem?_set_ne (Ne.symm same)]

/-- Where every slot is written the list is what was written. -/
theorem store_eq_map (value : Nat → Option β) (tasks : List α) (results : List (Option β))
    (own : ∀ task ∈ tasks, result task = value (slot task))
    (all : ∀ i < results.length, i ∉ tasks.map slot → results[i]? = some (value i)) :
    store slot result tasks results = (List.range results.length).map value := by
  apply List.ext_getElem?
  intro i
  by_cases inside : i < results.length
  · rw [getElem?_store slot result own inside, List.getElem?_map, List.getElem?_range inside]
    split
    · rfl
    · next out => exact all i inside out
  · rw [List.getElem?_eq_none (by rw [length_store]; omega),
      List.getElem?_eq_none (by rw [List.length_map, List.length_range]; omega)]

end Store

theorem running_succ {next : Nat} (known : ∀ task ∈ collected, task < next) :
    running (next + 1) collected = running next collected ++ [next] := by
  have fresh : next ∉ collected := fun mem => Nat.lt_irrefl _ (known next mem)
  rw [running, List.range_succ, List.filter_append, running]
  simp [fresh]

theorem running_concat (next task : Nat) (collected : List Nat) :
    running next (collected ++ [task]) =
      (running next collected).filter fun other => other ≠ task := by
  rw [running, running, List.filter_filter]
  apply List.filter_congr
  intro other _
  simp [and_comm]

theorem mem_running {next task : Nat} :
    task ∈ running next collected ↔ task < next ∧ task ∉ collected := by
  simp [running]

namespace Underway

theorem keys (h : Underway job result initial m) :
    m.window.pending.map Prod.fst = running m.window.nextIndex m.collected := by
  rw [h.pending, List.map_map]
  exact List.map_id _

theorem opened (job : Job) (result : Nat → Option β) (initial : List (Option β)) :
    Underway job result initial ⟨opened initial, [], []⟩ where
  started := rfl
  bounded := Nat.zero_le _
  pending := rfl
  known := fun _ none => absurd none List.not_mem_nil
  once := List.nodup_nil
  awaited := ⟨List.nodup_nil, fun _ none => absurd none List.not_mem_nil⟩
  room := Nat.zero_le _
  results := rfl

theorem start {w : Window β} {reported : List Nat}
    (h : Underway job result initial ⟨w, reported, collected⟩) (more : Refills job w) :
    Underway job result initial ⟨schedule job w, reported, collected⟩ where
  started := by
    show w.started ++ [w.nextIndex] = _
    rw [h.started]
    exact List.range_succ.symm
  bounded := more.1
  pending := by
    show w.pending ++ [(w.started.length, job.slot w.nextIndex)] =
      (running (w.nextIndex + 1) collected).map _
    rw [running_succ h.known, h.pending, h.started, List.length_range, List.map_append]
    rfl
  known := fun task mem => Nat.lt_succ_of_lt (h.known task mem)
  once := h.once
  awaited := by
    refine ⟨h.awaited.1, fun task mem => ?_⟩
    show task ∈ (w.pending ++ [_]).map Prod.fst
    rw [List.map_append]
    exact List.mem_append_left _ (h.awaited.2 task mem)
  room := by
    show (w.pending ++ [_]).length ≤ _
    rw [List.length_append, List.length_singleton]
    exact more.2
  results := h.results

theorem report {w : Window β} {done : List Nat}
    (h : Underway job result initial ⟨w, [], collected⟩) (reported : Reported w done) :
    Underway job result initial ⟨w, done, collected⟩ :=
  { h with awaited := reported.2 }

/-- Taking a reported task, and what it leaves. -/
theorem take_eq {w : Window β} {task : Nat} {reported : List Nat}
    (h : Underway job result initial ⟨w, task :: reported, collected⟩)
    (ok : ∀ task < job.count, outcome task = .ok (result task))
    (slots : ∀ task < job.count, job.slot task < initial.length) :
    take outcome w task = .ok { w with
      pending := w.pending.filter fun entry => entry.1 ≠ task
      results := w.results.set (job.slot task) (result task) } := by
  have mem : task ∈ running w.nextIndex collected := by
    rw [← h.keys]
    exact h.awaited.2 task List.mem_cons_self
  obtain ⟨below, _⟩ := mem_running.mp mem
  have inside : task < job.count := Nat.lt_of_lt_of_le below h.bounded
  have found : w.pending.lookup task = some (job.slot task) := by
    rw [h.pending]
    exact List.lookup_graph job.slot mem
  have item : w.started.getD task 0 = task := by
    rw [h.started, List.getD_eq_getElem?_getD, List.getElem?_range below]
    rfl
  have stored : job.slot task < w.results.length := by
    rw [h.results, length_store]
    exact slots task inside
  simp only [take, found, item, ok task inside, if_pos stored]

theorem collect {w w' : Window β} {task : Nat} {reported : List Nat}
    (h : Underway job result initial ⟨w, task :: reported, collected⟩)
    (ok : ∀ task < job.count, outcome task = .ok (result task))
    (slots : ∀ task < job.count, job.slot task < initial.length)
    (taken : take outcome w task = .ok w') :
    Underway job result initial ⟨w', reported, collected ++ [task]⟩ := by
  have mem : task ∈ running w.nextIndex collected := by
    rw [← h.keys]
    exact h.awaited.2 task List.mem_cons_self
  obtain ⟨below, fresh⟩ := mem_running.mp mem
  rw [h.take_eq ok slots] at taken
  obtain rfl := Except.ok.inj taken
  have left : w.pending.filter (fun entry => entry.1 ≠ task) =
      (running w.nextIndex (collected ++ [task])).map fun task => (task, job.slot task) := by
    rw [running_concat, h.pending, List.filter_map]
    rfl
  obtain ⟨once, others⟩ := List.nodup_cons.mp h.awaited.1
  constructor
  case started => exact h.started
  case bounded => exact h.bounded
  case pending => exact left
  case known =>
    intro other mem
    rcases List.mem_append.mp mem with mem | last
    · exact h.known other mem
    · rw [List.mem_singleton.mp last]
      exact below
  case once => exact h.once.append (List.nodup_singleton task) (by simpa using fresh)
  case awaited =>
    refine ⟨others, fun other waiting => ?_⟩
    have still := h.awaited.2 other (List.mem_cons_of_mem _ waiting)
    rw [h.keys, mem_running] at still
    rw [left, List.map_map]
    refine List.mem_map.mpr ⟨other, mem_running.mpr ⟨still.1, ?_⟩, rfl⟩
    intro mem
    rcases List.mem_append.mp mem with mem | last
    · exact still.2 mem
    · exact once (List.mem_singleton.mp last ▸ waiting)
  case room => exact Nat.le_trans (List.length_filter_le _ _) h.room
  case results =>
    show w.results.set _ _ = _
    rw [h.results, store_concat]

theorem step (h : Underway job result initial m)
    (ok : ∀ task < job.count, outcome task = .ok (result task))
    (slots : ∀ task < job.count, job.slot task < initial.length)
    (next : Step job outcome m m') : Underway job result initial m' := by
  cases next with
  | start more => exact h.start more
  | report _ reported => exact h.report reported
  | collect _ taken => exact h.collect ok slots taken

/-- Whichever of the tasks have completed, the others fit the limit. -/
theorem unfinished_le (h : Underway job result initial m) {completed : List Nat}
    (later : ∀ task ∈ m.collected, task ∈ completed) :
    ((List.range m.window.started.length).filter fun task => task ∉ completed).length ≤
      job.limit := by
  have fewer : ((List.range m.window.nextIndex).filter fun task => task ∉ completed).length ≤
      (running m.window.nextIndex m.collected).length := by
    refine (List.monotone_filter_right _ ?_).length_le
    intro task out
    rw [decide_eq_true_eq] at out ⊢
    exact fun mem => out (later task mem)
  have size : (running m.window.nextIndex m.collected).length = m.window.pending.length := by
    rw [h.pending, List.length_map]
  rw [h.started, List.length_range]
  exact Nat.le_trans fewer (size ▸ h.room)

theorem length_running (h : Underway job result initial m) :
    m.window.pending.length + m.collected.length = m.window.nextIndex := by
  have split : (running m.window.nextIndex m.collected ++ m.collected).Perm
      (List.range m.window.nextIndex) := by
    rw [List.perm_ext_iff_of_nodup ?_ List.nodup_range]
    · intro task
      rw [List.mem_append, mem_running, List.mem_range]
      constructor
      · rintro (⟨below, _⟩ | mem)
        · exact below
        · exact h.known task mem
      · intro below
        by_cases mem : task ∈ m.collected
        · exact .inr mem
        · exact .inl ⟨below, mem⟩
    · refine (List.nodup_range.filter _).append h.once ?_
      intro task inside mem
      exact (mem_running.mp inside).2 mem
  have size := split.length_eq
  rw [List.length_append, List.length_range] at size
  rw [h.pending, List.length_map]
  exact size

theorem ended_iff (h : Underway job result initial m) (positive : 0 < job.limit) :
    Ended job m ↔ m.collected.length = job.count := by
  have size := h.length_running
  have bounded := h.bounded
  constructor
  · rintro ⟨still, _, none⟩
    rw [none, List.length_nil] at size
    by_contra short
    exact still ⟨by omega, by rw [none]; exact positive⟩
  · intro all
    have none : m.window.pending = [] := List.length_eq_zero_iff.mp (by omega)
    refine ⟨fun more => ?_, ?_, none⟩
    · have := more.1
      omega
    · by_contra some
      obtain ⟨task, mem⟩ := List.exists_mem_of_ne_nil _ some
      have inside := h.awaited.2 task mem
      rw [none] at inside
      cases inside

theorem progress (h : Underway job result initial m)
    (ok : ∀ task < job.count, outcome task = .ok (result task))
    (slots : ∀ task < job.count, job.slot task < initial.length) :
    Ended job m ∨ ∃ m', Step job outcome m m' := by
  obtain ⟨w, reported, collected⟩ := m
  by_cases more : Refills job w
  · exact .inr ⟨_, .start more⟩
  cases reported with
  | cons task rest => exact .inr ⟨_, .collect more (h.take_eq ok slots)⟩
  | nil =>
    by_cases none : w.pending = []
    · exact .inl ⟨more, rfl, none⟩
    · obtain ⟨entry, mem⟩ := List.exists_mem_of_ne_nil _ none
      refine .inr ⟨⟨w, [entry.1], collected⟩, .report more ⟨List.cons_ne_nil _ _, ?_, ?_⟩⟩
      · exact List.nodup_singleton _
      · intro task only
        rw [List.mem_singleton.mp only]
        exact List.mem_map_of_mem mem

theorem collected_perm (h : Underway job result initial m) (positive : 0 < job.limit)
    (ended : Ended job m) : m.collected.Perm (List.range job.count) := by
  have all := (h.ended_iff positive).mp ended
  have inside : m.collected ⊆ List.range job.count := by
    intro task mem
    exact List.mem_range.mpr (Nat.lt_of_lt_of_le (h.known task mem) h.bounded)
  refine (List.subperm_of_subset h.once inside).perm_of_length_le ?_
  rw [List.length_range]
  exact Nat.le_of_eq all.symm

end Underway

theorem Reached.underway (reached : Reached job outcome initial m)
    (ok : ∀ task < job.count, outcome task = .ok (result task))
    (slots : ∀ task < job.count, job.slot task < initial.length) :
    Underway job result initial m := by
  induction reached with
  | refl => exact .opened job result initial
  | tail _ next ih => exact ih.step ok slots next

/-- Every step brings the loop closer to its end: an item is started or collected, or what
was reported is there to be collected. -/
def remaining (job : Job) (m : Moment β) : Nat :=
  2 * (job.count - m.window.nextIndex) + 2 * (job.count - m.collected.length) +
    if m.reported = [] then 1 else 0

theorem remaining_lt (h : Underway job result initial m)
    (next : Step job outcome m m') : remaining job m' < remaining job m := by
  have size := h.length_running
  have bounded := h.bounded
  cases next with
  | start more =>
    have left := more.1
    simp only [remaining, schedule]
    omega
  | report _ reported =>
    simp only [remaining, if_neg reported.1, if_pos]
    omega
  | @collect w w' task reported collected _ taken =>
    have some : 0 < w.pending.length := by
      obtain ⟨entry, mem, _⟩ := List.mem_map.mp (h.awaited.2 task List.mem_cons_self)
      exact List.length_pos_of_mem mem
    have same : w'.nextIndex = w.nextIndex := by
      rw [take] at taken
      split at taken
      · cases taken
      · split at taken
        · cases taken
        · split at taken
          · rw [← Except.ok.inj taken]
          · cases taken
    simp only at size bounded
    simp only [remaining, same, List.length_append, List.length_singleton, reduceCtorEq,
      if_false]
    split <;> omega

/-- At the end every result is where it belongs, whatever the order in which the tasks were
collected. -/
theorem results_of_ended (reached : Reached job outcome initial m)
    (ok : ∀ task < job.count, outcome task = .ok (result task))
    (slots : ∀ task < job.count, job.slot task < initial.length)
    (apart : ∀ a < job.count, ∀ b < job.count, job.slot a = job.slot b → a = b)
    (positive : 0 < job.limit) (ended : Ended job m) :
    m.window.results = store job.slot result (List.range job.count) initial := by
  have h := reached.underway ok slots
  have all := h.collected_perm positive ended
  rw [h.results]
  refine store_perm _ _ all ?_ initial
  intro a memA b memB
  exact apart a (List.mem_range.mp (all.subset memA)) b (List.mem_range.mp (all.subset memB))

/-- The loop loses nothing: the limit holds at all times, every item is started once, the
loop cannot stop early or go on forever, and at the end the results are `final`. -/
structure WorksOff (job : Job) (outcome : Nat → Except ε (Option β))
    (initial final : List (Option β)) : Prop where
  bounded : ∀ m, Reached job outcome initial m → ∀ completed : List Nat,
    (∀ task ∈ m.collected, task ∈ completed) →
      ((List.range m.window.started.length).filter fun task => task ∉ completed).length ≤ job.limit
  once : ∀ m, Reached job outcome initial m →
    m.window.started.Nodup ∧ ∀ item ∈ m.window.started, item < job.count
  ends : ∀ m, Reached job outcome initial m →
    (Ended job m ↔ m.collected.length = job.count) ∧
      (Ended job m ∨ ∃ m', Step job outcome m m') ∧
      ∀ m', Step job outcome m m' → remaining job m' < remaining job m
  finished : ∀ m, Reached job outcome initial m → Ended job m →
    m.window.started = List.range job.count ∧ m.window.results = final

theorem worksOff (job : Job) (outcome : Nat → Except ε (Option β)) (result : Nat → Option β)
    (initial : List (Option β)) (ok : ∀ task < job.count, outcome task = .ok (result task))
    (slots : ∀ task < job.count, job.slot task < initial.length)
    (apart : ∀ a < job.count, ∀ b < job.count, job.slot a = job.slot b → a = b)
    (positive : 0 < job.limit) :
    WorksOff job outcome initial (store job.slot result (List.range job.count) initial) where
  bounded := fun _ reached _ later => (reached.underway ok slots).unfinished_le later
  once := by
    intro m reached
    have h := reached.underway ok slots
    rw [h.started]
    refine ⟨List.nodup_range, fun item mem => ?_⟩
    exact Nat.lt_of_lt_of_le (List.mem_range.mp mem) h.bounded
  ends := by
    intro m reached
    have h := reached.underway ok slots
    exact ⟨h.ended_iff positive, h.progress ok slots, fun m' => remaining_lt h⟩
  finished := by
    intro m reached ended
    have h := reached.underway ok slots
    refine ⟨?_, results_of_ended reached ok slots apart positive ended⟩
    have all := (h.ended_iff positive).mp ended
    have size := h.length_running
    have bounded := h.bounded
    have last : m.window.nextIndex = job.count := by omega
    rw [h.started, last]

/-- There are runs to the end. -/
theorem WorksOff.exists_ended {final : List (Option β)} (h : WorksOff job outcome initial final) :
    ∃ m, Reached job outcome initial m ∧ Ended job m := by
  have goesOn : ∀ n m, Reached job outcome initial m → remaining job m ≤ n →
      ∃ m, Reached job outcome initial m ∧ Ended job m := by
    intro n
    induction n with
    | zero =>
      intro m reached low
      obtain ⟨_, ended | ⟨m', next⟩, less⟩ := h.ends m reached
      · exact ⟨m, reached, ended⟩
      · exact absurd (less m' next) (by omega)
    | succ n ih =>
      intro m reached low
      obtain ⟨_, ended | ⟨m', next⟩, less⟩ := h.ends m reached
      · exact ⟨m, reached, ended⟩
      · exact ih m' (reached.tail next) (by have := less m' next; omega)
  exact goesOn _ _ .refl (Nat.le_refl _)

end BoundedFanOut
