import Mathlib.Data.List.Chain

/-!
# Logs of status changes

An entry records the status before a change, absent for the first one, and
the status after it. A log is the history of a status when its first entry
has no origin, every later entry starts where the one before it ended, and
the last entry ends in that status. Extending a history is a path: one more
history exactly when the new entries lead from the old status to the new one.
-/

namespace AuditChains

universe u

variable {S : Type u}

abbrev Entry (S : Type u) := Option S × S

def Follows (a b : Entry S) : Prop := b.1 = some a.2

structure IsHistory (log : List (Entry S)) (current : S) : Prop where
  first : ∀ e ∈ log.head?, e.1 = none
  linked : log.IsChain Follows
  last : log.getLast?.map Prod.snd = some current

/-- The entries lead from `s` to `t`, each starting where the last one ended. -/
def Path (s : S) : List (Entry S) → S → Prop
  | [], t => s = t
  | e :: rest, t => e.1 = some s ∧ Path e.2 rest t

@[simp] theorem path_nil {s t : S} : Path s [] t ↔ s = t := Iff.rfl

@[simp] theorem path_cons {s t : S} {e : Entry S} {rest : List (Entry S)} :
    Path s (e :: rest) t ↔ e.1 = some s ∧ Path e.2 rest t := Iff.rfl

theorem isHistory_singleton (s : S) : IsHistory [(none, s)] s :=
  ⟨by simp, by simp, rfl⟩

theorem IsHistory.ne_nil {log : List (Entry S)} {s : S} (h : IsHistory log s) : log ≠ [] := by
  rintro rfl
  simpa using h.last

theorem IsHistory.current_unique {log : List (Entry S)} {s t : S}
    (hs : IsHistory log s) (ht : IsHistory log t) : s = t :=
  Option.some.inj (hs.last.symm.trans ht.last)

theorem IsHistory.concat {log : List (Entry S)} {s : S} (h : IsHistory log s) {e : Entry S}
    (origin : e.1 = some s) : IsHistory (log ++ [e]) e.2 := by
  refine ⟨?_, ?_, by simp⟩
  · intro a ha
    rw [List.head?_append_of_ne_nil _ h.ne_nil] at ha
    exact h.first a ha
  · refine List.isChain_append.mpr ⟨h.linked, by simp, ?_⟩
    intro a ha b hb
    obtain rfl : e = b := by simpa using hb
    have final := h.last
    rw [Option.mem_def.mp ha] at final
    exact origin.trans (congrArg some (Option.some.inj final).symm)

/-- The entry after a history starts in the status the history reached. -/
theorem IsHistory.link {log rest : List (Entry S)} {s t : S} {e : Entry S}
    (h : IsHistory log s) (extended : IsHistory (log ++ e :: rest) t) : e.1 = some s := by
  have chain := (List.isChain_append.mp extended.linked).2.2
  obtain ⟨a, ha, hs⟩ := Option.map_eq_some_iff.mp h.last
  have origin : e.1 = some a.2 := chain a ha e rfl
  rw [origin, hs]

theorem isHistory_append_iff {log : List (Entry S)} {s : S} (h : IsHistory log s)
    (new : List (Entry S)) (t : S) : IsHistory (log ++ new) t ↔ Path s new t := by
  induction new generalizing log s with
  | nil =>
    rw [List.append_nil]
    constructor
    · intro ht
      exact h.current_unique ht
    · rintro rfl
      exact h
  | cons e rest ih =>
    constructor
    · intro extended
      have origin := h.link extended
      refine ⟨origin, (ih (h.concat origin)).mp ?_⟩
      simpa using extended
    · rintro ⟨origin, path⟩
      have extended := (ih (h.concat origin)).mpr path
      simpa using extended

end AuditChains
