import SecReviewBot.KeyedTables

/-!
# Ledgers of candidates

Several candidates may be written down for one owner; at most one of them is
ever selected, in the transaction that creates the owner's authoritative row.
The ledger agrees with those rows when exactly the owners that have one have a
selected candidate, and that candidate records its content.

`known` says which owners have a row and `records` what it means that the row of
the owner has the candidate's content. Three rules cover every write: another
candidate, a selection, and a write elsewhere that `known` and `records` do not
notice.
-/

namespace CandidateLedgers

open KeyedTables

universe u v w

variable {K : Type u} {V : Type v} {O : Type w}

structure Agrees (owner : K → O) (selected : V → Prop) (known : O → Prop) (records : K → V → Prop)
    (t : Table K V) : Prop where
  sole : ∀ k k' v v', t.row k = some v → t.row k' = some v' → selected v → selected v' →
    owner k = owner k' → k = k'
  recorded : ∀ k v, t.row k = some v → selected v → records k v
  chosen : ∀ o, known o → ∃ k v, t.row k = some v ∧ selected v ∧ owner k = o

variable {owner : K → O} {selected : V → Prop} {known known' : O → Prop}
  {records records' : K → V → Prop} {t : Table K V}

theorem agrees_empty (none : ∀ o, ¬ known o) :
    Agrees owner selected known records (Table.empty : Table K V) :=
  ⟨nofun, nofun, fun o h => absurd h (none o)⟩

theorem Agrees.frame (h : Agrees owner selected known records t)
    (fewer : ∀ o, known' o → known o)
    (kept : ∀ k v, t.row k = some v → selected v → records k v → records' k v) :
    Agrees owner selected known' records' t :=
  ⟨h.sole, fun k v found chosen => kept k v found chosen (h.recorded k v found chosen),
    fun o there => h.chosen o (fewer o there)⟩

variable [DecidableEq K]

/-- A candidate is written that is not selected and was not. -/
theorem Agrees.put_unselected (h : Agrees owner selected known records t) {k : K} {v : V}
    (new : ¬ selected v) (old : ∀ before, t.row k = some before → ¬ selected before) :
    Agrees owner selected known records (t.put k v) := by
  have before : ∀ a x, (t.put k v).row a = some x → selected x → t.row a = some x := by
    intro a x found chosen
    rcases Table.put_row_cases found with ⟨-, rfl⟩ | ⟨-, found⟩
    · exact absurd chosen new
    · exact found
  refine ⟨?_, ?_, ?_⟩
  · intro a b x y foundA foundB chosenA chosenB same
    exact h.sole a b x y (before a x foundA chosenA) (before b y foundB chosenB) chosenA chosenB
      same
  · intro a x found chosen
    exact h.recorded a x (before a x found chosen) chosen
  · intro o there
    obtain ⟨a, x, found, chosen, mine⟩ := h.chosen o there
    have other : a ≠ k := by
      rintro rfl
      exact old x found chosen
    exact ⟨a, x, by simp [other, found], chosen, mine⟩

/-- A candidate is selected and its owner gets its row. -/
theorem Agrees.select (h : Agrees owner selected known records t) {k : K} {v : V}
    (new : selected v)
    (alone : ∀ a x, t.row a = some x → owner a = owner k → selected x → a = k)
    (fewer : ∀ o, known' o → known o ∨ o = owner k) (records_new : records' k v)
    (kept : ∀ a x, t.row a = some x → selected x → a ≠ k → records a x → records' a x) :
    Agrees owner selected known' records' (t.put k v) := by
  refine ⟨?_, ?_, ?_⟩
  · intro a b x y foundA foundB chosenA chosenB same
    rcases Table.put_row_cases foundA with ⟨rfl, -⟩ | ⟨-, oldA⟩ <;>
      rcases Table.put_row_cases foundB with ⟨rfl, -⟩ | ⟨-, oldB⟩
    · rfl
    · exact (alone b y oldB same.symm chosenB).symm
    · exact alone a x oldA same chosenA
    · exact h.sole a b x y oldA oldB chosenA chosenB same
  · intro a x found chosen
    rcases Table.put_row_cases found with ⟨rfl, rfl⟩ | ⟨other, found⟩
    · exact records_new
    · exact kept a x found chosen other (h.recorded a x found chosen)
  · intro o there
    have mine : (t.put k v).row k = some v := by simp
    rcases fewer o there with before | rfl
    · obtain ⟨a, x, found, chosen, owns⟩ := h.chosen o before
      by_cases here : a = k
      · exact ⟨k, v, mine, new, here ▸ owns⟩
      · exact ⟨a, x, by simp [here, found], chosen, owns⟩
    · exact ⟨k, v, mine, new, rfl⟩

end CandidateLedgers
