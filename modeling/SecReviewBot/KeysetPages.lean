import Mathlib.Data.List.Sort
import Mathlib.Data.List.TakeDrop
import Mathlib.Data.Prod.Lex

/-!
# Keyset pagination

A listing orders the rows of a table by a key, the largest first, and shows them
one page at a time. The cursor of a page names its last row, and the next page
starts below the position that the cursor is read back as: the *cut* of that row.

When the cut of a row is its own key, following the cursors shows every row. When
it is only a lower bound of the key, the rows between the two are skipped, and
`Serves.walk` says exactly when there are none.
-/

namespace KeysetPages

universe u v w x y

variable {Row : Type u} {Key : Type v} [LinearOrder Key]

def Descending (key : Row → Key) (rows : List Row) : Prop :=
  rows.Pairwise fun a b => key b < key a

/-- `ORDER BY key DESC`. -/
def ordered (key : Row → Key) (rows : List Row) : List Row :=
  rows.insertionSort fun a b => key b ≤ key a

/-- `WHERE (position IS NULL OR key < position) AND condition ORDER BY key DESC
LIMIT count`. -/
def select (key : Row → Key) (condition : Row → Bool) (position : Option Key) (count : Nat)
    (table : List Row) : List Row :=
  (ordered key (table.filter fun r =>
    position.all (fun p => decide (key r < p)) && condition r)).take count

theorem ordered_perm (key : Row → Key) (rows : List Row) : (ordered key rows).Perm rows :=
  List.perm_insertionSort _ _

/-- Rows with distinct keys are ordered in one way only. -/
theorem ordered_descending (key : Row → Key) {rows : List Row}
    (distinct : rows.Pairwise fun a b => key a ≠ key b) : Descending key (ordered key rows) := by
  have sorted : (ordered key rows).Pairwise fun a b => key b ≤ key a := by
    have total : Std.Total fun a b : Row => key b ≤ key a := ⟨fun a b => le_total (key b) (key a)⟩
    have trans : IsTrans Row fun a b => key b ≤ key a := ⟨fun _ _ _ h k => k.trans h⟩
    exact List.pairwise_insertionSort _ rows
  have apart : (ordered key rows).Pairwise fun a b => key a ≠ key b :=
    ((ordered_perm key rows).pairwise_iff fun h => h.symm).mpr distinct
  exact (sorted.and apart).imp fun h => lt_of_le_of_ne h.1 h.2.symm

theorem descending_eq_of_perm {key : Row → Key} {xs ys : List Row} (hx : Descending key xs)
    (hy : Descending key ys) (same : xs.Perm ys) : xs = ys := by
  have antisymm : ∀ a b : Row, a ∈ xs → b ∈ ys → key b < key a → key a < key b → a = b :=
    fun _ _ _ _ hab hba => absurd hab hba.asymm
  exact same.eq_of_pairwise antisymm hx hy

theorem ordered_filter (key : Row → Key) (p : Row → Bool) {rows : List Row}
    (distinct : rows.Pairwise fun a b => key a ≠ key b) :
    ordered key (rows.filter p) = (ordered key rows).filter p := by
  have left : Descending key (ordered key (rows.filter p)) :=
    ordered_descending key (distinct.sublist List.filter_sublist)
  have right : Descending key ((ordered key rows).filter p) :=
    (ordered_descending key distinct).sublist List.filter_sublist
  exact descending_eq_of_perm left right
    ((ordered_perm key _).trans ((ordered_perm key rows).filter p).symm)

/-- A query with a position looks at the rows below it. -/
theorem select_eq (key : Row → Key) (condition : Row → Bool) (position : Option Key)
    (count : Nat) {table : List Row} (distinct : table.Pairwise fun a b => key a ≠ key b) :
    select key condition position count table =
      ((ordered key (table.filter condition)).filter fun r =>
        position.all fun p => decide (key r < p)).take count := by
  rw [select, ← ordered_filter key _ (distinct.sublist List.filter_sublist), List.filter_filter]

/-- What is shown of the rows a query with `LIMIT limit + 1` found. -/
def shown (limit : Nat) (found : List Row) : List Row := found.take limit

/-- The row whose position continues the listing, when there are more rows. -/
def resumeRow (limit : Nat) (found : List Row) : Option Row :=
  if limit < found.length then (shown limit found).getLast? else none

section Walk

variable {Cursor : Type w} {Answer : Type x} {Error : Type y}

/-- The answers met by following the cursors until there is none. -/
inductive Walk (fetch : Option Cursor → Except Error (Answer × Option Cursor)) :
    Option Cursor → List Answer → Prop where
  | last {cursor answer} (h : fetch cursor = .ok (answer, none)) : Walk fetch cursor [answer]
  | more {cursor answer next rest} (h : fetch cursor = .ok (answer, some next))
      (later : Walk fetch (some next) rest) : Walk fetch cursor (answer :: rest)

/-- There is at most one walk: the listing decides every page. -/
theorem Walk.unique {fetch : Option Cursor → Except Error (Answer × Option Cursor)}
    {cursor : Option Cursor} {xs ys : List Answer} (hx : Walk fetch cursor xs)
    (hy : Walk fetch cursor ys) : xs = ys := by
  induction hx generalizing ys with
  | last h =>
    cases hy with
    | last k =>
      rw [h] at k
      cases k
      rfl
    | more k _ =>
      rw [h] at k
      cases k
  | more h _ ih =>
    cases hy with
    | last k =>
      rw [h] at k
      cases k
    | more k later =>
      rw [h] at k
      cases k
      rw [ih later]

/-- One answer of a listing: what is shown of `found`, and the cursor naming the
last row shown. -/
def answer (limit : Nat) (names : Row → Cursor) (project : List Row → Answer)
    (found : List Row) : Answer × Option Cursor :=
  (project (shown limit found), (resumeRow limit found).map names)

/-- `fetch` lists `rows`, and reads the cursor of a row as the position `cut`. -/
structure Serves (fetch : Option Cursor → Except Error (Answer × Option Cursor))
    (key : Row → Key) (rows : List Row) (limit : Nat) (names : Row → Cursor) (cut : Row → Key)
    (project : List Row → Answer) : Prop where
  descending : Descending key rows
  below : ∀ r ∈ rows, cut r ≤ key r
  first : fetch none = .ok (answer limit names project rows)
  later : ∀ r ∈ rows, fetch (some (names r)) =
    .ok (answer limit names project (rows.filter fun a => decide (key a < cut r)))

end Walk

/-- At every page boundary the next row lies below the cut of the last row shown. -/
def Separated (key cut : Row → Key) (limit : Nat) (rows : List Row) : Prop :=
  ∀ i prev next, limit ∣ i + 1 → rows[i]? = some prev → rows[i + 1]? = some next →
    key next < cut prev

section Rest

variable {key cut : Row → Key} {limit : Nat} {found : List Row}

theorem resumeRow_eq_none (short : found.length ≤ limit) : resumeRow limit found = none := by
  simp [resumeRow, Nat.not_lt.mpr short]

theorem resumeRow_eq_some (positive : 1 ≤ limit) (long : limit < found.length) :
    resumeRow limit found = some found[limit - 1] := by
  have inside : limit - 1 < (shown limit found).length := by
    simp only [shown, List.length_take]
    omega
  have width : (shown limit found).length - 1 = limit - 1 := by
    simp only [shown, List.length_take]
    omega
  rw [resumeRow, if_pos long, List.getLast?_eq_getElem?, width, List.getElem?_eq_getElem inside]
  simp [shown]

/-- Nothing that is shown lies below the cut of the last row shown. -/
theorem filter_below_cut (descending : Descending key found) (positive : 1 ≤ limit)
    (long : limit < found.length) {c : Key} (below : c ≤ key found[limit - 1]) :
    found.filter (fun a => decide (key a < c)) =
      (found.drop limit).filter fun a => decide (key a < c) := by
  have none : (found.take limit).filter (fun a => decide (key a < c)) = [] := by
    apply List.filter_eq_nil_iff.mpr
    intro a ha
    obtain ⟨i, hi, rfl⟩ := List.getElem_of_mem ha
    rw [List.length_take] at hi
    rw [List.getElem_take]
    have least : key found[limit - 1] ≤ key found[i] := by
      rcases Nat.lt_or_ge i (limit - 1) with before | same
      · exact (List.pairwise_iff_getElem.mp descending i (limit - 1) _ _ before).le
      · have : i = limit - 1 := by omega
        subst this
        exact le_rfl
    simpa using below.trans least
  calc found.filter (fun a => decide (key a < c))
      = (found.take limit ++ found.drop limit).filter (fun a => decide (key a < c)) := by
        rw [List.take_append_drop]
    _ = (found.drop limit).filter fun a => decide (key a < c) := by
        rw [List.filter_append, none, List.nil_append]

theorem separated_of_short (short : found.length ≤ limit) : Separated key cut limit found := by
  intro i prev next boundary _ hnext
  have reaches : limit ≤ i + 1 := Nat.le_of_dvd (by omega) boundary
  have inside := (List.getElem?_eq_some_iff.mp hnext).1
  omega

theorem separated_pair {a b : Row} (below : key b < cut a) : Separated key cut limit [a, b] := by
  intro i prev next _ hprev hnext
  cases i with
  | zero =>
    cases hprev
    cases hnext
    exact below
  | succ i => cases hnext

/-- The first boundary and the boundaries of the rest. -/
theorem separated_cons (positive : 1 ≤ limit) (long : limit < found.length) :
    Separated key cut limit found ↔
      key found[limit] < cut found[limit - 1] ∧ Separated key cut limit (found.drop limit) := by
  constructor
  · intro separated
    constructor
    · refine separated (limit - 1) _ _ ⟨1, by omega⟩ (List.getElem?_eq_getElem (by omega)) ?_
      rw [show limit - 1 + 1 = limit by omega]
      exact List.getElem?_eq_getElem long
    · intro i prev next boundary hprev hnext
      rw [List.getElem?_drop] at hprev hnext
      refine separated (limit + i) prev next ?_ hprev (by rwa [Nat.add_assoc])
      rw [Nat.add_assoc]
      exact Nat.dvd_add (Nat.dvd_refl limit) boundary
  · rintro ⟨here, rest⟩ i prev next boundary hprev hnext
    have reaches : limit ≤ i + 1 := Nat.le_of_dvd (by omega) boundary
    rcases Nat.eq_or_lt_of_le reaches with first | later
    · have spot : i = limit - 1 := by omega
      subst spot
      rw [show limit - 1 + 1 = limit by omega, List.getElem?_eq_getElem long] at hnext
      rw [List.getElem?_eq_getElem (by omega)] at hprev
      cases hprev
      cases hnext
      exact here
    · have shift : limit + (i - limit) = i := by omega
      have shifted : limit + (i - limit + 1) = i + 1 := by omega
      refine rest (i - limit) prev next ?_ ?_ ?_
      · have : i - limit + 1 = i + 1 - limit := by omega
        rw [this]
        exact Nat.dvd_sub boundary (Nat.dvd_refl limit)
      · rw [List.getElem?_drop, shift]
        exact hprev
      · rw [List.getElem?_drop, shifted]
        exact hnext

/-- The next row is skipped exactly when it is not below the cut. -/
theorem filter_drop_eq_iff (descending : Descending key found) (long : limit < found.length)
    {c : Key} : (found.drop limit).filter (fun a => decide (key a < c)) = found.drop limit ↔
      key found[limit] < c := by
  rw [List.filter_eq_self]
  constructor
  · intro all
    have mem : found[limit] ∈ found.drop limit := by
      rw [List.drop_eq_getElem_cons long]
      exact List.mem_cons_self
    simpa using all _ mem
  · intro here a ha
    obtain ⟨i, hi, rfl⟩ := List.getElem_of_mem ha
    rw [List.length_drop] at hi
    rw [List.getElem_drop]
    have least : key found[limit + i] ≤ key found[limit] := by
      rcases Nat.eq_zero_or_pos i with rfl | positive
      · exact le_rfl
      · exact (List.pairwise_iff_getElem.mp descending limit (limit + i) _ _ (by omega)).le
    simpa using least.trans_lt here

/-- A query cut at one row more than a page answers as the whole one. -/
theorem answer_take {Cursor : Type w} {Answer : Type x} (names : Row → Cursor)
    (project : List Row → Answer) :
    answer limit names project (found.take (limit + 1)) = answer limit names project found := by
  have same : shown limit (found.take (limit + 1)) = shown limit found := by
    rw [shown, shown, List.take_take, Nat.min_eq_left (by omega)]
  have more : limit < (found.take (limit + 1)).length ↔ limit < found.length := by
    rw [List.length_take]
    omega
  simp only [answer, resumeRow, same, more]

end Rest

section Complete

variable {Cursor : Type w} {Answer : Type x} {Error : Type y}
variable {fetch : Option Cursor → Except Error (Answer × Option Cursor)}
variable {key cut : Row → Key} {rows : List Row} {limit : Nat} {names : Row → Cursor}
variable {project : List Row → Answer}

/-- The rows below a position. -/
def rowsBelow (key : Row → Key) (position : Option Key) (rows : List Row) : List Row :=
  rows.filter fun r => position.all fun p => decide (key r < p)

@[simp] theorem rowsBelow_none (key : Row → Key) (rows : List Row) :
    rowsBelow key none rows = rows := by
  simp [rowsBelow]

theorem rowsBelow_some_of_mem {position : Option Key} {r : Row} {c : Key} (below : c ≤ key r)
    (mem : r ∈ rowsBelow key position rows) :
    rowsBelow key (some c) rows =
      (rowsBelow key position rows).filter fun a => decide (key a < c) := by
  have inside : position.all fun p => decide (key r < p) := (List.mem_filter.mp mem).2
  rw [rowsBelow, rowsBelow, List.filter_filter]
  apply List.filter_congr
  intro a _
  cases position with
  | none => simp
  | some p =>
    have reach : c < p := below.trans_lt (by simpa using inside)
    have imp : key a < c → key a < p := fun h => h.trans reach
    simpa using imp

/-- From any page on, the walk ends, keeps to the order of the rows and shows all
that is left exactly when the cursors separate it. -/
theorem Serves.walk_from (serves : Serves fetch key rows limit names cut project)
    (positive : 1 ≤ limit) (position : Option Key) (cursor : Option Cursor)
    (here : fetch cursor = .ok (answer limit names project (rowsBelow key position rows))) :
    ∃ pages : List (List Row), Walk fetch cursor (pages.map project) ∧
      pages.flatten.Sublist (rowsBelow key position rows) ∧
      (pages.flatten = rowsBelow key position rows ↔
        Separated key cut limit (rowsBelow key position rows)) := by
  -- the rows left to show get fewer with every page
  induction size : (rowsBelow key position rows).length using Nat.strong_induction_on
    generalizing position cursor with
  | _ size ih =>
  subst size
  generalize left : rowsBelow key position rows = found at *
  have sub : found.Sublist rows := left ▸ List.filter_sublist
  have descending : Descending key found := serves.descending.sublist sub
  rcases Nat.lt_or_ge limit found.length with long | short
  · have last : found[limit - 1] ∈ rows := sub.subset (List.getElem_mem _)
    have below : cut found[limit - 1] ≤ key found[limit - 1] := serves.below _ last
    have rest : rowsBelow key (some (cut found[limit - 1])) rows =
        (found.drop limit).filter fun a => decide (key a < cut found[limit - 1]) := by
      subst left
      rw [rowsBelow_some_of_mem below (List.getElem_mem _)]
      exact filter_below_cut descending positive long below
    have fewer : (rowsBelow key (some (cut found[limit - 1])) rows).length < found.length := by
      have := List.length_filter_le (fun a => decide (key a < cut found[limit - 1]))
        (found.drop limit)
      rw [List.length_drop] at this
      rw [rest]
      omega
    obtain ⟨pages, walk, order, all⟩ := ih _ fewer (some (cut found[limit - 1]))
      (some (names found[limit - 1])) (by
        rw [serves.later _ last]
        simp [rowsBelow]) rfl
    rw [rest] at order all
    have within : pages.flatten.Sublist (found.drop limit) := order.trans List.filter_sublist
    refine ⟨found.take limit :: pages, ?_, ?_, ?_⟩
    · refine Walk.more ?_ walk
      rw [here, answer, resumeRow_eq_some positive long]
      rfl
    · rw [List.flatten_cons]
      simpa using (List.Sublist.refl (found.take limit)).append within
    · rw [separated_cons positive long, ← filter_drop_eq_iff descending long, List.flatten_cons]
      constructor
      · intro whole
        have rest : pages.flatten = found.drop limit := by
          have : found.take limit ++ pages.flatten = found.take limit ++ found.drop limit := by
            rw [whole, List.take_append_drop]
          exact List.append_cancel_left this
        have kept := List.Sublist.antisymm List.filter_sublist (rest ▸ order)
        rw [kept] at all
        exact ⟨kept, all.mp rest⟩
      · rintro ⟨kept, separated⟩
        rw [kept] at all
        rw [all.mpr separated, List.take_append_drop]
  · refine ⟨[found], ?_, ?_, ?_⟩
    · apply Walk.last
      rw [here, answer, resumeRow_eq_none short, shown, List.take_of_length_le short]
      rfl
    · simp
    · simp [separated_of_short short]

/-- A listing whose cursors name a lower bound of the last row's key ends, and it
shows exactly the rows when they are separated. -/
theorem Serves.walk (serves : Serves fetch key rows limit names cut project)
    (positive : 1 ≤ limit) :
    ∃ pages : List (List Row), Walk fetch none (pages.map project) ∧
      pages.flatten.Sublist rows ∧
      (pages.flatten = rows ↔ Separated key cut limit rows) := by
  have from_start := serves.walk_from positive none none (by simpa using serves.first)
  simpa using from_start

/-- A cursor that names the key itself loses nothing. -/
theorem Serves.walk_exact (serves : Serves fetch key rows limit names key project)
    (positive : 1 ≤ limit) :
    ∃ pages : List (List Row), Walk fetch none (pages.map project) ∧ pages.flatten = rows := by
  obtain ⟨pages, walk, _, all⟩ := serves.walk positive
  refine ⟨pages, walk, all.mpr ?_⟩
  intro i prev next _ hprev hnext
  obtain ⟨hi, rfl⟩ := List.getElem?_eq_some_iff.mp hprev
  obtain ⟨hj, rfl⟩ := List.getElem?_eq_some_iff.mp hnext
  exact List.pairwise_iff_getElem.mp serves.descending i (i + 1) hi hj (by omega)

/-- Following the cursors from the first page on shows every one of the `matching`
rows once, in descending order, and ends. -/
def ListsAll {Item : Type x} (fetch : Option Cursor → Except Error (List Item × Option Cursor))
    (key : Row → Key) (item : Row → Item) (matching : List Row) : Prop :=
  ∃ listed : List Row, listed.Perm matching ∧ Descending key listed ∧
    ∃ pages, Walk fetch none pages ∧ pages.flatten = listed.map item

theorem Serves.listsAll_iff {Item : Type x}
    {fetch : Option Cursor → Except Error (List Item × Option Cursor)} {item : Row → Item}
    {matching : List Row} (serves : Serves fetch key rows limit names cut (List.map item))
    (positive : 1 ≤ limit) (same : rows.Perm matching) :
    ListsAll fetch key item matching ↔ Separated key cut limit rows := by
  obtain ⟨pages, walk, order, all⟩ := serves.walk positive
  have flat : (pages.map (List.map item)).flatten = pages.flatten.map item := by
    rw [List.map_flatten]
  constructor
  · rintro ⟨listed, perm, descending, others, walk', whole⟩
    obtain rfl : listed = rows :=
      descending_eq_of_perm descending serves.descending (perm.trans same.symm)
    rw [walk'.unique walk, flat] at whole
    have lengths := congrArg List.length whole
    rw [List.length_map, List.length_map] at lengths
    exact all.mp (order.eq_of_length lengths)
  · intro separated
    refine ⟨rows, same, serves.descending, _, walk, ?_⟩
    rw [flat, all.mpr separated]

end Complete

/-- A collation: any total order on texts. -/
class TextOrder (le : String → String → Bool) : Prop where
  total : ∀ a b, le a b = true ∨ le b a = true
  trans : ∀ a b c, le a b = true → le b c = true → le a c = true
  antisymm : ∀ a b, le a b = true → le b a = true → a = b

@[ext] structure OrderedText (le : String → String → Bool) where
  text : String
  deriving DecidableEq

section Positions

variable {le : String → String → Bool} [TextOrder le]

instance : LinearOrder (OrderedText le) where
  le a b := le a.text b.text = true
  le_refl a := (TextOrder.total a.text a.text).elim id id
  le_trans a b c := TextOrder.trans a.text b.text c.text
  le_antisymm a b h k := OrderedText.ext (TextOrder.antisymm a.text b.text h k)
  le_total a b := TextOrder.total a.text b.text
  toDecidableLE a b := inferInstanceAs (Decidable (le a.text b.text = true))

abbrev Position (le : String → String → Bool) := Lex (Nat × OrderedText le)

/-- The key `(instant, text)`. -/
def position (le : String → String → Bool) (instant : Nat) (text : String) : Position le :=
  toLex (instant, ⟨text⟩)

omit [TextOrder le] in
theorem position_injective {s t : Nat} {a b : String}
    (h : position le s a = position le t b) : s = t ∧ a = b := by
  have pair := toLex_inj.mp h
  exact ⟨(Prod.mk.inj pair).1, congrArg OrderedText.text (Prod.mk.inj pair).2⟩

theorem position_mono {s t : Nat} (h : s ≤ t) (a : String) :
    position le s a ≤ position le t a := by
  rw [position, position, Prod.Lex.toLex_le_toLex]
  rcases Nat.lt_or_eq_of_le h with lt | eq
  · exact .inl lt
  · exact .inr ⟨eq, le_rfl⟩

end Positions

end KeysetPages
