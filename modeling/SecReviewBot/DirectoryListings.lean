import Mathlib.Data.List.Basic
import Mathlib.Data.List.Perm.Basic

/-!
# Directory listings

A finite directory with what is below it, and the walk over it that visits the files of
each directory and goes into its subdirectories, but not into those whose name is pruned.
A link is visited with the files unless it leads to a directory; the walk never follows it.
-/

namespace DirectoryListings

/-- The entries of one directory, each with the entries behind it. -/
inductive Listing (ν β : Type) where
  | done
  | file (name : ν) (content : β) (rest : Listing ν β)
  | link (name : ν) (rest : Listing ν β)
  | directory (name : ν) (inner rest : Listing ν β)

inductive Kind (β : Type) where
  | file (content : β)
  | link
  | directory

variable {ν β : Type}

/-- Every entry below a directory, by its path. -/
def entries (root : List ν) : Listing ν β → List (List ν × Kind β)
  | .done => []
  | .file name content rest => (root ++ [name], .file content) :: entries root rest
  | .link name rest => (root ++ [name], .link) :: entries root rest
  | .directory name inner rest =>
    (root ++ [name], .directory) :: (entries (root ++ [name]) inner ++ entries root rest)

section Walking

variable (leads : List ν → Bool) (sorted : List ν → List ν) (pruned : ν → Bool)

/-- All names but those of directories and of links that lead to one. -/
def fileNames (root : List ν) : Listing ν β → List ν
  | .done => []
  | .file name _ rest => name :: fileNames root rest
  | .link name rest =>
    if leads (root ++ [name]) then fileNames root rest else name :: fileNames root rest
  | .directory _ _ rest => fileNames root rest

def filePaths (root : List ν) (listing : Listing ν β) : List (List ν) :=
  (sorted (fileNames leads root listing)).map fun name => root ++ [name]

/-- The files in the subdirectories. -/
def walkBelow (root : List ν) : Listing ν β → List (List ν)
  | .done => []
  | .file _ _ rest => walkBelow root rest
  | .link _ rest => walkBelow root rest
  | .directory name inner rest =>
    (if pruned name then []
      else filePaths leads sorted (root ++ [name]) inner ++ walkBelow (root ++ [name]) inner) ++
    walkBelow root rest

def walk (root : List ν) (listing : Listing ν β) : List (List ν) :=
  filePaths leads sorted root listing ++ walkBelow leads sorted pruned root listing

/-- The walk stops at an entry of this kind. -/
def visited (path : List ν) : Kind β → Bool
  | .file _ => true
  | .link => !leads path
  | .directory => false

/-- No directory on the way from the root is pruned. -/
def Reached (root path : List ν) : Prop :=
  ∀ names, path = root ++ names → ∀ name ∈ names.dropLast, pruned name = false

variable {leads sorted pruned} {root path : List ν} {listing : Listing ν β}

theorem entries_below {kind : Kind β} (mem : (path, kind) ∈ entries root listing) :
    ∃ name names, path = root ++ name :: names := by
  induction listing generalizing root with
  | done => cases mem
  | file name content rest ih =>
    rcases List.mem_cons.mp mem with eq | mem
    · cases eq
      exact ⟨name, [], rfl⟩
    · exact ih mem
  | link name rest ih =>
    rcases List.mem_cons.mp mem with eq | mem
    · cases eq
      exact ⟨name, [], rfl⟩
    · exact ih mem
  | directory name inner rest inner_ih rest_ih =>
    rcases List.mem_cons.mp mem with eq | mem
    · cases eq
      exact ⟨name, [], rfl⟩
    · rcases List.mem_append.mp mem with mem | mem
      · obtain ⟨first, names, rfl⟩ := inner_ih mem
        exact ⟨name, first :: names, by simp⟩
      · exact rest_ih mem

theorem reached_child (root : List ν) (name : ν) : Reached pruned root (root ++ [name]) := by
  intro names eq other mem
  rw [← List.append_cancel_left eq] at mem
  cases mem

theorem reached_inner_iff {name first : ν} {names : List ν}
    (eq : path = root ++ [name] ++ first :: names) :
    Reached pruned root path ↔ pruned name = false ∧ Reached pruned (root ++ [name]) path := by
  have whole : path = root ++ name :: first :: names := by simpa using eq
  constructor
  · intro reached
    have own := reached _ whole
    rw [List.dropLast_cons_cons] at own
    refine ⟨own name List.mem_cons_self, fun others eq' other mem => ?_⟩
    rw [← List.append_cancel_left (eq.symm.trans eq')] at mem
    exact own other (List.mem_cons_of_mem _ mem)
  · rintro ⟨kept, reached⟩ others eq' other mem
    rw [← List.append_cancel_left (whole.symm.trans eq'), List.dropLast_cons_cons] at mem
    rcases List.mem_cons.mp mem with rfl | mem
    · exact kept
    · exact reached _ eq other mem

theorem mem_walk (perm : ∀ names, (sorted names).Perm names) :
    path ∈ walk leads sorted pruned root listing ↔
      (∃ name ∈ fileNames leads root listing, root ++ [name] = path) ∨
        path ∈ walkBelow leads sorted pruned root listing := by
  rw [walk, List.mem_append, filePaths, List.mem_map]
  simp only [(perm _).mem_iff]

/-- The walk visits exactly the files and links that no pruned directory hides. -/
theorem mem_walk_iff (perm : ∀ names, (sorted names).Perm names) :
    path ∈ walk leads sorted pruned root listing ↔
      ∃ kind, (path, kind) ∈ entries root listing ∧ visited leads path kind = true ∧
        Reached pruned root path := by
  rw [mem_walk perm]
  induction listing generalizing root with
  | done => simp [fileNames, walkBelow, entries]
  | file name content rest ih =>
    rw [fileNames, walkBelow, entries, List.exists_mem_cons_iff, or_assoc, ih]
    constructor
    · rintro (rfl | ⟨kind, mem, own⟩)
      · exact ⟨_, List.mem_cons_self, rfl, reached_child root name⟩
      · exact ⟨kind, List.mem_cons_of_mem _ mem, own⟩
    · rintro ⟨kind, mem, own⟩
      rcases List.mem_cons.mp mem with eq | mem
      · cases eq
        exact .inl rfl
      · exact .inr ⟨kind, mem, own⟩
  | link name rest ih =>
    rw [fileNames, walkBelow, entries]
    split
    · next away =>
      rw [ih]
      constructor
      · rintro ⟨kind, mem, own⟩
        exact ⟨kind, List.mem_cons_of_mem _ mem, own⟩
      · rintro ⟨kind, mem, own⟩
        rcases List.mem_cons.mp mem with eq | mem
        · cases eq
          simp [visited, away] at own
        · exact ⟨kind, mem, own⟩
    · next stays =>
      rw [List.exists_mem_cons_iff, or_assoc, ih]
      constructor
      · rintro (rfl | ⟨kind, mem, own⟩)
        · exact ⟨_, List.mem_cons_self, by simpa [visited] using stays, reached_child root name⟩
        · exact ⟨kind, List.mem_cons_of_mem _ mem, own⟩
      · rintro ⟨kind, mem, own⟩
        rcases List.mem_cons.mp mem with eq | mem
        · cases eq
          exact .inl rfl
        · exact .inr ⟨kind, mem, own⟩
  | directory name inner rest inner_ih rest_ih =>
    have inside : path ∈ walk leads sorted pruned (root ++ [name]) inner ↔ _ :=
      (mem_walk perm).trans inner_ih
    rw [fileNames, walkBelow, entries, List.mem_append, ← or_assoc, or_right_comm, rest_ih]
    constructor
    · rintro (⟨kind, mem, own⟩ | below)
      · exact ⟨kind, List.mem_cons_of_mem _ (List.mem_append_right _ mem), own⟩
      · split at below
        · cases below
        · next kept =>
          obtain ⟨kind, mem, own, reached⟩ := inside.mp below
          obtain ⟨first, names, eq⟩ := entries_below mem
          refine ⟨kind, List.mem_cons_of_mem _ (List.mem_append_left _ mem), own, ?_⟩
          exact (reached_inner_iff eq).mpr ⟨by simpa using kept, reached⟩
    · rintro ⟨kind, mem, own, reached⟩
      rcases List.mem_cons.mp mem with eq | mem
      · cases eq
        cases own
      · rcases List.mem_append.mp mem with mem | mem
        · obtain ⟨first, names, eq⟩ := entries_below mem
          obtain ⟨kept, reached⟩ := (reached_inner_iff eq).mp reached
          refine .inr ?_
          rw [if_neg (by simp [kept])]
          exact inside.mpr ⟨kind, mem, own, reached⟩
        · exact .inl ⟨kind, mem, own, reached⟩

end Walking

end DirectoryListings
