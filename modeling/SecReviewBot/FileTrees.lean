import Mathlib.Data.List.Infix

/-!
# Trees of files

Directories, files and symbolic links by their path from the top. Only a directory has
entries below it. A name is looked up the way an operating system does: links on the way are
followed, the last one when the caller asks for it, and a chain of links is given up after a
while. The path predicates answer `false` where a look-up fails.
-/

namespace FileTrees

inductive Entry (μ β : Type) where
  | directory
  | file (mode : μ) (content : β)
  | link (target : β)

structure FileTree (ν μ β : Type) where
  entry : List ν → Option (Entry μ β)
  top : entry [] = some .directory
  parent : ∀ path name, entry (path ++ [name]) ≠ none → entry path = some .directory

/-- One component of a path. -/
inductive Step (ν : Type) where
  | here
  | up
  | name (name : ν)

/-- What the text of a link leads to, and which texts a link can have. -/
structure LinkTexts (ν β : Type) where
  absolute : β → Bool
  steps : β → List (Step ν)
  valid : β → Bool

inductive Errno where
  | noEntry | notDirectory | isDirectory | tooManyLinks | alreadyExists | invalid
  deriving DecidableEq

variable {ν μ β : Type}

namespace FileTree

section Change

variable [DecidableEq ν] (t : FileTree ν μ β)

/-- Take an entry away with everything below it. -/
def remove (place : List ν) (below : place ≠ []) : FileTree ν μ β where
  entry := fun path => if place <+: path then none else t.entry path
  top := by
    rw [if_neg fun h => below (List.prefix_nil.mp h)]
    exact t.top
  parent := by
    intro path name present
    split at present
    · exact absurd rfl present
    · next out =>
      rw [if_neg fun h => out (h.trans (List.prefix_append _ _))]
      exact t.parent path name present

/-- Add an entry to a directory. -/
def put (place : List ν) (e : Entry μ β) (below : place ≠ []) (free : t.entry place = none)
    (inside : t.entry place.dropLast = some .directory) : FileTree ν μ β where
  entry := fun path => if path = place then some e else t.entry path
  top := by
    rw [if_neg (Ne.symm below)]
    exact t.top
  parent := by
    intro path name present
    have other : path ≠ place := by
      rintro rfl
      split at present
      · next same => simpa using congrArg List.length same
      · rw [t.parent path name present] at free
        cases free
    rw [if_neg other]
    split at present
    · next same =>
      rw [← same, List.dropLast_concat] at inside
      exact inside
    · exact t.parent path name present

end Change

section Lookup

variable (t : FileTree ν μ β) (links : LinkTexts ν β)

/-- Go along the steps; `jump` goes on where a link leads. -/
def walkWith (jump : List ν → List (Step ν) → Except Errno (List ν)) (follow : Bool) :
    List ν → List (Step ν) → Except Errno (List ν)
  | current, [] => .ok current
  | current, .here :: rest => walkWith jump follow current rest
  | current, .up :: rest => walkWith jump follow current.dropLast rest
  | current, .name name :: rest =>
    match t.entry (current ++ [name]) with
    | none => if rest.isEmpty then .ok (current ++ [name]) else .error .noEntry
    | some .directory => walkWith jump follow (current ++ [name]) rest
    | some (.file _ _) => if rest.isEmpty then .ok (current ++ [name]) else .error .notDirectory
    | some (.link target) =>
      if rest.isEmpty && !follow then .ok (current ++ [name])
      else jump (if links.absolute target then [] else current) (links.steps target ++ rest)

def walk (follow : Bool) : Nat → List ν → List (Step ν) → Except Errno (List ν)
  | 0 => t.walkWith links (fun _ _ => .error .tooManyLinks) follow
  | chain + 1 => t.walkWith links (walk follow chain) follow

/-- The place a path leads to from a directory. -/
def locate (follow : Bool) (base : List ν) (steps : List (Step ν)) : Except Errno (List ν) :=
  t.walk links follow 40 base steps

/-- What is there, `none` also where the look-up fails. -/
def found (follow : Bool) (base : List ν) (steps : List (Step ν)) : Option (Entry μ β) :=
  match t.locate links follow base steps with
  | .ok place => t.entry place
  | .error _ => none

def isSymlink (base : List ν) (steps : List (Step ν)) : Bool :=
  match t.found links false base steps with
  | some (.link _) => true
  | _ => false

def exists? (base : List ν) (steps : List (Step ν)) : Bool := (t.found links true base steps).isSome

def isDir (base : List ν) (steps : List (Step ν)) : Bool :=
  match t.found links true base steps with
  | some .directory => true
  | _ => false

def isFile (base : List ν) (steps : List (Step ν)) : Bool :=
  match t.found links true base steps with
  | some (.file _ _) => true
  | _ => false

end Lookup

section Operations

variable [DecidableEq ν] (t : FileTree ν μ β) (links : LinkTexts ν β)

def unlink (base : List ν) (steps : List (Step ν)) : Except Errno (FileTree ν μ β) := do
  let place ← t.locate links false base steps
  match t.entry place with
  | none => .error .noEntry
  | some .directory => .error .isDirectory
  | some _ => if below : place = [] then .error .isDirectory else .ok (t.remove place below)

/-- A directory with everything in it; links in it are removed, not followed. -/
def rmtree (base : List ν) (steps : List (Step ν)) : Except Errno (FileTree ν μ β) := do
  let place ← t.locate links false base steps
  match t.entry place with
  | none => .error .noEntry
  | some .directory => if below : place = [] then .error .invalid else .ok (t.remove place below)
  | some _ => .error .notDirectory

/-- A new entry where there is none. -/
def create (base : List ν) (steps : List (Step ν)) (e : Entry μ β) :
    Except Errno (FileTree ν μ β) := do
  let place ← t.locate links false base steps
  match free : t.entry place, inside : t.entry place.dropLast with
  | none, some .directory =>
    if below : place = [] then .error .alreadyExists else .ok (t.put place e below free inside)
  | some _, _ => .error .alreadyExists
  | none, _ => .error .noEntry

/-- `mkdir(exist_ok=True)`. -/
def mkdir (base : List ν) (steps : List (Step ν)) : Except Errno (FileTree ν μ β) :=
  match t.create links base steps .directory with
  | .ok made => .ok made
  | .error errno => if t.isDir links base steps then .ok t else .error errno

def symlink (base : List ν) (steps : List (Step ν)) (target : β) :
    Except Errno (FileTree ν μ β) :=
  if links.valid target then t.create links base steps (.link target) else .error .invalid

end Operations

section Facts

variable {t : FileTree ν μ β}

/-- On the way to an entry there are only directories. -/
theorem entry_of_ancestor {above rest : List ν} (present : t.entry (above ++ rest) ≠ none)
    (below : rest ≠ []) : t.entry above = some .directory := by
  induction rest using List.reverseRecOn with
  | nil => exact absurd rfl below
  | append_singleton rest last ih =>
    have parent := t.parent (above ++ rest) last (by rw [List.append_assoc]; exact present)
    cases rest with
    | nil => simpa using parent
    | cons first rest => exact ih (by rw [parent]; exact Option.some_ne_none _) (by simp)

theorem directory_of_append {above rest : List ν}
    (directory : t.entry (above ++ rest) = some .directory) : t.entry above = some .directory := by
  by_cases here : rest = []
  · rw [here, List.append_nil] at directory
    exact directory
  · exact entry_of_ancestor (by rw [directory]; exact Option.some_ne_none _) here

/-- Nothing is below what is not a directory. -/
theorem entry_below {place path : List ν} (other : t.entry place ≠ some .directory)
    (inside : place <+: path) (below : path ≠ place) : t.entry path = none := by
  obtain ⟨rest, rfl⟩ := inside
  by_contra present
  refine other (entry_of_ancestor present ?_)
  rintro rfl
  exact below (List.append_nil _)

variable [DecidableEq ν]

theorem entry_remove {place : List ν} (below : place ≠ []) (path : List ν) :
    (t.remove place below).entry path = if place <+: path then none else t.entry path := rfl

/-- Away from a link or a file its removal is not seen. -/
theorem entry_remove_of_ne {place path : List ν} (below : place ≠ [])
    (other : t.entry place ≠ some .directory) (apart : path ≠ place) :
    (t.remove place below).entry path = t.entry path := by
  rw [entry_remove]
  split
  · next inside => exact (entry_below other inside apart).symm
  · rfl

theorem entry_put {place path : List ν} {e : Entry μ β} (below : place ≠ [])
    (free : t.entry place = none) (inside : t.entry place.dropLast = some .directory) :
    (t.put place e below free inside).entry path =
      if path = place then some e else t.entry path := rfl

end Facts

section Names

variable {t : FileTree ν μ β} {links : LinkTexts ν β}

/-- The steps of a path without dots. -/
def names (path : List ν) : List (Step ν) := path.map Step.name

/-- A look-up whose way is through directories goes where its names say. -/
theorem walkWith_through {jump : List ν → List (Step ν) → Except Errno (List ν)} {follow : Bool}
    {current path : List ν} (directory : t.entry (current ++ path) = some .directory)
    (rest : List (Step ν)) :
    t.walkWith links jump follow current (names path ++ rest) =
      t.walkWith links jump follow (current ++ path) rest := by
  induction path generalizing current with
  | nil => rw [List.append_nil]; rfl
  | cons name path ih =>
    have later : t.entry (current ++ [name] ++ path) = some .directory := by
      rw [List.append_assoc]
      exact directory
    have first : t.entry (current ++ [name]) = some .directory := directory_of_append later
    show t.walkWith links jump follow current (.name name :: (names path ++ rest)) = _
    rw [walkWith, first]
    simp only
    rw [ih later, List.append_assoc]
    rfl

theorem walk_eq (follow : Bool) (chain : Nat) :
    ∃ jump, t.walk links follow chain = t.walkWith links jump follow := by
  cases chain with
  | zero => exact ⟨_, rfl⟩
  | succ chain => exact ⟨_, rfl⟩

theorem locate_name {follow : Bool} {base before : List ν} {name : ν}
    (directory : t.entry (base ++ before) = some .directory)
    (last : follow = false ∨ ∀ target, t.entry (base ++ before ++ [name]) ≠ some (.link target)) :
    t.locate links follow base (names (before ++ [name])) = .ok (base ++ before ++ [name]) := by
  obtain ⟨jump, walk⟩ := @walk_eq _ _ _ t links follow 40
  rw [locate, walk, names, List.map_append]
  show t.walkWith links jump follow base (names before ++ [.name name]) = _
  rw [walkWith_through directory, walkWith]
  split
  · rfl
  · rw [walkWith]
  · rfl
  · next target entry =>
    rcases last with rfl | other
    · rfl
    · exact absurd entry (other target)

theorem found_name {follow : Bool} {base before : List ν} {name : ν}
    (directory : t.entry (base ++ before) = some .directory)
    (last : follow = false ∨ ∀ target, t.entry (base ++ before ++ [name]) ≠ some (.link target)) :
    t.found links follow base (names (before ++ [name])) = t.entry (base ++ before ++ [name]) := by
  rw [found, locate_name directory last]

/-- Past a file or a gap nothing is found. -/
theorem found_past {follow : Bool} {base before rest : List ν} {name : ν}
    (directory : t.entry (base ++ before) = some .directory)
    (stop : t.entry (base ++ before ++ [name]) = none ∨
      ∃ mode content, t.entry (base ++ before ++ [name]) = some (.file mode content))
    (more : rest ≠ []) :
    t.found links follow base (names (before ++ name :: rest)) = none := by
  obtain ⟨jump, walk⟩ := @walk_eq _ _ _ t links follow 40
  have nonempty : (names rest).isEmpty = false := by
    rw [List.isEmpty_eq_false_iff, names]
    exact fun none => more (List.map_eq_nil_iff.mp none)
  rw [found, locate, walk, names, List.map_append]
  have error : ∃ errno, t.walkWith links jump follow base
      (names before ++ .name name :: names rest) = .error errno := by
    rw [walkWith_through directory, walkWith]
    rcases stop with none | ⟨mode, content, file⟩
    · rw [none]
      simp [nonempty]
    · rw [file]
      simp [nonempty]
  obtain ⟨errno, failed⟩ := error
  show (match t.walkWith links jump follow base (names before ++ .name name :: names rest) with
    | .ok place => t.entry place
    | .error _ => none) = _
  rw [failed]

/-- Where a name is found there is a directory. -/
theorem directory_of_exists {base : List ν} {name : ν}
    (found : t.exists? links base [.name name] = true) : t.entry base = some .directory := by
  obtain ⟨jump, walk⟩ := @walk_eq _ _ _ t links true 40
  apply t.parent base name
  intro none
  have nothing : t.locate links true base [.name name] = .ok (base ++ [name]) := by
    rw [locate, walk, walkWith, none]
    rfl
  rw [exists?, FileTree.found, nothing] at found
  simp only [none] at found
  cases found

theorem below_top {base before : List ν} {name : ν} : base ++ before ++ [name] ≠ [] := by simp

section Operations

variable [DecidableEq ν] {base before : List ν} {name : ν}

theorem unlink_name (directory : t.entry (base ++ before) = some .directory)
    {e : Entry μ β} (present : t.entry (base ++ before ++ [name]) = some e)
    (other : e ≠ .directory) :
    t.unlink links base (names (before ++ [name])) =
      .ok (t.remove (base ++ before ++ [name]) below_top) := by
  rw [unlink, locate_name directory (.inl rfl)]
  show (match t.entry (base ++ before ++ [name]) with
    | none => Except.error Errno.noEntry
    | some .directory => .error .isDirectory
    | some _ => _) = _
  rw [present]
  cases e with
  | directory => exact absurd rfl other
  | file mode content => exact dif_neg below_top
  | link target => exact dif_neg below_top

theorem rmtree_name (directory : t.entry (base ++ before) = some .directory)
    (present : t.entry (base ++ before ++ [name]) = some .directory) :
    t.rmtree links base (names (before ++ [name])) =
      .ok (t.remove (base ++ before ++ [name]) below_top) := by
  rw [rmtree, locate_name directory (.inl rfl)]
  show (match t.entry (base ++ before ++ [name]) with
    | none => Except.error Errno.noEntry
    | some .directory => _
    | some _ => .error .notDirectory) = _
  rw [present]
  exact dif_neg below_top

/-- A new entry, and everything else as before. -/
theorem create_name (directory : t.entry (base ++ before) = some .directory)
    (free : t.entry (base ++ before ++ [name]) = none) (e : Entry μ β) :
    ∃ made, t.create links base (names (before ++ [name])) e = .ok made ∧
      ∀ path, made.entry path =
        if path = base ++ before ++ [name] then some e else t.entry path := by
  have inside : t.entry (base ++ before ++ [name]).dropLast = some .directory := by
    rw [List.dropLast_concat]
    exact directory
  refine ⟨t.put (base ++ before ++ [name]) e below_top free inside, ?_,
    fun path => entry_put below_top free inside⟩
  rw [create, locate_name directory (.inl rfl)]
  show (match free : t.entry (base ++ before ++ [name]),
      inside : t.entry (base ++ before ++ [name]).dropLast with
    | none, some .directory => _
    | some _, _ => Except.error Errno.alreadyExists
    | none, _ => .error .noEntry) = _
  split
  · exact dif_neg below_top
  · next present => rw [present] at free; cases free
  · next other => exact absurd inside other

theorem mkdir_name (directory : t.entry (base ++ before) = some .directory)
    (free : t.entry (base ++ before ++ [name]) = none ∨
      t.entry (base ++ before ++ [name]) = some .directory) :
    ∃ made, t.mkdir links base (names (before ++ [name])) = .ok made ∧
      ∀ path, made.entry path =
        if path = base ++ before ++ [name] then some .directory else t.entry path := by
  rcases free with free | present
  · obtain ⟨made, created, entries⟩ := @create_name _ _ _ _ links _ _ _ _ directory free .directory
    refine ⟨made, ?_, entries⟩
    rw [mkdir, created]
  · have refused : t.create links base (names (before ++ [name])) .directory =
        .error .alreadyExists := by
      rw [create, locate_name directory (.inl rfl)]
      show (match free : t.entry (base ++ before ++ [name]),
          inside : t.entry (base ++ before ++ [name]).dropLast with
        | none, some .directory => _
        | some _, _ => Except.error Errno.alreadyExists
        | none, _ => .error .noEntry) = _
      split
      · next free _ => rw [present] at free; cases free
      · rfl
      · next free _ => rw [present] at free; cases free
    have isDirectory : t.isDir links base (names (before ++ [name])) = true := by
      rw [isDir, found_name directory (.inr (by rw [present]; exact fun _ => by simp)), present]
    refine ⟨t, ?_, fun path => ?_⟩
    · rw [mkdir, refused]
      exact if_pos isDirectory
    · split
      · next same => rw [same, present]
      · rfl

end Operations

end Names

end FileTree

section Ancestors

variable {α : Type}

/-- The longer and longer beginnings of `before ++ rest`, past `before` and short of the end. -/
def ancestorsFrom : List α → List α → List (List α)
  | _, [] => []
  | _, [_] => []
  | before, first :: second :: rest =>
    (before ++ [first]) :: ancestorsFrom (before ++ [first]) (second :: rest)

theorem mem_ancestorsFrom {before rest path : List α} (mem : path ∈ ancestorsFrom before rest) :
    ∃ first more, path = before ++ first :: more := by
  induction rest generalizing before with
  | nil => cases mem
  | cons first rest ih =>
    cases rest with
    | nil => cases mem
    | cons second rest =>
      rcases List.mem_cons.mp mem with rfl | later
      · exact ⟨first, [], rfl⟩
      · obtain ⟨next, more, rfl⟩ := ih later
        exact ⟨first, next :: more, by simp⟩

theorem ancestorsFrom_map {γ : Type} (f : α → γ) (before rest : List α) :
    ancestorsFrom (before.map f) (rest.map f) = (ancestorsFrom before rest).map (List.map f) := by
  induction rest generalizing before with
  | nil => rfl
  | cons first rest ih =>
    cases rest with
    | nil => rfl
    | cons second rest =>
      have later := ih (before ++ [first])
      rw [List.map_append] at later
      simp only [List.map_cons, ancestorsFrom, List.map_append, List.map_nil]
      rw [← later]
      rfl

end Ancestors

end FileTrees
