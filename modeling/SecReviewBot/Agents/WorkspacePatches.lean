import SecReviewBot.FileTrees
import SecReviewBot.TextPieces

/-!
# Applying a patch to a workspace

`workspace/patches.py` and `workspace/paths.py`: the committed tree with a patch applied is
written over a workspace that may have drifted from it in any way. Git works on an index of
its own and is a parameter: the raw diff of the patched index against `HEAD`, and the blobs.
Names and contents are byte strings, paths of the diff are texts.
-/

namespace WorkspacePatches

open TextCodecs TextPieces FileTrees

abbrev Bytes := List Nat

abbrev Workspace := FileTree Bytes Nat Bytes

def stepOfName (name : Bytes) : Step Bytes :=
  if name = [] ∨ name = [46] then .here else if name = [46, 46] then .up else .name name

/-- A link holds a path, of those that the file system can store. -/
def linkTexts (storable : Bytes → Bool) : LinkTexts Bytes Bytes where
  absolute := fun target => target.head? = some 47
  steps := fun target => (target.splitOn 47).map stepOfName
  valid := storable

/-- The names in a path, as bytes. -/
def pathNames (path : String) : List Bytes :=
  (split '/' path).map fun part => utf8Encode part.toList

/-- `Path(path)`: the empty parts and the single dots are dropped. -/
def pathSteps (path : String) : List (Step Bytes) :=
  ((pathNames path).filter fun name => name ≠ [] ∧ name ≠ [46]).map stepOfName

inductive PatchError where
  | notRepositoryRoot
  | git (message : String)
  | unsupportedPath (path : String)
  | unsupportedEntry (path : String)
  | os (errno : Errno)
  deriving DecidableEq

/-- `re.match(r"^[A-Za-z]:", path)`. -/
def hasDrive (path : String) : Bool :=
  match path.toList with
  | letter :: ':' :: _ => letter.isAlpha
  | _ => false

def validateRepositoryFilePath (path : String) : Except PatchError String :=
  if path = "" ∨ path ≠ strip pythonSpace path ∨ startsWith path "/" ∨ hasDrive path ∨
      '\\' ∈ path.toList ∨ (split '/' path).any (fun part => part ∈ ["", ".", "..", ".git"]) ∨
      path.toList.any (fun c => c ∈ [Char.ofNat 0, '\r', '\n']) then
    .error (.unsupportedPath path)
  else .ok path

structure RawChange where
  mode : String
  oid : String
  status : String
  path : String
  deriving DecidableEq

/-- What git answers: the diff, and the blobs it names. -/
structure Git where
  diff : Except String (List RawChange)
  catFile : String → Except String Bytes

structure Upsert where
  path : String
  mode : String
  oid : String
  deriving DecidableEq

def classify : List RawChange → Except PatchError (List String × List Upsert)
  | [] => .ok ([], [])
  | change :: rest => do
    let path ← validateRepositoryFilePath change.path
    if change.status = "D" then
      let (deletes, upserts) ← classify rest
      return (path :: deletes, upserts)
    else if change.mode ∈ ["100644", "100755", "120000"] then
      let (deletes, upserts) ← classify rest
      return (deletes, { path, mode := change.mode, oid := change.oid } :: upserts)
    else throw (.unsupportedEntry path)

def osError {α : Type} : Except Errno α → Except PatchError α
  | .ok value => .ok value
  | .error errno => .error (.os errno)

section Reconstruction

variable (storable : Bytes → Bool) (root : List Bytes)

def deletePath (t : Workspace) (relative : List (Step Bytes)) : Except Errno Workspace :=
  -- the first link on the way is removed in place of what is behind it
  match (ancestorsFrom [] relative).find? (t.isSymlink (linkTexts storable) root) with
  | some ancestor => t.unlink (linkTexts storable) root ancestor
  | none =>
    if t.isSymlink (linkTexts storable) root relative ||
        t.isFile (linkTexts storable) root relative then
      t.unlink (linkTexts storable) root relative
    else if t.isDir (linkTexts storable) root relative then
      t.rmtree (linkTexts storable) root relative
    else .ok t

/-- Anything but a directory is unlinked. -/
def unblock (t : Workspace) (path : List (Step Bytes)) : Except Errno Workspace :=
  if t.isSymlink (linkTexts storable) root path ||
      (t.exists? (linkTexts storable) root path && !t.isDir (linkTexts storable) root path) then
    t.unlink (linkTexts storable) root path
  else .ok t

def openWay : Workspace → List (List (Step Bytes)) → Except Errno Workspace
  | t, [] => .ok t
  | t, ancestor :: rest => do
    let t ← unblock storable root t ancestor
    let t ← t.mkdir (linkTexts storable) root ancestor
    openWay t rest

def clearTarget (t : Workspace) (target : List (Step Bytes)) : Except Errno Workspace :=
  if t.isSymlink (linkTexts storable) root target ||
      (t.exists? (linkTexts storable) root target && !t.isDir (linkTexts storable) root target) then
    t.unlink (linkTexts storable) root target
  else if t.isDir (linkTexts storable) root target then t.rmtree (linkTexts storable) root target
  else .ok t

def writeEntry (t : Workspace) (target : List (Step Bytes)) (mode : String) (content : Bytes) :
    Except Errno Workspace :=
  if mode = "120000" then t.symlink (linkTexts storable) root target content
  else
    t.create (linkTexts storable) root target
      (.file (if mode = "100755" then 0o755 else 0o644) content)

def restoreFile (t : Workspace) (relative : List (Step Bytes)) (mode : String) (content : Bytes) :
    Except Errno Workspace := do
  let t ← openWay storable root t (ancestorsFrom [] relative)
  let t ← clearTarget storable root t relative
  writeEntry storable root t relative mode content

def deleteAll : Workspace → List String → Except PatchError Workspace
  | t, [] => .ok t
  | t, path :: rest => do
    let t ← osError (deletePath storable root t (pathSteps path))
    deleteAll t rest

def restoreAll (git : Git) : Workspace → List Upsert → Except PatchError Workspace
  | t, [] => .ok t
  | t, upsert :: rest => do
    let content ← (git.catFile upsert.oid).mapError .git
    let t ← osError (restoreFile storable root t (pathSteps upsert.path) upsert.mode content)
    restoreAll git t rest

/-- `value.count("/")`. -/
def depth (path : String) : Nat := path.toList.count '/'

def applyWorkspacePatch (git : Git) (t : Workspace) (patchContent : Option String) :
    Except PatchError Workspace :=
  if strip pythonSpace (patchContent.getD "") = "" then .ok t
  else if t.exists? (linkTexts storable) root [stepOfName (utf8Encode ".git".toList)] then do
    let changes ← git.diff.mapError .git
    let (deletes, upserts) ← classify changes
    let t ← deleteAll storable root t (deletes.mergeSort fun a b => depth b ≤ depth a)
    restoreAll storable root git t upserts
  else .error .notRepositoryRoot

end Reconstruction

open FileTree

/-- On the way to a path of the workspace, the path itself, or below it. -/
def Concerned (root relative path : List Bytes) : Prop :=
  root ++ relative <+: path ∨ ∃ way, way ≠ [] ∧ way <+: relative ∧ path = root ++ way

section OnePath

variable {storable : Bytes → Bool} {root : List Bytes} {t t' : Workspace} {relative : List Bytes}

/-- What deleting a path may do. -/
structure Deleted (root relative : List Bytes) (t t' : Workspace) : Prop where
  gone : t'.entry (root ++ relative) = none
  less : ∀ path, t'.entry path = none ∨ t'.entry path = t.entry path
  frame : ∀ path, ¬ Concerned root relative path → t'.entry path = t.entry path

theorem Deleted.nothing (gone : t.entry (root ++ relative) = none) :
    Deleted root relative t t :=
  ⟨gone, fun _ => .inr rfl, fun _ _ => rfl⟩

/-- The path itself or a link on the way to it is removed. -/
theorem Deleted.removed {way : List Bytes} (nonempty : way ≠ []) (on : way <+: relative)
    (last : way = relative ∨ t.entry (root ++ way) ≠ some .directory)
    (below : root ++ way ≠ []) : Deleted root relative t (t.remove (root ++ way) below) where
  gone := if_pos (List.prefix_append_right_inj root |>.mpr on)
  less := by
    intro path
    rw [entry_remove]
    split
    · exact .inl rfl
    · exact .inr rfl
  frame := by
    intro path apart
    rw [entry_remove]
    split
    · next inside =>
      rcases last with rfl | other
      · exact absurd (.inl inside) apart
      · refine (entry_below other inside ?_).symm
        rintro rfl
        exact apart (.inr ⟨way, nonempty, on, rfl⟩)
    · rfl

/-- The loop over the ancestors past `before`, then the path itself. -/
def deleteFrom (storable : Bytes → Bool) (root : List Bytes) (t : Workspace)
    (before rest : List Bytes) : Except Errno Workspace :=
  match (ancestorsFrom before rest).find?
      fun path => t.isSymlink (linkTexts storable) root (names path) with
  | some ancestor => t.unlink (linkTexts storable) root (names ancestor)
  | none =>
    if t.isSymlink (linkTexts storable) root (names (before ++ rest)) ||
        t.isFile (linkTexts storable) root (names (before ++ rest)) then
      t.unlink (linkTexts storable) root (names (before ++ rest))
    else if t.isDir (linkTexts storable) root (names (before ++ rest)) then
      t.rmtree (linkTexts storable) root (names (before ++ rest))
    else .ok t

theorem deletePath_names (storable : Bytes → Bool) (root : List Bytes) (t : Workspace)
    (relative : List Bytes) :
    deletePath storable root t (names relative) = deleteFrom storable root t [] relative := by
  have way : ancestorsFrom ([] : List (Step Bytes)) (names relative) =
      (ancestorsFrom [] relative).map names := ancestorsFrom_map Step.name [] relative
  cases first : (ancestorsFrom [] relative).find? fun path =>
      t.isSymlink (linkTexts storable) root (names path) with
  | none =>
    simp only [deletePath, way, List.find?_map, Function.comp_def, deleteFrom, first,
      Option.map_none, List.nil_append]
  | some ancestor =>
    simp only [deletePath, way, List.find?_map, Function.comp_def, deleteFrom, first,
      Option.map_some]

section Clear

variable {before : List Bytes} {name : Bytes}

theorem isSymlink_name (directory : t.entry (root ++ before) = some .directory) :
    t.isSymlink (linkTexts storable) root (names (before ++ [name])) = true ↔
      ∃ target, t.entry (root ++ before ++ [name]) = some (.link target) := by
  rw [isSymlink, found_name directory (.inl rfl)]
  cases t.entry (root ++ before ++ [name]) with
  | none => simp
  | some e => cases e <;> simp

variable (storable) in
/-- Past a file or a gap every question is answered with no. -/
theorem blocked_past {rest : List Bytes}
    (directory : t.entry (root ++ before) = some .directory)
    (stop : t.entry (root ++ before ++ [name]) = none ∨
      ∃ mode content, t.entry (root ++ before ++ [name]) = some (.file mode content))
    (more : rest ≠ []) :
    t.isSymlink (linkTexts storable) root (names (before ++ name :: rest)) = false ∧
      t.isFile (linkTexts storable) root (names (before ++ name :: rest)) = false ∧
      t.isDir (linkTexts storable) root (names (before ++ name :: rest)) = false := by
  rw [isSymlink, isFile, isDir, found_past directory stop more, found_past directory stop more]
  exact ⟨rfl, rfl, rfl⟩

theorem entry_past {rest : List Bytes}
    (stop : t.entry (root ++ before ++ [name]) = none ∨
      ∃ mode content, t.entry (root ++ before ++ [name]) = some (.file mode content))
    (more : rest ≠ []) : t.entry (root ++ (before ++ name :: rest)) = none := by
  have other : t.entry (root ++ before ++ [name]) ≠ some .directory := by
    rcases stop with none | ⟨mode, content, file⟩
    · rw [none]
      exact (Option.some_ne_none _).symm
    · rw [file]
      simp
  exact entry_below other ⟨rest, by simp⟩ (by simpa using more)

variable (storable) in
/-- Where there is no link, following links makes no difference. -/
theorem found_last {e : Option (Entry Nat Bytes)}
    (directory : t.entry (root ++ before) = some .directory)
    (entry : t.entry (root ++ before ++ [name]) = e) (follow : Bool)
    (other : follow = false ∨ ∀ target, e ≠ some (.link target)) :
    t.found (linkTexts storable) follow root (names (before ++ [name])) = e := by
  rw [← entry] at other ⊢
  exact found_name directory other

/-- Whatever is at the path is removed. -/
theorem delete_last (directory : t.entry (root ++ before) = some .directory) :
    ∃ t', deleteFrom storable root t before [name] = .ok t' ∧
      Deleted root (before ++ [name]) t t' := by
  have removed : Deleted root (before ++ [name]) t
      (t.remove (root ++ before ++ [name]) below_top) := by
    have all : root ++ (before ++ [name]) ≠ [] := by simp
    have whole : Deleted root (before ++ [name]) t (t.remove (root ++ (before ++ [name])) all) :=
      .removed (by simp) (List.prefix_refl _) (.inl rfl) all
    simp only [← List.append_assoc] at whole
    exact whole
  cases entry : t.entry (root ++ before ++ [name]) with
  | none =>
    have found := fun follow => found_last storable directory entry follow (.inr (by simp))
    refine ⟨t, ?_, .nothing (by rw [← List.append_assoc]; exact entry)⟩
    simp only [deleteFrom, ancestorsFrom, List.find?_nil, isSymlink, isFile, isDir, found,
      Bool.or_self, Bool.false_eq_true, if_false]
  | some e =>
    refine ⟨_, ?_, removed⟩
    cases e with
    | directory =>
      have found := fun follow => found_last storable directory entry follow (.inr (by simp))
      simp only [deleteFrom, ancestorsFrom, List.find?_nil, isSymlink, isFile, isDir, found,
        Bool.or_self, Bool.false_eq_true, if_false, if_true]
      exact rmtree_name directory entry
    | file mode content =>
      have found := fun follow => found_last storable directory entry follow (.inr (by simp))
      simp only [deleteFrom, ancestorsFrom, List.find?_nil, isSymlink, isFile, found,
        Bool.or_true, if_true]
      exact unlink_name directory entry (by simp)
    | link target =>
      have found := found_last storable directory entry false (.inl rfl)
      simp only [deleteFrom, ancestorsFrom, List.find?_nil, isSymlink, found, Bool.true_or, if_true]
      exact unlink_name directory entry (by simp)

/-- Past a file or a gap there is nothing to delete. -/
theorem delete_stopped {rest : List Bytes} (more : rest ≠ [])
    (directory : t.entry (root ++ before) = some .directory)
    (stop : t.entry (root ++ before ++ [name]) = none ∨
      ∃ mode content, t.entry (root ++ before ++ [name]) = some (.file mode content)) :
    deleteFrom storable root t before (name :: rest) = .ok t := by
  obtain ⟨noLink, noFile, noDir⟩ := blocked_past storable directory stop more
  have clear : (ancestorsFrom before (name :: rest)).find?
      (fun path => t.isSymlink (linkTexts storable) root (names path)) = none := by
    rw [List.find?_eq_none]
    intro path mem
    rw [Bool.not_eq_true]
    cases rest with
    | nil => cases mem
    | cons second rest =>
      rcases List.mem_cons.mp mem with rfl | later
      · rw [Bool.eq_false_iff, ne_eq, isSymlink_name directory]
        rcases stop with none | ⟨mode, content, file⟩
        · rw [none]
          simp
        · rw [file]
          simp
      · obtain ⟨first, others, rfl⟩ := mem_ancestorsFrom later
        rw [List.append_assoc]
        exact (blocked_past storable directory stop (List.cons_ne_nil _ _)).1
  simp only [deleteFrom, clear, noLink, noFile, noDir, Bool.or_self, Bool.false_eq_true, if_false]

theorem delete_from {rest : List Bytes} (more : rest ≠ [])
    (directory : t.entry (root ++ before) = some .directory) :
    ∃ t', deleteFrom storable root t before rest = .ok t' ∧ Deleted root (before ++ rest) t t' := by
  induction rest generalizing before with
  | nil => exact absurd rfl more
  | cons name rest ih =>
    cases rest with
    | nil => exact delete_last directory
    | cons second rest =>
      have longer : before ++ [name] ++ (second :: rest) = before ++ name :: second :: rest := by
        simp
      -- the first ancestor is asked first
      have here := @isSymlink_name storable root t before name directory
      cases entry : t.entry (root ++ before ++ [name]) with
      | some e =>
        cases e with
        | link target =>
          have link : t.isSymlink (linkTexts storable) root (names (before ++ [name])) = true :=
            here.mpr ⟨target, entry⟩
          refine ⟨t.remove (root ++ before ++ [name]) below_top, ?_, ?_⟩
          · simp only [deleteFrom, ancestorsFrom, List.find?_cons, link]
            exact unlink_name directory entry (by simp)
          · have on : before ++ [name] <+: before ++ name :: second :: rest :=
              ⟨second :: rest, longer⟩
            have all : root ++ (before ++ [name]) ≠ [] := by simp
            have other : t.entry (root ++ (before ++ [name])) ≠ some .directory := by
              rw [← List.append_assoc, entry]
              simp
            have removed := Deleted.removed (by simp) on (.inr other) all
            simp only [← List.append_assoc root] at removed
            exact removed
        | directory =>
          have skip : t.isSymlink (linkTexts storable) root (names (before ++ [name])) = false := by
            rw [Bool.eq_false_iff, ne_eq, here, entry]
            simp
          rw [List.append_assoc] at entry
          obtain ⟨t', deleted, spec⟩ := ih (List.cons_ne_nil _ _) entry
          refine ⟨t', ?_, longer ▸ spec⟩
          rw [← deleted]
          simp only [deleteFrom, ancestorsFrom, List.find?_cons, skip, longer]
        | file mode content =>
          have stop : t.entry (root ++ before ++ [name]) = none ∨ ∃ mode content,
              t.entry (root ++ before ++ [name]) = some (.file mode content) :=
            .inr ⟨mode, content, entry⟩
          exact ⟨t, delete_stopped (by simp) directory stop, .nothing (entry_past stop (by simp))⟩
      | none =>
        exact ⟨t, delete_stopped (by simp) directory (.inl entry),
          .nothing (entry_past (.inl entry) (by simp))⟩

/-- What is in the way, but for a directory, is removed. -/
theorem unblock_name (directory : t.entry (root ++ before) = some .directory) :
    ∃ t', unblock storable root t (names (before ++ [name])) = .ok t' ∧
      (t'.entry (root ++ before ++ [name]) = none ∨
        t'.entry (root ++ before ++ [name]) = some .directory) ∧
      ∀ path, path ≠ root ++ before ++ [name] → t'.entry path = t.entry path := by
  cases entry : t.entry (root ++ before ++ [name]) with
  | none =>
    have found := fun follow => found_last storable directory entry follow (.inr (by simp))
    refine ⟨t, ?_, .inl entry, fun _ _ => rfl⟩
    simp only [unblock, isSymlink, exists?, isDir, found, Option.isSome_none, Bool.false_and,
      Bool.or_self, Bool.false_eq_true, if_false]
  | some e =>
    have gone : (t.remove (root ++ before ++ [name]) below_top).entry
        (root ++ before ++ [name]) = none := if_pos (List.prefix_refl _)
    cases e with
    | directory =>
      have found := fun follow => found_last storable directory entry follow (.inr (by simp))
      refine ⟨t, ?_, .inr entry, fun _ _ => rfl⟩
      simp only [unblock, isSymlink, exists?, isDir, found, Option.isSome_some, Bool.not_true,
        Bool.and_false, Bool.or_self, Bool.false_eq_true, if_false]
    | file mode content =>
      have found := fun follow => found_last storable directory entry follow (.inr (by simp))
      refine ⟨_, ?_, .inl gone, fun path apart => ?_⟩
      · simp only [unblock, isSymlink, exists?, isDir, found, Option.isSome_some, Bool.not_false,
          Bool.and_self, Bool.or_true, if_true]
        exact unlink_name directory entry (by simp)
      · exact entry_remove_of_ne below_top (by rw [entry]; simp) apart
    | link target =>
      have found := found_last storable directory entry false (.inl rfl)
      refine ⟨_, ?_, .inl gone, fun path apart => ?_⟩
      · simp only [unblock, isSymlink, found, Bool.true_or, if_true]
        exact unlink_name directory entry (by simp)
      · exact entry_remove_of_ne below_top (by rw [entry]; simp) apart

/-- After one turn of the loop the ancestor is a directory, and nothing else has changed. -/
theorem openWay_cons (directory : t.entry (root ++ before) = some .directory)
    (rest : List (List (Step Bytes))) :
    ∃ t', openWay storable root t (names (before ++ [name]) :: rest) =
        openWay storable root t' rest ∧
      ∀ path, t'.entry path =
        if path = root ++ before ++ [name] then some .directory else t.entry path := by
  obtain ⟨cleared, unblocked, free, same⟩ := @unblock_name storable root t before name directory
  have still : cleared.entry (root ++ before) = some .directory := by
    rw [same _ (by simp), directory]
  obtain ⟨made, created, entries⟩ := @mkdir_name _ _ _ _ (linkTexts storable) _ _ _ _ still free
  refine ⟨made, ?_, fun path => ?_⟩
  · rw [openWay, unblocked]
    show (cleared.mkdir (linkTexts storable) root (names (before ++ [name]))).bind _ = _
    rw [created]
    rfl
  · rw [entries]
    split
    · rfl
    · next apart => exact same path apart

theorem openWay_from {rest : List Bytes} (more : rest ≠ [])
    (directory : t.entry (root ++ before) = some .directory) :
    ∃ t', openWay storable root t ((ancestorsFrom before rest).map names) = .ok t' ∧
      t'.entry (root ++ (before ++ rest.dropLast)) = some .directory ∧
      ∀ path, (∀ way, way ≠ [] → way <+: rest → path ≠ root ++ (before ++ way)) →
        t'.entry path = t.entry path := by
  induction rest generalizing before t with
  | nil => exact absurd rfl more
  | cons name rest ih =>
    cases rest with
    | nil =>
      refine ⟨t, rfl, ?_, fun _ _ => rfl⟩
      rw [List.dropLast_singleton, List.append_nil]
      exact directory
    | cons second rest =>
      obtain ⟨made, turn, entries⟩ := @openWay_cons storable root t before name directory
        ((ancestorsFrom (before ++ [name]) (second :: rest)).map names)
      have opened : made.entry (root ++ (before ++ [name])) = some .directory := by
        rw [← List.append_assoc, entries, if_pos rfl]
      obtain ⟨t', went, last, frame⟩ := ih (List.cons_ne_nil _ _) opened
      refine ⟨t', turn.trans went, ?_, fun path apart => ?_⟩
      · rw [List.append_assoc] at last
        exact last
      · rw [frame path, entries path, if_neg]
        · rw [List.append_assoc]
          exact apart [name] (List.cons_ne_nil _ _) ⟨second :: rest, rfl⟩
        · intro way nonempty on
          rw [List.append_assoc]
          exact apart ([name] ++ way) (by simp) (List.prefix_append_right_inj [name] |>.mpr on)

/-- What is at the target is removed. -/
theorem clearTarget_name (directory : t.entry (root ++ before) = some .directory) :
    ∃ t', clearTarget storable root t (names (before ++ [name])) = .ok t' ∧
      t'.entry (root ++ before ++ [name]) = none ∧
      ∀ path, ¬ root ++ before ++ [name] <+: path → t'.entry path = t.entry path := by
  have gone : (t.remove (root ++ before ++ [name]) below_top).entry
      (root ++ before ++ [name]) = none := if_pos (List.prefix_refl _)
  have frame : ∀ path, ¬ root ++ before ++ [name] <+: path →
      (t.remove (root ++ before ++ [name]) below_top).entry path = t.entry path :=
    fun path apart => if_neg apart
  cases entry : t.entry (root ++ before ++ [name]) with
  | none =>
    have found := fun follow => found_last storable directory entry follow (.inr (by simp))
    refine ⟨t, ?_, entry, fun _ _ => rfl⟩
    simp only [clearTarget, isSymlink, exists?, isDir, found, Option.isSome_none, Bool.false_and,
      Bool.or_self, Bool.false_eq_true, if_false]
  | some e =>
    refine ⟨_, ?_, gone, frame⟩
    cases e with
    | directory =>
      have found := fun follow => found_last storable directory entry follow (.inr (by simp))
      simp only [clearTarget, isSymlink, exists?, isDir, found, Option.isSome_some, Bool.not_true,
        Bool.and_false, Bool.or_self, Bool.false_eq_true, if_false, if_true]
      exact rmtree_name directory entry
    | file mode content =>
      have found := fun follow => found_last storable directory entry follow (.inr (by simp))
      simp only [clearTarget, isSymlink, exists?, isDir, found, Option.isSome_some, Bool.not_false,
        Bool.and_self, Bool.or_true, if_true]
      exact unlink_name directory entry (by simp)
    | link target =>
      have found := found_last storable directory entry false (.inl rfl)
      simp only [clearTarget, isSymlink, found, Bool.true_or, if_true]
      exact unlink_name directory entry (by simp)

end Clear

theorem deleted_of_names (more : relative ≠ []) (isRoot : t.entry root = some .directory) :
    ∃ t', deletePath storable root t (names relative) = .ok t' ∧ Deleted root relative t t' := by
  rw [deletePath_names]
  exact delete_from more (by rw [List.append_nil]; exact isRoot)

inductive Blob where
  | regular (content : Bytes)
  | executable (content : Bytes)
  | symbolicLink (target : Bytes)
  deriving DecidableEq

def Blob.mode : Blob → String
  | .regular _ => "100644"
  | .executable _ => "100755"
  | .symbolicLink _ => "120000"

def Blob.content : Blob → Bytes
  | .regular content => content
  | .executable content => content
  | .symbolicLink target => target

/-- The blob in a working tree. -/
def Blob.entry : Blob → Entry Nat Bytes
  | .regular content => .file 0o644 content
  | .executable content => .file 0o755 content
  | .symbolicLink target => .link target

/-- If the blob is a link, the file system can store it. -/
def Blob.Storable (storable : Bytes → Bool) (blob : Blob) : Prop :=
  ∀ target, blob = .symbolicLink target → storable target = true

theorem Blob.entry_ne_directory (blob : Blob) : blob.entry ≠ .directory := by
  cases blob <;> simp [Blob.entry]

/-- What restoring a path does. -/
structure Restored (root relative : List Bytes) (blob : Blob) (t t' : Workspace) : Prop where
  present : t'.entry (root ++ relative) = some blob.entry
  frame : ∀ path, ¬ Concerned root relative path → t'.entry path = t.entry path

theorem writeEntry_name {before : List Bytes} {name : Bytes} {blob : Blob}
    (valid : blob.Storable storable)
    (directory : t.entry (root ++ before) = some .directory)
    (free : t.entry (root ++ before ++ [name]) = none) :
    ∃ t', writeEntry storable root t (names (before ++ [name])) blob.mode blob.content = .ok t' ∧
      ∀ path, t'.entry path =
        if path = root ++ before ++ [name] then some blob.entry else t.entry path := by
  obtain ⟨made, created, entries⟩ :=
    @create_name _ _ _ _ (linkTexts storable) _ _ _ _ directory free blob.entry
  refine ⟨made, ?_, entries⟩
  cases blob with
  | regular content => exact created
  | executable content => exact created
  | symbolicLink target =>
    have stored : (linkTexts storable).valid target = true := valid target rfl
    show (if (linkTexts storable).valid target then _ else _) = _
    rw [if_pos stored]
    exact created

/-- What is left to do when the way is open and the target is free. -/
theorem cleared_of_names (more : relative ≠ []) (isRoot : t.entry root = some .directory) :
    ∃ cleared before name, relative = before ++ [name] ∧
      (∀ mode content, restoreFile storable root t (names relative) mode content =
        writeEntry storable root cleared (names relative) mode content) ∧
      cleared.entry (root ++ before) = some .directory ∧
      cleared.entry (root ++ before ++ [name]) = none ∧
      ∀ path, ¬ Concerned root relative path → cleared.entry path = t.entry path := by
  obtain ⟨before, name, rfl⟩ : ∃ before name, relative = before ++ [name] :=
    ⟨relative.dropLast, relative.getLast more, (List.dropLast_append_getLast more).symm⟩
  obtain ⟨opened, went, way, frameWay⟩ :=
    @openWay_from storable root t [] (before ++ [name]) more (by rw [List.append_nil]; exact isRoot)
  rw [List.nil_append, List.dropLast_concat] at way
  obtain ⟨cleared, clear, free, frameClear⟩ :=
    @clearTarget_name storable root opened before name way
  have steps : ancestorsFrom [] (names (before ++ [name])) =
      (ancestorsFrom [] (before ++ [name])).map names := ancestorsFrom_map Step.name [] _
  refine ⟨cleared, before, name, rfl, fun mode content => ?_, ?_, free, fun path apart => ?_⟩
  · rw [restoreFile, steps, went]
    show (clearTarget storable root opened (names (before ++ [name]))).bind _ = _
    rw [clear]
    rfl
  · rw [frameClear _ fun inside => ?_, way]
    have long := inside.length_le
    simp only [List.length_append, List.length_singleton] at long
    omega
  · have notBelow : ¬ root ++ before ++ [name] <+: path := by
      rw [List.append_assoc]
      exact fun inside => apart (.inl inside)
    rw [frameClear path notBelow, frameWay path]
    intro other nonempty on same
    exact apart (.inr ⟨other, nonempty, on, same⟩)

theorem restored_of_names {blob : Blob} (valid : blob.Storable storable) (more : relative ≠ [])
    (isRoot : t.entry root = some .directory) :
    ∃ t', restoreFile storable root t (names relative) blob.mode blob.content = .ok t' ∧
      Restored root relative blob t t' := by
  obtain ⟨cleared, before, name, rfl, restore, directory, free, frame⟩ :=
    @cleared_of_names storable root t relative more isRoot
  obtain ⟨made, written, entries⟩ :=
    @writeEntry_name storable root cleared before name blob valid directory free
  refine ⟨made, (restore _ _).trans written, ?_, fun path apart => ?_⟩
  · rw [entries, ← List.append_assoc, if_pos rfl]
  · have different : path ≠ root ++ before ++ [name] := by
      rintro rfl
      exact apart (.inl (by rw [List.append_assoc]))
    rw [entries, if_neg different, frame path apart]

/-- A link that the file system cannot store is refused. -/
theorem refused_of_names {link : Bytes} (unstorable : storable link = false)
    (more : relative ≠ []) (isRoot : t.entry root = some .directory) :
    restoreFile storable root t (names relative) (Blob.symbolicLink link).mode
      (Blob.symbolicLink link).content = .error .invalid := by
  obtain ⟨cleared, before, name, rfl, restore, _⟩ :=
    @cleared_of_names storable root t relative more isRoot
  rw [restore]
  show (if storable link = true then _ else _) = _
  rw [unstorable]
  rfl

/-- A path that is not a file or a link stays so when another one is restored. -/
theorem Restored.other {blob : Blob} (h : Restored root relative blob t t') {path : List Bytes}
    (different : path ≠ relative)
    (before : ∀ e, t.entry (root ++ path) = some e → e = .directory) :
    ∀ e, t'.entry (root ++ path) = some e → e = .directory := by
  intro e present
  by_cases concerned : Concerned root relative (root ++ path)
  · rcases concerned with below | ⟨way, _, on, same⟩
    · have nothing : t'.entry (root ++ path) = none := by
        refine entry_below ?_ below fun same => different (List.append_cancel_left same)
        rw [h.present]
        exact fun dir => blob.entry_ne_directory (Option.some.inj dir)
      rw [nothing] at present
      cases present
    · obtain rfl := List.append_cancel_left same
      obtain ⟨rest, rfl⟩ := on
      have onWay : t'.entry (root ++ path) = some .directory := by
        refine @entry_of_ancestor _ _ _ t' (root ++ path) rest ?_ ?_
        · rw [List.append_assoc, h.present]
          exact Option.some_ne_none _
        · rintro rfl
          exact different (List.append_nil _).symm
      rw [onWay] at present
      exact (Option.some.inj present).symm
  · rw [h.frame _ concerned] at present
    exact before e present

end OnePath

theorem utf8Encode_injective {a b : String} (same : utf8Encode a.toList = utf8Encode b.toList) :
    a = b := by
  have decoded := congrArg utf8Decode same
  rw [utf8Decode_encode, utf8Decode_encode] at decoded
  exact String.toList_inj.mp decoded

theorem pathNames_injective {a b : String} (same : pathNames a = pathNames b) : a = b := by
  have pieces : split '/' a = split '/' b :=
    List.map_injective_iff.mpr (fun _ _ => utf8Encode_injective) same
  have texts := congrArg (List.map String.toList) pieces
  rw [split, split, List.map_map, List.map_map] at texts
  simp only [Function.comp_def, String.toList_ofList, List.map_id'] at texts
  have whole := congrArg (['/'].intercalate ·) texts
  simp only [List.intercalate_splitOn] at whole
  exact String.toList_inj.mp whole

theorem pathNames_ne_nil (path : String) : pathNames path ≠ [] := by
  simp [pathNames, split, List.splitOn_ne_nil]

/-- No part of a valid path is special, so the steps are the names. -/
theorem pathSteps_of_valid {path : String} (valid : validateRepositoryFilePath path = .ok path) :
    pathSteps path = names (pathNames path) := by
  have parts : ∀ part ∈ split '/' path, part ≠ "" ∧ part ≠ "." ∧ part ≠ ".." := by
    rw [validateRepositoryFilePath] at valid
    split at valid
    · cases valid
    · next clean =>
      simp only [not_or, List.any_eq_true, not_exists, not_and] at clean
      intro part mem
      have none := clean.2.2.2.2.2.1 part mem
      simp only [List.mem_cons, decide_eq_true_eq, not_or] at none
      exact ⟨none.1, none.2.1, none.2.2.1⟩
  have plain : ∀ name ∈ pathNames path, name ≠ [] ∧ name ≠ [46] ∧ name ≠ [46, 46] := by
    intro name mem
    obtain ⟨part, inside, rfl⟩ := List.mem_map.mp mem
    obtain ⟨empty, dot, dots⟩ := parts part inside
    refine ⟨fun same => empty ?_, fun same => dot ?_, fun same => dots ?_⟩
    · exact utf8Encode_injective (b := "") same
    · exact utf8Encode_injective (b := ".") same
    · exact utf8Encode_injective (b := "..") same
  have all : ((pathNames path).filter fun name => name ≠ [] ∧ name ≠ [46]) = pathNames path := by
    apply List.filter_eq_self.mpr
    intro name mem
    exact decide_eq_true ⟨(plain name mem).1, (plain name mem).2.1⟩
  rw [pathSteps, all, names]
  apply List.map_congr_left
  intro name mem
  obtain ⟨empty, dot, dots⟩ := plain name mem
  rw [stepOfName, if_neg (not_or.mpr ⟨empty, dot⟩), if_neg dots]

section AllPaths

variable {storable : Bytes → Bool} {root : List Bytes} {t : Workspace}

theorem not_concerned_root {relative : List Bytes} (more : relative ≠ []) :
    ¬ Concerned root relative root := by
  rintro (below | ⟨way, nonempty, _, same⟩)
  · have long := below.length_le
    rw [List.length_append] at long
    have := List.length_pos_iff.mpr more
    omega
  · exact nonempty (by simpa using same)

theorem deleteAll_spec {paths : List String}
    (valid : ∀ path ∈ paths, validateRepositoryFilePath path = .ok path)
    (isRoot : t.entry root = some .directory) :
    ∃ t', deleteAll storable root t paths = .ok t' ∧ t'.entry root = some .directory ∧
      (∀ path, t'.entry path = none ∨ t'.entry path = t.entry path) ∧
      (∀ path ∈ paths, t'.entry (root ++ pathNames path) = none) ∧
      ∀ path, (∀ deleted ∈ paths, ¬ Concerned root (pathNames deleted) path) →
        t'.entry path = t.entry path := by
  induction paths generalizing t with
  | nil => exact ⟨t, rfl, isRoot, fun _ => .inr rfl, by simp, fun _ _ => rfl⟩
  | cons path rest ih =>
    obtain ⟨here, later⟩ := List.forall_mem_cons.mp valid
    obtain ⟨t₁, first, deleted⟩ := deleted_of_names (pathNames_ne_nil path) isRoot
    have still : t₁.entry root = some .directory := by
      rw [deleted.frame root (not_concerned_root (pathNames_ne_nil path)), isRoot]
    obtain ⟨t', others, isRoot', less, gone, frame⟩ := ih later still
    refine ⟨t', ?_, isRoot', fun other => ?_, ?_, fun other apart => ?_⟩
    · rw [deleteAll, pathSteps_of_valid here, first]
      exact others
    · rcases less other with none | same
      · exact .inl none
      · rw [same]
        exact deleted.less other
    · refine List.forall_mem_cons.mpr ⟨?_, gone⟩
      rcases less (root ++ pathNames path) with none | same
      · exact none
      · rw [same, deleted.gone]
    · obtain ⟨apartHere, apartLater⟩ := List.forall_mem_cons.mp apart
      rw [frame other apartLater, deleted.frame other apartHere]

/-- A committed tree of files and links: no path goes through another one. -/
structure GitTree where
  blob : String → Option Blob
  apart : ∀ a b, blob a ≠ none → blob b ≠ none → pathNames a <+: pathNames b → a = b

/-- The upsert names a blob of the tree. -/
def Upsert.Of (git : Git) (target : GitTree) (upsert : Upsert) : Prop :=
  ∃ blob, target.blob upsert.path = some blob ∧ upsert.mode = blob.mode ∧
    git.catFile upsert.oid = .ok blob.content

theorem not_concerned_of_ne {target : GitTree} {a b : String} (hasA : target.blob a ≠ none)
    (hasB : target.blob b ≠ none) (different : a ≠ b) :
    ¬ Concerned root (pathNames b) (root ++ pathNames a) := by
  rintro (below | ⟨way, _, on, same⟩)
  · exact different (target.apart b a hasB hasA
      ((List.prefix_append_right_inj root).mp below)).symm
  · rw [← List.append_cancel_left same] at on
    exact different (target.apart a b hasA hasB on)

theorem Restored.isRoot {relative : List Bytes} {blob : Blob} {t' : Workspace}
    (restored : Restored root relative blob t t') (more : relative ≠ [])
    (isRoot : t.entry root = some .directory) : t'.entry root = some .directory := by
  rw [restored.frame root (not_concerned_root more), isRoot]

/-- One blob is written, and then the others. -/
theorem restoreAll_cons {git : Git} {upsert : Upsert} {rest : List Upsert} {blob : Blob}
    (valid : validateRepositoryFilePath upsert.path = .ok upsert.path)
    (mode : upsert.mode = blob.mode) (content : git.catFile upsert.oid = .ok blob.content) :
    restoreAll storable root git t (upsert :: rest) =
      (osError (restoreFile storable root t (names (pathNames upsert.path)) blob.mode
        blob.content)).bind fun next => restoreAll storable root git next rest := by
  rw [restoreAll, content]
  show (osError (restoreFile storable root t (pathSteps upsert.path) upsert.mode
    blob.content)).bind _ = _
  rw [pathSteps_of_valid valid, mode]

theorem restoreAll_spec {git : Git} {target : GitTree} {upserts : List Upsert}
    (valid : ∀ upsert ∈ upserts, validateRepositoryFilePath upsert.path = .ok upsert.path)
    (blobs : ∀ upsert ∈ upserts, upsert.Of git target)
    (stored : ∀ upsert ∈ upserts, ∀ blob, target.blob upsert.path = some blob →
      blob.Storable storable)
    (once : (upserts.map Upsert.path).Nodup) (isRoot : t.entry root = some .directory) :
    ∃ t', restoreAll storable root git t upserts = .ok t' ∧
      (∀ upsert ∈ upserts, ∀ blob, target.blob upsert.path = some blob →
        t'.entry (root ++ pathNames upsert.path) = some blob.entry) ∧
      (∀ path, (∀ upsert ∈ upserts, path ≠ pathNames upsert.path) →
        (∀ e, t.entry (root ++ path) = some e → e = .directory) →
        ∀ e, t'.entry (root ++ path) = some e → e = .directory) ∧
      ∀ path, (∀ upsert ∈ upserts, ¬ Concerned root (pathNames upsert.path) path) →
        t'.entry path = t.entry path := by
  induction upserts generalizing t with
  | nil => exact ⟨t, rfl, by simp, fun _ _ before => before, fun _ _ => rfl⟩
  | cons upsert rest ih =>
    obtain ⟨validHere, validLater⟩ := List.forall_mem_cons.mp valid
    obtain ⟨⟨blob, inTree, mode, content⟩, blobsLater⟩ := List.forall_mem_cons.mp blobs
    obtain ⟨storedHere, storedLater⟩ := List.forall_mem_cons.mp stored
    rw [List.map_cons, List.nodup_cons] at once
    have more := pathNames_ne_nil upsert.path
    obtain ⟨t₁, first, restored⟩ := restored_of_names (storedHere blob inTree) more isRoot
    obtain ⟨t', others, present, plain, frame⟩ :=
      ih validLater blobsLater storedLater once.2 (restored.isRoot more isRoot)
    refine ⟨t', ?_, ?_, fun path different before => ?_, fun path apart => ?_⟩
    · rw [restoreAll_cons validHere mode content, first]
      exact others
    · refine List.forall_mem_cons.mpr ⟨fun other found => ?_, present⟩
      rw [inTree] at found
      rw [← Option.some.inj found, frame, restored.present]
      intro later mem
      obtain ⟨laterBlob, laterInTree, _, _⟩ := blobsLater later mem
      refine not_concerned_of_ne (by rw [inTree]; exact Option.some_ne_none _)
        (by rw [laterInTree]; exact Option.some_ne_none _) ?_
      intro same
      exact once.1 (same ▸ List.mem_map_of_mem mem)
    · obtain ⟨differentHere, differentLater⟩ := List.forall_mem_cons.mp different
      exact plain path differentLater (restored.other differentHere before)
    · obtain ⟨apartHere, apartLater⟩ := List.forall_mem_cons.mp apart
      rw [frame path apartLater, restored.frame path apartHere]

/-- The first link that cannot be stored ends the loop. -/
theorem restoreAll_refused {git : Git} {target : GitTree} {upserts : List Upsert}
    (valid : ∀ upsert ∈ upserts, validateRepositoryFilePath upsert.path = .ok upsert.path)
    (blobs : ∀ upsert ∈ upserts, upsert.Of git target) (isRoot : t.entry root = some .directory)
    (refused : ∃ upsert ∈ upserts, ∃ link, target.blob upsert.path = some (.symbolicLink link) ∧
      storable link = false) :
    restoreAll storable root git t upserts = .error (.os .invalid) := by
  induction upserts generalizing t with
  | nil => obtain ⟨upsert, mem, _⟩ := refused; cases mem
  | cons upsert rest ih =>
    obtain ⟨validHere, validLater⟩ := List.forall_mem_cons.mp valid
    obtain ⟨⟨blob, inTree, mode, content⟩, blobsLater⟩ := List.forall_mem_cons.mp blobs
    rw [restoreAll_cons validHere mode content]
    have more := pathNames_ne_nil upsert.path
    by_cases stored : blob.Storable storable
    · obtain ⟨t₁, first, restored⟩ := restored_of_names stored more isRoot
      have later : ∃ other ∈ rest, ∃ link, target.blob other.path = some (.symbolicLink link) ∧
          storable link = false := by
        obtain ⟨other, mem, link, found, unstorable⟩ := refused
        rcases List.mem_cons.mp mem with rfl | mem
        · rw [inTree] at found
          have held := stored link (Option.some.inj found)
          rw [unstorable] at held
          cases held
        · exact ⟨other, mem, link, found, unstorable⟩
      rw [first]
      exact ih validLater blobsLater (restored.isRoot more isRoot) later
    · simp only [Blob.Storable, not_forall] at stored
      obtain ⟨link, rfl, unstorable⟩ := stored
      rw [refused_of_names (Bool.eq_false_iff.mpr unstorable) more isRoot]
      rfl

/-- The changes sorted into paths to delete and blobs to write. -/
theorem classify_spec {changes : List RawChange}
    (valid : ∀ change ∈ changes, validateRepositoryFilePath change.path = .ok change.path)
    (modes : ∀ change ∈ changes, change.status ≠ "D" →
      change.mode ∈ ["100644", "100755", "120000"]) :
    classify changes = .ok
      ((changes.filter fun change => change.status = "D").map RawChange.path,
        (changes.filter fun change => change.status ≠ "D").map fun change =>
          { path := change.path, mode := change.mode, oid := change.oid }) := by
  induction changes with
  | nil => rfl
  | cons change rest ih =>
    obtain ⟨validHere, validLater⟩ := List.forall_mem_cons.mp valid
    obtain ⟨modeHere, modesLater⟩ := List.forall_mem_cons.mp modes
    rw [classify, validHere, ih validLater modesLater]
    by_cases deleted : change.status = "D"
    · simp [deleted]
      rfl
    · simp [deleted, modeHere deleted]
      rfl

end AllPaths

/-- The raw diff of two trees without renames: every path at which they differ, once. -/
structure RawDiff (git : Git) (base target : GitTree) (changes : List RawChange) : Prop where
  once : (changes.map RawChange.path).Nodup
  complete : ∀ path, (∃ change ∈ changes, change.path = path) ↔ base.blob path ≠ target.blob path
  deleted : ∀ change ∈ changes, target.blob change.path = none → change.status = "D"
  present : ∀ change ∈ changes, ∀ blob, target.blob change.path = some blob →
    change.status ≠ "D" ∧ change.mode = blob.mode ∧ git.catFile change.oid = .ok blob.content

section Classified

variable {git : Git} {base target : GitTree} {changes : List RawChange}

theorem RawDiff.changed (diff : RawDiff git base target changes) {change : RawChange}
    (mem : change ∈ changes) : base.blob change.path ≠ target.blob change.path :=
  (diff.complete change.path).mp ⟨change, mem, rfl⟩

theorem RawDiff.deletes_iff (diff : RawDiff git base target changes) {change : RawChange}
    (mem : change ∈ changes) : change.status = "D" ↔ target.blob change.path = none := by
  refine ⟨fun isDelete => ?_, diff.deleted change mem⟩
  cases found : target.blob change.path with
  | none => rfl
  | some blob => exact absurd isDelete (diff.present change mem blob found).1

theorem RawDiff.blob_of_kept (diff : RawDiff git base target changes) {change : RawChange}
    (mem : change ∈ changes) (kept : change.status ≠ "D") : ∃ blob,
      target.blob change.path = some blob ∧ change.mode = blob.mode ∧
        git.catFile change.oid = .ok blob.content := by
  cases found : target.blob change.path with
  | none => exact absurd ((diff.deletes_iff mem).mpr found) kept
  | some blob => exact ⟨blob, rfl, (diff.present change mem blob found).2⟩

/-- What the loops are given. -/
theorem classified (diff : RawDiff git base target changes)
    (valid : ∀ path, base.blob path ≠ target.blob path →
      validateRepositoryFilePath path = .ok path) :
    ∃ deletes upserts, classify changes = .ok (deletes, upserts) ∧
      (∀ path, path ∈ deletes ↔ base.blob path ≠ target.blob path ∧ target.blob path = none) ∧
      (∀ path, (∃ upsert ∈ upserts, upsert.path = path) ↔
        base.blob path ≠ target.blob path ∧ target.blob path ≠ none) ∧
      (∀ upsert ∈ upserts, upsert.Of git target) ∧ (upserts.map Upsert.path).Nodup := by
  refine ⟨_, _, classify_spec (fun change mem => valid _ (diff.changed mem)) ?_, ?_, ?_, ?_, ?_⟩
  · intro change mem kept
    obtain ⟨blob, _, mode, _⟩ := diff.blob_of_kept mem kept
    rw [mode]
    cases blob <;> simp [Blob.mode]
  · intro path
    rw [List.mem_map]
    constructor
    · rintro ⟨change, mem, rfl⟩
      obtain ⟨inside, isDelete⟩ := List.mem_filter.mp mem
      exact ⟨diff.changed inside, (diff.deletes_iff inside).mp (of_decide_eq_true isDelete)⟩
    · rintro ⟨differs, none⟩
      obtain ⟨change, inside, rfl⟩ := (diff.complete path).mpr differs
      exact ⟨change, List.mem_filter.mpr
        ⟨inside, decide_eq_true ((diff.deletes_iff inside).mpr none)⟩, rfl⟩
  · intro path
    constructor
    · rintro ⟨upsert, mem, rfl⟩
      obtain ⟨change, kept, rfl⟩ := List.mem_map.mp mem
      obtain ⟨inside, keeps⟩ := List.mem_filter.mp kept
      refine ⟨diff.changed inside, fun none => ?_⟩
      exact of_decide_eq_true keeps ((diff.deletes_iff inside).mpr none)
    · rintro ⟨differs, some⟩
      obtain ⟨change, inside, rfl⟩ := (diff.complete path).mpr differs
      refine ⟨_, List.mem_map_of_mem (List.mem_filter.mpr ⟨inside, ?_⟩), rfl⟩
      exact decide_eq_true fun isDelete => some ((diff.deletes_iff inside).mp isDelete)
  · intro upsert mem
    obtain ⟨change, kept, rfl⟩ := List.mem_map.mp mem
    obtain ⟨inside, keeps⟩ := List.mem_filter.mp kept
    exact diff.blob_of_kept inside (of_decide_eq_true keeps)
  · rw [List.map_map]
    exact diff.once.sublist (List.Sublist.map _ List.filter_sublist)

end Classified

theorem concerned_of_root {root relative path : List Bytes}
    (concerned : Concerned root relative path) : root <+: path := by
  rcases concerned with below | ⟨way, _, _, rfl⟩
  · exact (List.prefix_append root relative).trans below
  · exact List.prefix_append root way

/-- The workspace holds the changed paths as the target has them, and all else as before. -/
structure Reconstructed (root : List Bytes) (base target : GitTree) (t t' : Workspace) : Prop where
  present : ∀ path blob, base.blob path ≠ target.blob path → target.blob path = some blob →
    t'.entry (root ++ pathNames path) = some blob.entry
  deleted : ∀ path, base.blob path ≠ target.blob path → target.blob path = none →
    ∀ e, t'.entry (root ++ pathNames path) = some e → e = .directory
  outside : ∀ path, ¬ root <+: path → t'.entry path = t.entry path
  frame : ∀ relative, (∀ path, base.blob path ≠ target.blob path →
      ¬ relative <+: pathNames path ∧ ¬ pathNames path <+: relative) →
    t'.entry (root ++ relative) = t.entry (root ++ relative)

section Apply

variable {storable : Bytes → Bool} {git : Git} {base target : GitTree} {changes : List RawChange}
  {root : List Bytes} {t : Workspace} {patchContent : String}

/-- The deletions succeed, and the blobs are left to be written. -/
theorem applyWorkspacePatch_deleted (nonblank : strip pythonSpace patchContent ≠ "")
    (isRepository : t.exists? (linkTexts storable) root [.name (utf8Encode ".git".toList)] = true)
    (reported : git.diff = .ok changes) (diff : RawDiff git base target changes)
    (valid : ∀ path, base.blob path ≠ target.blob path →
      validateRepositoryFilePath path = .ok path) :
    ∃ upserts t₁, applyWorkspacePatch storable root git t (some patchContent) =
        restoreAll storable root git t₁ upserts ∧
      t₁.entry root = some .directory ∧
      (∀ path, (∃ upsert ∈ upserts, upsert.path = path) ↔
        base.blob path ≠ target.blob path ∧ target.blob path ≠ none) ∧
      (∀ upsert ∈ upserts, upsert.Of git target) ∧ (upserts.map Upsert.path).Nodup ∧
      (∀ path, base.blob path ≠ target.blob path → target.blob path = none →
        t₁.entry (root ++ pathNames path) = none) ∧
      ∀ path, (∀ changed, base.blob changed ≠ target.blob changed →
        ¬ Concerned root (pathNames changed) path) → t₁.entry path = t.entry path := by
  have isRoot : t.entry root = some .directory := directory_of_exists isRepository
  obtain ⟨deletes, upserts, sorted, deleteIff, upsertIff, blobs, once⟩ := classified diff valid
  let ordered := deletes.mergeSort fun a b => depth b ≤ depth a
  have inOrder : ∀ path, path ∈ ordered ↔ path ∈ deletes := fun _ => List.mem_mergeSort
  obtain ⟨t₁, deletedAll, isRoot₁, _, gone, frame⟩ := @deleteAll_spec storable root t ordered
    (fun path mem => valid path ((deleteIff path).mp ((inOrder path).mp mem)).1) isRoot
  refine ⟨upserts, t₁, ?_, isRoot₁, upsertIff, blobs, once, ?_, ?_⟩
  · rw [applyWorkspacePatch, Option.getD_some, if_neg nonblank]
    show (if t.exists? (linkTexts storable) root [.name (utf8Encode ".git".toList)] = true then _
      else _) = _
    rw [if_pos isRepository, reported]
    show (classify changes).bind _ = _
    rw [sorted]
    show (deleteAll storable root t ordered).bind _ = _
    rw [deletedAll, Except.bind]
  · intro path differs absent
    exact gone path ((inOrder path).mpr ((deleteIff path).mpr ⟨differs, absent⟩))
  · intro path apart
    exact frame path fun deleted mem =>
      apart _ ((deleteIff deleted).mp ((inOrder deleted).mp mem)).1

/-- A changed link that the file system cannot store makes the reconstruction raise. -/
theorem applyWorkspacePatch_refused (nonblank : strip pythonSpace patchContent ≠ "")
    (isRepository : t.exists? (linkTexts storable) root [.name (utf8Encode ".git".toList)] = true)
    (reported : git.diff = .ok changes) (diff : RawDiff git base target changes)
    (valid : ∀ path, base.blob path ≠ target.blob path →
      validateRepositoryFilePath path = .ok path)
    {path : String} {link : Bytes} (differs : base.blob path ≠ target.blob path)
    (isLink : target.blob path = some (.symbolicLink link)) (unstorable : storable link = false) :
    applyWorkspacePatch storable root git t (some patchContent) = .error (.os .invalid) := by
  obtain ⟨upserts, t₁, applied, isRoot₁, upsertIff, blobs, _⟩ :=
    @applyWorkspacePatch_deleted storable _ _ _ _ _ _ _ nonblank isRepository reported diff valid
  obtain ⟨upsert, mem, rfl⟩ := (upsertIff path).mpr
    ⟨differs, by rw [isLink]; exact Option.some_ne_none _⟩
  refine applied.trans (restoreAll_refused ?_ blobs isRoot₁ ⟨upsert, mem, link, isLink, unstorable⟩)
  exact fun other inside => valid _ ((upsertIff other.path).mp ⟨other, inside, rfl⟩).1

theorem reconstructed_of_storable (nonblank : strip pythonSpace patchContent ≠ "")
    (isRepository : t.exists? (linkTexts storable) root [.name (utf8Encode ".git".toList)] = true)
    (reported : git.diff = .ok changes) (diff : RawDiff git base target changes)
    (valid : ∀ path, base.blob path ≠ target.blob path →
      validateRepositoryFilePath path = .ok path)
    (stored : ∀ path link, base.blob path ≠ target.blob path →
      target.blob path = some (.symbolicLink link) → storable link = true) :
    ∃ t', applyWorkspacePatch storable root git t (some patchContent) = .ok t' ∧
      Reconstructed root base target t t' := by
  obtain ⟨upserts, t₁, applied, isRoot₁, upsertIff, blobs, once, gone, frame₁⟩ :=
    @applyWorkspacePatch_deleted storable _ _ _ _ _ _ _ nonblank isRepository reported diff valid
  have changedUpsert : ∀ upsert ∈ upserts, base.blob upsert.path ≠ target.blob upsert.path :=
    fun upsert mem => ((upsertIff upsert.path).mp ⟨upsert, mem, rfl⟩).1
  have storedUpsert : ∀ upsert ∈ upserts, ∀ blob, target.blob upsert.path = some blob →
      blob.Storable storable := by
    intro upsert mem blob found link isLink
    rw [isLink] at found
    exact stored _ link (changedUpsert upsert mem) found
  obtain ⟨t', restoredAll, present, plain, frame₂⟩ := restoreAll_spec
    (fun upsert mem => valid _ (changedUpsert upsert mem)) blobs storedUpsert once isRoot₁
  -- what no changed path concerns is as before
  have frame : ∀ path, (∀ changed, base.blob changed ≠ target.blob changed →
      ¬ Concerned root (pathNames changed) path) → t'.entry path = t.entry path := by
    intro path apart
    rw [frame₂ path fun upsert mem => apart _ (changedUpsert upsert mem), frame₁ path apart]
  refine ⟨t', applied.trans restoredAll, ?_, ?_, ?_, ?_⟩
  · intro path blob differs inTree
    obtain ⟨upsert, mem, rfl⟩ := (upsertIff path).mpr
      ⟨differs, by rw [inTree]; exact Option.some_ne_none _⟩
    exact present upsert mem blob inTree
  · intro path differs absent
    refine plain (pathNames path) (fun upsert mem same => ?_) fun e found => ?_
    · rw [pathNames_injective same] at absent
      exact ((upsertIff upsert.path).mp ⟨upsert, mem, rfl⟩).2 absent
    · rw [gone path differs absent] at found
      cases found
  · intro path outside
    exact frame path fun changed _ concerned => outside (concerned_of_root concerned)
  · intro relative apart
    refine frame _ fun changed differs => ?_
    obtain ⟨notOnWay, notBelow⟩ := apart changed differs
    rintro (below | ⟨way, _, on, same⟩)
    · exact notBelow ((List.prefix_append_right_inj root).mp below)
    · rw [← List.append_cancel_left same] at on
      exact notOnWay on

/-- Where the file system can store every changed link of the target, the workspace is
reconstructed; otherwise the reconstruction raises. -/
theorem patch_reconstruction_exact (nonblank : strip pythonSpace patchContent ≠ "")
    (isRepository : t.exists? (linkTexts storable) root [.name (utf8Encode ".git".toList)] = true)
    (reported : git.diff = .ok changes) (diff : RawDiff git base target changes)
    (valid : ∀ path, base.blob path ≠ target.blob path →
      validateRepositoryFilePath path = .ok path) :
    ((∀ path link, base.blob path ≠ target.blob path →
        target.blob path = some (.symbolicLink link) → storable link = true) →
      ∃ t', applyWorkspacePatch storable root git t (some patchContent) = .ok t' ∧
        Reconstructed root base target t t') ∧
    ∀ path link, base.blob path ≠ target.blob path →
      target.blob path = some (.symbolicLink link) → storable link = false →
        ∃ error, applyWorkspacePatch storable root git t (some patchContent) = .error error :=
  ⟨reconstructed_of_storable nonblank isRepository reported diff valid,
    fun _ _ differs isLink unstorable => ⟨_,
      applyWorkspacePatch_refused nonblank isRepository reported diff valid differs isLink
        unstorable⟩⟩

end Apply

def topOnly : Workspace where
  entry := fun path => if path = [] then some .directory else none
  top := rfl
  parent := by
    intro path name present
    exact absurd (if_neg (by simp)) present

/-- A workspace `w` in which the file `f` was replaced by a link out of it. -/
def drifted : Workspace :=
  let one := topOnly.put [[119]] .directory (by simp) rfl rfl
  let two := one.put [[119], [46, 103, 105, 116]] .directory (by simp) rfl rfl
  two.put [[119], [102]] (.link [47, 101, 116, 99]) (by simp) rfl rfl

/-- The links that POSIX knows: not empty and without a null byte. -/
def posixStorable (target : Bytes) : Bool := target ≠ [] ∧ 0 ∉ target

/-- A tree with `f` alone. -/
def oneFile (own : Blob) : GitTree where
  blob := fun path => if path = "f" then some own else none
  apart := by
    intro a b hasA hasB _
    split at hasA
    · next isA =>
      split at hasB
      · next isB => rw [isA, isB]
      · exact absurd rfl hasB
    · exact absurd rfl hasA

/-- The raw diff of two trees that differ at `f`. -/
def oneChange (mode status : String) : List RawChange :=
  [{ mode, oid := "8a0f05e166bc", status, path := "f" }]

def answering (changes : List RawChange) (content : Bytes) : Git where
  diff := .ok changes
  catFile := fun _ => .ok content

theorem oneChange_diff (before after : Blob) (status : String) (different : before ≠ after)
    (keeps : status ≠ "D") :
    RawDiff (answering (oneChange after.mode status) after.content) (oneFile before) (oneFile after)
      (oneChange after.mode status) where
  once := by simp [oneChange]
  complete := by
    intro path
    by_cases isF : path = "f"
    · simp [oneChange, oneFile, isF, different]
    · simp [oneChange, oneFile, isF, Ne.symm isF]
  deleted := by
    intro change mem absent
    rw [List.mem_singleton.mp mem] at absent
    cases absent
  present := by
    intro change mem blob found
    rw [List.mem_singleton.mp mem] at found ⊢
    obtain rfl : after = blob := Option.some.inj found
    exact ⟨keeps, rfl, rfl⟩

theorem oneFile_valid (before after : Blob) :
    ∀ path, (oneFile before).blob path ≠ (oneFile after).blob path →
      validateRepositoryFilePath path = .ok path := by
  intro path differs
  have isF : path = "f" := by
    by_contra other
    exact differs (by simp [oneFile, other])
  rw [isF]
  decide

theorem drifted_isRepository : drifted.exists? (linkTexts posixStorable) [[119]]
    [.name (utf8Encode ".git".toList)] = true := by decide

theorem link_replaced_by_committed_file :
    ∃ t', applyWorkspacePatch posixStorable [[119]] (answering (oneChange "100644" "M") [50])
        drifted (some "--- a/f") = .ok t' ∧
      t'.entry ([[119]] ++ pathNames "f") = some (.file 0o644 [50]) := by
  have noLink : ∀ path link, (oneFile (.regular [49])).blob path ≠
      (oneFile (.regular [50])).blob path →
        (oneFile (.regular [50])).blob path = some (.symbolicLink link) →
          posixStorable link = true := by
    intro path link _ found
    by_cases isF : path = "f" <;> simp [oneFile, isF] at found
  obtain ⟨t', applied, exact⟩ := (patch_reconstruction_exact
    (show strip pythonSpace "--- a/f" ≠ "" by decide) drifted_isRepository rfl
    (oneChange_diff (.regular [49]) (.regular [50]) "M" (by decide) (by decide))
    (oneFile_valid _ _)).1 noLink
  exact ⟨t', applied, exact.present "f" (.regular [50]) (by decide) rfl⟩

/-- Git stores a link to nothing, which no file system does. -/
theorem empty_link_not_reconstructed :
    RawDiff (answering (oneChange "120000" "T") []) (oneFile (.regular [49]))
        (oneFile (.symbolicLink [])) (oneChange "120000" "T") ∧
      ¬ ∃ t', applyWorkspacePatch posixStorable [[119]] (answering (oneChange "120000" "T") [])
          drifted (some "--- a/f") = .ok t' ∧
        Reconstructed [[119]] (oneFile (.regular [49])) (oneFile (.symbolicLink [])) drifted t' := by
  have diff : RawDiff (answering (oneChange "120000" "T") []) (oneFile (.regular [49]))
      (oneFile (.symbolicLink [])) (oneChange "120000" "T") :=
    oneChange_diff (.regular [49]) (.symbolicLink []) "T" (by decide) (by decide)
  refine ⟨diff, ?_⟩
  rintro ⟨t', applied, _⟩
  have raised := applyWorkspacePatch_refused
    (show strip pythonSpace "--- a/f" ≠ "" by decide) drifted_isRepository rfl diff
    (oneFile_valid _ _) (show (oneFile (.regular [49])).blob "f" ≠ _ by decide) rfl (by decide)
  rw [raised] at applied
  cases applied

end WorkspacePatches
