import Mathlib.Data.List.TakeWhile
import SecReviewBot.ControlPlaneUi.DiffParse

/-!
# Lines and rows

Which lines of a patch the diff viewer shows. Behind the first header of a file a line that
begins like the line of a hunk is a row of one file, one of a pair of header lines, or lost.
-/

namespace DiffRows

open TextCodecs TextPieces WorkspaceHistory SuggestionAnchors StreamMerges DiffParse

def mark : DiffRowKind → String
  | .context => " "
  | .add => "+"
  | .remove => "-"

/-- The rows of a file, hunk after hunk. -/
def fileRows (file : DiffFile) : List DiffRow := file.hunks.flatMap DiffHunk.rows

/-- The headers that name a file. -/
def isFileMarker (line : String) : Bool :=
  startsWith line "Index: " || startsWith line "*** Update File: " ||
    startsWith line "*** Add File: " || startsWith line "*** Delete File: "

def isFileHeader (line : String) : Bool := isFileMarker line || startsWith line "+++ "

def afterFirstHeader (lines : List String) : List String :=
  (lines.dropWhile fun line => !isFileHeader line).drop 1

/-- Every line that begins like the line of a hunk is a row, in order, or one line of a header
pair, but for a number of lost lines. A `--- ` line that no `+++ ` line follows is lost. The
flag says whether a `--- ` line waits for its other half. -/
inductive Accounts : Bool → Nat → List String → List DiffRow → Prop where
  | nil : Accounts false 0 [] []
  | row {lost : Nat} {lines : List String} {rows : List DiffRow} (kind : DiffRowKind)
      (text : String) : Accounts false lost lines rows →
      Accounts false lost ((mark kind ++ text) :: lines) ({ kind, text } :: rows)
  | aside {waits : Bool} {lost : Nat} {line : String} {lines : List String}
      {rows : List DiffRow} : isContent line = false → Accounts waits lost lines rows →
      Accounts waits lost (line :: lines) rows
  | oldHeader {lost : Nat} {line : String} {lines : List String} {rows : List DiffRow} :
      startsWith line "--- " = true → Accounts true lost lines rows →
      Accounts false lost (line :: lines) rows
  | newHeader {lost : Nat} {line : String} {lines : List String} {rows : List DiffRow} :
      startsWith line "+++ " = true → Accounts false lost lines rows →
      Accounts true lost (line :: lines) rows
  | lost {waits : Bool} {lost : Nat} {line : String} {lines : List String}
      {rows : List DiffRow} : isPlainContent line = true → Accounts waits lost lines rows →
      Accounts waits (lost + 1) (line :: lines) rows
  | unpaired {lost : Nat} {lines : List String} {rows : List DiffRow} :
      Accounts false lost lines rows → Accounts true (lost + 1) lines rows

/-- No line behind the first header is lost, and the files hold the rows in order. -/
def ShowsAll (text : String) : Prop :=
  ∃ rows, Accounts false 0 (afterFirstHeader (patchLines text)) rows ∧
    Merges ((parsePatch text).files.map fileRows) rows

/-- A row is read in the Begin Patch dialect when there is no file, or when the current hunk
is a counted one that has all its lines. -/
def Ignores (s : ParseState) (line : String) : Prop :=
  isPlainContent line = true ∧ s.dialect = some .begin ∧ s.inCounted = false ∧
    (s.currentFile = none ∨ (s.currentHunk = true ∧ s.countedHunk = true))

/-- The header of another file is read while a `--- ` line waits for its `+++ ` line. -/
def Abandons (s : ParseState) (line : String) : Prop :=
  s.awaitingNewHeader = true ∧ isFileMarker line = true

def Loses (s : ParseState) (line : String) : Prop := Ignores s line ∨ Abandons s line

/-- No line behind the first header of a file is lost when it is read. -/
def LosesNothing (text : String) : Prop :=
  ∀ before line after s, patchLines text = before ++ line :: after →
    (∃ header ∈ before, isFileHeader header = true) → readLines initial before = some s →
    ¬ Loses s line

section Counting

def isNewHeader (line : String) : Bool := startsWith line "+++ "

def rowLine (row : DiffRow) : String := mark row.kind ++ row.text

theorem isContent_row (kind : DiffRowKind) (text : String) :
    isContent (mark kind ++ text) = true := by
  cases kind <;> simp [isContent, mark, startsWith]

theorem isContent_of_plain {line : String} (plain : isPlainContent line = true) :
    isContent line = true := by
  simp only [isPlainContent, isContent, Bool.or_eq_true, Bool.and_eq_true] at *
  tauto

theorem startsWith_trans {line start first : String} (starts : startsWith line start = true)
    (begins : startsWith start first = true) : startsWith line first = true := by
  simp only [startsWith, List.isPrefixOf_iff_prefix] at *
  exact begins.trans starts

/-- A line cannot begin in two ways. -/
theorem startsWith_head {line start : String} {c : Char} {rest : List Char}
    (chars : start.toList = c :: rest) (starts : startsWith line start = true) :
    line.toList.head? = some c := by
  rw [startsWith, List.isPrefixOf_iff_prefix, chars] at starts
  obtain ⟨more, whole⟩ := starts
  rw [← whole]
  rfl

theorem isContent_iff {line : String} :
    isContent line = true ↔ ∃ c ∈ [' ', '+', '-'], line.toList.head? = some c := by
  simp only [isContent, startsWith, Bool.or_eq_true, List.isPrefixOf_iff_prefix, List.mem_cons,
    List.not_mem_nil, or_false, exists_eq_or_imp, exists_eq_left, or_assoc]
  cases line.toList with
  | nil => simp
  | cons c rest => simp [List.cons_prefix_cons, eq_comm]

theorem not_content {line start : String} {c : Char} {rest : List Char}
    (chars : start.toList = c :: rest) (other : c ∉ [' ', '+', '-'])
    (starts : startsWith line start = true) : isContent line = false := by
  rw [Bool.eq_false_iff]
  intro content
  obtain ⟨d, mem, head⟩ := isContent_iff.mp content
  rw [startsWith_head chars starts, Option.some.injEq] at head
  exact other (head ▸ mem)

theorem isContent_header {line : String}
    (starts : startsWith line "--- " = true ∨ startsWith line "+++ " = true) :
    isContent line = true := by
  rw [isContent_iff]
  rcases starts with starts | starts
  · exact ⟨'-', by decide, startsWith_head rfl starts⟩
  · exact ⟨'+', by decide, startsWith_head rfl starts⟩

theorem isNewHeader_oldHeader {line : String} (starts : startsWith line "--- " = true) :
    isNewHeader line = false := by
  rw [Bool.eq_false_iff]
  intro other
  have minus := startsWith_head rfl starts
  rw [startsWith_head rfl other] at minus
  cases minus

theorem isNewHeader_plain {line : String} (plain : isPlainContent line = true) :
    isNewHeader line = false := by
  rw [Bool.eq_false_iff]
  intro header
  have head := startsWith_head rfl header
  simp only [isPlainContent, Bool.or_eq_true, Bool.and_eq_true, Bool.not_eq_true'] at plain
  rcases plain with (space | ⟨_, other⟩) | ⟨minus, _⟩
  · rw [startsWith_head rfl space] at head
    cases head
  · rw [isNewHeader, other] at header
    cases header
  · rw [startsWith_head rfl minus] at head
    cases head

/-- The rows and the second lines of header pairs tell how many lines are lost. -/
theorem Accounts.count {waits : Bool} {lost : Nat} {lines : List String} {rows : List DiffRow}
    (accounts : Accounts waits lost lines rows) :
    ∃ pairs, lines.countP isContent + waits.toNat = rows.length + 2 * pairs + lost ∧
      lines.countP isNewHeader = (rows.map rowLine).countP isNewHeader + pairs := by
  induction accounts with
  | nil => exact ⟨0, rfl, rfl⟩
  | row kind text _ ih =>
    obtain ⟨pairs, all, news⟩ := ih
    refine ⟨pairs, ?_, ?_⟩
    · rw [List.countP_cons_of_pos (isContent_row kind text), List.length_cons]
      omega
    · rw [List.map_cons, List.countP_cons, List.countP_cons, news, rowLine]
      dsimp only
      omega
  | @aside _ _ line _ _ other _ ih =>
    obtain ⟨pairs, all, news⟩ := ih
    have header : isNewHeader line = false := by
      rw [Bool.eq_false_iff]
      intro starts
      rw [isContent_header (.inr starts)] at other
      cases other
    refine ⟨pairs, ?_, ?_⟩
    · rw [List.countP_cons_of_neg (by simp [other])]
      exact all
    · rw [List.countP_cons_of_neg (by simp [header])]
      exact news
  | oldHeader starts _ ih =>
    obtain ⟨pairs, all, news⟩ := ih
    refine ⟨pairs, ?_, ?_⟩
    · rw [List.countP_cons_of_pos (isContent_header (.inl starts))]
      simp only [Bool.toNat_true, Bool.toNat_false] at *
      omega
    · rw [List.countP_cons_of_neg (by simp [isNewHeader_oldHeader starts])]
      exact news
  | newHeader starts _ ih =>
    obtain ⟨pairs, all, news⟩ := ih
    refine ⟨pairs + 1, ?_, ?_⟩
    · rw [List.countP_cons_of_pos (isContent_header (.inr starts))]
      simp only [Bool.toNat_true, Bool.toNat_false] at *
      omega
    · rw [List.countP_cons_of_pos (p := isNewHeader) starts]
      omega
  | lost plain _ ih =>
    obtain ⟨pairs, all, news⟩ := ih
    refine ⟨pairs, ?_, ?_⟩
    · rw [List.countP_cons_of_pos (isContent_of_plain plain)]
      omega
    · rw [List.countP_cons_of_neg (by simp [isNewHeader_plain plain])]
      exact news
  | unpaired _ ih =>
    obtain ⟨pairs, all, news⟩ := ih
    refine ⟨pairs, ?_, news⟩
    simp only [Bool.toNat_true, Bool.toNat_false] at *
    omega

/-- Rearranged rows leave as many lines over. -/
theorem lost_unique {lost lost' : Nat} {lines : List String} {rows rows' : List DiffRow}
    (first : Accounts false lost lines rows) (second : Accounts false lost' lines rows')
    (perm : rows.Perm rows') : lost = lost' := by
  obtain ⟨pairs, all, news⟩ := first.count
  obtain ⟨pairs', all', news'⟩ := second.count
  have size := perm.length_eq
  have same := (perm.map rowLine).countP_eq isNewHeader
  omega

end Counting

/-- Whatever merges the files before merges them with these rows behind it afterwards. -/
def Adds (s t : ParseState) (rows : List DiffRow) : Prop :=
  ∀ whole, Merges (s.files.map fileRows) whole → Merges (t.files.map fileRows) (whole ++ rows)

/-- What holds behind the first header of a file. -/
structure Sound (s : ParseState) : Prop where
  started : s.dialect ≠ none
  file : ∀ i, s.currentFile = some i → i < s.files.length
  hunk : s.currentHunk = true →
    ∃ i file, s.currentFile = some i ∧ s.files[i]? = some file ∧ file.hunks ≠ []
  /-- A header pair is not broken by content. -/
  outside : s.awaitingNewHeader = true → s.currentHunk = true →
    s.countedHunk = true ∧ s.inCounted = false

section Changes

variable {s t u : ParseState} {change : DiffFile → DiffFile}

theorem Adds.refl : Adds s s [] := fun whole merged => by rwa [List.append_nil]

theorem Adds.trans {rows more : List DiffRow} (first : Adds s t rows) (second : Adds t u more) :
    Adds s u (rows ++ more) := by
  intro whole merged
  rw [← List.append_assoc]
  exact second _ (first _ merged)

theorem adds_of_files (same : t.files = s.files) : Adds s t [] := by
  intro whole merged
  rw [same, List.append_nil]
  exact merged

theorem map_modify_of {α β : Type} {f : α → β} {g : α → α} {h : β → β} (items : List α) (i : Nat)
    (one : ∀ item, items[i]? = some item → f (g item) = h (f item)) :
    (items.modify i g).map f = (items.map f).modify i h := by
  apply List.ext_getElem?
  intro j
  rw [List.getElem?_map, List.getElem?_modify, List.getElem?_modify, List.getElem?_map]
  by_cases here : i = j
  · subst here
    cases found : items[i]? with
    | none => simp
    | some item => simp [one item found]
  · cases items[j]? <;> simp [here]

theorem adds_modifyFile (same : ∀ file, fileRows (change file) = fileRows file) :
    Adds s (s.modifyFile change) [] := by
  cases current : s.currentFile with
  | none => exact adds_of_files (by rw [ParseState.modifyFile, current])
  | some i =>
    intro whole merged
    have kept : (s.files.modify i change).map fileRows = s.files.map fileRows := by
      rw [map_modify_of (h := id) s.files i fun file _ => same file]
      simp
    rw [ParseState.modifyFile, current, List.append_nil]
    dsimp only
    rw [kept]
    exact merged

theorem fileRows_pushLast (row : DiffRow) {hunks : List DiffHunk} (filled : hunks ≠ []) :
    (pushLast row hunks).flatMap DiffHunk.rows = hunks.flatMap DiffHunk.rows ++ [row] := by
  induction hunks with
  | nil => exact absurd rfl filled
  | cons hunk rest ih =>
    cases rest with
    | nil => simp [pushLast, pushRow]
    | cons next rest =>
      have later := ih (List.cons_ne_nil _ _)
      rw [pushLast, List.flatMap_cons, later, ← List.append_assoc, ← List.flatMap_cons]
      exact List.cons_ne_nil _ _

theorem adds_addRow (sound : Sound s) (inHunk : s.currentHunk = true) (kind : DiffRowKind)
    (text : String) : Adds s (s.addRow kind text) [⟨kind, text⟩] := by
  obtain ⟨i, file, current, held, filled⟩ := sound.hunk inHunk
  intro whole merged
  have grown : (s.files.modify i fun file =>
        { file with hunks := pushLast ⟨kind, text⟩ file.hunks }).map fileRows =
      (s.files.map fileRows).modify i (· ++ [⟨kind, text⟩]) := by
    refine map_modify_of s.files i fun own found => ?_
    rw [held, Option.some.injEq] at found
    subst found
    exact fileRows_pushLast _ filled
  simp only [ParseState.addRow, ParseState.modifyFile, current]
  rw [grown]
  exact merged.push (by simpa using sound.file i current) _

theorem adds_withFile (path : String) : Adds s (s.withFile path) [] := by
  intro whole merged
  rw [List.append_nil, ParseState.withFile, ensureFile]
  cases s.files.findIdx? (·.path = path) with
  | some i => exact merged
  | none =>
    dsimp only
    rw [List.map_append]
    exact merged.concat_nil

theorem adds_openHunk (header : String) : Adds s (s.openHunk header) [] := by
  have opened : Adds s (s.modifyFile fun file =>
      { file with hunks := file.hunks ++ [{ header, rows := [] }] }) [] :=
    adds_modifyFile fun file => by simp [fileRows]
  exact opened.trans (adds_of_files rfl)

@[simp] theorem modifyFile_others : (s.modifyFile change).currentFile = s.currentFile ∧
    (s.modifyFile change).currentHunk = s.currentHunk ∧
    (s.modifyFile change).countedHunk = s.countedHunk ∧
    (s.modifyFile change).oldRemaining = s.oldRemaining ∧
    (s.modifyFile change).newRemaining = s.newRemaining ∧
    (s.modifyFile change).awaitingNewHeader = s.awaitingNewHeader ∧
    (s.modifyFile change).dialect = s.dialect ∧
    (s.modifyFile change).files.length = s.files.length := by
  cases current : s.currentFile with
  | none => simp [ParseState.modifyFile, current]
  | some i => simp [ParseState.modifyFile, current]

theorem sound_modifyFile (sound : Sound s)
    (kept : ∀ file : DiffFile, file.hunks ≠ [] → (change file).hunks ≠ []) :
    Sound (s.modifyFile change) := by
  obtain ⟨current, inHunk, counted, old, new, awaiting, dialect, size⟩ :=
    @modifyFile_others s change
  constructor
  · rw [dialect]
    exact sound.started
  · rw [current, size]
    exact sound.file
  · rw [inHunk, current]
    intro within
    obtain ⟨i, file, own, held, filled⟩ := sound.hunk within
    refine ⟨i, change file, own, ?_, kept file filled⟩
    rw [ParseState.modifyFile, own]
    simp [held]
  · rw [awaiting, inHunk, counted, ParseState.inCounted, inHunk, counted, old, new]
    exact sound.outside

theorem sound_addRow (sound : Sound s) (kind : DiffRowKind) (text : String) :
    Sound (s.addRow kind text) := by
  refine sound_modifyFile sound fun file filled => ?_
  obtain ⟨hunk, rest, eq⟩ := List.exists_cons_of_ne_nil filled
  cases rest <;> simp [eq, pushLast]

theorem file_withFile (path : String) :
    ∀ i, (s.withFile path).currentFile = some i → i < (s.withFile path).files.length := by
  intro i current
  rw [ParseState.withFile, Option.some.injEq] at current
  subst current
  rw [ParseState.withFile, ensureFile]
  cases found : s.files.findIdx? (·.path = path) with
  | some i => exact (List.findIdx?_eq_some_iff_getElem.mp found).1
  | none => simp

theorem sound_settled (valid : ∀ i, s.currentFile = some i → i < s.files.length)
    (dialect : Dialect) : Sound (s.settled dialect) where
  started := by simp [ParseState.settled]
  file := valid
  hunk := fun inHunk => by cases inHunk
  outside := fun waits => by cases waits

theorem sound_openHunk (started : s.dialect ≠ none)
    (valid : ∀ i, s.currentFile = some i → i < s.files.length) (chosen : s.currentFile ≠ none)
    (settled : s.awaitingNewHeader = false) (header : String) (counted : Bool) (old new : Nat) :
    Sound { s.openHunk header with
      countedHunk := counted
      oldRemaining := old
      newRemaining := new } := by
  obtain ⟨i, current⟩ := Option.ne_none_iff_exists'.mp chosen
  obtain ⟨own, _, _, _, _, awaiting, dialect, size⟩ := @modifyFile_others s fun file =>
    { file with hunks := file.hunks ++ [{ header, rows := [] }] }
  constructor
  · exact fun absent => started (dialect.symm.trans absent)
  · intro j found
    rw [ParseState.openHunk, size]
    exact valid j (own.symm.trans found)
  · intro _
    obtain ⟨file, held⟩ : ∃ file, s.files[i]? = some file :=
      ⟨_, List.getElem?_eq_getElem (valid i current)⟩
    refine ⟨i, { file with hunks := file.hunks ++ [{ header, rows := [] }] }, own.trans current,
      ?_, by simp⟩
    simp [ParseState.openHunk, ParseState.modifyFile, current, held]
  · intro waits
    have still := awaiting.symm.trans waits
    rw [settled] at still
    cases still

theorem adds_withStatus (status : DiffFileStatus) : Adds s (s.withStatus status) [] :=
  adds_modifyFile fun _ => rfl

theorem adds_newHeader (path : String) : Adds s (s.newHeader path) [] := by
  have named (name : String) : Adds s ((s.withFile name).settled .unified) [] :=
    (adds_withFile name).trans (adds_of_files rfl)
  have marked (name : String) (status : DiffFileStatus) :
      Adds s (((s.withFile name).withStatus status).settled .unified) [] :=
    (adds_withFile name).trans ((adds_withStatus status).trans (adds_of_files rfl))
  rw [ParseState.newHeader]
  split
  · split
    · split
      · exact adds_of_files rfl
      · exact marked _ _
    · exact adds_of_files rfl
  · split
    · exact marked _ _
    · exact named _

theorem sound_newHeader (valid : ∀ i, s.currentFile = some i → i < s.files.length)
    (path : String) : Sound (s.newHeader path) ∧ (s.newHeader path).awaitingNewHeader = false := by
  have named (name : String) : Sound ((s.withFile name).settled .unified) :=
    sound_settled (file_withFile name) _
  have marked (name : String) (status : DiffFileStatus) :
      Sound (((s.withFile name).withStatus status).settled .unified) := by
    refine sound_settled (fun i current => ?_) _
    obtain ⟨own, _, _, _, _, _, _, size⟩ := @modifyFile_others (s.withFile name) fun file =>
      { file with status := some status }
    rw [ParseState.withStatus, size]
    exact file_withFile name i (own.symm.trans current)
  rw [ParseState.newHeader]
  split
  · split
    · split
      · exact ⟨sound_settled valid _, rfl⟩
      · exact ⟨marked _ _, rfl⟩
    · exact ⟨sound_settled valid _, rfl⟩
  · split
    · exact ⟨marked _ _, rfl⟩
    · exact ⟨named _, rfl⟩

theorem adds_moveFile (target : String) : Adds s (s.moveFile target) [] :=
  adds_modifyFile fun _ => rfl

theorem sound_moveFile (sound : Sound s) (target : String) : Sound (s.moveFile target) :=
  sound_modifyFile sound fun _ filled => filled

theorem waits_moveFile (target : String) :
    (s.moveFile target).awaitingNewHeader = s.awaitingNewHeader :=
  modifyFile_others.2.2.2.2.2.1

theorem adds_oldHeader (path : String) : Adds s (s.oldHeader path) [] := adds_of_files rfl

theorem sound_oldHeader (sound : Sound s) (outside : s.inCounted = false)
    (counted : s.currentHunk = true → s.countedHunk = true) (path : String) :
    Sound (s.oldHeader path) ∧ (s.oldHeader path).awaitingNewHeader = true :=
  ⟨⟨Option.some_ne_none _, sound.file, sound.hunk, fun _ inHunk => ⟨counted inHunk, outside⟩⟩, rfl⟩

theorem adds_wholeFile (status : DiffFileStatus) (path : String) :
    Adds s (s.wholeFile status path) [] := by
  have marked : Adds s (((s.withFile path).withStatus status).settled .begin) [] :=
    (adds_withFile path).trans ((adds_withStatus status).trans (adds_of_files rfl))
  exact marked.trans ((adds_openHunk "").trans (adds_of_files rfl))

theorem sound_wholeFile (status : DiffFileStatus) (path : String) :
    Sound (s.wholeFile status path) ∧
      (s.wholeFile status path).awaitingNewHeader = false := by
  obtain ⟨own, _, _, _, _, _, _, size⟩ := @modifyFile_others (s.withFile path) fun file =>
    { file with status := some status }
  have valid : ∀ i, (((s.withFile path).withStatus status).settled .begin).currentFile = some i →
      i < (((s.withFile path).withStatus status).settled .begin).files.length := by
    intro i current
    rw [ParseState.settled, ParseState.withStatus, size]
    exact file_withFile path i (own.symm.trans current)
  have chosen : (((s.withFile path).withStatus status).settled .begin).currentFile ≠ none := by
    rw [ParseState.settled, ParseState.withStatus, own, ParseState.withFile]
    exact Option.some_ne_none _
  constructor
  · exact sound_openHunk (by simp [ParseState.settled]) valid chosen rfl "" false _ _
  · simp [ParseState.wholeFile, ParseState.openHunk, ParseState.settled]

end Changes

/-- What reading a line does behind the first header of a file. -/
inductive Reads (s : ParseState) (line : String) (t : ParseState) : Prop where
  | row (kind : DiffRowKind) (text : String) (own : line = mark kind ++ text)
      (before : s.awaitingNewHeader = false) (after : t.awaitingNewHeader = false)
      (adds : Adds s t [⟨kind, text⟩]) (keeps : ¬ Loses s line)
  | aside (other : isContent line = false) (same : t.awaitingNewHeader = s.awaitingNewHeader)
      (adds : Adds s t []) (keeps : ¬ Loses s line)
  | oldHeader (own : startsWith line "--- " = true) (before : s.awaitingNewHeader = false)
      (after : t.awaitingNewHeader = true) (adds : Adds s t []) (keeps : ¬ Loses s line)
  | newHeader (own : startsWith line "+++ " = true) (before : s.awaitingNewHeader = true)
      (after : t.awaitingNewHeader = false) (adds : Adds s t []) (keeps : ¬ Loses s line)
  | ignored (own : isPlainContent line = true) (same : t = s) (loses : Loses s line)
  | abandoned (other : isContent line = false) (before : s.awaitingNewHeader = true)
      (after : t.awaitingNewHeader = false) (adds : Adds s t []) (loses : Loses s line)

section Reading

variable {s t : ParseState} {line : String}

theorem keeps_aside (other : isContent line = false) (unmarked : isFileMarker line = false) :
    ¬ Loses s line := by
  rintro (⟨plain, _⟩ | ⟨_, marker⟩)
  · rw [isContent_of_plain plain] at other
    cases other
  · rw [unmarked] at marker
    cases marker

theorem not_fileMarker (content : isContent line = true) : isFileMarker line = false := by
  rw [Bool.eq_false_iff]
  intro marker
  simp only [isFileMarker, Bool.or_eq_true] at marker
  have other : isContent line = false := by
    rcases marker with ((starts | starts) | starts) | starts
    · exact not_content rfl (by decide) starts
    · exact not_content rfl (by decide) starts
    · exact not_content rfl (by decide) starts
    · exact not_content rfl (by decide) starts
  rw [content] at other
  cases other

/-- A row that is not read outside the content of a hunk is not lost. -/
theorem keeps_row (content : isContent line = true)
    (inside : s.inCounted = true ∨ s.countedHunk = false ∧ s.currentFile ≠ none) :
    ¬ Loses s line := by
  rintro (⟨_, _, outside, absent | ⟨_, counted⟩⟩ | ⟨_, marker⟩)
  · rcases inside with within | ⟨_, present⟩
    · rw [outside] at within
      cases within
    · exact present absent
  · rcases inside with within | ⟨uncounted, _⟩
    · rw [outside] at within
      cases within
    · rw [uncounted] at counted
      cases counted
  · rw [not_fileMarker content] at marker
    cases marker

/-- A line that begins with one text does not begin with another one that differs from it. -/
theorem not_startsWith {start other : String} (starts : startsWith line start = true)
    (apart : start.toList.isPrefixOf other.toList = false)
    (apart' : other.toList.isPrefixOf start.toList = false) : startsWith line other = false := by
  rw [Bool.eq_false_iff]
  intro both
  rw [startsWith, List.isPrefixOf_iff_prefix] at starts both
  rcases List.prefix_or_prefix_of_prefix starts both with first | second
  · rw [List.isPrefixOf_iff_prefix.mpr first] at apart
    cases apart
  · rw [List.isPrefixOf_iff_prefix.mpr second] at apart'
    cases apart'

/-- A line that begins with another character is no row and no header of a file. -/
theorem aside_of_head {c : Char} (head : line.toList.head? = some c)
    (other : c ∉ [' ', '+', '-', 'I', '*']) :
    isContent line = false ∧ isFileMarker line = false := by
  simp only [List.mem_cons, List.not_mem_nil, or_false, not_or] at other
  constructor
  · rw [Bool.eq_false_iff]
    intro content
    obtain ⟨d, mem, same⟩ := isContent_iff.mp content
    rw [head, Option.some.injEq] at same
    subst same
    simp only [List.mem_cons, List.not_mem_nil, or_false] at mem
    tauto
  · rw [Bool.eq_false_iff]
    intro marker
    simp only [isFileMarker, Bool.or_eq_true] at marker
    rcases marker with ((starts | starts) | starts) | starts
    all_goals
      have same := startsWith_head rfl starts
      rw [head, Option.some.injEq] at same
      tauto

theorem reads_note (note : startsWith line "\\" = true) (files : t.files = s.files)
    (same : t.awaitingNewHeader = s.awaitingNewHeader) : Reads s line t := by
  obtain ⟨other, unmarked⟩ := aside_of_head (startsWith_head rfl note) (by decide)
  exact .aside other same (adds_of_files files) (keeps_aside other unmarked)

/-- The header of a file, and what it leaves behind. -/
theorem reads_fileMarker (marker : isFileMarker line = true)
    (after : t.awaitingNewHeader = false) (adds : Adds s t []) : Reads s line t := by
  have other : isContent line = false := by
    rw [Bool.eq_false_iff]
    intro content
    rw [not_fileMarker content] at marker
    cases marker
  cases waits : s.awaitingNewHeader with
  | true => exact .abandoned other waits after adds (.inr ⟨waits, marker⟩)
  | false =>
    refine .aside other (after.trans waits.symm) adds ?_
    rintro (⟨plain, _⟩ | ⟨still, _⟩)
    · rw [isContent_of_plain plain] at other
      cases other
    · rw [waits] at still
      cases still

theorem eq_mark_slice (kind : DiffRowKind) (starts : startsWith line (mark kind) = true) :
    line = mark kind ++ slice 1 line := by
  rw [startsWith, List.isPrefixOf_iff_prefix] at starts
  obtain ⟨rest, whole⟩ := starts
  apply String.toList_injective
  rw [String.toList_append, slice, String.toList_ofList, ← whole]
  cases kind <;> rfl

theorem settled_inside (sound : Sound s) (inHunk : s.currentHunk = true)
    (inside : s.inCounted = true ∨ s.countedHunk = false) : s.awaitingNewHeader = false := by
  rw [Bool.eq_false_iff]
  intro waits
  obtain ⟨counted, outside⟩ := sound.outside waits inHunk
  rcases inside with within | uncounted
  · rw [outside] at within
    cases within
  · rw [uncounted] at counted
    cases counted

/-- A line that becomes a row of the current hunk. -/
theorem reads_row (sound : Sound s) (inHunk : s.currentHunk = true)
    (inside : s.inCounted = true ∨ s.countedHunk = false) (kind : DiffRowKind)
    (starts : startsWith line (mark kind) = true) (files : t.files = (s.addRow kind (slice 1 line)).files)
    (same : t.awaitingNewHeader = s.awaitingNewHeader) : Reads s line t := by
  have own := eq_mark_slice kind starts
  have content : isContent line = true := own ▸ isContent_row kind _
  obtain ⟨i, _, current, _⟩ := sound.hunk inHunk
  have settled := settled_inside sound inHunk inside
  have added := adds_addRow sound inHunk kind (slice 1 line)
  refine .row kind _ own settled (same.trans settled) ?_ (keeps_row content ?_)
  · intro whole merged
    rw [files]
    exact added whole merged
  · exact inside.imp id fun uncounted => ⟨uncounted, by simp [current]⟩

theorem sound_remaining (sound : Sound s) (settled : s.awaitingNewHeader = false)
    (old new : Nat) : Sound { s with oldRemaining := old, newRemaining := new } where
  started := sound.started
  file := sound.file
  hunk := sound.hunk
  outside := fun waits => by
    rw [settled] at waits
    cases waits

theorem reads_counted (sound : Sound s) (within : s.inCounted = true)
    (read : readCounted s line = some t) : Sound t ∧ Reads s line t := by
  have inHunk : s.currentHunk = true := by
    simp only [ParseState.inCounted, Bool.and_eq_true] at within
    exact within.1.1
  have settled := settled_inside sound inHunk (.inl within)
  have waits (kind : DiffRowKind) : (s.addRow kind (slice 1 line)).awaitingNewHeader =
      s.awaitingNewHeader := modifyFile_others.2.2.2.2.2.1
  have after (kind : DiffRowKind) (old new : Nat) : Sound
      { s.addRow kind (slice 1 line) with oldRemaining := old, newRemaining := new } :=
    sound_remaining (sound_addRow sound kind _) ((waits kind).trans settled) old new
  rw [readCounted] at read
  split at read
  · next note =>
    cases read
    exact ⟨sound, reads_note note rfl rfl⟩
  split at read
  · next context =>
    cases read
    exact ⟨after _ _ _, reads_row sound inHunk (.inl within) .context context.1 rfl (waits _)⟩
  split at read
  · next removed =>
    cases read
    exact ⟨after _ _ _, reads_row sound inHunk (.inl within) .remove removed.1 rfl (waits _)⟩
  split at read
  · next added =>
    cases read
    exact ⟨after _ _ _, reads_row sound inHunk (.inl within) .add added.1 rfl (waits _)⟩
  · cases read

theorem reads_uncounted (sound : Sound s) (inHunk : s.currentHunk = true)
    (uncounted : s.countedHunk = false) (read : readUncounted s line = some t) :
    Sound t ∧ Reads s line t := by
  have waits (kind : DiffRowKind) : (s.addRow kind (slice 1 line)).awaitingNewHeader =
      s.awaitingNewHeader := modifyFile_others.2.2.2.2.2.1
  rw [readUncounted] at read
  split at read
  · next note =>
    cases read
    exact ⟨sound, reads_note note rfl rfl⟩
  split at read
  · next added =>
    cases read
    exact ⟨sound_addRow sound _ _,
      reads_row sound inHunk (.inr uncounted) .add added rfl (waits _)⟩
  split at read
  · next removed =>
    cases read
    exact ⟨sound_addRow sound _ _,
      reads_row sound inHunk (.inr uncounted) .remove removed rfl (waits _)⟩
  split at read
  · next context =>
    cases read
    exact ⟨sound_addRow sound _ _,
      reads_row sound inHunk (.inr uncounted) .context context rfl (waits _)⟩
  split at read
  · cases read
  · next empty =>
    cases read
    have blank : line = "" := not_not.mp empty
    refine ⟨sound, .aside ?_ rfl Adds.refl (keeps_aside ?_ ?_)⟩
    · rw [blank]
      rfl
    · rw [blank]
      rfl
    · rw [blank]
      rfl

theorem parseHunkHeader_start {header : HunkHeader} (parsed : parseHunkHeader line = some header) :
    line.toList.head? = some '@' := by
  rw [parseHunkHeader] at parsed
  cases skipped : skip "@@ -" line.toList with
  | none =>
    rw [skipped] at parsed
    cases parsed
  | some rest =>
    rw [skip] at skipped
    split at skipped
    · next starts => exact @startsWith_head line _ _ _ rfl starts
    · cases skipped

theorem reads_chunk (sound : Sound s) (outside : s.inCounted = false)
    (counted : s.currentHunk = true → s.countedHunk = true)
    (expected : s.dialect = some .unified → isPlainContent line = false)
    (unmarked : isFileMarker line = false) (new : startsWith line "+++ " = false)
    (old : startsWith line "--- " = false) (read : readChunk s line = some t) :
    Sound t ∧ Reads s line t := by
  have opens (at_sign : line.toList.head? = some '@') (settled : s.awaitingNewHeader = false)
      (chosen : s.currentFile ≠ none) (isCounted : Bool) (m n : Nat) :
      Sound { s.openHunk line with countedHunk := isCounted, oldRemaining := m, newRemaining := n } ∧
        Reads s line
          { s.openHunk line with countedHunk := isCounted, oldRemaining := m, newRemaining := n } := by
    have waits : (s.openHunk line).awaitingNewHeader = s.awaitingNewHeader :=
      modifyFile_others.2.2.2.2.2.1
    obtain ⟨other, _⟩ := aside_of_head at_sign (by decide)
    exact ⟨sound_openHunk sound.started sound.file chosen settled line isCounted m n,
      .aside other waits ((adds_openHunk line).trans (adds_of_files rfl))
        (keeps_aside other unmarked)⟩
  rw [readChunk] at read
  cases parsed : parseHunkHeader line with
  | some header =>
    rw [parsed] at read
    dsimp only at read
    split at read
    · cases read
    · next ready =>
      cases read
      rw [not_or, Bool.not_eq_true] at ready
      exact opens (parseHunkHeader_start parsed) ready.1 ready.2 true _ _
  | none =>
    rw [parsed] at read
    dsimp only at read
    split at read
    · next bare =>
      split at read
      · cases read
      · next ready =>
        cases read
        rw [not_or, not_or, Bool.not_eq_true] at ready
        exact opens (startsWith_head rfl bare) ready.1 ready.2.2 false _ _
    · split at read
      · cases read
      · next ready =>
        cases read
        refine ⟨sound, ?_⟩
        cases content : isContent line with
        | false => exact .aside content rfl Adds.refl (keeps_aside content unmarked)
        | true =>
          -- A row where no hunk is open: only the Begin Patch dialect lets it pass.
          have plain : isPlainContent line = true := by
            simp only [isContent, Bool.or_eq_true] at content
            simp only [isPlainContent, new, old, Bool.or_eq_true, Bool.not_false, Bool.and_true]
            exact content
          have begins : s.dialect = some .begin := by
            cases own : s.dialect with
            | none => exact absurd own sound.started
            | some dialect =>
              cases dialect with
              | begin => rfl
              | unified =>
                rw [expected own] at plain
                cases plain
          have filled : line ≠ "" := by
            rintro rfl
            cases content
          refine .ignored plain rfl (.inl ⟨plain, begins, outside, ?_⟩)
          by_cases absent : s.currentFile = none
          · exact .inl absent
          · refine .inr ?_
            cases inHunk : s.currentHunk with
            | true => exact ⟨rfl, counted inHunk⟩
            | false => exact absurd ⟨absent, inHunk, begins, filled, content⟩ ready

theorem keeps_header (content : isContent line = true)
    (header : isPlainContent line = false) : ¬ Loses s line := by
  rintro (⟨plain, _⟩ | ⟨_, marker⟩)
  · rw [header] at plain
    cases plain
  · rw [not_fileMarker content] at marker
    cases marker

theorem reads_header (sound : Sound s) (outside : s.inCounted = false)
    (counted : s.currentHunk = true → s.countedHunk = true)
    (expected : s.dialect = some .unified → isPlainContent line = false)
    (unmarked : isFileMarker line = false) (read : readHeader s line = some t) :
    Sound t ∧ Reads s line t := by
  rw [readHeader] at read
  split at read
  · next new =>
    split at read
    · next waits =>
      obtain rfl := Option.some.inj read
      obtain ⟨after, settled⟩ := sound_newHeader sound.file (headerPath line)
      have head := startsWith_head rfl new
      have plain : isPlainContent line = false := by
        rw [Bool.eq_false_iff]
        intro plain
        have other := isNewHeader_plain plain
        rw [isNewHeader, new] at other
        cases other
      exact ⟨after, .newHeader new waits settled (adds_newHeader _)
        (keeps_header (isContent_header (.inr new)) plain)⟩
    · cases read
  next new =>
  split at read
  · next old =>
    split at read
    · cases read
    · next settled =>
      obtain rfl := Option.some.inj read
      have plain : isPlainContent line = false := by
        have space := @not_startsWith line _ " " old (by decide) (by decide)
        have plus := @not_startsWith line _ "+" old (by decide) (by decide)
        simp [isPlainContent, space, plus, old]
      obtain ⟨after, waits⟩ := sound_oldHeader sound outside counted (headerPath line)
      exact ⟨after, .oldHeader old (Bool.not_eq_true _ ▸ settled) waits (adds_oldHeader _)
        (keeps_header (isContent_header (.inl old)) plain)⟩
  next old =>
  split at read
  · next stars =>
    obtain rfl := Option.some.inj read
    have other := not_content rfl (by decide) stars
    exact ⟨⟨Option.some_ne_none _, sound.file, sound.hunk, sound.outside⟩,
      .aside other rfl (adds_of_files rfl) (keeps_aside other unmarked)⟩
  · exact reads_chunk sound outside counted expected unmarked (Bool.not_eq_true _ ▸ new)
      (Bool.not_eq_true _ ▸ old) read

theorem reads_marker (sound : Sound s) (outside : s.inCounted = false)
    (counted : s.currentHunk = true → s.countedHunk = true)
    (read : readMarker s line = some t) : Sound t ∧ Reads s line t := by
  have named (marker : isFileMarker line = true) {u : ParseState} (after : Sound u)
      (settled : u.awaitingNewHeader = false) (adds : Adds s u []) (same : u = t) :
      Sound t ∧ Reads s line t :=
    same ▸ ⟨after, reads_fileMarker marker settled adds⟩
  by_cases unexpected : s.dialect = some .unified ∧ isPlainContent line = true
  · rw [readMarker, if_pos unexpected] at read
    cases read
  have expected : s.dialect = some .unified → isPlainContent line = false :=
    fun unified => Bool.eq_false_iff.mpr fun plain => unexpected ⟨unified, plain⟩
  rw [readMarker, if_neg unexpected] at read
  cases index : startsWith line "Index: " with
  | true =>
    rw [if_pos index] at read
    exact named (by rw [isFileMarker, index]; rfl) (sound_settled (file_withFile _) _) rfl
      ((adds_withFile _).trans (adds_of_files rfl)) (Option.some.inj read)
  | false =>
  cases update : startsWith line "*** Update File: " with
  | true =>
    rw [if_neg (by simp [index]), if_pos update] at read
    exact named (by rw [isFileMarker, update, Bool.or_true]; rfl)
      (sound_settled (file_withFile _) _) rfl
      ((adds_withFile _).trans (adds_of_files rfl)) (Option.some.inj read)
  | false =>
  rw [if_neg (by simp [index]), if_neg (by simp [update])] at read
  cases move : startsWith line "*** Move to: " with
  | true =>
    rw [if_pos move] at read
    have other := not_content rfl (by decide) move
    have add := @not_startsWith line _ "*** Add File: " move (by decide) (by decide)
    have delete := @not_startsWith line _ "*** Delete File: " move (by decide) (by decide)
    have unmarked : isFileMarker line = false := by
      rw [isFileMarker, index, update, add, delete]
      rfl
    rw [← Option.some.inj read]
    exact ⟨sound_moveFile sound _,
      .aside other (waits_moveFile _) (adds_moveFile _) (keeps_aside other unmarked)⟩
  | false =>
  rw [if_neg (by simp [move])] at read
  cases add : startsWith line "*** Add File: " with
  | true =>
    rw [if_pos add] at read
    obtain ⟨after, settled⟩ := @sound_wholeFile s .added (markedPath "*** Add File: " line)
    exact named (by rw [isFileMarker, add, Bool.or_true]; rfl) after settled
      (adds_wholeFile _ _) (Option.some.inj read)
  | false =>
  rw [if_neg (by simp [add])] at read
  cases delete : startsWith line "*** Delete File: " with
  | true =>
    rw [if_pos delete] at read
    obtain ⟨after, settled⟩ := @sound_wholeFile s .deleted (markedPath "*** Delete File: " line)
    exact named (by rw [isFileMarker, delete, Bool.or_true]) after settled
      (adds_wholeFile _ _) (Option.some.inj read)
  | false =>
  rw [if_neg (by simp [delete])] at read
  have unmarked : isFileMarker line = false := by
    rw [isFileMarker, index, update, add, delete]
    rfl
  exact reads_header sound outside counted expected unmarked read

/-- A line that ends a hunk is read as if none were open. -/
theorem Reads.reopened (ends : endsUncounted line = true)
    (reads : Reads { s with currentHunk := false } line t) : Reads s line t := by
  have other : isContent line = false := by
    simp only [endsUncounted, Bool.or_eq_true] at ends
    rcases ends with (starts | starts) | starts
    · exact not_content rfl (by decide) starts
    · exact not_content rfl (by decide) starts
    · exact not_content rfl (by decide) starts
  have kept : Loses s line ↔ Loses { s with currentHunk := false } line := by
    have plain : ¬ isPlainContent line = true := by
      intro plain
      rw [isContent_of_plain plain] at other
      cases other
    constructor
    · rintro (⟨row, _⟩ | abandons)
      · exact absurd row plain
      · exact .inr abandons
    · rintro (⟨row, _⟩ | abandons)
      · exact absurd row plain
      · exact .inr abandons
  cases reads with
  | row kind text own before after adds keeps =>
    exact .row kind text own before after adds (keeps ∘ kept.mp)
  | aside other same adds keeps => exact .aside other same adds (keeps ∘ kept.mp)
  | oldHeader own before after adds keeps =>
    exact .oldHeader own before after adds (keeps ∘ kept.mp)
  | newHeader own before after adds keeps =>
    exact .newHeader own before after adds (keeps ∘ kept.mp)
  | ignored own =>
    rw [isContent_of_plain own] at other
    cases other
  | abandoned other before after adds loses =>
    exact .abandoned other before after adds (kept.mpr loses)

/-- Every branch of the loop reads a line in one of the six ways. -/
theorem reads_line (sound : Sound s) (read : readLine s line = some t) :
    Sound t ∧ Reads s line t := by
  rw [readLine] at read
  split at read
  · next within => exact reads_counted sound within read
  next outside =>
  rw [Bool.not_eq_true] at outside
  split at read
  · next hunk =>
    split at read
    · next ends =>
      have closed : Sound { s with currentHunk := false } :=
        ⟨sound.started, sound.file, Bool.noConfusion, fun _ => Bool.noConfusion⟩
      have ⟨after, reads⟩ := reads_marker closed (by simp [ParseState.inCounted])
        Bool.noConfusion read
      exact ⟨after, reads.reopened ends⟩
    · exact reads_uncounted sound hunk.1 hunk.2 read
  · next closed =>
    refine reads_marker sound outside (fun inHunk => ?_) read
    cases own : s.countedHunk with
    | true => rfl
    | false => exact absurd ⟨inHunk, own⟩ closed

end Reading

section Runs

variable {s t u : ParseState} {line : String} {lines : List String}

/-- No line is lost from here on. -/
def Keeps (s : ParseState) (lines : List String) : Prop :=
  ∀ before line after u, lines = before ++ line :: after → readLines s before = some u →
    ¬ Loses u line

theorem readLines_cons :
    readLines s (line :: lines) = (readLine s line).bind fun u => readLines u lines := rfl

theorem readLines_append {before : List String} :
    readLines s (before ++ lines) = (readLines s before).bind fun u => readLines u lines := by
  rw [readLines, List.foldlM_append]
  rfl

theorem keeps_nil : Keeps s [] := by
  intro before line after u split
  simp at split

theorem keeps_cons (read : readLine s line = some u) :
    Keeps s (line :: lines) ↔ ¬ Loses s line ∧ Keeps u lines := by
  constructor
  · intro keeps
    refine ⟨keeps [] line lines s rfl rfl, fun before next after v split run => ?_⟩
    refine keeps (line :: before) next after v (by rw [split]; rfl) ?_
    rw [readLines_cons, read]
    exact run
  · rintro ⟨first, later⟩ before next after v split run
    cases before with
    | nil =>
      cases split
      cases run
      exact first
    | cons own before =>
      cases split
      rw [readLines_cons, read] at run
      exact later before next after v rfl run

/-- A run accounts for its lines, and what it loses it loses at some step. -/
theorem reads_lines (sound : Sound s) (run : readLines s lines = some t)
    (settled : t.awaitingNewHeader = false) :
    ∃ rows lost, Accounts s.awaitingNewHeader lost lines rows ∧ Adds s t rows ∧
      (lost = 0 ↔ Keeps s lines) := by
  induction lines generalizing s with
  | nil =>
    cases run
    refine ⟨[], 0, ?_, .refl, iff_of_true rfl keeps_nil⟩
    rw [settled]
    exact .nil
  | cons line rest ih =>
    rw [readLines_cons, Option.bind_eq_some_iff] at run
    obtain ⟨u, read, run⟩ := run
    obtain ⟨after, reads⟩ := reads_line sound read
    obtain ⟨rows, lost, accounts, adds, exact⟩ := ih after run
    rw [keeps_cons read]
    cases reads with
    | row kind text own before waits grown keeps =>
      rw [waits] at accounts
      rw [before, own]
      refine ⟨_, lost, .row kind text accounts, grown.trans adds, ?_⟩
      rw [← own, exact, and_iff_right keeps]
    | aside other same grown keeps =>
      rw [same] at accounts
      exact ⟨rows, lost, .aside other accounts, grown.trans adds, by
        rw [exact, and_iff_right keeps]⟩
    | oldHeader own before waits grown keeps =>
      rw [waits] at accounts
      rw [before]
      exact ⟨rows, lost, .oldHeader own accounts, grown.trans adds, by
        rw [exact, and_iff_right keeps]⟩
    | newHeader own before waits grown keeps =>
      rw [waits] at accounts
      rw [before]
      exact ⟨rows, lost, .newHeader own accounts, grown.trans adds, by
        rw [exact, and_iff_right keeps]⟩
    | ignored own same loses =>
      rw [same] at accounts adds
      exact ⟨rows, lost + 1, .lost own accounts, adds, by simp [loses]⟩
    | abandoned other before waits grown loses =>
      rw [waits] at accounts
      rw [before]
      exact ⟨rows, lost + 1, .unpaired (.aside other accounts), grown.trans adds, by simp [loses]⟩

/-- No header of a file has been read. -/
structure Blank (s : ParseState) : Prop where
  files : s.files = []
  currentFile : s.currentFile = none
  currentHunk : s.currentHunk = false

theorem Blank.readLine_eq (blank : Blank s) : readLine s line = readMarker s line := by
  simp [readLine, ParseState.inCounted, blank.currentHunk]

theorem Blank.readChunk (blank : Blank s) (read : readChunk s line = some t) : t = s := by
  rw [DiffParse.readChunk] at read
  have absent := blank.currentFile
  cases parsed : parseHunkHeader line with
  | some header =>
    rw [parsed] at read
    simp [absent] at read
  | none =>
    rw [parsed] at read
    simp only [absent, or_true, ↓reduceIte, ne_eq, not_true_eq_false, false_and] at read
    split at read
    · cases read
    · exact (Option.some.inj read).symm

/-- What merges files that have no rows is empty. -/
structure Named (s : ParseState) : Prop where
  sound : Sound s
  settled : s.awaitingNewHeader = false
  empty : Merges (s.files.map fileRows) []

theorem Blank.named (blank : Blank s) (sound : Sound t) (settled : t.awaitingNewHeader = false)
    (adds : Adds s t []) : Named t :=
  ⟨sound, settled, adds [] (by rw [blank.files]; exact .nil)⟩

theorem Blank.oldHeader (blank : Blank s) (path : String) : Blank (s.oldHeader path) :=
  ⟨blank.files, blank.currentFile, blank.currentHunk⟩

theorem Blank.readHeader (blank : Blank s) (read : readHeader s line = some t) :
    if startsWith line "+++ " then Named t else Blank t := by
  rw [DiffParse.readHeader] at read
  split at read
  · next new =>
    rw [if_pos new]
    split at read
    · obtain rfl := Option.some.inj read
      obtain ⟨sound, settled⟩ := @sound_newHeader s
        (fun i current => by rw [blank.currentFile] at current; cases current) (headerPath line)
      exact blank.named sound settled (adds_newHeader _)
    · cases read
  next new =>
  rw [if_neg new]
  split at read
  · split at read
    · cases read
    · obtain rfl := Option.some.inj read
      exact blank.oldHeader _
  split at read
  · obtain rfl := Option.some.inj read
    exact ⟨blank.files, blank.currentFile, blank.currentHunk⟩
  · rw [blank.readChunk read]
    exact blank

theorem Blank.readMarker (blank : Blank s) (read : readMarker s line = some t) :
    if isFileHeader line then Named t else Blank t := by
  have named (marker : isFileMarker line = true) {u : ParseState} (after : Sound u)
      (settled : u.awaitingNewHeader = false) (adds : Adds s u []) (same : u = t) :
      if isFileHeader line then Named t else Blank t := by
    rw [if_pos (by rw [isFileHeader, marker, Bool.true_or])]
    exact same ▸ blank.named after settled adds
  by_cases unexpected : s.dialect = some .unified ∧ isPlainContent line = true
  · rw [DiffParse.readMarker, if_pos unexpected] at read
    cases read
  rw [DiffParse.readMarker, if_neg unexpected] at read
  cases index : startsWith line "Index: " with
  | true =>
    rw [if_pos index] at read
    exact named (by rw [isFileMarker, index]; rfl) (sound_settled (file_withFile _) _) rfl
      ((adds_withFile _).trans (adds_of_files rfl)) (Option.some.inj read)
  | false =>
  cases update : startsWith line "*** Update File: " with
  | true =>
    rw [if_neg (by simp [index]), if_pos update] at read
    exact named (by rw [isFileMarker, update, Bool.or_true]; rfl)
      (sound_settled (file_withFile _) _) rfl
      ((adds_withFile _).trans (adds_of_files rfl)) (Option.some.inj read)
  | false =>
  rw [if_neg (by simp [index]), if_neg (by simp [update])] at read
  cases move : startsWith line "*** Move to: " with
  | true =>
    rw [if_pos move] at read
    have add := @not_startsWith line _ "*** Add File: " move (by decide) (by decide)
    have delete := @not_startsWith line _ "*** Delete File: " move (by decide) (by decide)
    have new := @not_startsWith line _ "+++ " move (by decide) (by decide)
    have unnamed : isFileHeader line = false := by
      rw [isFileHeader, isFileMarker, index, update, add, delete, new]
      rfl
    rw [unnamed, if_neg Bool.false_ne_true, ← Option.some.inj read, ParseState.moveFile,
      ParseState.modifyFile, blank.currentFile]
    exact blank
  | false =>
  rw [if_neg (by simp [move])] at read
  cases add : startsWith line "*** Add File: " with
  | true =>
    rw [if_pos add] at read
    obtain ⟨after, settled⟩ := @sound_wholeFile s .added (markedPath "*** Add File: " line)
    exact named (by rw [isFileMarker, add, Bool.or_true]; rfl) after settled
      (adds_wholeFile _ _) (Option.some.inj read)
  | false =>
  rw [if_neg (by simp [add])] at read
  cases delete : startsWith line "*** Delete File: " with
  | true =>
    rw [if_pos delete] at read
    obtain ⟨after, settled⟩ := @sound_wholeFile s .deleted (markedPath "*** Delete File: " line)
    exact named (by rw [isFileMarker, delete, Bool.or_true]) after settled
      (adds_wholeFile _ _) (Option.some.inj read)
  | false =>
  rw [if_neg (by simp [delete])] at read
  have header : isFileHeader line = startsWith line "+++ " := by
    rw [isFileHeader, isFileMarker, index, update, add, delete]
    rfl
  rw [header]
  exact blank.readHeader read

/-- Either no header of a file is read, or the first one is followed by the rest. -/
theorem Blank.first_header (blank : Blank s) (run : readLines s lines = some t) :
    ((∀ line ∈ lines, isFileHeader line = false) ∧ Blank t) ∨
      ∃ before header after u, lines = before ++ header :: after ∧
        (∀ line ∈ before, isFileHeader line = false) ∧ isFileHeader header = true ∧
        readLines s (before ++ [header]) = some u ∧ Named u ∧ readLines u after = some t := by
  induction lines generalizing s with
  | nil =>
    cases run
    exact .inl ⟨by simp, blank⟩
  | cons line rest ih =>
    rw [readLines_cons, Option.bind_eq_some_iff] at run
    obtain ⟨u, read, run⟩ := run
    have reads := blank.readMarker (blank.readLine_eq ▸ read)
    cases header : isFileHeader line with
    | true =>
      rw [if_pos header] at reads
      refine .inr ⟨[], line, rest, u, rfl, by simp, header, ?_, reads, run⟩
      rw [List.nil_append, readLines_cons, read]
      rfl
    | false =>
      rw [header, if_neg Bool.false_ne_true] at reads
      rcases ih reads run with ⟨others, still⟩ | ⟨before, own, after, v, split, none, head, first, rest⟩
      · exact .inl ⟨List.forall_mem_cons.mpr ⟨header, others⟩, still⟩
      · refine .inr ⟨line :: before, own, after, v, by rw [split]; rfl,
          List.forall_mem_cons.mpr ⟨header, none⟩, head, ?_, rest⟩
        rw [List.cons_append, readLines_cons, read]
        exact first

theorem afterFirstHeader_of_none (unnamed : ∀ line ∈ lines, isFileHeader line = false) :
    afterFirstHeader lines = [] := by
  rw [afterFirstHeader, List.dropWhile_eq_nil_iff.mpr (by simpa using unnamed)]
  rfl

theorem afterFirstHeader_append {before : List String} {header : String}
    (unnamed : ∀ line ∈ before, isFileHeader line = false) (named : isFileHeader header = true) :
    afterFirstHeader (before ++ header :: lines) = lines := by
  rw [afterFirstHeader, List.dropWhile_append_of_pos (by simpa using unnamed),
    List.dropWhile_cons_of_neg (by simp [named])]
  rfl

theorem rows_of_hidden (file : DiffFile) (hidden : file.shown = false) : fileRows file = [] := by
  simp only [DiffFile.shown, Bool.or_eq_false_iff, List.any_eq_false] at hidden
  rw [fileRows, List.flatMap_eq_nil_iff]
  intro hunk mem
  simpa using hidden.1.1 hunk mem

/-- A valid patch was read to its end. -/
theorem read_of_valid {text : String} (valid : (parsePatch text).invalid = false) :
    ∃ t, readLines initial (patchLines text) = some t ∧ t.awaitingNewHeader = false ∧
      (parsePatch text).files = t.files.filter DiffFile.shown := by
  rw [parsePatch] at valid ⊢
  cases run : readLines initial (patchLines text) with
  | none =>
    rw [run] at valid
    cases valid
  | some t =>
    rw [run] at valid
    dsimp only at valid ⊢
    split at valid
    · next done =>
      refine ⟨t, rfl, ?_, by rw [if_pos done]⟩
      simp only [ParseState.complete, Bool.and_eq_true, Bool.not_eq_true'] at done
      exact done.2
    · cases valid

/-- The lines before the first header lose nothing that is counted. -/
theorem losesNothing_iff {text : String} {before after : List String} {header : String}
    (split : patchLines text = before ++ header :: after)
    (unnamed : ∀ line ∈ before, isFileHeader line = false) (named : isFileHeader header = true)
    (first : readLines initial (before ++ [header]) = some u) :
    LosesNothing text ↔ Keeps u after := by
  constructor
  · intro keeps lines line rest v own run
    refine keeps (before ++ [header] ++ lines) line rest v (by simp [split, own])
      ⟨header, by simp, named⟩ ?_
    rw [readLines_append, first]
    exact run
  · intro keeps lines line rest v own ⟨first_header, mem, head⟩ run
    have longer : before.length < lines.length := by
      by_contra short
      have inside : lines <+: before :=
        List.prefix_of_prefix_length_le ⟨line :: rest, own.symm⟩ ⟨header :: after, split.symm⟩
          (by omega)
      rw [unnamed first_header (inside.subset mem)] at head
      cases head
    obtain ⟨more, rfl⟩ : before ++ [header] <+: lines :=
      List.prefix_of_prefix_length_le ⟨after, by simp [split]⟩ ⟨line :: rest, own.symm⟩
        (by rw [List.length_append, List.length_singleton]; omega)
    rw [readLines_append, first] at run
    refine keeps more line rest v ?_ run
    rw [split, List.append_assoc, List.append_assoc, List.append_cancel_left_eq] at own
    exact (List.cons.inj own).2

end Runs

/-- What a valid patch shows. The rows of the files are the lines behind the first header,
unless one of them is lost when it is read. -/
theorem showsAll_iff {text : String} (valid : (parsePatch text).invalid = false) :
    ShowsAll text ↔ LosesNothing text := by
  obtain ⟨t, run, settled, files⟩ := read_of_valid valid
  have start : Blank initial := ⟨rfl, rfl, rfl⟩
  rw [ShowsAll, files]
  rcases start.first_header run with ⟨unnamed, blank⟩ |
    ⟨before, header, after, u, split, unnamed, named, first, ready, rest⟩
  · rw [afterFirstHeader_of_none unnamed, blank.files]
    refine iff_of_true ⟨[], .nil, .nil⟩ fun lines line more s own ⟨header, mem, head⟩ => ?_
    rw [unnamed header (own ▸ List.mem_append_left _ mem)] at head
    cases head
  · obtain ⟨rows, lost, accounts, adds, exact⟩ := reads_lines ready.sound rest settled
    rw [ready.settled] at accounts
    have merged : Merges ((t.files.filter DiffFile.shown).map fileRows) rows :=
      (adds [] ready.empty).filter fun file _ => rows_of_hidden file
    rw [losesNothing_iff split unnamed named first, ← exact, split,
      afterFirstHeader_append unnamed named]
    constructor
    · rintro ⟨rows', all, merged'⟩
      exact lost_unique accounts all (merged.perm.trans merged'.perm.symm)
    · rintro rfl
      exact ⟨rows, accounts, merged⟩

end DiffRows
