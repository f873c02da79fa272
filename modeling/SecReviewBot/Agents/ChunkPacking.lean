import Mathlib.Tactic.Ring
import SecReviewBot.Agents.ScanManifests

/-!
# Packing of discovery chunks

`_pack_discovery_chunks`: the files of a scan are packed in order into chunks whose prompts stay
below a target. The estimate of a prompt is any function of the chunk's id, its entries and
their sources, and files are read by a function of their paths.
-/

namespace ChunkPacking

open PythonPaths ScanManifests TextPieces

structure DiscoveryChunk where
  chunkId : String
  entries : List DiscoveryEntry
  tokenCount : Int

structure SkippedFile extends DiscoverySkippedFile where
  tokenCount : Option Int := none
  hardLimitTokens : Option Int := none

/-- A `dict` from paths to contents, in the order of insertion. -/
abbrev Sources : Type := List (Text × String)

abbrev Estimate : Type := (chunkId : String) → List DiscoveryEntry → Sources → Int

def discoveryChunkTokenLimits (deploymentLimitTokens : Int) (systemPromptTokens : Nat)
    (numerator denominator : Int) : Except String (Int × Int × Int) :=
  if numerator ≤ 0 ∨ denominator ≤ 0 ∨ numerator * 5 > denominator * 4 then
    .error "Discovery chunk target ratio must be between 0 and 4/5."
  else
    let targetTokens := (deploymentLimitTokens * numerator).fdiv denominator
    let hardLimitTokens := (deploymentLimitTokens * 4).fdiv 5
    if targetTokens ≤ systemPromptTokens then
      .error ("Repository discovery requires the selected chunk target to exceed " ++
        "the discovery system prompt size.")
    else .ok (deploymentLimitTokens, targetTokens, hardLimitTokens)

/-- A target that the limits admit is within the hard limit. -/
theorem target_le_hardLimit {deployment numerator denominator limit target hard : Int}
    {system : Nat}
    (admitted : discoveryChunkTokenLimits deployment system numerator denominator =
      .ok (limit, target, hard)) : target ≤ hard := by
  rw [discoveryChunkTokenLimits] at admitted
  split at admitted
  · cases admitted
  · next ratio =>
    simp only at admitted
    split at admitted
    · cases admitted
    · next above =>
      cases admitted
      simp only [not_or, not_le, not_lt] at ratio above
      obtain ⟨some, positive, most⟩ := ratio
      rw [Int.fdiv_eq_ediv_of_nonneg _ (by omega)] at above ⊢
      rw [Int.fdiv_eq_ediv_of_nonneg _ (by decide)]
      have floor := Int.ediv_mul_le (deployment * numerator) (show denominator ≠ 0 by omega)
      generalize deployment * numerator / denominator = quotient at *
      have bound : 0 ≤ deployment := by
        by_contra negative
        have whole : 0 < quotient * denominator := Int.mul_pos (by omega) positive
        have product : deployment * numerator ≤ 0 := Int.mul_nonpos_of_nonpos_of_nonneg (by omega)
          (by omega)
        omega
      have scaled := Int.mul_le_mul_of_nonneg_left most bound
      rw [Int.le_ediv_iff_mul_le (by decide)]
      refine Int.le_of_mul_le_mul_right ?_ positive
      calc quotient * 5 * denominator = quotient * denominator * 5 := by ring
        _ ≤ deployment * numerator * 5 := Int.mul_le_mul_of_nonneg_right floor (by decide)
        _ = deployment * (numerator * 5) := by ring
        _ ≤ deployment * (denominator * 4) := scaled
        _ = deployment * 4 * denominator := by ring

/-- `f"discovery-chunk-{number:04d}"`. -/
def chunkId (number : Nat) : String :=
  "discovery-chunk-" ++
    String.ofList (List.replicate (4 - (numeral number).length) '0' ++ numeral number)

def setSource (path : Text) (content : String) : Sources → Sources
  | [] => [(path, content)]
  | (known, old) :: rest =>
    if known = path then (known, content) :: rest else (known, old) :: setSource path content rest

structure Packing where
  chunks : List DiscoveryChunk := []
  skipped : List SkippedFile := []
  currentEntries : List DiscoveryEntry := []
  currentSources : Sources := []
  currentTokens : Int := 0

def Packing.nextId (s : Packing) : String := chunkId (s.chunks.length + 1)

def Packing.emitCurrent (s : Packing) : Packing :=
  if s.currentEntries = [] then s
  else
    { s with
      chunks := s.chunks ++
        [{ chunkId := s.nextId, entries := s.currentEntries, tokenCount := s.currentTokens }]
      currentEntries := []
      currentSources := []
      currentTokens := 0 }

section Loop

variable (read : Text → Option String) (estimate : Estimate) (targetTokens hardLimitTokens : Int)

def Packing.skip (s : Packing) (entry : DiscoveryEntry) (tokens : Int) : Packing :=
  { s with
    skipped := s.skipped ++
      [{ path := entry.path, reason := "token-budget-exceeded", sizeBytes := entry.sizeBytes
         tokenCount := some tokens, hardLimitTokens := some hardLimitTokens }] }

def packSingleFile (s : Packing) (entry : DiscoveryEntry) (content : String) : Packing :=
  let candidateTokens := estimate s.nextId [entry] [(entry.path, content)]
  if candidateTokens > hardLimitTokens then s.skip hardLimitTokens entry candidateTokens
  else
    { s with
      chunks := s.chunks ++
        [{ chunkId := s.nextId, entries := [entry], tokenCount := candidateTokens }] }

/-- An entry that would take the current chunk over the target begins the next one. -/
def packOrdinary (s : Packing) (entry : DiscoveryEntry) (content : String) : Packing :=
  let candidateEntries := s.currentEntries ++ [entry]
  let candidateSources := setSource entry.path content s.currentSources
  let candidateTokens := estimate s.nextId candidateEntries candidateSources
  let exceeds := s.currentEntries ≠ [] ∧ candidateTokens > targetTokens
  let s' := if exceeds then s.emitCurrent else s
  let candidateEntries := if exceeds then [entry] else candidateEntries
  let candidateSources := if exceeds then [(entry.path, content)] else candidateSources
  let candidateTokens :=
    if exceeds then estimate s'.nextId candidateEntries candidateSources else candidateTokens
  if s'.currentEntries = [] ∧ candidateTokens > hardLimitTokens then
    s'.skip hardLimitTokens entry candidateTokens
  else
    let s'' :=
      { s' with
        currentEntries := candidateEntries
        currentSources := candidateSources
        currentTokens := candidateTokens }
    if s''.currentTokens ≥ targetTokens then s''.emitCurrent else s''

def packEntry (strategy : String) (s : Packing) (entry : DiscoveryEntry) : Packing :=
  match read entry.path with
  | none =>
    { s with
      skipped := s.skipped ++
        [{ path := entry.path, reason := "binary-or-unreadable", sizeBytes := entry.sizeBytes }] }
  | some content =>
    if strategy = "single-file" then packSingleFile estimate hardLimitTokens s entry content
    else packOrdinary estimate targetTokens hardLimitTokens s entry content

def packDiscoveryChunks (strategy : String) (entries : List DiscoveryEntry) :
    List DiscoveryChunk × List SkippedFile :=
  let packed := (entries.foldl
    (packEntry read estimate targetTokens hardLimitTokens strategy) {}).emitCurrent
  (packed.chunks, packed.skipped)

end Loop

theorem ofDigitChars_zeros (count : Nat) (digits : List Char) :
    Nat.ofDigitChars 10 (List.replicate count '0' ++ digits) 0 = Nat.ofDigitChars 10 digits 0 := by
  induction count with
  | zero => rfl
  | succ count ih => rw [List.replicate_succ, List.cons_append, Nat.ofDigitChars_cons, ← ih]; rfl

theorem chunkId_injective {first second : Nat} (eq : chunkId first = chunkId second) :
    first = second := by
  have chars := congrArg String.toList eq
  rw [chunkId, chunkId, String.toList_append, String.toList_append, List.append_cancel_left_eq,
    String.toList_ofList, String.toList_ofList] at chars
  have value := congrArg (Nat.ofDigitChars 10 · 0) chars
  simpa only [ofDigitChars_zeros, numeral, Nat.ofDigitChars_ten_toDigits] using value

section Invariant

variable {read : Text → Option String} {estimate : Estimate} {targetTokens hardLimitTokens : Int}

/-- The contents of some entries, in their order. -/
def sourcesOf (read : Text → Option String) (entries : List DiscoveryEntry) : Sources :=
  entries.map fun entry => (entry.path, (read entry.path).getD "")

/-- Entries that make up a chunk of an id: the count is the estimate, within the limits. -/
structure Admitted (read : Text → Option String) (estimate : Estimate)
    (targetTokens hardLimitTokens : Int) (id : String) (entries : List DiscoveryEntry)
    (tokens : Int) : Prop where
  nonempty : entries ≠ []
  readable : ∀ entry ∈ entries, (read entry.path).isSome = true
  counted : tokens = estimate id entries (sourcesOf read entries)
  hard : tokens ≤ hardLimitTokens
  target : 1 < entries.length → tokens ≤ targetTokens

/-- The skip of a file for budget: the recorded count is its estimate as a chunk of its own, next
after the chunks of the files before it, and above the hard limit. -/
structure OverBudget (read : Text → Option String) (estimate : Estimate) (hardLimitTokens : Int)
    (before after : List DiscoveryEntry) (chunks : List DiscoveryChunk)
    (current : List DiscoveryEntry) (entry : DiscoveryEntry) (skipped : SkippedFile) : Prop where
  reason : skipped.reason = "token-budget-exceeded"
  limit : skipped.hardLimitTokens = some hardLimitTokens
  exceeds : ∃ earlier later content tokens, chunks = earlier ++ later ∧
    (earlier.flatMap DiscoveryChunk.entries).Sublist before ∧
    (later.flatMap DiscoveryChunk.entries ++ current).Sublist after ∧
    read entry.path = some content ∧ skipped.tokenCount = some tokens ∧
    tokens = estimate (chunkId (earlier.length + 1)) [entry] [(entry.path, content)] ∧
    hardLimitTokens < tokens

/-- A skipped file is no text, or over the budget. -/
def RightlySkipped (read : Text → Option String) (estimate : Estimate) (hardLimitTokens : Int)
    (entries : List DiscoveryEntry) (chunks : List DiscoveryChunk) (current : List DiscoveryEntry)
    (skipped : SkippedFile) : Prop :=
  ∃ before entry after, entries = before ++ entry :: after ∧ skipped.path = entry.path ∧
    skipped.sizeBytes = entry.sizeBytes ∧
    (skipped.reason = "binary-or-unreadable" ∧ read entry.path = none ∨
      OverBudget read estimate hardLimitTokens before after chunks current entry skipped)

structure Holds (read : Text → Option String) (estimate : Estimate)
    (targetTokens hardLimitTokens : Int) (entries : List DiscoveryEntry) (s : Packing) : Prop where
  chunks : ∀ chunk ∈ s.chunks, Admitted read estimate targetTokens hardLimitTokens chunk.chunkId
    chunk.entries chunk.tokenCount
  ids : s.chunks.map DiscoveryChunk.chunkId =
    (List.range s.chunks.length).map fun index => chunkId (index + 1)
  current : s.currentEntries ≠ [] → Admitted read estimate targetTokens hardLimitTokens s.nextId
    s.currentEntries s.currentTokens
  sources : s.currentSources = sourcesOf read s.currentEntries
  ordered : (s.chunks.flatMap DiscoveryChunk.entries ++ s.currentEntries).Sublist entries
  covered : (s.chunks.flatMap (fun chunk => chunk.entries.map DiscoveryEntry.path) ++
    s.currentEntries.map DiscoveryEntry.path ++ s.skipped.map fun file => file.path).Perm
      (entries.map DiscoveryEntry.path)
  skipped : ∀ file ∈ s.skipped,
    RightlySkipped read estimate hardLimitTokens entries s.chunks s.currentEntries file

variable {entries : List DiscoveryEntry} {s : Packing}

/-- The current chunk is emitted behind those that are. -/
theorem RightlySkipped.emit {file : SkippedFile} {chunks : List DiscoveryChunk}
    {chunk : DiscoveryChunk}
    (right : RightlySkipped read estimate hardLimitTokens entries chunks chunk.entries file) :
    RightlySkipped read estimate hardLimitTokens entries (chunks ++ [chunk]) [] file := by
  obtain ⟨before, entry, after, eq, path, size, unreadable | large⟩ := right
  · exact ⟨before, entry, after, eq, path, size, .inl unreadable⟩
  · obtain ⟨earlier, later, content, tokens, rfl, ahead, behind, counted⟩ := large.exceeds
    refine ⟨before, entry, after, eq, path, size, .inr ⟨large.reason, large.limit, ?_⟩⟩
    refine ⟨earlier, later ++ [chunk], content, tokens, List.append_assoc .., ahead, ?_, counted⟩
    simpa [List.flatMap_append] using behind

theorem holds_emitCurrent (holds : Holds read estimate targetTokens hardLimitTokens entries s) :
    Holds read estimate targetTokens hardLimitTokens entries s.emitCurrent := by
  rw [Packing.emitCurrent]
  split
  · exact holds
  · next some =>
    refine
      { chunks := fun chunk mem => ?_
        ids := ?_
        current := fun other => absurd rfl other
        sources := rfl
        ordered := ?_
        covered := ?_
        skipped := fun file mem => (holds.skipped file mem).emit }
    · rcases List.mem_append.mp mem with mem | mem
      · exact holds.chunks chunk mem
      · rw [List.mem_singleton.mp mem]
        exact holds.current some
    · rw [List.map_append, holds.ids, List.length_append, List.length_singleton, List.range_succ,
        List.map_append]
      rfl
    · simpa [List.flatMap_append] using holds.ordered
    · simpa [List.flatMap_append] using holds.covered

/-- Entries that follow change nothing, also where they join the current chunk. -/
theorem RightlySkipped.append {file : SkippedFile} {chunks : List DiscoveryChunk}
    {current joined more : List DiscoveryEntry}
    (right : RightlySkipped read estimate hardLimitTokens entries chunks current file)
    (joins : joined.Sublist more) :
    RightlySkipped read estimate hardLimitTokens (entries ++ more) chunks (current ++ joined)
      file := by
  obtain ⟨before, entry, after, rfl, path, size, unreadable | large⟩ := right
  · exact ⟨before, entry, after ++ more, by simp, path, size, .inl unreadable⟩
  · obtain ⟨earlier, later, content, tokens, eq, ahead, behind, counted⟩ := large.exceeds
    refine ⟨before, entry, after ++ more, by simp, path, size, .inr ⟨large.reason, large.limit, ?_⟩⟩
    refine ⟨earlier, later, content, tokens, eq, ahead, ?_, counted⟩
    rw [← List.append_assoc]
    exact behind.append joins

/-- An entry is skipped. -/
theorem holds_skip (holds : Holds read estimate targetTokens hardLimitTokens entries s)
    {entry : DiscoveryEntry} {file : SkippedFile} (path : file.path = entry.path)
    (right : RightlySkipped read estimate hardLimitTokens (entries ++ [entry]) s.chunks
      s.currentEntries file) :
    Holds read estimate targetTokens hardLimitTokens (entries ++ [entry])
      { s with skipped := s.skipped ++ [file] } where
  chunks := holds.chunks
  ids := holds.ids
  current := holds.current
  sources := holds.sources
  ordered := holds.ordered.trans (List.sublist_append_left _ _)
  covered := by
    rw [List.map_append, List.map_append, ← List.append_assoc, List.map_singleton,
      List.map_singleton, path]
    exact holds.covered.append_right _
  skipped := by
    intro other mem
    rcases List.mem_append.mp mem with mem | mem
    · have kept := (holds.skipped other mem).append (List.nil_sublist [entry])
      rw [List.append_nil] at kept
      exact kept
    · rw [List.mem_singleton.mp mem]
      exact right

/-- An entry joins the current chunk. -/
theorem holds_join (holds : Holds read estimate targetTokens hardLimitTokens entries s)
    {entry : DiscoveryEntry} {tokens : Int}
    (admitted : Admitted read estimate targetTokens hardLimitTokens s.nextId
      (s.currentEntries ++ [entry]) tokens) :
    Holds read estimate targetTokens hardLimitTokens (entries ++ [entry])
      { s with
        currentEntries := s.currentEntries ++ [entry]
        currentSources := sourcesOf read (s.currentEntries ++ [entry])
        currentTokens := tokens } where
  chunks := holds.chunks
  ids := holds.ids
  current := fun _ => admitted
  sources := rfl
  ordered := by
    rw [← List.append_assoc]
    exact holds.ordered.append (List.Sublist.refl _)
  covered := by
    have joined := holds.covered.append_right ([entry].map DiscoveryEntry.path)
    rw [List.map_append, List.map_append]
    refine List.Perm.trans ?_ joined
    simp only [List.append_assoc]
    exact (List.perm_append_comm.append_left _).append_left _
  skipped := fun file mem => (holds.skipped file mem).append (List.Sublist.refl _)

/-- With no chunk begun, an entry over the budget is skipped. -/
theorem holds_overBudget (holds : Holds read estimate targetTokens hardLimitTokens entries s)
    (empty : s.currentEntries = []) {entry : DiscoveryEntry} {content : String} {tokens : Int}
    (found : read entry.path = some content)
    (counted : tokens = estimate s.nextId [entry] [(entry.path, content)])
    (above : hardLimitTokens < tokens) :
    Holds read estimate targetTokens hardLimitTokens (entries ++ [entry])
      (s.skip hardLimitTokens entry tokens) := by
  have ordered := holds.ordered
  rw [empty, List.append_nil] at ordered
  refine holds_skip holds rfl ⟨entries, entry, [], rfl, rfl, rfl, .inr ⟨rfl, rfl, ?_⟩⟩
  refine ⟨s.chunks, [], content, tokens, (List.append_nil _).symm, ordered, ?_, found, rfl, counted,
    above⟩
  rw [empty]
  exact List.Sublist.refl _

theorem setSource_fresh {path : Text} (content : String) {sources : Sources}
    (fresh : path ∉ sources.map Prod.fst) :
    setSource path content sources = sources ++ [(path, content)] := by
  induction sources with
  | nil => rfl
  | cons first rest ih =>
    obtain ⟨known, old⟩ := first
    rw [List.map_cons, List.mem_cons, not_or] at fresh
    rw [setSource, if_neg (Ne.symm fresh.1), ih fresh.2]
    rfl

theorem sourcesOf_append (read : Text → Option String) (first second : List DiscoveryEntry) :
    sourcesOf read (first ++ second) = sourcesOf read first ++ sourcesOf read second :=
  List.map_append

theorem sourcesOf_single {entry : DiscoveryEntry} {content : String}
    (found : read entry.path = some content) :
    sourcesOf read [entry] = [(entry.path, content)] := by
  rw [sourcesOf, List.map_singleton, found, Option.getD_some]

theorem holds_single (holds : Holds read estimate targetTokens hardLimitTokens entries s)
    (empty : s.currentEntries = []) {entry : DiscoveryEntry} {content : String}
    (found : read entry.path = some content) :
    Holds read estimate targetTokens hardLimitTokens (entries ++ [entry])
        (packSingleFile estimate hardLimitTokens s entry content) ∧
      (packSingleFile estimate hardLimitTokens s entry content).currentEntries = [] := by
  rw [packSingleFile]
  split
  · next above =>
    exact ⟨holds_overBudget holds empty found rfl above, empty⟩
  · next within =>
    have admitted : Admitted read estimate targetTokens hardLimitTokens s.nextId
        (s.currentEntries ++ [entry]) (estimate s.nextId [entry] [(entry.path, content)]) := by
      rw [empty, List.nil_append]
      exact
        { nonempty := List.cons_ne_nil _ _
          readable := by simp [found]
          counted := by rw [sourcesOf_single found]
          hard := by omega
          target := by simp }
    have emitted := holds_emitCurrent (holds_join holds admitted)
    rw [empty] at emitted
    have ordered := emitted.ordered
    have covered := emitted.covered
    have skipped := emitted.skipped
    refine ⟨?_, empty⟩
    exact
      { chunks := emitted.chunks
        ids := emitted.ids
        current := fun other => absurd empty other
        sources := holds.sources
        ordered := by
          rw [empty]
          exact ordered
        covered := by
          rw [empty]
          exact covered
        skipped := by
          rw [empty]
          exact skipped }

/-- The sources with a new entry are those of the entries with it. -/
theorem setSource_current (holds : Holds read estimate targetTokens hardLimitTokens entries s)
    {entry : DiscoveryEntry} {content : String} (found : read entry.path = some content)
    (fresh : entry.path ∉ entries.map DiscoveryEntry.path) :
    setSource entry.path content s.currentSources =
      sourcesOf read (s.currentEntries ++ [entry]) := by
  rw [holds.sources, setSource_fresh, sourcesOf_append, sourcesOf_single found]
  intro mem
  rw [sourcesOf, List.map_map] at mem
  have inOrder := (holds.ordered.map DiscoveryEntry.path).subset
  refine fresh (inOrder ?_)
  rw [List.map_append]
  exact List.mem_append_right _ mem

theorem admitted_join (holds : Holds read estimate targetTokens hardLimitTokens entries s)
    (limits : targetTokens ≤ hardLimitTokens) {entry : DiscoveryEntry} {content : String}
    {tokens : Int} (found : read entry.path = some content)
    (counted : tokens = estimate s.nextId (s.currentEntries ++ [entry])
      (sourcesOf read (s.currentEntries ++ [entry])))
    (below : s.currentEntries ≠ [] → tokens ≤ targetTokens)
    (within : ¬ (s.currentEntries = [] ∧ tokens > hardLimitTokens)) :
    Admitted read estimate targetTokens hardLimitTokens s.nextId (s.currentEntries ++ [entry])
      tokens where
  nonempty := by simp
  readable := by
    intro other mem
    rcases List.mem_append.mp mem with mem | mem
    · have some : s.currentEntries ≠ [] := List.ne_nil_of_mem mem
      exact (holds.current some).readable other mem
    · rw [List.mem_singleton.mp mem, found]
      rfl
  counted := counted
  hard := by
    by_cases empty : s.currentEntries = []
    · exact not_lt.mp fun above => within ⟨empty, above⟩
    · exact (below empty).trans limits
  target := by
    intro many
    refine below fun empty => ?_
    rw [empty] at many
    simp at many

/-- The entry joins the chunk that is left after the first decision. -/
theorem holds_joins (holds : Holds read estimate targetTokens hardLimitTokens entries s)
    (limits : targetTokens ≤ hardLimitTokens) {entry : DiscoveryEntry} {content : String}
    {tokens : Int} (found : read entry.path = some content)
    (counted : tokens = estimate s.nextId (s.currentEntries ++ [entry])
      (sourcesOf read (s.currentEntries ++ [entry])))
    (below : s.currentEntries ≠ [] → tokens ≤ targetTokens) :
    Holds read estimate targetTokens hardLimitTokens (entries ++ [entry])
      (if s.currentEntries = [] ∧ tokens > hardLimitTokens then s.skip hardLimitTokens entry tokens
      else
        let s' :=
          { s with
            currentEntries := s.currentEntries ++ [entry]
            currentSources := sourcesOf read (s.currentEntries ++ [entry])
            currentTokens := tokens }
        if s'.currentTokens ≥ targetTokens then s'.emitCurrent else s') := by
  split
  · next exceeds =>
    obtain ⟨empty, above⟩ := exceeds
    refine holds_overBudget holds empty found ?_ above
    rw [counted, empty, List.nil_append, sourcesOf_single found]
  · next within =>
    have joined := holds_join holds (admitted_join holds limits found counted below within)
    simp only
    split
    · exact holds_emitCurrent joined
    · exact joined

theorem holds_ordinary (holds : Holds read estimate targetTokens hardLimitTokens entries s)
    (limits : targetTokens ≤ hardLimitTokens) {entry : DiscoveryEntry} {content : String}
    (found : read entry.path = some content)
    (fresh : entry.path ∉ entries.map DiscoveryEntry.path) :
    Holds read estimate targetTokens hardLimitTokens (entries ++ [entry])
      (packOrdinary estimate targetTokens hardLimitTokens s entry content) := by
  have sources := setSource_current holds found fresh
  rw [packOrdinary]
  by_cases exceeds : s.currentEntries ≠ [] ∧
      estimate s.nextId (s.currentEntries ++ [entry])
        (sourcesOf read (s.currentEntries ++ [entry])) > targetTokens
  · have empty : s.emitCurrent.currentEntries = [] := by
      rw [Packing.emitCurrent, if_neg exceeds.1]
    have next := holds_joins (holds_emitCurrent holds) limits found rfl
      fun some => absurd empty some
    rw [empty, List.nil_append, sourcesOf_single found] at next
    simp only [sources, if_pos exceeds]
    rw [empty]
    exact next
  · have next := holds_joins holds limits found rfl
      fun some => not_lt.mp fun above => exceeds ⟨some, above⟩
    simp only [sources, if_neg exceeds]
    exact next

/-- What packing one more entry keeps. -/
theorem holds_packEntry (holds : Holds read estimate targetTokens hardLimitTokens entries s)
    (limits : targetTokens ≤ hardLimitTokens) {strategy : String} {entry : DiscoveryEntry}
    (idle : strategy = "single-file" → s.currentEntries = [])
    (fresh : entry.path ∉ entries.map DiscoveryEntry.path) :
    Holds read estimate targetTokens hardLimitTokens (entries ++ [entry])
        (packEntry read estimate targetTokens hardLimitTokens strategy s entry) ∧
      (strategy = "single-file" →
        (packEntry read estimate targetTokens hardLimitTokens strategy s entry).currentEntries =
          []) := by
  rw [packEntry]
  cases found : read entry.path with
  | none =>
    refine ⟨holds_skip holds rfl ?_, idle⟩
    exact ⟨entries, entry, [], rfl, rfl, rfl, .inl ⟨rfl, found⟩⟩
  | some content =>
    by_cases single : strategy = "single-file"
    · simp only [if_pos single]
      obtain ⟨kept, empty⟩ := holds_single holds (idle single) found
      exact ⟨kept, fun _ => empty⟩
    · simp only [if_neg single]
      exact ⟨holds_ordinary holds limits found fresh, fun other => absurd other single⟩

theorem holds_foldl (limits : targetTokens ≤ hardLimitTokens) {strategy : String}
    (more : List DiscoveryEntry)
    (holds : Holds read estimate targetTokens hardLimitTokens entries s)
    (idle : strategy = "single-file" → s.currentEntries = [])
    (distinct : ((entries ++ more).map DiscoveryEntry.path).Nodup) :
    Holds read estimate targetTokens hardLimitTokens (entries ++ more)
      (more.foldl (packEntry read estimate targetTokens hardLimitTokens strategy) s) := by
  induction more generalizing entries s with
  | nil =>
    rw [List.append_nil]
    exact holds
  | cons entry more ih =>
    have fresh : entry.path ∉ entries.map DiscoveryEntry.path := by
      intro mem
      rw [List.map_append, List.map_cons, List.nodup_append] at distinct
      exact distinct.2.2 _ mem _ (List.mem_cons_self ..) rfl
    obtain ⟨kept, idle'⟩ := holds_packEntry holds limits idle fresh
    rw [List.append_cons] at distinct ⊢
    exact ih kept idle' distinct

theorem holds_start : Holds read estimate targetTokens hardLimitTokens [] {} where
  chunks := fun _ mem => absurd mem List.not_mem_nil
  ids := rfl
  current := fun some => absurd rfl some
  sources := rfl
  ordered := List.Sublist.refl _
  covered := List.Perm.refl _
  skipped := fun _ mem => absurd mem List.not_mem_nil

/-- Every entry is in one chunk or skipped, in order, and every chunk is within its limits. -/
structure PackedWithin (read : Text → Option String) (estimate : Estimate)
    (targetTokens hardLimitTokens : Int) (entries : List DiscoveryEntry)
    (chunks : List DiscoveryChunk) (skipped : List SkippedFile) : Prop where
  covered : (chunks.flatMap (fun chunk => chunk.entries.map DiscoveryEntry.path) ++
    skipped.map fun file => file.path).Perm (entries.map DiscoveryEntry.path)
  once : (chunks.flatMap (fun chunk => chunk.entries.map DiscoveryEntry.path) ++
    skipped.map fun file => file.path).Nodup
  ordered : (chunks.flatMap DiscoveryChunk.entries).Sublist entries
  admitted : ∀ chunk ∈ chunks, Admitted read estimate targetTokens hardLimitTokens chunk.chunkId
    chunk.entries chunk.tokenCount
  numbered : chunks.map DiscoveryChunk.chunkId =
    (List.range chunks.length).map fun index => chunkId (index + 1)
  distinct : (chunks.map DiscoveryChunk.chunkId).Nodup
  rightly : ∀ file ∈ skipped, RightlySkipped read estimate hardLimitTokens entries chunks [] file

theorem packedWithin_of_holds (holds : Holds read estimate targetTokens hardLimitTokens entries s)
    (empty : s.currentEntries = []) (distinct : (entries.map DiscoveryEntry.path).Nodup) :
    PackedWithin read estimate targetTokens hardLimitTokens entries s.chunks s.skipped := by
  have covered := holds.covered
  have ordered := holds.ordered
  have skipped := holds.skipped
  rw [empty, List.map_nil, List.append_nil] at covered
  rw [empty, List.append_nil] at ordered
  rw [empty] at skipped
  exact
    { covered
      ordered
      once := covered.nodup_iff.mpr distinct
      admitted := holds.chunks
      numbered := holds.ids
      distinct := by
        rw [holds.ids]
        refine List.nodup_range.map fun first second eq => ?_
        exact Nat.succ_injective (chunkId_injective eq)
      rightly := skipped }

/-- Files with distinct paths are packed within the limits that any deployment and ratio admit. -/
theorem packDiscoveryChunks_within {deployment numerator denominator limit target hard : Int}
    {system : Nat}
    (admitted : discoveryChunkTokenLimits deployment system numerator denominator =
      .ok (limit, target, hard))
    (read : Text → Option String) (estimate : Estimate) (strategy : String)
    {entries : List DiscoveryEntry} (distinct : (entries.map DiscoveryEntry.path).Nodup) :
    PackedWithin read estimate target hard entries
      (packDiscoveryChunks read estimate target hard strategy entries).1
      (packDiscoveryChunks read estimate target hard strategy entries).2 := by
  have folded : Holds read estimate target hard entries
      (entries.foldl (packEntry read estimate target hard strategy) {}) :=
    holds_foldl (target_le_hardLimit admitted) entries holds_start (fun _ => rfl) distinct
  have packed := holds_emitCurrent folded
  refine packedWithin_of_holds packed ?_ distinct
  rw [Packing.emitCurrent]
  split
  · next empty => exact empty
  · rfl

def pythonFile (name sizeBytes : Nat) : DiscoveryEntry where
  path := [name]
  sizeBytes
  language := "python"
  includeReason := "extension"

/-- Of four files the second is too long for any chunk and the last two share one. -/
def readFour (path : Text) : Option String :=
  if path = [98] then some "print('a long line of text')" else some "x = 1"

def estimateByLength : Estimate := fun _ _ sources =>
  (sources.map fun source => (source.2.length : Int) * 30).sum

theorem fourFiles_within :
    PackedWithin readFour estimateByLength 400 800
      [pythonFile 97 5, pythonFile 98 28, pythonFile 99 5, pythonFile 100 5]
      [{ chunkId := "discovery-chunk-0001", entries := [pythonFile 97 5], tokenCount := 150 },
        { chunkId := "discovery-chunk-0002", entries := [pythonFile 99 5, pythonFile 100 5]
          tokenCount := 300 }]
      [{ path := [98], reason := "token-budget-exceeded", sizeBytes := 28, tokenCount := some 840
         hardLimitTokens := some 800 }] := by
  have limits : discoveryChunkTokenLimits 1000 40 2 5 = .ok (1000, 400, 800) := by decide
  refine packDiscoveryChunks_within limits readFour estimateByLength "batched" ?_
  decide

end Invariant

end ChunkPacking
