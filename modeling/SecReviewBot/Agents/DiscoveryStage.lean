import SecReviewBot.TextPieces

/-!
# Discovery candidates

What `scan_stages/discovery/stage.py` makes of the candidates an agent reports for a chunk:
locations and evidence are checked against the sources, a location is recovered from
evidence where none survived, and each candidate gets an id. Of a chunk result only the
candidates matter to triage.
-/

namespace DiscoveryStage

open TextCodecs TextPieces

structure DiscoveryLocation where
  file : String
  line : Option Nat
  label : String
  deriving DecidableEq

structure DiscoveryCandidate where
  category : String
  description : String
  locations : List DiscoveryLocation
  evidence : List String
  deriving DecidableEq

inductive GroundingStatus where
  | grounded | needsGrounding
  deriving DecidableEq

structure DiscoveryCandidateResult where
  candidateId : String
  candidate : DiscoveryCandidate
  groundingStatus : GroundingStatus
  deriving DecidableEq

/-- What `strip_whitespace` of a pydantic string removes. -/
def whiteSpace (c : Char) : Bool :=
  [0x9, 0xA, 0xB, 0xC, 0xD, 0x20, 0x85, 0xA0, 0x1680, 0x2028, 0x2029, 0x202F, 0x205F,
    0x3000].contains c.toNat || (decide (0x2000 ≤ c.toNat) && decide (c.toNat ≤ 0x200A))

def nonEmptyText (value : String) : Except String String :=
  if strip whiteSpace value = "" then .error "String should have at least 1 character"
  else .ok (strip whiteSpace value)

/-- A line number of the model class, `ge=1`. -/
def positiveLine (line : Option Nat) : Except String (Option Nat) :=
  if line = some 0 then .error "Input should be greater than or equal to 1" else .ok line

/-- A label of the model class, `max_length=120`. -/
def shortLabel (value : String) : Except String String := do
  let label ← nonEmptyText value
  if 120 < label.toList.length then .error "String should have at most 120 characters"
  else return label

/-- The constructor of the model class. -/
def discoveryLocation (file : String) (line : Option Nat) (label : String) :
    Except String DiscoveryLocation := do
  return { file := ← nonEmptyText file, line := ← positiveLine line, label := ← shortLabel label }

def discoveryCandidate (category description : String) (locations : List DiscoveryLocation)
    (evidence : List String) : Except String DiscoveryCandidate := do
  return {
    category := ← nonEmptyText category
    description := ← nonEmptyText description
    locations
    evidence := ← evidence.mapM nonEmptyText }

/-- The characters at which `str.splitlines` ends a line. -/
def lineBreak (c : Char) : Bool :=
  [0xA, 0xB, 0xC, 0xD, 0x1C, 0x1D, 0x1E, 0x85, 0x2028, 0x2029].contains c.toNat

/-- `str.splitlines`, the characters of the current line in reverse. -/
def splitlinesFrom : List Char → List Char → List String
  | current, [] => if current = [] then [] else [String.ofList current.reverse]
  | current, '\r' :: '\n' :: rest => String.ofList current.reverse :: splitlinesFrom [] rest
  | current, c :: rest =>
    if lineBreak c then String.ofList current.reverse :: splitlinesFrom [] rest
    else splitlinesFrom (c :: current) rest

def splitlines (text : String) : List String := splitlinesFrom [] text.toList

/-- The line of the first occurrence: `content.find`, then the newlines before it. -/
def lineOfOccurrence (needle : List Char) : List Char → Nat → Option Nat
  | [], line => if needle.isPrefixOf [] then some line else none
  | c :: rest, line =>
    if needle.isPrefixOf (c :: rest) then some line
    else lineOfOccurrence needle rest (if c = '\n' then line + 1 else line)

/-- `_line_number_for_snippet` without a fallback. -/
def lineNumberForSnippet (content snippet : String) : Option Nat :=
  if strip pythonSpace snippet = "" then none
  else lineOfOccurrence (strip pythonSpace snippet).toList content.toList 1

/-- `sources` in the order in which the files were read. -/
abbrev Sources := List (String × String)

/-- The first file that holds a snippet. -/
def evidenceFile (sources : Sources) (item : String) : Option String :=
  (sources.find? fun source => (lineNumberForSnippet source.2 item).isSome).map Prod.fst

def groundedEvidence (sources : Sources) (items : List String) : List String :=
  items.filter fun item => (evidenceFile sources item).isSome

def evidenceLocationLabel (item : String) : String :=
  let firstLine := strip pythonSpace ((splitlines (strip pythonSpace item)).headD "")
  if firstLine = "" then "evidence" else String.ofList (firstLine.toList.take 120)

/-- The locations in files of the chunk, at lines the files have. -/
def normalizedLocations (sources : Sources) :
    List DiscoveryLocation → Except String (List DiscoveryLocation)
  | [] => .ok []
  | location :: rest =>
    let file := String.ofList (location.file.toList.dropWhile (· = '/'))
    match sources.lookup file with
    | none => normalizedLocations sources rest
    | some content =>
      if location.line.any fun line => max (splitlines content).length 1 < line then
        normalizedLocations sources rest
      else do
        let kept ← discoveryLocation file location.line location.label
        return kept :: (← normalizedLocations sources rest)

/-- The place of the first grounded snippet. -/
def recoveredLocation (sources : Sources) (item : String) :
    Except String (List DiscoveryLocation) :=
  match sources.find? fun source => (lineNumberForSnippet source.2 item).isSome with
  | none => .ok []
  | some (file, content) => do
    return [← discoveryLocation file (lineNumberForSnippet content item)
      (evidenceLocationLabel item)]

def locationsOrRecovered (sources : Sources) (evidence : List String) :
    List DiscoveryLocation → Except String (List DiscoveryLocation)
  | [] => match evidence with
    | [] => .ok []
    | item :: _ => recoveredLocation sources item
  | locations => .ok locations

/-- `_normalize_candidate`: `none` for a candidate with neither signal. -/
def normalizeCandidate (sources : Sources) (candidate : DiscoveryCandidate) :
    Except String (Option DiscoveryCandidate) := do
  let valid ← normalizedLocations sources candidate.locations
  let evidence := groundedEvidence sources candidate.evidence
  let locations ← locationsOrRecovered sources evidence valid
  if locations = [] ∧ evidence = [] then return none
  else return some (← discoveryCandidate candidate.category candidate.description locations evidence)

def hexDigit (c : Char) : Bool := c.isDigit || (decide ('a' ≤ c) && decide (c ≤ 'f'))

/-- `hashlib.sha1(text.encode("utf-8")).hexdigest()`, of some kind of texts. -/
structure Sha1 (τ : Type := String) where
  hexdigest : τ → String
  length : ∀ text, (hexdigest text).toList.length = 40
  hex : ∀ text, ∀ c ∈ (hexdigest text).toList, hexDigit c = true

/-- `hexdigest()[:count]`. -/
def Sha1.short {τ : Type} (sha1 : Sha1 τ) (count : Nat) (text : τ) : String :=
  String.ofList ((sha1.hexdigest text).toList.take count)

/-- The text an id is the hash of. -/
def candidatePayload (file category : String) (line : Nat) (description : String) : String :=
  file ++ ":" ++ category ++ ":" ++ String.ofList (numeral line) ++ ":" ++ description

/-- The payload of a candidate in a chunk whose first readable file is `first`. -/
def payloadIn (first : String) (candidate : DiscoveryCandidate) : String :=
  match candidate.locations with
  | [] => candidatePayload first candidate.category 0 candidate.description
  | primary :: _ =>
    candidatePayload primary.file candidate.category (primary.line.getD 0) candidate.description

/-- A chunk: its readable files and what the agent reported about them. -/
structure Chunk where
  sources : Sources
  reported : List DiscoveryCandidate
  distinct : (sources.map Prod.fst).Nodup

/-- The candidates that survive, each with the text of its id. -/
def survivors (chunk : Chunk) : Except String (List (String × DiscoveryCandidate)) :=
  match chunk.sources with
  | [] => .ok []
  | (first, _) :: _ => do
    let normalized ← chunk.reported.mapM (normalizeCandidate chunk.sources)
    return normalized.reduceOption.map fun candidate => (payloadIn first candidate, candidate)

def candidateResult (sha1 : Sha1) (payload : String) (candidate : DiscoveryCandidate) :
    DiscoveryCandidateResult where
  candidateId := sha1.short 16 payload
  candidate
  groundingStatus :=
    if candidate.locations ≠ [] ∧ candidate.evidence ≠ [] then .grounded else .needsGrounding

/-- The candidates of `scan_discovery_chunk`. -/
def scanDiscoveryChunk (sha1 : Sha1) (chunk : Chunk) :
    Except String (List DiscoveryCandidateResult) := do
  return (← survivors chunk).map fun found => candidateResult sha1 found.1 found.2

/-- The candidates of `build_discovery_result_from_chunks`. -/
def discoveryCandidates (chunkResults : List (List DiscoveryCandidateResult)) :
    List DiscoveryCandidateResult := chunkResults.flatten

/-- Every surviving candidate of a scan with the text of its id. -/
def scanned (chunks : List Chunk) : Except String (List (String × DiscoveryCandidate)) := do
  return (← chunks.mapM survivors).flatten

/-- The texts the ids of a scan are the hashes of. -/
def payloads (chunks : List Chunk) : List String :=
  match scanned chunks with
  | .ok found => found.map Prod.fst
  | .error _ => []

theorem mapM_scanDiscoveryChunk {sha1 : Sha1} {chunks : List Chunk}
    {results : List (List DiscoveryCandidateResult)}
    (scan : chunks.mapM (scanDiscoveryChunk sha1) = .ok results) :
    ∃ found, chunks.mapM survivors = .ok found ∧
      results = found.map fun each => each.map fun pair => candidateResult sha1 pair.1 pair.2 := by
  induction chunks generalizing results with
  | nil =>
    cases scan
    exact ⟨[], rfl, rfl⟩
  | cons chunk rest ih =>
    rw [List.mapM_cons] at scan ⊢
    cases first : survivors chunk with
    | error e =>
      simp only [scanDiscoveryChunk, first, bind, Except.bind] at scan
      cases scan
    | ok pairs =>
      cases later : rest.mapM (scanDiscoveryChunk sha1) with
      | error e =>
        simp only [scanDiscoveryChunk, first, later, bind, Except.bind, pure, Except.pure] at scan
        cases scan
      | ok more =>
        obtain ⟨found, others, rfl⟩ := ih later
        simp only [scanDiscoveryChunk, first, later, bind, Except.bind, pure, Except.pure] at scan
        cases scan
        refine ⟨pairs :: found, ?_, rfl⟩
        rw [others]
        rfl

/-- The candidates of a scan are those of its survivors. -/
theorem discoveryCandidates_eq {sha1 : Sha1} {chunks : List Chunk}
    {results : List (List DiscoveryCandidateResult)}
    (scan : chunks.mapM (scanDiscoveryChunk sha1) = .ok results) :
    ∃ found : List (String × DiscoveryCandidate), payloads chunks = found.map Prod.fst ∧
      discoveryCandidates results =
        found.map fun pair => candidateResult sha1 pair.1 pair.2 := by
  obtain ⟨found, survived, rfl⟩ := mapM_scanDiscoveryChunk scan
  have all : scanned chunks = .ok found.flatten := by
    rw [scanned, survived]
    rfl
  refine ⟨found.flatten, ?_, ?_⟩
  · rw [payloads, all]
  · rw [discoveryCandidates, List.map_flatten]

theorem pythonSpace_of_hexDigit {c : Char} (digit : hexDigit c = true) : pythonSpace c = false := by
  have bounds : 48 ≤ c.toNat ∧ c.toNat ≤ 102 := by
    simp only [hexDigit, Char.isDigit, Bool.or_eq_true, Bool.and_eq_true, decide_eq_true_eq] at digit
    rcases digit with ⟨low, high⟩ | ⟨low, high⟩
    · have low' : 48 ≤ c.toNat := low
      have high' : c.toNat ≤ 57 := high
      omega
    · have low' : 97 ≤ c.toNat := low
      have high' : c.toNat ≤ 102 := high
      omega
  exact pythonSpace_of_visible (by omega) (by omega)

/-- An id is neither blank nor padded. -/
theorem strip_short (sha1 : Sha1) {count : Nat} (some : 0 < count) (text : String) :
    strip pythonSpace (sha1.short count text) = sha1.short count text ∧
      sha1.short count text ≠ "" := by
  constructor
  · refine strip_of_no_space fun c mem => ?_
    rw [Sha1.short, String.toList_ofList] at mem
    exact pythonSpace_of_hexDigit (sha1.hex text c (List.mem_of_mem_take mem))
  · intro empty
    have chars := congrArg String.toList empty
    have length := congrArg List.length chars
    rw [Sha1.short, String.toList_ofList, List.length_take, sha1.length] at length
    have none : "".toList.length = 0 := rfl
    omega

end DiscoveryStage
