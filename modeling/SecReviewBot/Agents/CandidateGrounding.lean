import SecReviewBot.Agents.DiscoveryStage

/-!
# Grounding of discovery candidates

A candidate is kept for the places and the snippets of it that the sources of its chunk bear
out. The model classes trim the path of a place, and so the place may leave the file it was
found in.
-/

namespace CandidateGrounding

open TextCodecs DiscoveryStage

/-- The lines a location may name, one in an empty file. -/
def lineCount (content : String) : Nat := max (splitlines content).length 1

/-- The line on which a text first begins in a content, counted by newlines. -/
def FirstBegins (content snippet : List Char) (line : Nat) : Prop :=
  ∃ before after, content = before ++ snippet ++ after ∧ line = before.count '\n' + 1 ∧
    ∀ earlier later, content = earlier ++ snippet ++ later → before.length ≤ earlier.length

theorem lineOfOccurrence_isSome {needle text : List Char} {line : Nat} :
    (lineOfOccurrence needle text line).isSome ↔ needle <:+: text := by
  induction text generalizing line with
  | nil => simp [lineOfOccurrence]
  | cons c rest ih =>
    rw [lineOfOccurrence, List.infix_cons_iff]
    split
    · next here =>
      have start : needle <+: c :: rest := List.isPrefixOf_iff_prefix.mp here
      simp [start]
    · next later =>
      have apart : ¬ needle <+: c :: rest := fun start =>
        later (List.isPrefixOf_iff_prefix.mpr start)
      rw [ih]
      simp [apart]

/-- The occurrence found is the first one. -/
theorem lineOfOccurrence_first {needle text : List Char} {line found : Nat}
    (occurs : lineOfOccurrence needle text line = some found) :
    ∃ before after, text = before ++ needle ++ after ∧ found = line + before.count '\n' ∧
      ∀ earlier later, text = earlier ++ needle ++ later → before.length ≤ earlier.length := by
  induction text generalizing line with
  | nil =>
    rw [lineOfOccurrence] at occurs
    split at occurs
    · next empty =>
      cases occurs
      have nothing : needle = [] := List.prefix_nil.mp (List.isPrefixOf_iff_prefix.mp empty)
      exact ⟨[], [], by simp [nothing], by simp, fun _ _ _ => Nat.zero_le _⟩
    · cases occurs
  | cons c rest ih =>
    rw [lineOfOccurrence] at occurs
    split at occurs
    · next here =>
      cases occurs
      obtain ⟨after, eq⟩ := List.isPrefixOf_iff_prefix.mp here
      exact ⟨[], after, by simp [eq], by simp, fun _ _ _ => Nat.zero_le _⟩
    · next apart =>
      obtain ⟨before, after, eq, counted, first⟩ := ih occurs
      refine ⟨c :: before, after, by simp [eq], ?_, ?_⟩
      · by_cases newline : c = '\n'
        · rw [counted, if_pos newline, newline, List.count_cons_self]
          omega
        · rw [counted, if_neg newline, List.count_cons_of_ne newline]
      · intro earlier later other
        cases earlier with
        | nil => exact absurd (List.isPrefixOf_iff_prefix.mpr ⟨later, other.symm⟩) apart
        | cons d earlier =>
          have shorter := first earlier later (by simpa using (List.cons.inj other).2)
          simpa using shorter

theorem FirstBegins.unique {content snippet : List Char} {one other : Nat}
    (first : FirstBegins content snippet one) (second : FirstBegins content snippet other) :
    one = other := by
  obtain ⟨before, after, eq, rfl, least⟩ := first
  obtain ⟨before', after', eq', rfl, least'⟩ := second
  have length : before.length = before'.length :=
    Nat.le_antisymm (least before' after' eq') (least' before after eq)
  have same : before ++ (snippet ++ after) = before' ++ (snippet ++ after') := by
    rw [← List.append_assoc, ← List.append_assoc, ← eq, ← eq']
  rw [(List.append_inj same length).1]

theorem lineNumberForSnippet_eq_some_iff {content snippet : String} {line : Nat} :
    lineNumberForSnippet content snippet = some line ↔
      strip pythonSpace snippet ≠ "" ∧
        FirstBegins content.toList (strip pythonSpace snippet).toList line := by
  have found : ∀ {line : Nat},
      lineOfOccurrence (strip pythonSpace snippet).toList content.toList 1 = some line →
        FirstBegins content.toList (strip pythonSpace snippet).toList line := by
    intro line occurs
    obtain ⟨before, after, eq, counted, first⟩ := lineOfOccurrence_first occurs
    exact ⟨before, after, eq, by omega, first⟩
  rw [lineNumberForSnippet]
  split
  · next blank => simp [blank]
  · next visible =>
    constructor
    · intro occurs
      exact ⟨visible, found occurs⟩
    · rintro ⟨-, begins⟩
      have some : (lineOfOccurrence (strip pythonSpace snippet).toList content.toList 1).isSome := by
        obtain ⟨before, after, eq, -⟩ := begins
        exact lineOfOccurrence_isSome.mpr ⟨before, after, eq.symm⟩
      obtain ⟨other, occurs⟩ := Option.isSome_iff_exists.mp some
      rw [occurs, (found occurs).unique begins]

theorem lineNumberForSnippet_isSome {content snippet : String} :
    (lineNumberForSnippet content snippet).isSome ↔
      strip pythonSpace snippet ≠ "" ∧
        (strip pythonSpace snippet).toList <:+: content.toList := by
  rw [lineNumberForSnippet]
  split
  · next blank => simp [blank]
  · next visible =>
    rw [lineOfOccurrence_isSome]
    simp [visible]

theorem lineBreak_of_inside {c : Char} (inside : pythonSpace c = false) : lineBreak c = false := by
  simp only [pythonSpace, Bool.or_eq_false_iff, List.contains_eq_mem, decide_eq_false_iff_not,
    List.mem_cons, List.not_mem_nil, or_false, not_or] at inside
  simp only [lineBreak, List.contains_eq_mem, decide_eq_false_iff_not, List.mem_cons,
    List.not_mem_nil, or_false, not_or]
  omega

theorem splitlinesFrom_pos {current text : List Char} (begun : current ≠ []) :
    1 ≤ (splitlinesFrom current text).length := by
  fun_induction splitlinesFrom current text with
  | case1 => exact absurd rfl begun
  | case2 => simp
  | case3 => simp
  | case4 => simp
  | case5 current c rest _ inner ih => exact ih (by simp)

/-- A newline always ends a line, alone or after a carriage return. -/
theorem newlines_lt_splitlinesFrom {current text before after : List Char} {c : Char}
    (eq : text = before ++ c :: after) (inside : lineBreak c = false) :
    before.count '\n' + 1 ≤ (splitlinesFrom current text).length := by
  fun_induction splitlinesFrom current text generalizing before with
  | case1 => simp at eq
  | case2 => simp at eq
  | case3 current rest ih =>
    rcases before with _ | ⟨d, _ | ⟨e, before⟩⟩
    · cases eq
      cases inside
    · cases eq
      cases inside
    · simp only [List.cons_append, List.cons.injEq] at eq
      obtain ⟨rfl, rfl, eq⟩ := eq
      have fewer := ih eq
      have first : '\x0d' ≠ '\n' := by decide
      rw [List.count_cons_of_ne first, List.count_cons_self, List.length_cons]
      omega
  | case4 current d rest _ ends ih =>
    rcases before with _ | ⟨e, before⟩
    · cases eq
      rw [inside] at ends
      cases ends
    · obtain ⟨rfl, tails⟩ := List.cons.inj eq
      have fewer := ih tails
      rw [List.count_cons, List.length_cons]
      split <;> omega
  | case5 current d rest _ inner ih =>
    rcases before with _ | ⟨e, before⟩
    · exact splitlinesFrom_pos (by simp)
    · obtain ⟨rfl, tails⟩ := List.cons.inj eq
      have fewer := ih tails
      have other : d ≠ '\n' := by
        rintro rfl
        exact inner rfl
      rw [List.count_cons_of_ne other]
      exact fewer

/-- A snippet begins on a line of its file, though the file counts its lines otherwise. -/
theorem lineNumberForSnippet_within {content snippet : String} {line : Nat}
    (found : lineNumberForSnippet content snippet = some line) :
    1 ≤ line ∧ line ≤ lineCount content := by
  obtain ⟨visible, before, after, eq, rfl, -⟩ := lineNumberForSnippet_eq_some_iff.mp found
  have first := head_strip pythonSpace snippet
  have counted : before.count '\n' + 1 ≤ (splitlinesFrom [] content.toList).length := by
    cases chars : (strip pythonSpace snippet).toList with
    | nil => exact absurd (String.toList_inj.mp chars) visible
    | cons c rest =>
      have inside : pythonSpace c = false := first c (by rw [chars]; rfl)
      have broken : content.toList = before ++ c :: (rest ++ after) := by
        rw [eq, chars]
        simp
      exact newlines_lt_splitlinesFrom broken (lineBreak_of_inside inside)
  have lines : (splitlines content).length = (splitlinesFrom [] content.toList).length := rfl
  rw [lineCount, lines]
  omega

/-- A location in a file of the sources, at a line the file has. -/
def Within (sources : Sources) (location : DiscoveryLocation) : Prop :=
  ∃ content, sources.lookup location.file = some content ∧
    ∀ line ∈ location.line, 1 ≤ line ∧ line ≤ lineCount content

/-- The location a model reported, its path relative to the workspace. -/
def unslashed (location : DiscoveryLocation) : DiscoveryLocation :=
  { location with file := String.ofList (location.file.toList.dropWhile (· = '/')) }

/-- A snippet that some source holds verbatim. -/
def Occurs (sources : Sources) (item : String) : Prop :=
  strip pythonSpace item ≠ "" ∧
    ∃ source ∈ sources, (strip pythonSpace item).toList <:+: source.2.toList

/-- The first of the snippets that occur. -/
def FirstOccurring (sources : Sources) (items : List String) (item : String) : Prop :=
  ∃ skipped rest, items = skipped ++ item :: rest ∧ (∀ other ∈ skipped, ¬ Occurs sources other) ∧
    Occurs sources item

/-- What the model classes let through. -/
structure Produced (candidate : DiscoveryCandidate) : Prop where
  category : nonEmptyText candidate.category = .ok candidate.category
  description : nonEmptyText candidate.description = .ok candidate.description
  locations : ∀ location ∈ candidate.locations,
    discoveryLocation location.file location.line location.label = .ok location
  evidence : ∀ item ∈ candidate.evidence, nonEmptyText item = .ok item

/-- The place of the first snippet that occurs, of a candidate with no place of its own. -/
structure Recovered (sources : Sources) (candidate : DiscoveryCandidate)
    (location : DiscoveryLocation) : Prop where
  alone : ∀ given ∈ candidate.locations, ¬ Within sources (unslashed given)
  begins : ∃ item content line, FirstOccurring sources candidate.evidence item ∧
    sources.lookup location.file = some content ∧ location.line = some line ∧
    FirstBegins content.toList (strip pythonSpace item).toList line

structure Grounded (sources : Sources) (candidate result : DiscoveryCandidate) : Prop where
  within : ∀ location ∈ result.locations, Within sources location
  occurs : ∀ item ∈ result.evidence, Occurs sources item
  category : result.category = candidate.category
  description : result.description = candidate.description
  evidence : result.evidence.Sublist candidate.evidence
  locations : result.locations.Sublist (candidate.locations.map unslashed) ∨
    ∃ location, result.locations = [location] ∧ Recovered sources candidate location
  stable : normalizeCandidate sources result = .ok (some result)

/-- A candidate with neither signal. -/
structure Unsupported (sources : Sources) (candidate : DiscoveryCandidate) : Prop where
  locations : ∀ given ∈ candidate.locations, ¬ Within sources (unslashed given)
  evidence : ∀ item ∈ candidate.evidence, ¬ Occurs sources item

/-- Nothing for a candidate with neither signal, and else a grounded candidate. -/
def SoundlyNormalized (sources : Sources) (candidate : DiscoveryCandidate) : Prop :=
  (Unsupported sources candidate ∧ normalizeCandidate sources candidate = .ok none) ∨
    (¬ Unsupported sources candidate ∧ ∃ result,
      normalizeCandidate sources candidate = .ok (some result) ∧
        Grounded sources candidate result)

/-- The model classes leave the paths that are written alone, or the path they make of the
recovered one is another file with the snippet on the same line. -/
structure PathsKept (sources : Sources) (candidate : DiscoveryCandidate) : Prop where
  named : ∀ given ∈ candidate.locations, Within sources (unslashed given) →
    nonEmptyText (unslashed given).file = .ok (unslashed given).file
  recovered : (∀ given ∈ candidate.locations, ¬ Within sources (unslashed given)) →
    ∀ item, FirstOccurring sources candidate.evidence item → ∀ file content,
      sources.find? (fun source => (lineNumberForSnippet source.2 item).isSome) =
        some (file, content) →
      ∃ path other, nonEmptyText file = .ok path ∧ sources.lookup path = some other ∧
        lineNumberForSnippet other item = lineNumberForSnippet content item

theorem nonEmptyText_ok {value text : String} (ok : nonEmptyText value = .ok text) :
    text = strip whiteSpace value ∧ text ≠ "" := by
  rw [nonEmptyText] at ok
  split at ok
  · cases ok
  · next visible =>
    cases ok
    exact ⟨rfl, visible⟩

/-- What was let through once is let through as it is. -/
theorem nonEmptyText_again {value text : String} (ok : nonEmptyText value = .ok text) :
    nonEmptyText text = .ok text := by
  obtain ⟨rfl, visible⟩ := nonEmptyText_ok ok
  rw [nonEmptyText, strip_strip, if_neg visible]

theorem shortLabel_ok {value label : String} (ok : shortLabel value = .ok label) :
    nonEmptyText value = .ok label ∧ label.toList.length ≤ 120 := by
  cases text : nonEmptyText value with
  | error e =>
    simp only [shortLabel, text, bind, Except.bind] at ok
    cases ok
  | ok given =>
    simp only [shortLabel, text, bind, Except.bind] at ok
    split at ok
    · cases ok
    · next short =>
      cases ok
      exact ⟨rfl, by omega⟩

theorem shortLabel_of {value label : String} (ok : nonEmptyText value = .ok label)
    (short : label.toList.length ≤ 120) : shortLabel value = .ok label := by
  simp only [shortLabel, ok, bind, Except.bind]
  rw [if_neg (by omega)]
  rfl

theorem discoveryLocation_ok {file label : String} {line : Option Nat} {location : DiscoveryLocation}
    (ok : discoveryLocation file line label = .ok location) :
    nonEmptyText file = .ok location.file ∧ location.line = line ∧ line ≠ some 0 ∧
      shortLabel label = .ok location.label := by
  cases path : nonEmptyText file with
  | error e =>
    simp only [discoveryLocation, path, bind, Except.bind] at ok
    cases ok
  | ok path' =>
    by_cases zero : line = some 0
    · simp only [discoveryLocation, path, positiveLine, if_pos zero, bind, Except.bind] at ok
      cases ok
    · cases short : shortLabel label with
      | error e =>
        simp only [discoveryLocation, path, positiveLine, if_neg zero, short, bind, Except.bind] at ok
        cases ok
      | ok label' =>
        simp only [discoveryLocation, path, positiveLine, if_neg zero, short, bind, Except.bind] at ok
        cases ok
        exact ⟨rfl, rfl, zero, rfl⟩

theorem discoveryLocation_of {file label path text : String} {line : Option Nat}
    (named : nonEmptyText file = .ok path) (positive : line ≠ some 0)
    (labelled : shortLabel label = .ok text) :
    discoveryLocation file line label = .ok { file := path, line, label := text } := by
  simp only [discoveryLocation, named, positiveLine, if_neg positive, labelled, bind, Except.bind]
  rfl

section Locations

variable {sources : Sources} {given : DiscoveryLocation} {rest : List DiscoveryLocation}

theorem normalizedLocations_cons_apart (apart : ¬ Within sources (unslashed given))
    (positive : given.line ≠ some 0) :
    normalizedLocations sources (given :: rest) = normalizedLocations sources rest := by
  rw [normalizedLocations]
  cases found : sources.lookup (unslashed given).file with
  | none =>
    have same : sources.lookup (String.ofList (given.file.toList.dropWhile (· = '/'))) = none :=
      found
    simp only [same]
  | some content =>
    have same : sources.lookup (String.ofList (given.file.toList.dropWhile (· = '/'))) =
        some content := found
    have beyond : (given.line.any fun line => max (splitlines content).length 1 < line) = true := by
      by_contra inside
      refine apart ⟨content, found, fun line named => ?_⟩
      have numbered : given.line = some line := named
      rw [numbered] at inside positive
      simp only [Option.any_some, decide_eq_true_eq] at inside
      have nonzero : line ≠ 0 := fun zero => positive (by rw [zero])
      rw [lineCount]
      omega
    simp only [same, beyond, if_true]

theorem normalizedLocations_cons_within (within : Within sources (unslashed given)) :
    normalizedLocations sources (given :: rest) = (do
      let kept ← discoveryLocation (unslashed given).file given.line given.label
      return kept :: (← normalizedLocations sources rest)) := by
  obtain ⟨content, found, bounds⟩ := within
  have same : sources.lookup (String.ofList (given.file.toList.dropWhile (· = '/'))) =
      some content := found
  have inside : ¬ (given.line.any fun line => max (splitlines content).length 1 < line) = true := by
    intro beyond
    obtain ⟨line, numbered, past⟩ := Option.any_eq_true _ _ |>.mp beyond
    have bound := bounds line numbered
    rw [lineCount] at bound
    have past := of_decide_eq_true past
    omega
  rw [normalizedLocations]
  simp only [same, inside]
  rfl

theorem unslashed_unslashed (given : DiscoveryLocation) :
    unslashed (unslashed given) = unslashed given := by
  have fixed : (given.file.toList.dropWhile (· = '/')).dropWhile (· = '/') =
      given.file.toList.dropWhile (· = '/') := dropWhile_fixed head_dropWhile
  simp only [unslashed, String.toList_ofList, fixed]

theorem unslashed_of_relative {location : DiscoveryLocation}
    (relative : location.file.toList.head? ≠ some '/') : unslashed location = location := by
  have fixed : location.file.toList.dropWhile (· = '/') = location.file.toList := by
    refine dropWhile_fixed fun c first => ?_
    rw [decide_eq_false_iff_not]
    rintro rfl
    exact relative first
  rw [unslashed, fixed, String.ofList_toList]

/-- Locations that all stand are left as they are. -/
theorem normalizedLocations_standing {locations : List DiscoveryLocation}
    (within : ∀ location ∈ locations, Within sources location)
    (relative : ∀ location ∈ locations, unslashed location = location)
    (built : ∀ location ∈ locations,
      discoveryLocation location.file location.line location.label = .ok location) :
    normalizedLocations sources locations = .ok locations := by
  induction locations with
  | nil => rfl
  | cons given rest ih =>
    have same := relative given List.mem_cons_self
    have standing : Within sources (unslashed given) := by
      rw [same]
      exact within given List.mem_cons_self
    rw [normalizedLocations_cons_within standing, same, built given List.mem_cons_self,
      ih (fun l mem => within l (List.mem_cons_of_mem _ mem))
        (fun l mem => relative l (List.mem_cons_of_mem _ mem))
        (fun l mem => built l (List.mem_cons_of_mem _ mem))]
    rfl

theorem normalizedLocations_apart {locations : List DiscoveryLocation}
    (apart : ∀ given ∈ locations, ¬ Within sources (unslashed given))
    (positive : ∀ given ∈ locations, given.line ≠ some 0) :
    normalizedLocations sources locations = .ok [] := by
  induction locations with
  | nil => rfl
  | cons given rest ih =>
    rw [normalizedLocations_cons_apart (apart given List.mem_cons_self)
      (positive given List.mem_cons_self)]
    exact ih (fun l mem => apart l (List.mem_cons_of_mem _ mem))
      (fun l mem => positive l (List.mem_cons_of_mem _ mem))

/-- A location as the model class builds it from a reported one. -/
def rebuilt (given : DiscoveryLocation) : DiscoveryLocation :=
  { unslashed given with file := strip whiteSpace (unslashed given).file }

theorem discoveryLocation_unslashed {given kept : DiscoveryLocation}
    (produced : discoveryLocation given.file given.line given.label = .ok given)
    (ok : discoveryLocation (unslashed given).file given.line given.label = .ok kept) :
    kept = rebuilt given ∧ nonEmptyText (unslashed given).file = .ok kept.file := by
  obtain ⟨-, -, -, label⟩ := discoveryLocation_ok produced
  obtain ⟨file, line, -, label'⟩ := discoveryLocation_ok ok
  have text : kept.label = given.label := Except.ok.inj (label'.symm.trans label)
  have path : kept.file = strip whiteSpace (unslashed given).file := (nonEmptyText_ok file).1
  constructor
  · cases kept
    simp_all [rebuilt, unslashed]
  · exact file

/-- What the first location adds. -/
theorem normalizedLocations_cons_ok {kept : List DiscoveryLocation}
    (produced : discoveryLocation given.file given.line given.label = .ok given)
    (ok : normalizedLocations sources (given :: rest) = .ok kept) :
    (¬ Within sources (unslashed given) ∧ normalizedLocations sources rest = .ok kept) ∨
      (Within sources (unslashed given) ∧
        nonEmptyText (unslashed given).file = .ok (rebuilt given).file ∧
        ∃ later, kept = rebuilt given :: later ∧ normalizedLocations sources rest = .ok later) := by
  by_cases within : Within sources (unslashed given)
  · right
    rw [normalizedLocations_cons_within within] at ok
    cases first : discoveryLocation (unslashed given).file given.line given.label with
    | error e =>
      rw [first] at ok
      cases ok
    | ok location =>
      cases others : normalizedLocations sources rest with
      | error e =>
        rw [first, others] at ok
        cases ok
      | ok later =>
        rw [first, others] at ok
        cases ok
        obtain ⟨rfl, named⟩ := discoveryLocation_unslashed produced first
        exact ⟨within, named, later, rfl, rfl⟩
  · left
    rw [normalizedLocations_cons_apart within (discoveryLocation_ok produced).2.2.1] at ok
    exact ⟨within, ok⟩

variable {locations kept : List DiscoveryLocation}

theorem mem_of_within (produced : ∀ given ∈ locations,
      discoveryLocation given.file given.line given.label = .ok given)
    (ok : normalizedLocations sources locations = .ok kept) (mem : given ∈ locations)
    (within : Within sources (unslashed given)) :
    rebuilt given ∈ kept ∧ nonEmptyText (unslashed given).file = .ok (rebuilt given).file := by
  induction locations generalizing kept with
  | nil => cases mem
  | cons first rest ih =>
    have later := fun l mem => produced l (List.mem_cons_of_mem first mem)
    rcases normalizedLocations_cons_ok (produced first List.mem_cons_self) ok with
      ⟨apart, tail⟩ | ⟨-, named, others, rfl, tail⟩
    · rcases List.mem_cons.mp mem with rfl | mem
      · exact absurd within apart
      · exact ih later tail mem
    · rcases List.mem_cons.mp mem with rfl | mem
      · exact ⟨List.mem_cons_self, named⟩
      · exact ⟨List.mem_cons_of_mem _ (ih later tail mem).1, (ih later tail mem).2⟩

theorem rebuilt_of_trimmed {location : DiscoveryLocation} (same : unslashed given = location)
    (trimmed : strip whiteSpace location.file = location.file) : rebuilt given = location := by
  rw [rebuilt, same, trimmed]

/-- A location that stands is built at least as often as it was reported. -/
theorem count_unslashed_le {location : DiscoveryLocation} (produced : ∀ given ∈ locations,
      discoveryLocation given.file given.line given.label = .ok given)
    (ok : normalizedLocations sources locations = .ok kept) (within : Within sources location)
    (trimmed : strip whiteSpace location.file = location.file) :
    (locations.map unslashed).count location ≤ kept.count location := by
  induction locations generalizing kept with
  | nil => simp
  | cons first rest ih =>
    have later := fun l mem => produced l (List.mem_cons_of_mem first mem)
    rw [List.map_cons]
    rcases normalizedLocations_cons_ok (produced first List.mem_cons_self) ok with
      ⟨apart, tail⟩ | ⟨-, -, others, rfl, tail⟩
    · have other : unslashed first ≠ location := fun same => apart (same ▸ within)
      rw [List.count_cons_of_ne other]
      exact ih later tail
    · have fewer := ih later tail
      by_cases same : unslashed first = location
      · rw [rebuilt_of_trimmed same trimmed, same, List.count_cons_self, List.count_cons_self]
        omega
      · rw [List.count_cons_of_ne same]
        exact Nat.le_trans fewer List.count_le_count_cons

/-- And once more where another location is trimmed to it. -/
theorem count_unslashed_lt {location : DiscoveryLocation} (produced : ∀ given ∈ locations,
      discoveryLocation given.file given.line given.label = .ok given)
    (ok : normalizedLocations sources locations = .ok kept) (within : Within sources location)
    (trimmed : strip whiteSpace location.file = location.file) (mem : given ∈ locations)
    (stands : Within sources (unslashed given)) (built : rebuilt given = location)
    (moved : unslashed given ≠ location) :
    (locations.map unslashed).count location < kept.count location := by
  induction locations generalizing kept with
  | nil => cases mem
  | cons first rest ih =>
    have later := fun l mem => produced l (List.mem_cons_of_mem first mem)
    rw [List.map_cons]
    rcases normalizedLocations_cons_ok (produced first List.mem_cons_self) ok with
      ⟨apart, tail⟩ | ⟨-, -, others, rfl, tail⟩
    · have other : unslashed first ≠ location := fun same => apart (same ▸ within)
      rw [List.count_cons_of_ne other]
      rcases List.mem_cons.mp mem with rfl | mem
      · exact absurd stands apart
      · exact ih later tail mem
    · rcases List.mem_cons.mp mem with rfl | mem
      · have fewer := count_unslashed_le later tail within trimmed
        rw [List.count_cons_of_ne moved, built, List.count_cons_self]
        omega
      · have fewer := ih later tail mem
        by_cases same : unslashed first = location
        · rw [rebuilt_of_trimmed same trimmed, same, List.count_cons_self, List.count_cons_self]
          omega
        · rw [List.count_cons_of_ne same]
          exact Nat.lt_of_lt_of_le fewer List.count_le_count_cons

/-- The locations that stand, where their paths need no trimming. -/
theorem normalizedLocations_named (produced : ∀ given ∈ locations,
      discoveryLocation given.file given.line given.label = .ok given)
    (named : ∀ given ∈ locations, Within sources (unslashed given) →
      nonEmptyText (unslashed given).file = .ok (unslashed given).file) :
    ∃ kept, normalizedLocations sources locations = .ok kept ∧
      kept.Sublist (locations.map unslashed) ∧
      (∀ given ∈ locations, Within sources (unslashed given) → unslashed given ∈ kept) ∧
      ∀ location ∈ kept, Within sources location ∧ unslashed location = location ∧
        discoveryLocation location.file location.line location.label = .ok location := by
  induction locations with
  | nil => exact ⟨[], rfl, List.Sublist.slnil, by simp, by simp⟩
  | cons first rest ih =>
    obtain ⟨kept, ok, sub, all, standing⟩ := ih
      (fun l mem => produced l (List.mem_cons_of_mem _ mem))
      (fun l mem => named l (List.mem_cons_of_mem _ mem))
    obtain ⟨-, -, positive, label⟩ := discoveryLocation_ok (produced first List.mem_cons_self)
    by_cases within : Within sources (unslashed first)
    · have built : discoveryLocation (unslashed first).file first.line first.label =
          .ok (unslashed first) :=
        discoveryLocation_of (named first List.mem_cons_self within) positive label
      refine ⟨unslashed first :: kept, ?_, sub.cons_cons _, ?_, ?_⟩
      · rw [normalizedLocations_cons_within within, built, ok]
        rfl
      · intro given mem stands
        rcases List.mem_cons.mp mem with rfl | mem
        · exact List.mem_cons_self
        · exact List.mem_cons_of_mem _ (all given mem stands)
      · intro location mem
        rcases List.mem_cons.mp mem with rfl | mem
        · exact ⟨within, unslashed_unslashed first, built⟩
        · exact standing location mem
    · refine ⟨kept, ?_, sub.cons _, ?_, standing⟩
      · rw [normalizedLocations_cons_apart within positive, ok]
      · intro given mem stands
        rcases List.mem_cons.mp mem with rfl | mem
        · exact absurd stands within
        · exact all given mem stands

end Locations

theorem occurs_iff (sources : Sources) (item : String) :
    Occurs sources item ↔
      ∃ source ∈ sources, (lineNumberForSnippet source.2 item).isSome = true := by
  constructor
  · rintro ⟨visible, source, mem, inside⟩
    exact ⟨source, mem, lineNumberForSnippet_isSome.mpr ⟨visible, inside⟩⟩
  · rintro ⟨source, mem, found⟩
    obtain ⟨visible, inside⟩ := lineNumberForSnippet_isSome.mp found
    exact ⟨visible, source, mem, inside⟩

theorem evidenceFile_isSome (sources : Sources) (item : String) :
    (evidenceFile sources item).isSome = true ↔ Occurs sources item := by
  rw [evidenceFile, Option.isSome_map, List.find?_isSome, occurs_iff]

theorem groundedEvidence_spec (sources : Sources) (items : List String) :
    (groundedEvidence sources items).Sublist items ∧
      ∀ item, item ∈ groundedEvidence sources items ↔ item ∈ items ∧ Occurs sources item := by
  refine ⟨List.filter_sublist, fun item => ?_⟩
  rw [groundedEvidence, List.mem_filter, evidenceFile_isSome]

theorem groundedEvidence_again (sources : Sources) (items : List String) :
    groundedEvidence sources (groundedEvidence sources items) = groundedEvidence sources items := by
  rw [groundedEvidence, groundedEvidence, List.filter_filter]
  simp

theorem groundedEvidence_cons_occurs {sources : Sources} {item : String} (occurs : Occurs sources item)
    (items : List String) :
    groundedEvidence sources (item :: items) = item :: groundedEvidence sources items := by
  simp [groundedEvidence, (evidenceFile_isSome sources item).mpr occurs]

theorem groundedEvidence_cons_absent {sources : Sources} {item : String}
    (absent : ¬ Occurs sources item) (items : List String) :
    groundedEvidence sources (item :: items) = groundedEvidence sources items := by
  have no : ¬ (evidenceFile sources item).isSome = true := fun found =>
    absent ((evidenceFile_isSome sources item).mp found)
  simp [groundedEvidence, no]

theorem groundedEvidence_first {sources : Sources} {items rest : List String} {item : String}
    (first : groundedEvidence sources items = item :: rest) : FirstOccurring sources items item := by
  induction items with
  | nil => cases first
  | cons other items ih =>
    by_cases occurs : Occurs sources other
    · rw [groundedEvidence_cons_occurs occurs] at first
      obtain ⟨rfl, -⟩ := List.cons.inj first
      exact ⟨[], items, rfl, by simp, occurs⟩
    · rw [groundedEvidence_cons_absent occurs] at first
      obtain ⟨skipped, rest, rfl, apart, occurs'⟩ := ih first
      refine ⟨other :: skipped, rest, rfl, fun each mem => ?_, occurs'⟩
      rcases List.mem_cons.mp mem with rfl | mem
      · exact occurs
      · exact apart each mem

theorem FirstOccurring.grounded {sources : Sources} {items : List String} {item : String}
    (first : FirstOccurring sources items item) :
    ∃ rest, groundedEvidence sources items = item :: rest := by
  obtain ⟨skipped, rest, rfl, apart, occurs⟩ := first
  refine ⟨groundedEvidence sources rest, ?_⟩
  induction skipped with
  | nil => exact groundedEvidence_cons_occurs occurs rest
  | cons other skipped ih =>
    rw [List.cons_append, groundedEvidence_cons_absent (apart other List.mem_cons_self)]
    exact ih fun each mem => apart each (List.mem_cons_of_mem _ mem)

theorem pythonSpace_of_whiteSpace {c : Char} (space : whiteSpace c = true) : pythonSpace c = true := by
  simp only [whiteSpace, pythonSpace, Bool.or_eq_true, Bool.and_eq_true, decide_eq_true_eq,
    List.contains_eq_mem, List.mem_cons, List.not_mem_nil, or_false] at space ⊢
  omega

theorem strip_length_le (space : Char → Bool) (text : String) :
    (strip space text).toList.length ≤ text.toList.length := by
  rw [strip, String.toList_ofList, List.length_reverse]
  have front := (List.dropWhile_suffix space (l := text.toList)).length_le
  have back := (List.dropWhile_suffix space (l := (text.toList.dropWhile space).reverse)).length_le
  rw [List.length_reverse] at back
  omega

/-- The label of a recovered place passes the checks of its model class. -/
theorem evidenceLocationLabel_short (item : String) :
    ∃ label, shortLabel (evidenceLocationLabel item) = .ok label := by
  rw [evidenceLocationLabel]
  generalize (splitlines (strip pythonSpace item)).headD "" = line
  by_cases blank : strip pythonSpace line = ""
  · rw [blank]
    exact ⟨"evidence", rfl⟩
  · simp only [if_neg blank]
    refine ⟨_, shortLabel_of (if_neg ?_) ?_⟩
    · cases chars : (strip pythonSpace line).toList with
      | nil => exact absurd (String.toList_inj.mp chars) blank
      | cons c rest =>
        have inside : pythonSpace c = false := head_strip pythonSpace line c (by rw [chars]; rfl)
        refine strip_ne_empty (c := c) (by simp) ?_
        exact Bool.eq_false_iff.mpr fun space => by
          rw [pythonSpace_of_whiteSpace space] at inside
          cases inside
    · refine Nat.le_trans (strip_length_le _ _) ?_
      rw [String.toList_ofList, List.length_take]
      omega

section Candidates

variable {sources : Sources} {candidate : DiscoveryCandidate}

theorem recoveredLocation_eq {item file content : String}
    (found : sources.find? (fun source => (lineNumberForSnippet source.2 item).isSome) =
      some (file, content)) :
    recoveredLocation sources item = (do
      return [← discoveryLocation file (lineNumberForSnippet content item)
        (evidenceLocationLabel item)]) := by
  rw [recoveredLocation, found]

theorem mem_of_lookup {file content : String} (found : sources.lookup file = some content) :
    (file, content) ∈ sources := by
  induction sources with
  | nil => cases found
  | cons first rest ih =>
    obtain ⟨path, text⟩ := first
    rw [List.lookup_cons] at found
    by_cases same : file = path
    · subst same
      rw [beq_self_eq_true] at found
      cases found
      exact List.mem_cons_self
    · rw [beq_false_of_ne same] at found
      exact List.mem_cons_of_mem _ (ih found)

theorem mapM_nonEmptyText {items : List String}
    (again : ∀ item ∈ items, nonEmptyText item = .ok item) :
    items.mapM nonEmptyText = .ok items := by
  induction items with
  | nil => rfl
  | cons item rest ih =>
    rw [List.mapM_cons, again item List.mem_cons_self,
      ih fun other mem => again other (List.mem_cons_of_mem _ mem)]
    rfl

/-- A candidate with other locations, and the snippets of it that occur. -/
def supported (sources : Sources) (candidate : DiscoveryCandidate)
    (locations : List DiscoveryLocation) : DiscoveryCandidate :=
  { candidate with locations, evidence := groundedEvidence sources candidate.evidence }

theorem discoveryCandidate_eq (produced : Produced candidate) (locations : List DiscoveryLocation) :
    discoveryCandidate candidate.category candidate.description locations
      (groundedEvidence sources candidate.evidence) =
        .ok (supported sources candidate locations) := by
  have evidence : (groundedEvidence sources candidate.evidence).mapM nonEmptyText =
      .ok (groundedEvidence sources candidate.evidence) :=
    mapM_nonEmptyText fun item mem =>
      produced.evidence item (((groundedEvidence_spec sources _).2 item).mp mem).1
  rw [discoveryCandidate, produced.category, produced.description, evidence]
  rfl

theorem normalizeCandidate_eq (produced : Produced candidate) {valid locations : List DiscoveryLocation}
    (normalized : normalizedLocations sources candidate.locations = .ok valid)
    (all : locationsOrRecovered sources (groundedEvidence sources candidate.evidence) valid =
      .ok locations) :
    normalizeCandidate sources candidate =
      .ok (if locations = [] ∧ groundedEvidence sources candidate.evidence = [] then none
        else some (supported sources candidate locations)) := by
  rw [normalizeCandidate, normalized]
  simp only [all, bind, Except.bind, pure, Except.pure]
  split
  · rfl
  · rw [discoveryCandidate_eq produced]

theorem normalizeCandidate_ok {result : Option DiscoveryCandidate}
    (ok : normalizeCandidate sources candidate = .ok result) :
    ∃ valid locations, normalizedLocations sources candidate.locations = .ok valid ∧
      locationsOrRecovered sources (groundedEvidence sources candidate.evidence) valid =
        .ok locations := by
  rw [normalizeCandidate] at ok
  cases normalized : normalizedLocations sources candidate.locations with
  | error e =>
    rw [normalized] at ok
    cases ok
  | ok valid =>
    rw [normalized] at ok
    cases all : locationsOrRecovered sources (groundedEvidence sources candidate.evidence) valid with
    | error e =>
      simp only [all, bind, Except.bind] at ok
      cases ok
    | ok locations => exact ⟨valid, locations, rfl, all⟩

theorem locationsOrRecovered_some {evidence : List String} {locations : List DiscoveryLocation}
    (some : locations ≠ []) : locationsOrRecovered sources evidence locations = .ok locations := by
  cases locations with
  | nil => exact absurd rfl some
  | cons first rest => rfl

theorem shortLabel_again {value label : String} (ok : shortLabel value = .ok label) :
    shortLabel label = .ok label :=
  shortLabel_of (nonEmptyText_again (shortLabel_ok ok).1) (shortLabel_ok ok).2

/-- A candidate whose written places all stand, and stand as they are written. -/
theorem grounded_of (produced : Produced candidate) {valid locations : List DiscoveryLocation}
    (normalized : normalizedLocations sources candidate.locations = .ok valid)
    (all : locationsOrRecovered sources (groundedEvidence sources candidate.evidence) valid =
      .ok locations) (nonempty : locations ≠ [])
    (standing : ∀ location ∈ locations, Within sources location ∧ unslashed location = location ∧
      discoveryLocation location.file location.line location.label = .ok location)
    (given : locations.Sublist (candidate.locations.map unslashed) ∨
      ∃ location, locations = [location] ∧ Recovered sources candidate location) :
    normalizeCandidate sources candidate = .ok (some (supported sources candidate locations)) ∧
      Grounded sources candidate (supported sources candidate locations) := by
  obtain ⟨sub, mem⟩ := groundedEvidence_spec sources candidate.evidence
  have again : Produced (supported sources candidate locations) :=
    { category := produced.category
      description := produced.description
      locations := fun location own => (standing location own).2.2
      evidence := fun item own => produced.evidence item ((mem item).mp own).1 }
  constructor
  · rw [normalizeCandidate_eq produced normalized all]
    simp [nonempty]
  · constructor
    · exact fun location own => (standing location own).1
    · exact fun item own => ((mem item).mp own).2
    · rfl
    · rfl
    · exact sub
    · exact given
    · have same : normalizedLocations sources (supported sources candidate locations).locations =
          .ok locations :=
        normalizedLocations_standing (fun l own => (standing l own).1)
          (fun l own => (standing l own).2.1) (fun l own => (standing l own).2.2)
      have evidence : groundedEvidence sources (supported sources candidate locations).evidence =
          groundedEvidence sources candidate.evidence := groundedEvidence_again _ _
      rw [normalizeCandidate_eq again same (locationsOrRecovered_some nonempty)]
      simp [supported, nonempty, groundedEvidence_again]

theorem exists_file_of_occurs {item : String} (occurs : Occurs sources item) :
    ∃ file content, sources.find? (fun source => (lineNumberForSnippet source.2 item).isSome) =
        some (file, content) ∧ ∃ line, lineNumberForSnippet content item = some line := by
  have found : (sources.find? fun source => (lineNumberForSnippet source.2 item).isSome).isSome := by
    rw [List.find?_isSome]
    exact (occurs_iff sources item).mp occurs
  obtain ⟨⟨file, content⟩, eq⟩ := Option.isSome_iff_exists.mp found
  have own := List.find?_some eq
  exact ⟨file, content, eq, Option.isSome_iff_exists.mp own⟩

/-- The place recovered for a candidate with no place that stands. -/
theorem recovered_of (relative : ∀ source ∈ sources, source.1.toList.head? ≠ some '/')
    (paths : PathsKept sources candidate)
    (apart : ∀ given ∈ candidate.locations, ¬ Within sources (unslashed given))
    {item : String} (first : FirstOccurring sources candidate.evidence item) :
    ∃ location, recoveredLocation sources item = .ok [location] ∧ Within sources location ∧
      unslashed location = location ∧
      discoveryLocation location.file location.line location.label = .ok location ∧
      Recovered sources candidate location := by
  have occurs : Occurs sources item := by
    obtain ⟨-, -, -, -, occurs⟩ := first
    exact occurs
  obtain ⟨file, content, found, line, numbered⟩ := exists_file_of_occurs occurs
  obtain ⟨path, other, named, holds, same⟩ := paths.recovered apart item first file content found
  obtain ⟨label, labelled⟩ := evidenceLocationLabel_short item
  have begins : lineNumberForSnippet other item = some line := same.trans numbered
  have bounds := lineNumberForSnippet_within begins
  have positive : some line ≠ some 0 := by
    intro zero
    cases zero
    omega
  refine ⟨{ file := path, line := some line, label }, ?_, ?_, ?_, ?_, ?_⟩
  · rw [recoveredLocation_eq found, numbered, discoveryLocation_of named positive labelled]
    rfl
  · refine ⟨other, holds, fun n own => ?_⟩
    cases own
    exact bounds
  · exact unslashed_of_relative (relative _ (mem_of_lookup holds))
  · exact discoveryLocation_of (nonEmptyText_again named) positive (shortLabel_again labelled)
  · exact ⟨apart, item, other, line, first, holds, rfl,
      (lineNumberForSnippet_eq_some_iff.mp begins).2⟩

theorem sound_of_paths (relative : ∀ source ∈ sources, source.1.toList.head? ≠ some '/')
    (produced : Produced candidate) (paths : PathsKept sources candidate) :
    SoundlyNormalized sources candidate := by
  obtain ⟨kept, normalized, sub, all, standing⟩ :=
    normalizedLocations_named produced.locations paths.named
  obtain rfl | some := eq_or_ne kept []
  · have apart : ∀ given ∈ candidate.locations, ¬ Within sources (unslashed given) :=
      fun given mem within => by cases all given mem within
    cases evidence : groundedEvidence sources candidate.evidence with
    | nil =>
      have absent : ∀ item ∈ candidate.evidence, ¬ Occurs sources item := by
        intro item mem occurs
        have own := ((groundedEvidence_spec sources candidate.evidence).2 item).mpr ⟨mem, occurs⟩
        rw [evidence] at own
        cases own
      have nothing : locationsOrRecovered sources (groundedEvidence sources candidate.evidence) [] =
          .ok [] := by
        rw [evidence]
        rfl
      refine .inl ⟨⟨apart, absent⟩, ?_⟩
      rw [normalizeCandidate_eq produced normalized nothing]
      simp [evidence]
    | cons item rest =>
      have first := groundedEvidence_first evidence
      obtain ⟨location, recovered, within, same, built, place⟩ :=
        recovered_of relative paths apart first
      have one : locationsOrRecovered sources (groundedEvidence sources candidate.evidence) [] =
          .ok [location] := by
        rw [evidence]
        exact recovered
      have standing : ∀ other ∈ [location], Within sources other ∧ unslashed other = other ∧
          discoveryLocation other.file other.line other.label = .ok other := by
        intro other own
        rw [List.mem_singleton.mp own]
        exact ⟨within, same, built⟩
      have grounded := grounded_of produced normalized one (by simp) standing
        (.inr ⟨location, rfl, place⟩)
      refine .inr ⟨fun unsupported => ?_, _, grounded⟩
      obtain ⟨skipped, rest, eq, -, occurs⟩ := first
      exact unsupported.evidence item (by rw [eq]; simp) occurs
  · have grounded := grounded_of produced normalized (locationsOrRecovered_some some) some standing
      (.inl sub)
    refine .inr ⟨fun unsupported => ?_, _, grounded⟩
    obtain ⟨location, mem⟩ := List.exists_mem_of_ne_nil kept some
    obtain ⟨given, own, rfl⟩ := List.mem_map.mp (sub.subset mem)
    exact unsupported.locations given own (standing _ mem).1

/-- What a grounded result is made of. -/
theorem sound_shape (produced : Produced candidate) (sound : SoundlyNormalized sources candidate)
    (supportedBy : ¬ Unsupported sources candidate) :
    ∃ valid locations, normalizedLocations sources candidate.locations = .ok valid ∧
      locationsOrRecovered sources (groundedEvidence sources candidate.evidence) valid =
        .ok locations ∧
      Grounded sources candidate (supported sources candidate locations) := by
  rcases sound with ⟨unsupported, -⟩ | ⟨-, result, ok, grounded⟩
  · exact absurd unsupported supportedBy
  · obtain ⟨valid, locations, normalized, all⟩ := normalizeCandidate_ok ok
    rw [normalizeCandidate_eq produced normalized all] at ok
    split at ok
    · cases ok
    · cases ok
      exact ⟨valid, locations, normalized, all, grounded⟩

theorem named_of_sound (produced : Produced candidate) (sound : SoundlyNormalized sources candidate)
    {given : DiscoveryLocation} (mem : given ∈ candidate.locations)
    (within : Within sources (unslashed given)) :
    nonEmptyText (unslashed given).file = .ok (unslashed given).file := by
  obtain ⟨valid, locations, normalized, all, grounded⟩ :=
    sound_shape produced sound fun unsupported => unsupported.locations given mem within
  obtain ⟨own, named⟩ := mem_of_within produced.locations normalized mem within
  rw [locationsOrRecovered_some (List.ne_nil_of_mem own)] at all
  cases all
  by_contra trimmed
  have moved : unslashed given ≠ rebuilt given := fun same => trimmed (by rw [named, ← same])
  rcases grounded.locations with sub | ⟨place, -, recovered⟩
  · have more := count_unslashed_lt produced.locations normalized (grounded.within _ own)
      (strip_strip whiteSpace _) mem within rfl moved
    have fewer := sub.count_le (rebuilt given)
    have same : (supported sources candidate valid).locations = valid := rfl
    rw [same] at fewer
    omega
  · exact recovered.alone given mem within

theorem recovered_of_sound (produced : Produced candidate)
    (sound : SoundlyNormalized sources candidate)
    (apart : ∀ given ∈ candidate.locations, ¬ Within sources (unslashed given)) {item : String}
    (first : FirstOccurring sources candidate.evidence item) {file content : String}
    (found : sources.find? (fun source => (lineNumberForSnippet source.2 item).isSome) =
      some (file, content)) :
    ∃ path other, nonEmptyText file = .ok path ∧ sources.lookup path = some other ∧
      lineNumberForSnippet other item = lineNumberForSnippet content item := by
  obtain ⟨rest, evidence⟩ := first.grounded
  have occurs : ¬ Unsupported sources candidate := by
    obtain ⟨skipped, rest, eq, -, occurs⟩ := first
    exact fun unsupported => unsupported.evidence item (by rw [eq]; simp) occurs
  obtain ⟨valid, locations, normalized, all, grounded⟩ := sound_shape produced sound occurs
  rw [normalizedLocations_apart apart fun given mem =>
    (discoveryLocation_ok (produced.locations given mem)).2.2.1] at normalized
  cases normalized
  rw [evidence, locationsOrRecovered, recoveredLocation_eq found] at all
  cases built : discoveryLocation file (lineNumberForSnippet content item)
      (evidenceLocationLabel item) with
  | error e =>
    rw [built] at all
    cases all
  | ok location =>
    rw [built] at all
    cases all
    obtain ⟨named, line, -, -⟩ := discoveryLocation_ok built
    obtain ⟨other, holds, -⟩ := grounded.within location List.mem_cons_self
    refine ⟨location.file, other, named, holds, ?_⟩
    rcases grounded.locations with sub | ⟨place, eq, recovered⟩
    · obtain ⟨given, mem, eq⟩ := List.mem_map.mp (sub.subset List.mem_cons_self)
      exact absurd (eq ▸ grounded.within location List.mem_cons_self) (apart given mem)
    · obtain rfl : location = place := (List.cons.inj eq).1
      obtain ⟨item', other', n, first', holds', numbered, begins⟩ := recovered.begins
      obtain ⟨rest', evidence'⟩ := first'.grounded
      rw [evidence] at evidence'
      obtain ⟨rfl, -⟩ := List.cons.inj evidence'
      obtain rfl : other = other' := Option.some.inj (holds.symm.trans holds')
      have visible : strip pythonSpace item ≠ "" := by
        obtain ⟨-, -, -, -, visible, -⟩ := first
        exact visible
      rw [← line, numbered]
      exact lineNumberForSnippet_eq_some_iff.mpr ⟨visible, begins⟩

end Candidates

/-- Normalization grounds a candidate soundly and stably exactly where the model classes leave
the paths of its places alone. -/
theorem soundlyNormalized_iff (sources : Sources)
    (relative : ∀ source ∈ sources, source.1.toList.head? ≠ some '/')
    (candidate : DiscoveryCandidate) (produced : Produced candidate) :
    SoundlyNormalized sources candidate ↔ PathsKept sources candidate := by
  constructor
  · intro sound
    exact ⟨fun given mem within => named_of_sound produced sound mem within,
      fun apart item first file content found => recovered_of_sound produced sound apart first found⟩
  · exact sound_of_paths relative produced

/-- A file in a directory whose name begins with a blank. -/
def indented : Sources := [(" lib/app.py", "import os\neval(x)\n")]

def reported (file : String) : DiscoveryCandidate where
  category := "injection"
  description := "evaluates its input"
  locations := [{ file, line := some 2, label := "eval" }]
  evidence := ["eval(x)"]

/-- The recovered place names `lib/app.py`, which is no file of the sources. -/
theorem indented_leaves_file : ¬ SoundlyNormalized indented (reported "lib/app.py") := by
  have run : normalizeCandidate indented (reported "lib/app.py") = .ok (some
      { reported "lib/app.py" with
        locations := [{ file := "lib/app.py", line := some 2, label := "eval(x)" }] }) := by
    rfl
  rintro (⟨-, none⟩ | ⟨-, result, ok, grounded⟩)
  · rw [run] at none
    cases none
  · rw [run] at ok
    cases ok
    obtain ⟨content, found, -⟩ := grounded.within _ List.mem_cons_self
    have missing : indented.lookup "lib/app.py" = none := by decide
    rw [missing] at found
    cases found

theorem slashed_sound :
    SoundlyNormalized [("lib/app.py", "import os\neval(x)\n")] (reported "/lib/app.py") := by
  have produced : Produced (reported "/lib/app.py") := by
    constructor
    · rfl
    · rfl
    · simp only [reported, List.mem_singleton, forall_eq]
      rfl
    · simp only [reported, List.mem_singleton, forall_eq]
      rfl
  refine (soundlyNormalized_iff _ (by decide) _ produced).mpr ⟨?_, ?_⟩
  · simp only [reported, List.mem_singleton, forall_eq]
    intro _
    rfl
  · intro apart
    refine absurd ?_ (apart _ List.mem_cons_self)
    refine ⟨"import os\neval(x)\n", by decide, fun line own => ?_⟩
    cases own
    decide

end CandidateGrounding
