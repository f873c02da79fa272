import SecReviewBot.GitQuoting
import SecReviewBot.GithubIntegration.SuggestionService

/-!
# Patches read back

What `parseWorkspacePatch` makes of the patch that Git prints for some files. The hunks come
back whole whatever their lines contain, because a line of a hunk begins with its marker.
The destination is a quoted path with a tab behind it when there is a space in it, and this
tab hides the closing quote.
-/

namespace PatchParsing

open TextCodecs TextPieces GitDiffs GitQuoting SuggestionAnchors SuggestionService

theorem decodeQuoted_octet {a b c : Char} {octet : Nat} (means : octalEscape a b c = some octet)
    (later : List Char) :
    decodeQuoted ('\\' :: a :: b :: c :: later) = (decodeQuoted later).map (octet :: ·) := by
  rw [decodeQuoted.eq_def]
  simp [means]

theorem decodeQuoted_escape {e : Char} {octet : Nat} (letter : octalDigit e = none)
    (means : escapes e = some octet) (tail : List Char) :
    decodeQuoted ('\\' :: e :: tail) = (decodeQuoted tail).map (octet :: ·) := by
  have never : ∀ x y, octalEscape e x y = none := by
    intro x y
    simp [octalEscape, letter]
  rw [decodeQuoted.eq_def]
  rcases tail with _ | ⟨x, _ | ⟨y, later⟩⟩ <;> simp [unescaped, means, never]

theorem decodeQuoted_plain {c : Char} (backslash : c ≠ '\\') (quote : c ≠ '"')
    (rest : List Char) :
    decodeQuoted (c :: rest) = (decodeQuoted rest).map (utf8EncodeChar c ++ ·) := by
  rw [decodeQuoted.eq_def]
  simp [backslash, quote]

theorem octalEscape_digits {octet : Nat} (small : octet < 256) :
    octalEscape (Char.ofNat (48 + octet / 64)) (Char.ofNat (48 + octet / 8 % 8))
      (Char.ofNat (48 + octet % 8)) = some octet := by
  have digit : ∀ n < 8, octalDigit (Char.ofNat (48 + n)) = some n := by decide
  have first := digit (octet / 64) (by omega)
  have second := digit (octet / 8 % 8) (by omega)
  have third := digit (octet % 8) (by omega)
  have top : octet / 64 ≤ 3 := by omega
  simp only [octalEscape, first, second, third, Option.bind_eq_bind, Option.bind_some, top,
    if_true, Option.some.injEq]
  omega

theorem map_map_cons (octet : Nat) (more : List Nat) (value : Except String (List Nat)) :
    (value.map (more ++ ·)).map (octet :: ·) = value.map (octet :: more ++ ·) := by
  cases value <;> rfl

theorem decodeQuoted_octets (octets : List Nat) (small : ∀ octet ∈ octets, octet < 256)
    (rest : List Char) :
    decodeQuoted (octets.flatMap octalChars ++ rest) = (decodeQuoted rest).map (octets ++ ·) := by
  induction octets with
  | nil => cases h : decodeQuoted rest <;> simp [h, Except.map]
  | cons octet more ih =>
    have later := ih fun other mem => small other (by simp [mem])
    rw [List.flatMap_cons, List.append_assoc, octalChars]
    simp only [List.cons_append, List.nil_append]
    rw [decodeQuoted_octet (octalEscape_digits (small octet (by simp))), later, map_map_cons]
    rfl

theorem shortEscape_decoded {c letter : Char} (short : shortEscape c = some letter) :
    octalDigit letter = none ∧ escapes letter = some c.toNat ∧ c.toNat < 128 := by
  simp only [shortEscape] at short
  split at short
  · next value => cases short; rw [value]; decide
  split at short
  · next value => cases short; rw [value]; decide
  split at short
  · next value => cases short; rw [value]; decide
  split at short
  · next value => cases short; rw [value]; decide
  split at short
  · next value => cases short; rw [value]; decide
  split at short
  · next value => cases short; rw [value]; decide
  split at short
  · next value => cases short; rw [value]; decide
  split at short
  · next value => cases short; rw [value]; decide
  split at short
  · next value => cases short; rw [value]; decide
  · cases short

theorem decodeQuoted_quoteChar (quotePath : Bool) (c : Char) (rest : List Char) :
    decodeQuoted (quoteChar quotePath c ++ rest) =
      (decodeQuoted rest).map (utf8EncodeChar c ++ ·) := by
  have ascii : c.toNat < 128 → utf8EncodeChar c = [c.toNat] := fun small => by
    simp [utf8EncodeChar, small]
  rw [quoteChar]
  split
  · next letter short =>
    obtain ⟨digit, means, small⟩ := shortEscape_decoded short
    rw [List.cons_append, List.cons_append, List.nil_append, decodeQuoted_escape digit means,
      ascii small]
    rfl
  · next short =>
    split
    · next control =>
      have octets := decodeQuoted_octets [c.toNat] (by simp; omega) rest
      rw [List.flatMap_singleton] at octets
      rw [octets, ascii (by omega)]
    · split
      · exact decodeQuoted_octets _ (octets_lt c) rest
      · have backslash : c ≠ '\\' := by
          rintro rfl
          simp [shortEscape] at short
        have quote : c ≠ '"' := by
          rintro rfl
          simp [shortEscape] at short
        exact decodeQuoted_plain backslash quote rest

/-- The octets between the quotes are those of the path. -/
theorem decodeQuoted_flatMap (quotePath : Bool) (path : List Char) :
    decodeQuoted (path.flatMap (quoteChar quotePath)) = .ok (utf8Encode path) := by
  induction path with
  | nil => rfl
  | cons c rest ih =>
    rw [List.flatMap_cons, decodeQuoted_quoteChar, ih]
    rfl

/-- The path begins with a byte order mark. -/
def hasMark (path : String) : Bool := path.toList.head?.any fun c => c.toNat == 0xFEFF

/-- What is left of a path whose first character is a byte order mark. -/
def unmarked (path : String) : String :=
  if hasMark path then String.ofList (path.toList.drop 1) else path

theorem decodeFatal_encode (path : String) :
    decodeFatal (utf8Encode path.toList) = .ok (unmarked path) := by
  simp only [decodeFatal, utf8Decode_encode, if_true]
  cases chars : path.toList with
  | nil =>
    have empty : path = "" := String.toList_injective chars
    subst empty
    rfl
  | cons c rest =>
    simp only [unmarked, hasMark, chars, List.head?_cons, Option.any_some, beq_iff_eq,
      List.drop_succ_cons, List.drop_zero]
    split
    · rfl
    · rw [← chars, String.ofList_toList]

theorem startsWith_quote {quotePath : Bool} {path : String}
    (plain : isQuoted quotePath path = false) : startsWith path "\"" = false := by
  rw [startsWith, Bool.eq_false_iff]
  intro start
  have mem : '"' ∈ path.toList := (List.isPrefixOf_iff_prefix.mp start).subset (by simp)
  rw [isQuoted, List.any_eq_false] at plain
  exact plain '"' mem (by simp [special, shortEscape])

theorem takeWhile_tab {quotePath : Bool} {path : String} (plain : isQuoted quotePath path = false)
    (rest : List Char) (stops : rest.takeWhile (· ≠ '\t') = []) :
    (path.toList ++ rest).takeWhile (· ≠ '\t') = path.toList := by
  rw [List.takeWhile_append_of_pos, stops, List.append_nil]
  intro c mem
  rw [isQuoted, List.any_eq_false] at plain
  rw [decide_eq_true_eq]
  rintro rfl
  exact plain '\t' mem (by simp [special, shortEscape])

theorem decode_quoted {quotePath : Bool} {path : String} (quoted : isQuoted quotePath path = true) :
    decodeGitPatchPath (cQuote quotePath path) = .ok (unmarked path) := by
  have whole : (cQuote quotePath path).toList =
      '"' :: (path.toList.flatMap (quoteChar quotePath) ++ ['"']) := by simp [cQuote, quoted]
  have start : startsWith (cQuote quotePath path) "\"" = true := by simp [startsWith, whole]
  have stop : endsWithQuote (cQuote quotePath path) = true := by
    rw [endsWithQuote, whole, ← List.cons_append, List.getLast?_concat]
    rfl
  simp only [decodeGitPatchPath, start, stop, Bool.not_true, Bool.false_eq_true, if_false, whole,
    List.drop_succ_cons, List.drop_zero, List.dropLast_concat, decodeQuoted_flatMap]
  exact decodeFatal_encode path

theorem decode_plain {quotePath : Bool} {path : String} (plain : isQuoted quotePath path = false) :
    decodeGitPatchPath (cQuote quotePath path) = .ok path := by
  have same : cQuote quotePath path = path := by simp [cQuote, plain]
  have all : path.toList.takeWhile (· ≠ '\t') = path.toList := by
    simpa using takeWhile_tab plain [] rfl
  rw [same, decodeGitPatchPath, startsWith_quote plain]
  simp only [Bool.not_false, if_true]
  rw [all, String.ofList_toList]

theorem unmarked_eq_iff {path : String} : unmarked path = path ↔ hasMark path = false := by
  rw [unmarked]
  split
  · next marked =>
    refine iff_of_false ?_ (by simp [marked])
    intro same
    have chars := congrArg (fun text => text.toList.length) same
    cases h : path.toList with
    | nil => simp [hasMark, h] at marked
    | cons c rest => simp [h] at chars
  · next unmarked => simpa using unmarked

/-- Decoding undoes the quoting of a path unless a byte order mark is lost. -/
theorem decode_cQuote_iff (quotePath : Bool) (path : String) :
    decodeGitPatchPath (cQuote quotePath path) = .ok path ↔
      (isQuoted quotePath path = true → hasMark path = false) := by
  cases quoted : isQuoted quotePath path with
  | false => simp [decode_plain quoted]
  | true =>
    rw [decode_quoted quoted, Except.ok.injEq, unmarked_eq_iff]
    simp

/-- Git closes a header that has a space with a tab. -/
def destination (quotePath : Bool) (path : String) : String :=
  let quoted := cQuote quotePath ("b/" ++ path)
  if quoted.toList.contains ' ' then quoted ++ "\t" else quoted

theorem unbroken_destination (quotePath : Bool) (path : String) :
    '\n' ∉ (destination quotePath path).toList := by
  have unbroken := unbroken_cQuote quotePath ("b/" ++ path)
  simp only [destination]
  split
  · simp [unbroken]
  · exact unbroken

theorem isQuoted_destination (quotePath : Bool) (path : String) :
    isQuoted quotePath ("b/" ++ path) = isQuoted quotePath path := by
  have b : special quotePath 'b' = false := by simp [special, shortEscape]
  have slash : special quotePath '/' = false := by simp [special, shortEscape]
  simp [isQuoted, b, slash]

theorem contains_space (quotePath : Bool) (path : String) :
    (cQuote quotePath ("b/" ++ path)).toList.contains ' ' = true ↔ ' ' ∈ path.toList := by
  simp [space_mem_cQuote]

/-- The tab behind a quoted path hides its closing quote. -/
theorem decode_destination_iff (quotePath : Bool) (path : String) :
    decodeGitPatchPath (destination quotePath path) = .ok ("b/" ++ path) ↔
      (isQuoted quotePath path = true → ' ' ∉ path.toList) := by
  have unmarkedB : hasMark ("b/" ++ path) = false := by simp [hasMark]
  have whole := decode_cQuote_iff quotePath ("b/" ++ path)
  rw [isQuoted_destination, unmarkedB] at whole
  by_cases space : ' ' ∈ path.toList
  · simp only [destination, (contains_space quotePath path).mpr space, if_true]
    cases quoted : isQuoted quotePath path with
    | false =>
      have plain : isQuoted quotePath ("b/" ++ path) = false :=
        (isQuoted_destination quotePath path).trans quoted
      have same : cQuote quotePath ("b/" ++ path) = "b/" ++ path := by simp [cQuote, plain]
      have chars : ("b/" ++ path ++ "\t").toList = ("b/" ++ path).toList ++ ['\t'] := by simp
      have start : startsWith ("b/" ++ path ++ "\t") "\"" = false := by
        simp [startsWith, List.isPrefixOf_cons_cons]
      rw [same, decodeGitPatchPath, start, chars, takeWhile_tab plain ['\t'] (by simp),
        String.ofList_toList]
      exact iff_of_true rfl (by simp)
    | true =>
      have quotedB : isQuoted quotePath ("b/" ++ path) = true :=
        (isQuoted_destination quotePath path).trans quoted
      have chars : (cQuote quotePath ("b/" ++ path) ++ "\t").toList =
          '"' :: (("b/" ++ path).toList.flatMap (quoteChar quotePath) ++ ['"']) ++ ['\t'] := by
        simp [cQuote, quotedB]
      have start : startsWith (cQuote quotePath ("b/" ++ path) ++ "\t") "\"" = true := by
        rw [startsWith, chars]
        simp
      have stop : endsWithQuote (cQuote quotePath ("b/" ++ path) ++ "\t") = false := by
        rw [endsWithQuote, chars, List.getLast?_concat]
        decide
      rw [decodeGitPatchPath, start, stop]
      simp [space]
  · have absent := mt (contains_space quotePath path).mp space
    simp only [destination, absent, Bool.false_eq_true, if_false]
    rw [whole]
    simp [space]

/-- A file of a patch with the destination of its header and its hunks. -/
structure PatchSection where
  path : String
  names : Line
  extended : List (ExtendedKey × Line)
  source : Line
  hunks : List Hunk

def PatchSection.diff (quotePath : Bool) (part : PatchSection) : DiffSection where
  names := part.names
  extended := part.extended
  body := .text part.source ⟨destination quotePath part.path, unbroken_destination _ _⟩ part.hunks

def patchText (quotePath : Bool) (parts : List PatchSection) : String :=
  closed '\n' ((parts.map (PatchSection.diff quotePath)).flatMap DiffSection.lines)

/-- The lines of a hunk but for the notes on missing line feeds. -/
def parsedHunk (hunk : Hunk) : WorkspaceHunk where
  header := headerOf hunk
  lines := (hunk.lines.filter fun line => line.marker ≠ .noNewline).map HunkLine.text

def parsedSection (part : PatchSection) : WorkspacePatchFile where
  path := part.path
  hunks := part.hunks.map parsedHunk
  pathError := none

theorem updateLast_concat {α : Type} (f : α → α) (items : List α) (last : α) :
    updateLast f (items ++ [last]) = items ++ [f last] := by
  induction items with
  | nil => rfl
  | cons x rest ih =>
    cases rest with
    | nil => rfl
    | cons y later =>
      rw [List.cons_append, List.cons_append, updateLast, ← List.cons_append, ih]
      rfl

theorem scanLine_hunkLine (files : List WorkspacePatchFile) (file : WorkspacePatchFile)
    (hunks : List WorkspaceHunk) (hunk : WorkspaceHunk) (line : HunkLine) :
    scanLine { files := files ++ [{ file with hunks := hunks ++ [hunk] }], inHunk := true }
        line.text =
      { files := files ++ [{ file with hunks := hunks ++ [{ hunk with
          lines := hunk.lines ++ ([line].filter fun l => l.marker ≠ .noNewline).map
            HunkLine.text }] }]
        inHunk := true } := by
  obtain ⟨marker, content⟩ := line
  cases marker <;>
    simp [scanLine, HunkLine.text, Marker.text, startsWith, isHunkLine, addLine,
      updateLast_concat, List.isPrefixOf_cons_cons]

theorem scan_hunkLines (files : List WorkspacePatchFile) (file : WorkspacePatchFile)
    (hunks : List WorkspaceHunk) (hunk : WorkspaceHunk) (lines : List HunkLine) :
    (lines.map HunkLine.text).foldl scanLine
        { files := files ++ [{ file with hunks := hunks ++ [hunk] }], inHunk := true } =
      { files := files ++ [{ file with hunks := hunks ++ [{ hunk with
          lines := hunk.lines ++ (lines.filter fun l => l.marker ≠ .noNewline).map
            HunkLine.text }] }]
        inHunk := true } := by
  induction lines generalizing hunk with
  | nil => simp
  | cons line rest ih =>
    rw [List.map_cons, List.foldl_cons, scanLine_hunkLine, ih]
    congr 5
    rw [List.append_assoc, ← List.map_append, ← List.filter_append, List.singleton_append]

theorem scanLine_header (files : List WorkspacePatchFile) (file : WorkspacePatchFile)
    (inHunk : Bool) (hunk : Hunk) :
    scanLine { files := files ++ [file], inHunk } hunk.header =
      { files := files ++ [{ file with
          hunks := file.hunks ++ [{ header := headerOf hunk, lines := [] }] }]
        inHunk := true } := by
  have git : startsWith hunk.header "diff --git " = false := hunk.startsWith_header.1
  have start : startsWith hunk.header "@@ " = true := hunk.startsWith_header.2
  have plain : startsWith hunk.header "diff -ruN " = false := by
    simp [Hunk.header, startsWith, List.isPrefixOf_cons_cons]
  have plus : startsWith hunk.header "+++ " = false := by
    simp [Hunk.header, startsWith, List.isPrefixOf_cons_cons]
  simp [scanLine, git, start, plain, plus, parseHunkHeader_header, updateLast_concat, addHunk]

theorem scan_hunks (files : List WorkspacePatchFile) (file : WorkspacePatchFile) (inHunk : Bool)
    (hunks : List Hunk) :
    ∃ after, (hunks.flatMap fun hunk => hunk.header :: hunk.lines.map HunkLine.text).foldl scanLine
        { files := files ++ [file], inHunk } =
      { files := files ++ [{ file with hunks := file.hunks ++ hunks.map parsedHunk }]
        inHunk := after } := by
  induction hunks generalizing file inHunk with
  | nil => exact ⟨inHunk, by simp⟩
  | cons hunk rest ih =>
    have opened : (hunk.lines.map HunkLine.text).foldl scanLine
        (scanLine { files := files ++ [file], inHunk } hunk.header) =
          { files := files ++ [{ file with hunks := file.hunks ++ [parsedHunk hunk] }]
            inHunk := true } := by
      rw [scanLine_header]
      exact scan_hunkLines files file file.hunks { header := headerOf hunk, lines := [] } hunk.lines
    obtain ⟨after, later⟩ := ih { file with hunks := file.hunks ++ [parsedHunk hunk] } true
    refine ⟨after, ?_⟩
    rw [List.flatMap_cons, List.cons_append, List.foldl_cons, List.foldl_append, opened, later]
    simp

theorem scanLine_extended (files : List WorkspacePatchFile) (file : WorkspacePatchFile)
    (header : ExtendedKey × Line) :
    scanLine { files := files ++ [file], inHunk := false } (extendedLine header) =
      { files := files ++ [file], inHunk := false } := by
  obtain ⟨key, value⟩ := header
  cases key <;>
    simp [scanLine, extendedLine, ExtendedKey.text, startsWith, List.isPrefixOf_cons_cons]

theorem scan_extended (files : List WorkspacePatchFile) (file : WorkspacePatchFile)
    (headers : List (ExtendedKey × Line)) :
    (headers.map extendedLine).foldl scanLine { files := files ++ [file], inHunk := false } =
      { files := files ++ [file], inHunk := false } := by
  induction headers with
  | nil => rfl
  | cons header rest ih => rw [List.map_cons, List.foldl_cons, scanLine_extended, ih]

/-- What the scan makes of the section of a file. -/
def scannedSection (quotePath : Bool) (part : PatchSection) : WorkspacePatchFile :=
  let file := withDestination (destination quotePath part.path)
    { path := (part.diff quotePath).firstLine, hunks := [], pathError := some noDestination }
  { file with hunks := part.hunks.map parsedHunk }

theorem withDestination_hunks (value : String) (file : WorkspacePatchFile) :
    (withDestination value file).hunks = file.hunks := by
  rw [withDestination]
  split
  · rfl
  · split <;> rfl

theorem scan_section (quotePath : Bool) (part : PatchSection) (files : List WorkspacePatchFile)
    (inHunk : Bool) :
    ∃ after, (part.diff quotePath).lines.foldl scanLine { files, inHunk } =
      { files := files ++ [scannedSection quotePath part], inHunk := after } := by
  have first : scanLine { files, inHunk } (part.diff quotePath).firstLine =
      { files := files ++ [{ path := (part.diff quotePath).firstLine, hunks := [],
                             pathError := some noDestination }]
        inHunk := false } := by
    simp [scanLine, (part.diff quotePath).startsWith_firstLine]
  have source : ∀ file : WorkspacePatchFile,
      scanLine { files := files ++ [file], inHunk := false } ("--- " ++ part.source.text) =
        { files := files ++ [file], inHunk := false } := by
    intro file
    simp [scanLine, startsWith, List.isPrefixOf_cons_cons]
  have target : ∀ file : WorkspacePatchFile,
      scanLine { files := files ++ [file], inHunk := false }
          ("+++ " ++ destination quotePath part.path) =
        { files := files ++ [withDestination (destination quotePath part.path) file]
          inHunk := false } := by
    intro file
    simp [scanLine, startsWith, List.isPrefixOf_cons_cons, updateLast_concat]
  obtain ⟨after, hunks⟩ := scan_hunks files
    (withDestination (destination quotePath part.path)
      { path := (part.diff quotePath).firstLine, hunks := [], pathError := some noDestination })
    false part.hunks
  refine ⟨after, ?_⟩
  have lines : (part.diff quotePath).laterLines = part.extended.map extendedLine ++
      ("--- " ++ part.source.text) :: ("+++ " ++ destination quotePath part.path) ::
        part.hunks.flatMap fun hunk => hunk.header :: hunk.lines.map HunkLine.text := rfl
  rw [DiffSection.lines, List.foldl_cons, first, lines, List.foldl_append, scan_extended,
    List.foldl_cons, List.foldl_cons, source, target, hunks]
  simp [scannedSection, withDestination_hunks]

theorem scan_sections (quotePath : Bool) (parts : List PatchSection)
    (files : List WorkspacePatchFile) (inHunk : Bool) :
    ∃ after, ((parts.map (PatchSection.diff quotePath)).flatMap DiffSection.lines).foldl scanLine
        { files, inHunk } =
      { files := files ++ parts.map (scannedSection quotePath), inHunk := after } := by
  induction parts generalizing files inHunk with
  | nil => exact ⟨inHunk, by simp⟩
  | cons part rest ih =>
    obtain ⟨between, first⟩ := scan_section quotePath part files inHunk
    obtain ⟨after, later⟩ := ih (files ++ [scannedSection quotePath part]) between
    refine ⟨after, ?_⟩
    rw [List.map_cons, List.flatMap_cons, List.foldl_append, first, later]
    simp

theorem scanLine_empty (scan : PatchScan) : scanLine scan "" = scan := by
  simp [scanLine, startsWith, isHunkLine]

theorem parse_patchText (quotePath : Bool) (parts : List PatchSection) :
    parseWorkspacePatch (patchText quotePath parts) = parts.map (scannedSection quotePath) := by
  have unbroken : ∀ line ∈ (parts.map (PatchSection.diff quotePath)).flatMap DiffSection.lines,
      '\n' ∉ line.toList := by
    intro line mem
    obtain ⟨part, _, mem⟩ := List.mem_flatMap.mp mem
    exact part.unbroken_lines line mem
  obtain ⟨after, scanned⟩ := scan_sections quotePath parts [] false
  rw [parseWorkspacePatch, patchText, split_closed unbroken, List.foldl_append, scanned,
    List.foldl_cons, List.foldl_nil, scanLine_empty, List.nil_append]

/-- A file keeps its path when the destination line can be decoded. -/
theorem scannedSection_eq_iff (quotePath : Bool) (part : PatchSection) :
    scannedSection quotePath part = parsedSection part ↔
      decodeGitPatchPath (destination quotePath part.path) = .ok ("b/" ++ part.path) := by
  have start : ∀ path : String, startsWith ("b/" ++ path) "b/" = true := by
    intro path
    simp [startsWith]
  rw [scannedSection, withDestination]
  cases decoded : decodeGitPatchPath (destination quotePath part.path) with
  | error message => simp [parsedSection]
  | ok path =>
    dsimp only
    by_cases repository : startsWith path "b/" = true
    · obtain ⟨rest, chars⟩ := List.isPrefixOf_iff_prefix.mp repository
      have whole : path = "b/" ++ String.ofList rest := by
        apply String.toList_injective
        rw [← chars]
        simp
      subst whole
      rw [if_pos repository]
      simp [parsedSection]
    · rw [if_neg repository]
      refine iff_of_false (by simp [parsedSection]) ?_
      intro same
      cases same
      exact repository (start part.path)

/-- A patch is read back whole, and the quoted paths decoded, exactly when no quoted path has
a space in it or begins with a byte order mark. -/
theorem patch_read_back_iff (quotePath : Bool) (parts : List PatchSection) :
    (parseWorkspacePatch (patchText quotePath parts) = parts.map parsedSection ∧
      ∀ part ∈ parts, decodeGitPatchPath (cQuote quotePath part.path) = .ok part.path) ↔
    ∀ part ∈ parts, isQuoted quotePath part.path = true →
      ' ' ∉ part.path.toList ∧ hasMark part.path = false := by
  have each : parseWorkspacePatch (patchText quotePath parts) = parts.map parsedSection ↔
      ∀ part ∈ parts, isQuoted quotePath part.path = true → ' ' ∉ part.path.toList := by
    rw [parse_patchText, List.map_inj_left]
    refine forall₂_congr fun part _ => ?_
    rw [scannedSection_eq_iff, decode_destination_iff]
  rw [each]
  simp only [decode_cQuote_iff]
  constructor
  · rintro ⟨spaces, marks⟩ part mem quoted
    exact ⟨spaces part mem quoted, marks part mem quoted⟩
  · intro all
    exact ⟨fun part mem quoted => (all part mem quoted).1,
      fun part mem quoted => (all part mem quoted).2⟩

theorem unbroken_old : '\n' ∉ "old".toList := by decide

theorem unbroken_new : '\n' ∉ "new".toList := by decide

theorem unbroken_modes : '\n' ∉ "2f1b..9c0d 100644".toList := by decide

/-- A file whose name has a space and an umlaut. -/
def umlautSection : PatchSection where
  path := "docs/Über uns.md"
  names := ⟨"\"a/docs/\\303\\234ber uns.md\" \"b/docs/\\303\\234ber uns.md\"", by decide⟩
  extended := [(.index, ⟨"2f1b..9c0d 100644", unbroken_modes⟩)]
  source := ⟨"\"a/docs/\\303\\234ber uns.md\"\t", by decide⟩
  hunks := [{ oldStart := 1, oldCount := 1, newStart := 1, newCount := 1
              heading := ⟨"", unbroken_empty⟩
              lines := [⟨.removed, ⟨"old", unbroken_old⟩⟩,
                ⟨.added, ⟨"new", unbroken_new⟩⟩] }]

theorem umlaut_and_space_not_read :
    (parseWorkspacePatch (patchText true [umlautSection])).map (·.pathError) =
        [some "Error: Unterminated quoted Git path."] ∧
      parseWorkspacePatch (patchText true [umlautSection]) ≠ [umlautSection].map parsedSection := by
  have errors : (parseWorkspacePatch (patchText true [umlautSection])).map (·.pathError) =
      [some "Error: Unterminated quoted Git path."] := by
    rw [parse_patchText]
    decide
  refine ⟨errors, fun same => ?_⟩
  rw [same] at errors
  cases errors

end PatchParsing
