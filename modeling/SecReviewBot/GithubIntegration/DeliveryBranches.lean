import SecReviewBot.GitReferences

/-!
# Branches of deliveries

`branch-name.ts` and the names that `delivery-draft-pr.ts` builds: a readable part of the id and
the beginning of its SHA-256. Lower case of all of Unicode is a parameter that leaves the
characters of a segment and `/` alone.
-/

namespace DeliveryBranches

open GitReferences TextCodecs

/-- Every run of some characters becomes one other character; a run may already be begun. -/
def replaceRuns (matches_ : Char → Bool) (replacement : Char) :
    (inRun : Bool) → List Char → List Char
  | _, [] => []
  | inRun, c :: text =>
    if matches_ c then
      if inRun then replaceRuns matches_ replacement true text
      else replacement :: replaceRuns matches_ replacement true text
    else c :: replaceRuns matches_ replacement false text

def allowed (c : Char) : Bool := segmentChar c || c == '/'

def dashOrSlash (c : Char) : Bool := c == '-' || c == '/'

def sanitizeBranchSegment (toLowerCase : String → String) (value : String) : String :=
  let lower := (toLowerCase value).toList
  let replaced := replaceRuns (fun c => !allowed c) '-' false lower
  let dashes := replaceRuns (· == '-') '-' false replaced
  let slashes := replaceRuns (· == '/') '/' false dashes
  strip dashOrSlash (String.ofList slashes)

def nonEmpty (text default : String) : String := if text = "" then default else text

/-- `String(value ?? '').trim() || 'unknown'`. -/
def rawId (value : String) : String := nonEmpty (strip ecmaSpace value) "unknown"

def stableBranchSegment (toLowerCase sha256 : String → String) (value : String) : String :=
  let raw := rawId value
  let sanitized := (sanitizeBranchSegment toLowerCase raw).toList
  let readable := (sanitized.map fun c => if c = '/' then '-' else c).take 48
  nonEmpty (String.ofList readable) "unknown" ++ "-" ++
    String.ofList ((sha256 raw).toList.take 12)

def buildRepositoryDeliveryBranchName (toLowerCase sha256 : String → String) (runId : String)
    (deliveryId : Option String) : String :=
  let runSegment := stableBranchSegment toLowerCase sha256 runId
  let deliverySegment := stableBranchSegment toLowerCase sha256 (deliveryId.getD "manual")
  s!"sec-review-bot/repo-scan/{runSegment}/{deliverySegment}"

section Runs

variable {matches_ : Char → Bool} {d : Char}

/-- No two of a character stand together. -/
def NoPair (d : Char) (text : List Char) : Prop := text.IsChain fun a b => ¬ (a = d ∧ b = d)

theorem mem_replaceRuns {inRun : Bool} {text : List Char} {c : Char}
    (mem : c ∈ replaceRuns matches_ d inRun text) : c = d ∨ c ∈ text ∧ matches_ c = false := by
  induction text generalizing inRun with
  | nil => exact absurd mem List.not_mem_nil
  | cons first text ih =>
    rw [replaceRuns] at mem
    split at mem
    · split at mem
      · exact (ih mem).imp_right fun own => ⟨List.mem_cons_of_mem _ own.1, own.2⟩
      · rcases List.mem_cons.mp mem with rfl | mem
        · exact .inl rfl
        · exact (ih mem).imp_right fun own => ⟨List.mem_cons_of_mem _ own.1, own.2⟩
    · next other =>
      rcases List.mem_cons.mp mem with rfl | mem
      · exact .inr ⟨List.mem_cons_self .., Bool.eq_false_iff.mpr other⟩
      · exact (ih mem).imp_right fun own => ⟨List.mem_cons_of_mem _ own.1, own.2⟩

theorem replaceRuns_none {inRun : Bool} {text : List Char} (none : ∀ c ∈ text, matches_ c = false) :
    replaceRuns matches_ d inRun text = text := by
  induction text generalizing inRun with
  | nil => rfl
  | cons c text ih =>
    rw [replaceRuns, if_neg (by simp [none c (List.mem_cons_self ..)]),
      ih fun c mem => none c (List.mem_cons_of_mem _ mem)]

/-- Where each run is replaced by its own character, a text without pairs stays. -/
theorem replaceRuns_noPair {text : List Char} (apart : NoPair d text) :
    replaceRuns (· == d) d false text = text ∧
      (text.head? ≠ some d → replaceRuns (· == d) d true text = text) := by
  induction text with
  | nil => exact ⟨rfl, fun _ => rfl⟩
  | cons c text ih =>
    obtain ⟨begun, inside⟩ := ih apart.tail
    by_cases own : c = d
    · subst own
      have next : text.head? ≠ some c := by
        intro first
        obtain ⟨rest, rfl⟩ : ∃ rest, text = c :: rest := by
          cases text with
          | nil => cases first
          | cons e rest =>
            cases first
            exact ⟨rest, rfl⟩
        exact (List.isChain_cons_cons.mp apart).1 ⟨rfl, rfl⟩
      refine ⟨?_, fun other => absurd rfl other⟩
      rw [replaceRuns, if_pos (by simp), if_neg (by simp), inside next]
    · have other : ¬ (c == d) = true := by simpa using own
      refine ⟨?_, fun _ => ?_⟩
      · rw [replaceRuns, if_neg other, begun]
      · rw [replaceRuns, if_neg other, begun]

theorem head_replaceRuns (text : List Char) :
    (replaceRuns (· == d) d false text).head? = text.head? := by
  cases text with
  | nil => rfl
  | cons c text =>
    rw [replaceRuns]
    split
    · next own =>
      rw [if_neg (by simp), List.head?_cons, List.head?_cons, beq_iff_eq.mp own]
    · rfl

/-- The runs of a character are gone when each is replaced by one. -/
theorem noPair_replaceRuns (text : List Char) :
    NoPair d (replaceRuns (· == d) d false text) ∧
      NoPair d (d :: replaceRuns (· == d) d true text) := by
  induction text with
  | nil => exact ⟨List.isChain_nil, List.isChain_singleton _⟩
  | cons c text ih =>
    obtain ⟨outside, inside⟩ := ih
    by_cases own : c = d
    · subst own
      simp only [replaceRuns, beq_self_eq_true, if_true, Bool.false_eq_true, if_false]
      exact ⟨inside, inside⟩
    · have other : ¬ (c == d) = true := by simpa using own
      rw [replaceRuns, replaceRuns, if_neg other, if_neg other]
      have tail : NoPair d (c :: replaceRuns (· == d) d false text) := by
        refine List.isChain_cons.mpr ⟨fun e _ both => own both.1, outside⟩
      exact ⟨tail, List.isChain_cons_cons.mpr ⟨fun both => own both.2, tail⟩⟩

/-- No pair of another character arises. -/
theorem noPair_other {e : Char} (different : e ≠ d) {text : List Char} (apart : NoPair e text)
    (inRun : Bool) : NoPair e (replaceRuns (· == d) d inRun text) := by
  induction text generalizing inRun with
  | nil => exact List.isChain_nil
  | cons c text ih =>
    have rest := ih apart.tail
    rw [replaceRuns]
    split
    · split
      · exact rest true
      · exact List.isChain_cons.mpr ⟨fun _ _ both => different both.1.symm, rest true⟩
    · refine List.isChain_cons.mpr ⟨fun next first both => ?_, rest false⟩
      rw [head_replaceRuns] at first
      exact (List.isChain_cons.mp apart).1 next first both

end Runs

theorem strip_toList (space : Char → Bool) (text : String) :
    (strip space text).toList = ((text.toList.dropWhile space).reverse.dropWhile space).reverse :=
  String.toList_ofList

theorem strip_inside (space : Char → Bool) (text : String) :
    (strip space text).toList <:+: text.toList := by
  rw [strip_toList]
  have front : text.toList.dropWhile space <:+ text.toList := List.dropWhile_suffix space
  have back : (text.toList.dropWhile space).reverse.dropWhile space <:+
      (text.toList.dropWhile space).reverse := List.dropWhile_suffix space
  have inner : ((text.toList.dropWhile space).reverse.dropWhile space).reverse <+:
      text.toList.dropWhile space := by
    rw [← List.reverse_suffix, List.reverse_reverse]
    exact back
  exact inner.isInfix.trans front.isInfix

/-- The runs of other characters, of dashes and of slashes are replaced. -/
def rewrite (text : List Char) : List Char :=
  replaceRuns (· == '/') '/' false (replaceRuns (· == '-') '-' false
    (replaceRuns (fun c => !allowed c) '-' false text))

theorem sanitizeBranchSegment_eq (toLowerCase : String → String) (value : String) :
    sanitizeBranchSegment toLowerCase value =
      strip dashOrSlash (String.ofList (rewrite (toLowerCase value).toList)) := rfl

theorem mem_rewrite {text : List Char} {c : Char} (mem : c ∈ rewrite text) : allowed c = true := by
  rcases mem_replaceRuns mem with rfl | ⟨mem, _⟩
  · rfl
  rcases mem_replaceRuns mem with rfl | ⟨mem, _⟩
  · rfl
  rcases mem_replaceRuns mem with rfl | ⟨_, own⟩
  · rfl
  · simpa using own

theorem rewrite_noPair (text : List Char) : NoPair '-' (rewrite text) ∧ NoPair '/' (rewrite text) :=
  ⟨noPair_other (by decide) (noPair_replaceRuns _).1 false, (noPair_replaceRuns _).1⟩

theorem rewrite_fixed {text : List Char} (own : ∀ c ∈ text, allowed c = true)
    (dashes : NoPair '-' text) (slashes : NoPair '/' text) : rewrite text = text := by
  have kept : replaceRuns (fun c => !allowed c) '-' false text = text :=
    replaceRuns_none fun c mem => by simp [own c mem]
  rw [rewrite, kept, (replaceRuns_noPair dashes).1, (replaceRuns_noPair slashes).1]

theorem mem_sanitize {toLowerCase : String → String} {value : String} {c : Char}
    (mem : c ∈ (sanitizeBranchSegment toLowerCase value).toList) : allowed c = true := by
  have inner := (strip_inside dashOrSlash _).subset mem
  rw [String.toList_ofList] at inner
  exact mem_rewrite inner

theorem sanitize_noPair (toLowerCase : String → String) (value : String) :
    NoPair '-' (sanitizeBranchSegment toLowerCase value).toList ∧
      NoPair '/' (sanitizeBranchSegment toLowerCase value).toList := by
  have inner := strip_inside dashOrSlash (String.ofList (rewrite (toLowerCase value).toList))
  rw [String.toList_ofList] at inner
  obtain ⟨dashes, slashes⟩ := rewrite_noPair (toLowerCase value).toList
  constructor
  · exact List.IsChain.infix dashes inner
  · exact List.IsChain.infix slashes inner

section Lower

variable {toLowerCase : String → String}
  (keeps : ∀ text : String, (∀ c ∈ text.toList, allowed c = true) → toLowerCase text = text)

include keeps

/-- What is sanitized once is left as it is. -/
theorem sanitize_sanitize (value : String) :
    sanitizeBranchSegment toLowerCase (sanitizeBranchSegment toLowerCase value) =
      sanitizeBranchSegment toLowerCase value := by
  obtain ⟨dashes, slashes⟩ := sanitize_noPair toLowerCase value
  rw [sanitizeBranchSegment_eq, keeps _ fun c mem => mem_sanitize mem,
    rewrite_fixed (fun c mem => mem_sanitize mem) dashes slashes, String.ofList_toList,
    sanitizeBranchSegment_eq, strip_strip]

end Lower

section Names

variable {toLowerCase sha256 : String → String}

/-- The digest is written as 64 hexadecimal digits. -/
structure HexDigest (sha256 : String → String) : Prop where
  length : ∀ text, (sha256 text).toList.length = 64
  digits : ∀ text, ∀ c ∈ (sha256 text).toList, c ∈ "0123456789abcdef".toList

/-- The beginnings of the digests of two texts differ where the texts do. -/
def NoCollision (sha256 : String → String) (first second : String) : Prop :=
  (sha256 first).toList.take 12 = (sha256 second).toList.take 12 → first = second

def readablePart (toLowerCase : String → String) (value : String) : List Char :=
  (nonEmpty (String.ofList (((sanitizeBranchSegment toLowerCase (rawId value)).toList.map
    fun c => if c = '/' then '-' else c).take 48)) "unknown").toList

theorem stableBranchSegment_toList (value : String) :
    (stableBranchSegment toLowerCase sha256 value).toList =
      readablePart toLowerCase value ++ '-' :: (sha256 (rawId value)).toList.take 12 := by
  simp [stableBranchSegment, readablePart, String.toList_append]

theorem readablePart_plain (value : String) :
    (∀ c ∈ readablePart toLowerCase value, segmentChar c = true) ∧
      (readablePart toLowerCase value).length ≤ 48 := by
  rw [readablePart, nonEmpty]
  split
  · exact ⟨by decide, by decide⟩
  · rw [String.toList_ofList]
    refine ⟨fun c mem => ?_, List.length_take_le ..⟩
    obtain ⟨own, sanitized, rfl⟩ := List.mem_map.mp (List.mem_of_mem_take mem)
    have kept := mem_sanitize sanitized
    rw [allowed, Bool.or_eq_true, beq_iff_eq] at kept
    split
    · rfl
    · next other => exact kept.resolve_right other

variable (hex : HexDigest sha256)

include hex

theorem stableBranchSegment_plain (value : String) :
    PlainSegment (stableBranchSegment toLowerCase sha256 value).toList ∧
      (stableBranchSegment toLowerCase sha256 value).toList.length ≤ 61 := by
  rw [stableBranchSegment_toList]
  obtain ⟨chars, size⟩ := @readablePart_plain toLowerCase value
  have digits : ∀ c ∈ "0123456789abcdef".toList, segmentChar c = true := by decide
  refine ⟨⟨by simp, fun c mem => ?_⟩, ?_⟩
  · rcases List.mem_append.mp mem with mem | mem
    · exact chars c mem
    · rcases List.mem_cons.mp mem with rfl | mem
      · rfl
      · exact digits c (hex.digits _ c (List.mem_of_mem_take mem))
  · have taken := List.length_take_le 12 (sha256 (rawId value)).toList
    rw [List.length_append, List.length_cons]
    omega

/-- The segment of an id tells the digest of the id. -/
theorem stableBranchSegment_injective {first second : String}
    (apart : NoCollision sha256 (rawId first) (rawId second))
    (eq : (stableBranchSegment toLowerCase sha256 first).toList =
      (stableBranchSegment toLowerCase sha256 second).toList) : rawId first = rawId second := by
  rw [stableBranchSegment_toList, stableBranchSegment_toList] at eq
  have size : ∀ text, ((sha256 text).toList.take 12).length = 12 := fun text => by
    rw [List.length_take, hex.length]
    rfl
  have tails := List.append_inj_right' eq (by simp only [List.length_cons, size])
  exact apart (List.cons.inj tails).2

omit hex

def branchParts (toLowerCase sha256 : String → String) (runId : String)
    (deliveryId : Option String) : List String :=
  ["sec-review-bot", "repo-scan", stableBranchSegment toLowerCase sha256 runId,
    stableBranchSegment toLowerCase sha256 (deliveryId.getD "manual")]

theorem branchName_eq (runId : String) (deliveryId : Option String) :
    buildRepositoryDeliveryBranchName toLowerCase sha256 runId deliveryId =
      "sec-review-bot/repo-scan/" ++ stableBranchSegment toLowerCase sha256 runId ++ "/" ++
        stableBranchSegment toLowerCase sha256 (deliveryId.getD "manual") := rfl

theorem branchName_toList (runId : String) (deliveryId : Option String) :
    (buildRepositoryDeliveryBranchName toLowerCase sha256 runId deliveryId).toList =
      ['/'].intercalate ((branchParts toLowerCase sha256 runId deliveryId).map String.toList) := by
  rw [branchName_eq, branchParts]
  simp [String.toList_append]

theorem reference_toList (runId : String) (deliveryId : Option String) :
    ("refs/heads/" ++ buildRepositoryDeliveryBranchName toLowerCase sha256 runId deliveryId).toList =
      ['/'].intercalate (("refs" :: "heads" ::
        branchParts toLowerCase sha256 runId deliveryId).map String.toList) := by
  rw [String.toList_append, branchName_toList, branchParts]
  simp

include hex

theorem branchParts_plain (runId : String) (deliveryId : Option String) :
    ∀ part ∈ branchParts toLowerCase sha256 runId deliveryId, PlainSegment part.toList := by
  intro part mem
  simp only [branchParts, List.mem_cons, List.not_mem_nil, or_false] at mem
  rcases mem with rfl | rfl | rfl | rfl
  · exact ⟨by decide, by decide⟩
  · exact ⟨by decide, by decide⟩
  · exact (stableBranchSegment_plain hex runId).1
  · exact (stableBranchSegment_plain hex _).1

theorem reference_wellFormed (runId : String) (deliveryId : Option String) :
    WellFormed ("refs/heads/" ++
      buildRepositoryDeliveryBranchName toLowerCase sha256 runId deliveryId).toList := by
  rw [reference_toList]
  refine wellFormed_of_plain (by simp [branchParts]) fun chars inParts => ?_
  obtain ⟨part, mem, rfl⟩ := List.mem_map.mp inParts
  rcases List.mem_cons.mp mem with rfl | mem
  · exact ⟨by decide, by decide⟩
  rcases List.mem_cons.mp mem with rfl | mem
  · exact ⟨by decide, by decide⟩
  · exact branchParts_plain hex runId deliveryId part mem

theorem reference_length (runId : String) (deliveryId : Option String) :
    ("refs/heads/" ++ buildRepositoryDeliveryBranchName toLowerCase sha256 runId deliveryId).length ≤
      159 := by
  have run := (@stableBranchSegment_plain toLowerCase sha256 hex runId).2
  have delivery :=
    (@stableBranchSegment_plain toLowerCase sha256 hex (deliveryId.getD "manual")).2
  rw [← String.length_toList, reference_toList, branchParts]
  simp only [List.map_cons, List.map_nil, List.intercalate_cons_cons, List.intercalate_singleton,
    List.length_append]
  have fixed : "refs".toList.length = 4 ∧ "heads".toList.length = 5 ∧
      "sec-review-bot".toList.length = 14 ∧ "repo-scan".toList.length = 9 ∧
      ['/'].length = 1 := by decide
  omega

theorem branchParts_of_name {first second : String} {delivery other : Option String}
    (eq : buildRepositoryDeliveryBranchName toLowerCase sha256 first delivery =
      buildRepositoryDeliveryBranchName toLowerCase sha256 second other) :
    branchParts toLowerCase sha256 first delivery =
      branchParts toLowerCase sha256 second other := by
  have parts : ∀ runId deliveryId,
      (buildRepositoryDeliveryBranchName toLowerCase sha256 runId deliveryId).toList.splitOn '/' =
        (branchParts toLowerCase sha256 runId deliveryId).map String.toList := by
    intro runId deliveryId
    rw [branchName_toList]
    refine List.splitOn_intercalate _ (fun chars inParts slash => ?_) (List.cons_ne_nil _ _)
    obtain ⟨part, mem, rfl⟩ := List.mem_map.mp inParts
    exact segmentChar_ne ((branchParts_plain hex runId deliveryId part mem).2 _ slash)
      (by decide) rfl
  have same := parts first delivery
  rw [eq, parts] at same
  exact (List.map_injective_iff.mpr (fun _ _ => String.toList_injective) same).symm

theorem branchName_slashes (runId : String) (deliveryId : Option String) :
    (buildRepositoryDeliveryBranchName toLowerCase sha256 runId deliveryId).toList.count '/' = 3 := by
  have plain := @branchParts_plain toLowerCase sha256 hex runId deliveryId
  have no_slash : ∀ part ∈ branchParts toLowerCase sha256 runId deliveryId,
      part.toList.count '/' = 0 := by
    intro part mem
    refine List.count_eq_zero.mpr fun slash => ?_
    exact segmentChar_ne ((plain part mem).2 _ slash) (by decide) rfl
  rw [branchName_toList]
  simp only [branchParts, List.mem_cons, List.not_mem_nil, or_false, forall_eq_or_imp,
    forall_eq] at no_slash
  obtain ⟨scan, repo, run, delivery⟩ := no_slash
  simp only [branchParts, List.map_cons, List.map_nil, List.intercalate_cons_cons,
    List.intercalate_singleton, List.count_append, scan, repo, run, delivery]
  decide

end Names

/-- The names of delivery branches are names of references of bounded length, tell the ids they
are made of, and none is a directory of another; sanitizing is idempotent. -/
theorem branchNames_creatable {toLowerCase sha256 : String → String}
    (keeps : ∀ text : String, (∀ c ∈ text.toList, allowed c = true) → toLowerCase text = text)
    (hex : HexDigest sha256) :
    (∀ runId deliveryId,
      WellFormed ("refs/heads/" ++
          buildRepositoryDeliveryBranchName toLowerCase sha256 runId deliveryId).toList ∧
        ("refs/heads/" ++
          buildRepositoryDeliveryBranchName toLowerCase sha256 runId deliveryId).length ≤ 159) ∧
    (∀ first delivery second other,
      NoCollision sha256 (rawId first) (rawId second) →
      NoCollision sha256 (rawId (delivery.getD "manual")) (rawId (other.getD "manual")) →
      buildRepositoryDeliveryBranchName toLowerCase sha256 first delivery =
        buildRepositoryDeliveryBranchName toLowerCase sha256 second other →
      rawId first = rawId second ∧ rawId (delivery.getD "manual") = rawId (other.getD "manual")) ∧
    (∀ first delivery second other, ¬ ∃ rest,
      (buildRepositoryDeliveryBranchName toLowerCase sha256 second other).toList =
        (buildRepositoryDeliveryBranchName toLowerCase sha256 first delivery).toList ++
          '/' :: rest) ∧
    ∀ value, sanitizeBranchSegment toLowerCase (sanitizeBranchSegment toLowerCase value) =
      sanitizeBranchSegment toLowerCase value := by
  refine ⟨fun runId deliveryId => ?_, ?_, ?_, sanitize_sanitize keeps⟩
  · exact ⟨reference_wellFormed hex runId deliveryId, reference_length hex runId deliveryId⟩
  · intro first delivery second other runApart deliveryApart eq
    have parts := branchParts_of_name hex eq
    simp only [branchParts, List.cons.injEq, true_and, and_true] at parts
    exact ⟨stableBranchSegment_injective hex runApart (congrArg String.toList parts.1),
      stableBranchSegment_injective hex deliveryApart (congrArg String.toList parts.2)⟩
  · rintro first delivery second other ⟨rest, eq⟩
    have counted := congrArg (List.count '/') eq
    rw [branchName_slashes hex, List.count_append, branchName_slashes hex,
      List.count_cons_self] at counted
    omega

/-- ASCII letters in lower case. -/
def lowerAscii (text : String) : String := String.ofList (text.toList.map Char.toLower)

theorem lowerAscii_keeps (text : String) (own : ∀ c ∈ text.toList, allowed c = true) :
    lowerAscii text = text := by
  have fixed : text.toList.map Char.toLower = text.toList := by
    refine (List.map_congr_left fun c mem => ?_).trans (List.map_id _)
    have kept := own c mem
    rw [allowed, Bool.or_eq_true, beq_iff_eq] at kept
    rcases kept with kept | rfl
    · have range := segmentChar_range kept
      have small : ¬ (c.val ≥ 'A'.val ∧ c.val ≤ 'Z'.val) := by
        rw [ge_iff_le, UInt32.le_iff_toNat_le, UInt32.le_iff_toNat_le]
        have code : c.val.toNat = c.toNat := rfl
        have first : 'A'.val.toNat = 65 := rfl
        have last : 'Z'.val.toNat = 90 := rfl
        omega
      exact dif_neg small
    · rfl
  rw [lowerAscii, fixed, String.ofList_toList]

/-- The digests of two ids. -/
def twoDigests (text : String) : String :=
  if text = "run-1" then
    "4e65d3fbe8ad6535681b021b30785b12b6c0e3f8878859a4148b3f58b8835db0"
  else
    "f62b42414c514fa689d3e087ba397c602a4ba2c897f0ac2cb32cf770c3442bf2"

/-- A delivery whose id is no segment of a reference. -/
theorem dottedDelivery_creatable :
    WellFormed ("refs/heads/" ++
      buildRepositoryDeliveryBranchName lowerAscii twoDigests "run-1" (some "a..b")).toList := by
  have hex : HexDigest twoDigests := by
    constructor
    · intro text
      rw [twoDigests]
      split <;> decide
    · intro text
      rw [twoDigests]
      split <;> decide
  exact ((branchNames_creatable lowerAscii_keeps hex).1 "run-1" (some "a..b")).1

end DeliveryBranches
