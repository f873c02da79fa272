import SecReviewBot.ReviewRuns.PreparationStore

/-!
# `input-bundle-candidate-store.ts`

Input-publication intents of one run. Every write first requires the current,
unexpired preparation claim.
-/

namespace InputBundleCandidateStore

open JsonValues KeyedTables ReviewRunsSchema ReviewRunsTransactions PreparationStore

def requirePreparationClaim (store : Store) (runId : RunId) (token : Token) (tx : Tx) :
    Except StoreError Unit :=
  if holdsClaim token tx.run.preparation
      && leaseLive store tx.now tx.run.preparation.claimedAt then .ok ()
  else .error { message := s!"Preparation claim was lost for {runId}." }

structure InputBundleReference where
  uri : String
  digest : Digest
  mediaType : String
  sizeBytes : Int
  deriving DecidableEq

/-- The reference as `jsonb` stores it. -/
def InputBundleReference.toJson (ref : InputBundleReference) : Json :=
  .obj [("uri", .str ref.uri), ("digest", .str ref.digest),
    ("media_type", .str ref.mediaType), ("size_bytes", .num ref.sizeBytes)]

structure InputPublicationIntent where
  reference : InputBundleReference
  input : Json
  publishContext : Json

/-- `/^sha256:[0-9a-f]{64}$/`. -/
def isDigest (digest : Digest) : Bool :=
  let chars := digest.toList
  chars.take 7 = "sha256:".toList && (chars.drop 7).length = 64
    && (chars.drop 7).all fun c => ('0' ≤ c && c ≤ '9') || ('a' ≤ c && c ≤ 'f')

/-- `/\s/`. -/
def isSpace (c : Char) : Bool :=
  let n := c.toNat
  (0x09 ≤ n && n ≤ 0x0d) || n = 0x20 || n = 0xa0 || n = 0x1680 || (0x2000 ≤ n && n ≤ 0x200a)
    || n = 0x2028 || n = 0x2029 || n = 0x202f || n = 0x205f || n = 0x3000 || n = 0xfeff

def maxSafeInteger : Int := 9007199254740991

/-- The checks `reserve` makes before it opens a transaction. `uri.trim()`
differs from `uri` only when `/\s/` matches, so the second test covers both. -/
def validateReference (store : Store) (runId : RunId) (ref : InputBundleReference) :
    Except StoreError Unit :=
  if !isDigest ref.digest || ref.mediaType ≠ "application/tar+zstd"
      || maxSafeInteger < ref.sizeBytes || ref.sizeBytes < 0 then
    .error { message := "Invalid input bundle reference." }
  else if ref.uri.toList.any isSpace then .error { message := "Invalid input bundle URI." }
  else match store.parseUrl ref.uri with
    | none => .error { message := "Invalid URL", code := some "ERR_INVALID_URL" }
    | some uri =>
      if !(uri.protocol = "s3:" || uri.protocol = "file:") || uri.search ≠ "" || uri.hash ≠ ""
          || uri.username ≠ "" || uri.password ≠ "" || uri.port ≠ "" then
        .error { message := "Invalid input bundle URI." }
      else if uri.protocol = "s3:" && uri.pathname ≠ "/runs/" ++ runId ++ "/input/"
          ++ String.ofList (ref.digest.toList.drop 7) ++ "/input-bundle.v1.tar.zst" then
        .error { message := "Input bundle URI does not match its run and digest." }
      else .ok ()

/-- The `CHECK` constraints of `input_bundle_candidates` on an inserted row. -/
def satisfiesChecks (digest : Digest) (c : InputBundleCandidate) : Bool :=
  isDigest digest && c.reference.isObject && c.input.isObject && c.publishContext.isObject
    && c.reference.member "digest" = some (.str digest)
    && c.input.member "input_bundle" = some c.reference

/-- `INSERT .. ON CONFLICT (run_id, digest) DO UPDATE`: an abandoned candidate
with the same intent is reserved again, any other one is returned unchanged. -/
def reserve (store : Store) (runId : RunId) (token : Token) (intent : InputPublicationIntent)
    (tx : Tx) : Outcome InputBundleCandidate :=
  match validateReference store runId intent.reference,
      requirePreparationClaim store runId token tx with
  | .error e, _ | _, .error e => .error e
  | .ok _, .ok _ =>
    let digest := intent.reference.digest
    let inserted : InputBundleCandidate :=
      { reference := intent.reference.toJson, input := intent.input,
        publishContext := intent.publishContext, reservedBy := token, status := .reserved,
        createdAt := tx.now, updatedAt := tx.now }
    if !satisfiesChecks digest inserted then
      .error { message := "new row violates a check constraint", code := some "23514" }
    else match tx.run.candidates.row digest with
      | none => .ok (inserted, updateCandidates (fun cs => cs.put digest inserted) tx)
      | some c =>
        if c.reference = inserted.reference && c.input = inserted.input
            && c.publishContext = inserted.publishContext then
          let kept := if c.status = .abandoned then
            { c with status := .reserved, updatedAt := tx.now } else c
          .ok (kept, updateCandidates (fun cs => cs.put digest kept) tx)
        else
          .error { message := "Input bundle reservation conflicts with an immutable intent." }

/-- The two outcomes a connector may report for a reserved object. -/
inductive Settlement where
  | present | abandoned
  deriving DecidableEq

def Settlement.status : Settlement → CandidateStatus
  | .present => .present
  | .abandoned => .abandoned

def settle (store : Store) (runId : RunId) (token : Token) (digest : Digest)
    (settlement : Settlement) (tx : Tx) : Outcome InputBundleCandidate :=
  match requirePreparationClaim store runId token tx with
  | .error e => .error e
  | .ok _ =>
    match tx.run.candidates.row digest with
    | none => .error { message := "Input bundle candidate cannot make this transition." }
    | some c =>
      if c.status = .reserved || c.status = .present || c.status = settlement.status then
        let settled : InputBundleCandidate :=
          { c with status := settlement.status
                   updatedAt := if c.status = settlement.status then c.updatedAt else tx.now }
        .ok (settled, updateCandidates (fun cs => cs.put digest settled) tx)
      else .error { message := "Input bundle candidate cannot make this transition." }

/-- `ORDER BY (status='selected') DESC, created_at, digest`. -/
def listedBefore (cs : Table Digest InputBundleCandidate) (a b : Digest) : Bool :=
  let selected := fun digest => (cs.row digest).any fun c => c.status = .selected
  let createdAt := fun digest => ((cs.row digest).map (·.createdAt)).getD 0
  if selected a = selected b then
    createdAt a < createdAt b || (createdAt a = createdAt b && a ≤ b)
  else selected a

def list (store : Store) (runId : RunId) (token : Token) (tx : Tx) :
    Outcome (List (Digest × InputBundleCandidate)) :=
  match requirePreparationClaim store runId token tx with
  | .error e => .error e
  | .ok _ =>
    let cs := tx.run.candidates
    .ok ((cs.selectKeys (fun _ c => c.status ≠ .abandoned) (listedBefore cs)).filterMap
      (fun digest => (cs.row digest).map fun c => (digest, c)), tx)

end InputBundleCandidateStore
