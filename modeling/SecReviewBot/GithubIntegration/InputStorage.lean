import SecReviewBot.ReviewRuns.InputBundleCandidateStore

/-!
# `input-storage.ts`

Input bundles are objects of an S3 bucket or files below the staging root.
Objects are created by a conditional `PUT` or by `link`, never replaced and
never deleted. A `PUT` that was sent takes effect at any later time, whether or
not its sender still waits for the answer, so `publishInputBundle` is a program
that stops before each of its awaits, and sent requests are on their own.
-/

namespace InputStorage

open KeyedTables ReviewRunsSchema ReviewRunsTransactions InputBundleCandidateStore

/-- The characters that bucket names are made of. -/
def isBucketName (bucket : String) : Bool :=
  bucket.toList.all fun c => c.isAlphanum || c = '.' || c = '-' || c = '_'

/-- What the code takes from its runtime: URLs, the conversion of file URLs,
contents with their length and hash, and the encoded size of an input. The host
of an `s3:` URL is opaque, so the name of a bucket is read back as it was written. -/
structure Runtime (Body : Type) where
  parseUrl : String → Option Url
  hostname : String → String
  fileURLToPath : String → Option String
  length : Body → Nat
  sha256 : Body → String
  byteLength : JsonValues.Json → Nat
  protocol_of_bucket : ∀ bucket key uri,
    parseUrl ("s3://" ++ bucket ++ "/" ++ key) = some uri → uri.protocol = "s3:"
  hostname_of_bucket : ∀ bucket key, isBucketName bucket = true →
    hostname ("s3://" ++ bucket ++ "/" ++ key) = bucket

inductive ArtifactStore where
  | file | s3
  deriving DecidableEq

/-- `publishedUri` is `pathToFileURL(path.join(input_bundle_staging_root, key)).href`. -/
structure Config where
  artifactStore : ArtifactStore
  bucket : String
  publishedUri : String → String

/-- `digest.replace(/^sha256:/, '')`. -/
def hexOf (digest : Digest) : String :=
  if digest.toList.take 7 = "sha256:".toList then String.ofList (digest.toList.drop 7) else digest

def inputObjectKey (runId : RunId) (digest : Digest) : String :=
  "runs/" ++ runId ++ "/input/" ++ hexOf digest ++ "/input-bundle.v1.tar.zst"

/-- `/^[A-Za-z0-9_-]+$/`. -/
def isPathSegment (runId : RunId) : Bool :=
  runId ≠ "" && runId.toList.all fun c => c.isAlphanum || c = '_' || c = '-'

def publishedInputBundleReference (config : Config) (reference : InputBundleReference)
    (runId : RunId) : Except String InputBundleReference :=
  let key := inputObjectKey runId reference.digest
  match config.artifactStore with
  | .file =>
    if isPathSegment runId && isDigest reference.digest then
      .ok { reference with uri := config.publishedUri key }
    else .error "Invalid input bundle publication identity."
  | .s3 => .ok { reference with uri := "s3://" ++ config.bucket ++ "/" ++ key }

/-- An object with the two entries of its metadata. -/
structure S3Object (Body : Type) where
  body : Body
  sha256 : String
  mediaType : String

/-- Everything stored so far. A bucket that holds an object has a bucket's name. -/
structure Objects (Body : Type) where
  s3 : Table (String × String) (S3Object Body)
  files : Table String Body
  named : ∀ bucket key object, s3.row (bucket, key) = some object → isBucketName bucket = true

variable {Body : Type}

def Objects.empty : Objects Body where
  s3 := Table.empty
  files := Table.empty
  named := by
    intro bucket key object row
    cases row

def matchesReference (runtime : Runtime Body) (object : S3Object Body)
    (reference : InputBundleReference) : Bool :=
  (runtime.length object.body : Int) = reference.sizeBytes
    && object.sha256 = hexOf reference.digest && object.mediaType = reference.mediaType

/-- The bytes of a file are those the reference describes. -/
def describes (runtime : Runtime Body) (reference : InputBundleReference) (body : Body) : Bool :=
  (runtime.length body : Int) = reference.sizeBytes
    && "sha256:" ++ runtime.sha256 body = reference.digest

/-- How a request of the object store or of the file system ends: it does what
it is asked and tells what is there, it is refused, or there is no answer. -/
inductive StorageAnswer where
  | served
  | status (httpStatus : Nat) (error : String)
  | lost (error : String)

/-- Where `existingObjectMatches` stands: before `HEAD`, or before `LIST` with
the error `HEAD` ended in. -/
inductive Look where
  | head
  | list (error : String)

/-- The outcome of one await: the next one, the result, or an exception. -/
inductive Seen (α : Type) where
  | next (look : Look)
  | result (value : α)
  | threw (error : String)

def existingObjectMatches (runtime : Runtime Body) (objects : Objects Body)
    (bucket key : String) (reference : InputBundleReference) :
    Look → StorageAnswer → Seen (Option Bool)
  | .head, .served =>
    match objects.s3.row (bucket, key) with
    | some object => .result (some (matchesReference runtime object reference))
    | none => .next (.list "NotFound")
  | .head, .status httpStatus error =>
    if httpStatus = 403 || httpStatus = 404 then .next (.list error) else .threw error
  | .list error, .served =>
    if (objects.s3.row (bucket, key)).isSome then .threw error else .result none
  | .list _, .status _ error | _, .lost error => .threw error

/-- `uri.pathname.slice(1)`. -/
def keyOf (uri : Url) : String := String.ofList (uri.pathname.toList.drop 1)

def fileExists (runtime : Runtime Body) (objects : Objects Body)
    (reference : InputBundleReference) : StorageAnswer → Seen Bool
  | .served =>
    match runtime.fileURLToPath reference.uri with
    | none => .threw "Invalid file URL"
    | some path =>
      match objects.files.row path with
      | none => .result false
      | some body =>
        if describes runtime reference body then .result true
        else .threw "Local input bundle differs from its immutable intent."
  | .status _ error | .lost error => .threw error

def inputBundleExists (runtime : Runtime Body) (config : Config) (objects : Objects Body)
    (reference : InputBundleReference) (look : Look) (answer : StorageAnswer) : Seen Bool :=
  match runtime.parseUrl reference.uri with
  | none => .threw "Invalid URL"
  | some uri =>
    if uri.protocol = "file:" then fileExists runtime objects reference answer
    else if uri.protocol ≠ "s3:" || runtime.hostname reference.uri ≠ config.bucket then
      .threw "Input bundle uses an unconfigured store."
    else
      match existingObjectMatches runtime objects (runtime.hostname reference.uri) (keyOf uri)
          reference look answer with
      | .next look => .next look
      | .threw error => .threw error
      | .result (some false) =>
        .threw "Input bundle object differs from its immutable intent."
      | .result matching => .result (matching = some true)

inductive PutStatus where
  | inFlight
  | stored
  | refused (httpStatus : Nat)
  deriving DecidableEq

/-- A `PutObjectCommand` with `IfNoneMatch: '*'`. -/
structure Put (Body : Type) where
  bucket : String
  key : String
  contentLength : Int
  object : S3Object Body
  status : PutStatus

structure Storage (Body : Type) where
  objects : Objects Body
  puts : List (Put Body)

/-- The bundle an owner has built: its local file, and what it will publish. -/
structure PreparedBundle (Body : Type) where
  reference : InputBundleReference
  source : Body
  published : InputBundleReference
  input : JsonValues.Json
  context : JsonValues.Json

/-- Before each await: on the left of the file store, then of S3. `conflicting`
carries the error of the `PUT` that found an object. -/
inductive Upload where
  | checking
  | copying
  | verifying
  | linking
  | confirming
  | looking (look : Look)
  | putting
  | waiting (put : Nat)
  | conflicting (error : String) (look : Look)

inductive Uploaded where
  | goesOn (upload : Upload)
  | published
  | threw (error : String)

/-- What runs before the first await. -/
def beginUpload (runtime : Runtime Body) (config : Config) (bundle : PreparedBundle Body) :
    Uploaded :=
  match config.artifactStore with
  | .file => .goesOn .checking
  | .s3 =>
    if config.bucket = "" then
      .threw "SEC_REVIEW_ARTIFACT_S3_BUCKET is required for the S3 artifact store."
    else
      match runtime.parseUrl bundle.reference.uri with
      | none => .threw "Invalid URL"
      | some source =>
        if source.protocol ≠ "file:" then
          .threw "Input bundle publication requires a local file reference."
        else .goesOn (.looking .head)

/-- A file that exists stays as it is. -/
def linkFile (path : String) (body : Body) (objects : Objects Body) : Objects Body :=
  if (objects.files.row path).isSome then objects
  else { objects with files := objects.files.put path body }

/-- The request `publishInputBundle` sends. -/
def putOf (config : Config) (runId : RunId) (bundle : PreparedBundle Body) : Put Body where
  bucket := config.bucket
  key := inputObjectKey runId bundle.reference.digest
  contentLength := bundle.reference.sizeBytes
  object := { body := bundle.source
              sha256 := hexOf bundle.reference.digest
              mediaType := bundle.reference.mediaType }
  status := .inFlight

section Steps

variable (runtime : Runtime Body) (config : Config) (runId : RunId) (bundle : PreparedBundle Body)

/-- `existingObjectMatches` on the key of the bundle. -/
def lookAtKey (objects : Objects Body) (look : Look) (answer : StorageAnswer) : Seen (Option Bool) :=
  existingObjectMatches runtime objects config.bucket
    (inputObjectKey runId bundle.reference.digest) bundle.reference look answer

/-- The two checks of the published file. -/
def checkPublished (objects : Objects Body) (answer : StorageAnswer) (missing : Uploaded) : Uploaded :=
  match inputBundleExists runtime config objects bundle.published .head answer with
  | .next _ | .result false => missing
  | .result true => .published
  | .threw error => .threw error

/-- The answer to the `PUT` with this status. -/
def putAnswered (put : Nat) : PutStatus → StorageAnswer → Uploaded
  | .stored, .served => .published
  | .refused httpStatus, .served =>
    if httpStatus = 412 then .goesOn (.conflicting "PreconditionFailed" .head)
    else .threw "InvalidRequest"
  | .inFlight, .served => .goesOn (.waiting put)
  | _, .status httpStatus error =>
    if httpStatus = 412 then .goesOn (.conflicting error .head) else .threw error
  | _, .lost error => .threw error

/-- One await of `publishInputBundle`, with the outcome and the storage after it. -/
def stepUpload (storage : Storage Body) (answer : StorageAnswer) : Upload → Uploaded × Storage Body
  | .checking =>
    (checkPublished runtime config bundle storage.objects answer (.goesOn .copying), storage)
  | .copying =>
    match answer with
    | .served => (.goesOn .verifying, storage)
    | .status _ error | .lost error => (.threw error, storage)
  | .verifying =>
    match answer with
    | .served =>
      if describes runtime bundle.reference bundle.source then (.goesOn .linking, storage)
      else (.threw "Local input bundle differs from its immutable intent.", storage)
    | .status _ error | .lost error => (.threw error, storage)
  | .linking =>
    match answer, runtime.fileURLToPath bundle.published.uri with
    | .served, some path =>
      (.goesOn .confirming,
        { storage with objects := linkFile path bundle.source storage.objects })
    | .served, none => (.threw "Invalid file URL", storage)
    | .status _ error, _ | .lost error, _ => (.threw error, storage)
  | .confirming =>
    (checkPublished runtime config bundle storage.objects answer
      (.threw "Published local input bundle is missing."), storage)
  | .looking look =>
    match lookAtKey runtime config runId bundle storage.objects look answer with
    | .next look => (.goesOn (.looking look), storage)
    | .result (some true) => (.published, storage)
    | .result (some false) =>
      (.threw ("Immutable input bundle object conflicts with existing content: "
        ++ inputObjectKey runId bundle.reference.digest), storage)
    | .result none => (.goesOn .putting, storage)
    | .threw error => (.threw error, storage)
  | .putting =>
    (.goesOn (.waiting storage.puts.length),
      { storage with puts := storage.puts ++ [putOf config runId bundle] })
  | .waiting put =>
    match storage.puts[put]? with
    | none => (.goesOn (.waiting put), storage)
    | some sent => (putAnswered put sent.status answer, storage)
  | .conflicting error look =>
    match lookAtKey runtime config runId bundle storage.objects look answer with
    | .next look => (.goesOn (.conflicting error look), storage)
    | .result (some true) => (.published, storage)
    | .result _ => (.threw error, storage)
    | .threw error => (.threw error, storage)

end Steps

/-- The object a sent request creates, if the store takes it. -/
def Objects.create (objects : Objects Body) (bucket key : String) (object : S3Object Body)
    (name : isBucketName bucket = true) : Objects Body where
  s3 := objects.s3.put (bucket, key) object
  files := objects.files
  named := by
    intro other otherKey found row
    rcases Table.put_row_cases row with ⟨same, -⟩ | ⟨-, old⟩
    · cases same
      exact name
    · exact objects.named other otherKey found old

/-- The store decides about a request: a bucket that cannot exist and a body of
another length are refused, an existing object stays, anything else is stored. -/
def Storage.land (runtime : Runtime Body) (storage : Storage Body) (put : Nat) : Storage Body :=
  match storage.puts[put]? with
  | none => storage
  | some sent =>
    if sent.status = .inFlight then
      if name : isBucketName sent.bucket = true then
        if (runtime.length sent.object.body : Int) ≠ sent.contentLength then
          { storage with puts := storage.puts.set put { sent with status := .refused 400 } }
        else if (storage.objects.s3.row (sent.bucket, sent.key)).isSome then
          { storage with puts := storage.puts.set put { sent with status := .refused 412 } }
        else
          ⟨storage.objects.create sent.bucket sent.key sent.object name,
            storage.puts.set put { sent with status := .stored }⟩
      else { storage with puts := storage.puts.set put { sent with status := .refused 400 } }
    else storage

end InputStorage
