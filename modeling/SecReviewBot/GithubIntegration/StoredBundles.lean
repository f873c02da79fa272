import SecReviewBot.GithubIntegration.InputBundlePublication

/-!
# What a successful upload establishes

`publishInputBundle` and `inputBundleExists` succeed only when the object that a
reference names is stored as the reference describes it, however many uploads
of the same key are under way; and objects stay.
-/

namespace StoredBundles

open KeyedTables ReviewRunsSchema ReviewRunsTransactions InputBundleCandidateStore InputStorage
open InputBundlePublication (Service Service.store)

variable {Body : Type} (runtime : Runtime Body)

/-- The object that a reference names is stored, and it is the one described. -/
inductive Published (objects : Objects Body) (reference : InputBundleReference) : Prop where
  | file (uri : Url) (path : String) (body : Body)
      (parses : runtime.parseUrl reference.uri = some uri) (scheme : uri.protocol = "file:")
      (located : runtime.fileURLToPath reference.uri = some path)
      (stored : objects.files.row path = some body)
      (described : describes runtime reference body = true)
  | s3 (uri : Url) (object : S3Object Body)
      (parses : runtime.parseUrl reference.uri = some uri) (scheme : uri.protocol = "s3:")
      (stored : objects.s3.row (runtime.hostname reference.uri, keyOf uri) = some object)
      (described : matchesReference runtime object reference = true)

/-- Nothing stored is replaced or deleted. -/
structure Extends (objects next : Objects Body) : Prop where
  s3 : ∀ place object, objects.s3.row place = some object → next.s3.row place = some object
  files : ∀ path body, objects.files.row path = some body → next.files.row path = some body

theorem extends_refl (objects : Objects Body) : Extends objects objects :=
  ⟨fun _ _ row => row, fun _ _ row => row⟩

variable {runtime}

theorem Published.mono {objects next : Objects Body} (h : Extends objects next)
    {reference : InputBundleReference} (published : Published runtime objects reference) :
    Published runtime next reference := by
  cases published with
  | file uri path body parses scheme located stored described =>
    exact .file uri path body parses scheme located (h.files path body stored) described
  | s3 uri object parses scheme stored described =>
    exact .s3 uri object parses scheme (h.s3 _ object stored) described

theorem extends_linkFile (path : String) (body : Body) (objects : Objects Body) :
    Extends objects (linkFile path body objects) := by
  unfold linkFile
  split
  · exact extends_refl objects
  · next absent =>
    refine ⟨fun _ _ row => row, ?_⟩
    intro other stored row
    have differs : other ≠ path := by
      rintro rfl
      simp [row] at absent
    simpa [differs] using row

theorem extends_land (storage : Storage Body) (put : Nat) :
    Extends storage.objects (storage.land runtime put).objects := by
  simp only [Storage.land]
  split
  · exact extends_refl _
  · next sent found =>
    split_ifs with waits name size taken
    · exact extends_refl _
    · exact extends_refl _
    · refine ⟨?_, fun _ _ row => row⟩
      intro place object row
      have differs : place ≠ (sent.bucket, sent.key) := by
        rintro rfl
        simp [row] at taken
      simpa [Objects.create, differs] using row
    · exact extends_refl _
    · exact extends_refl _

theorem extends_stepUpload (config : Config) (runId : RunId) (bundle : PreparedBundle Body)
    (storage : Storage Body) (answer : StorageAnswer) (upload : Upload) :
    Extends storage.objects
      (stepUpload runtime config runId bundle storage answer upload).2.objects := by
  cases upload with
  | linking =>
    simp only [stepUpload]
    split
    · exact extends_linkFile _ _ _
    all_goals exact extends_refl _
  | checking => exact extends_refl _
  | confirming => exact extends_refl _
  | putting => exact extends_refl _
  | copying =>
    simp only [stepUpload]
    split <;> exact extends_refl _
  | verifying =>
    simp only [stepUpload]
    split
    · split <;> exact extends_refl _
    all_goals exact extends_refl _
  | looking look =>
    simp only [stepUpload]
    split <;> exact extends_refl _
  | waiting put =>
    simp only [stepUpload]
    split <;> exact extends_refl _
  | conflicting error look =>
    simp only [stepUpload]
    split <;> exact extends_refl _

theorem existingObjectMatches_stored {objects : Objects Body} {bucket key : String}
    {reference : InputBundleReference} {look : Look} {answer : StorageAnswer}
    (h : existingObjectMatches runtime objects bucket key reference look answer
      = .result (some true)) :
    ∃ object, objects.s3.row (bucket, key) = some object ∧
      matchesReference runtime object reference = true := by
  cases look with
  | head =>
    cases answer with
    | served =>
      simp only [existingObjectMatches] at h
      split at h
      · next object stored =>
        simp only [Seen.result.injEq, Option.some.injEq] at h
        exact ⟨object, stored, h⟩
      · cases h
    | status httpStatus error =>
      simp only [existingObjectMatches] at h
      split at h <;> cases h
    | lost error => cases h
  | list error =>
    cases answer with
    | served =>
      simp only [existingObjectMatches] at h
      split at h <;> cases h
    | status httpStatus error => cases h
    | lost error => cases h

theorem fileExists_stored {objects : Objects Body} {reference : InputBundleReference}
    {answer : StorageAnswer} (h : fileExists runtime objects reference answer = .result true) :
    ∃ path body, runtime.fileURLToPath reference.uri = some path ∧
      objects.files.row path = some body ∧ describes runtime reference body = true := by
  cases answer with
  | served =>
    simp only [fileExists] at h
    split at h
    · cases h
    · next path located =>
      split at h
      · cases h
      · next body stored =>
        split at h
        · next described => exact ⟨path, body, located, stored, described⟩
        · cases h
  | status httpStatus error => cases h
  | lost error => cases h

/-- `inputBundleExists` answers yes only about a published reference. -/
theorem inputBundleExists_published {config : Config} {objects : Objects Body}
    {reference : InputBundleReference} {look : Look} {answer : StorageAnswer}
    (h : inputBundleExists runtime config objects reference look answer = .result true) :
    Published runtime objects reference := by
  simp only [inputBundleExists] at h
  split at h
  · cases h
  · next uri parses =>
    split_ifs at h with file unknown
    · obtain ⟨path, body, located, stored, described⟩ := fileExists_stored h
      exact .file uri path body parses file located stored described
    · simp only [Bool.or_eq_true, decide_eq_true_eq, not_or, not_not] at unknown
      split at h
      · cases h
      · cases h
      · cases h
      · next matching _ seen =>
        simp only [Seen.result.injEq, decide_eq_true_eq] at h
        subst h
        obtain ⟨object, stored, described⟩ := existingObjectMatches_stored seen
        exact .s3 uri object parses unknown.1 stored described

variable (runtime) in
/-- The checks of `reserve` passed, at whatever service. -/
def Accepted (runId : RunId) (reference : InputBundleReference) : Prop :=
  ∃ service : Service, validateReference (service.store runtime) runId reference = .ok ()

theorem Accepted.location {runId : RunId} {reference : InputBundleReference}
    (h : Accepted runtime runId reference) :
    isDigest reference.digest = true ∧ ∃ uri, runtime.parseUrl reference.uri = some uri ∧
      (uri.protocol = "s3:" → uri.pathname = "/runs/" ++ runId ++ "/input/"
        ++ String.ofList (reference.digest.toList.drop 7) ++ "/input-bundle.v1.tar.zst") := by
  obtain ⟨service, valid⟩ := h
  simp only [validateReference, Service.store] at valid
  split_ifs at valid with malformed spaced
  split at valid
  · cases valid
  · next uri parses =>
    split_ifs at valid with foreign elsewhere
    simp only [Bool.or_eq_true, not_or, Bool.not_eq_true', Bool.not_eq_false] at malformed
    refine ⟨malformed.1.1.1, uri, parses, ?_⟩
    intro s3
    simpa [s3] using elsewhere

theorem hexOf_digest {digest : Digest} (h : isDigest digest = true) :
    hexOf digest = String.ofList (digest.toList.drop 7) := by
  simp only [isDigest, Bool.and_eq_true, decide_eq_true_eq] at h
  simp only [hexOf, h.1.1, if_true]

/-- The key under which a bundle is stored is the one its reference names. -/
theorem keyOf_accepted {runId : RunId} {digest : Digest} (h : isDigest digest = true) {uri : Url}
    (path : uri.pathname = "/runs/" ++ runId ++ "/input/"
      ++ String.ofList (digest.toList.drop 7) ++ "/input-bundle.v1.tar.zst") :
    keyOf uri = inputObjectKey runId digest := by
  simp only [keyOf, path, inputObjectKey, hexOf_digest h]
  apply String.toList_injective
  simp

theorem published_of_key {config : Config} {runId : RunId} {bundle : PreparedBundle Body}
    {objects : Objects Body} (s3 : config.artifactStore = .s3)
    (form : publishedInputBundleReference config bundle.reference runId = .ok bundle.published)
    (accepted : Accepted runtime runId bundle.published) {object : S3Object Body}
    (stored : objects.s3.row (config.bucket, inputObjectKey runId bundle.reference.digest)
      = some object)
    (described : matchesReference runtime object bundle.reference = true) :
    Published runtime objects bundle.published := by
  simp only [publishedInputBundleReference, s3, Except.ok.injEq] at form
  obtain ⟨digest, uri, parses, path⟩ := accepted.location
  rw [← form] at digest parses path ⊢
  have scheme : uri.protocol = "s3:" := runtime.protocol_of_bucket _ _ _ parses
  have bucket : isBucketName config.bucket = true := objects.named _ _ _ stored
  refine .s3 uri object parses scheme ?_ described
  rw [runtime.hostname_of_bucket _ _ bucket, keyOf_accepted digest (path scheme)]
  exact stored

/-- The request without the store's decision. -/
def Put.request (put : Put Body) : Put Body := { put with status := .inFlight }

/-- Stored objects and sent requests stay. -/
structure Later (storage next : Storage Body) : Prop where
  objects : Extends storage.objects next.objects
  puts : ∀ (put : Nat) sent, storage.puts[put]? = some sent →
    ∃ sent', next.puts[put]? = some sent' ∧ Put.request sent' = Put.request sent

variable (runtime) in
/-- The objects of the requests that were stored are there. -/
def PutsStored (storage : Storage Body) : Prop :=
  ∀ (put : Nat) sent, storage.puts[put]? = some sent → sent.status = .stored →
    storage.objects.s3.row (sent.bucket, sent.key) = some sent.object ∧
      (runtime.length sent.object.body : Int) = sent.contentLength

def UploadSound (storage : Storage Body) (config : Config) (runId : RunId)
    (bundle : PreparedBundle Body) : Upload → Prop
  | .looking _ | .putting | .conflicting _ _ => config.artifactStore = .s3
  | .waiting put => config.artifactStore = .s3 ∧
    ∃ sent, storage.puts[put]? = some sent ∧ Put.request sent = putOf config runId bundle
  | _ => True

theorem later_refl (storage : Storage Body) : Later storage storage :=
  ⟨extends_refl _, fun _ sent found => ⟨sent, found, rfl⟩⟩

theorem UploadSound.mono {storage next : Storage Body} (later : Later storage next)
    {config : Config} {runId : RunId} {bundle : PreparedBundle Body} {upload : Upload}
    (h : UploadSound storage config runId bundle upload) :
    UploadSound next config runId bundle upload := by
  cases upload with
  | waiting put =>
    obtain ⟨s3, sent, found, same⟩ := h
    obtain ⟨sent', found', same'⟩ := later.puts put sent found
    exact ⟨s3, sent', found', same'.trans same⟩
  | _ => exact h

theorem set_row_cases {α : Type} {items : List α} {n m : Nat} {x found : α}
    (row : (items.set n x)[m]? = some found) : found = x ∨ items[m]? = some found := by
  rw [List.getElem?_set] at row
  split_ifs at row with same inside
  · exact .inl (Option.some.inj row).symm
  · exact .inr row

/-- The store decides about one request: it stays the same request. -/
theorem puts_set {puts : List (Put Body)} {n : Nat} {decided : Put Body} {status : PutStatus}
    (found : puts[n]? = some decided) (put : Nat) (sent : Put Body)
    (old : puts[put]? = some sent) :
    ∃ sent', (puts.set n { decided with status := status })[put]? = some sent' ∧
      Put.request sent' = Put.request sent := by
  by_cases same : n = put
  · subst same
    obtain rfl := Option.some.inj (found.symm.trans old)
    have inside : n < puts.length := (List.getElem?_eq_some_iff.mp found).1
    exact ⟨{ decided with status := status }, by simp [inside], rfl⟩
  · exact ⟨sent, by simp [same, old], rfl⟩

theorem later_land (storage : Storage Body) (put : Nat) :
    Later storage (storage.land runtime put) := by
  refine ⟨extends_land storage put, ?_⟩
  simp only [Storage.land]
  split
  · exact (later_refl storage).puts
  · next sent found =>
    split_ifs
    · exact puts_set found
    · exact puts_set found
    · exact puts_set found
    · exact puts_set found
    · exact (later_refl storage).puts

theorem putsStored_set {storage : Storage Body} (h : PutsStored runtime storage) {n : Nat}
    {sent : Put Body} {status : PutStatus} (undecided : status ≠ .stored) :
    PutsStored runtime
      { storage with puts := storage.puts.set n { sent with status := status } } := by
  intro put found row stored
  rcases set_row_cases row with rfl | old
  · exact absurd stored undecided
  · exact h put found old stored

theorem putsStored_land {storage : Storage Body} (h : PutsStored runtime storage) (n : Nat) :
    PutsStored runtime (storage.land runtime n) := by
  simp only [Storage.land]
  split
  · exact h
  · next sent found =>
    split_ifs with waits name size taken
    · exact putsStored_set h (by simp)
    · exact putsStored_set h (by simp)
    · intro put other row stored
      rcases set_row_cases row with rfl | old
      · exact ⟨by simp [Objects.create], by simpa using size⟩
      · obtain ⟨there, length⟩ := h put other old stored
        have differs : (other.bucket, other.key) ≠ (sent.bucket, sent.key) := by
          intro same
          rw [same] at there
          simp [there] at taken
        exact ⟨by simpa [Objects.create, differs] using there, length⟩
    · exact putsStored_set h (by simp)
    · exact h

theorem later_stepUpload (config : Config) (runId : RunId) (bundle : PreparedBundle Body)
    (storage : Storage Body) (answer : StorageAnswer) (upload : Upload) :
    Later storage (stepUpload runtime config runId bundle storage answer upload).2 := by
  refine ⟨extends_stepUpload config runId bundle storage answer upload, ?_⟩
  intro put sent found
  cases upload with
  | putting =>
    refine ⟨sent, ?_, rfl⟩
    rw [← found]
    exact List.getElem?_append_left (List.getElem?_eq_some_iff.mp found).1
  | checking => exact ⟨sent, found, rfl⟩
  | confirming => exact ⟨sent, found, rfl⟩
  | verifying =>
    simp only [stepUpload]
    split
    · split <;> exact ⟨sent, found, rfl⟩
    all_goals exact ⟨sent, found, rfl⟩
  | _ =>
    simp only [stepUpload]
    split <;> exact ⟨sent, found, rfl⟩

theorem putsStored_stepUpload (config : Config) (runId : RunId) (bundle : PreparedBundle Body)
    {storage : Storage Body} (h : PutsStored runtime storage) (answer : StorageAnswer)
    (upload : Upload) :
    PutsStored runtime (stepUpload runtime config runId bundle storage answer upload).2 := by
  cases upload with
  | putting =>
    intro put sent found stored
    rcases List.mem_append.mp (List.mem_of_getElem? found) with old | new
    · obtain ⟨n, row⟩ := List.mem_iff_getElem?.mp old
      exact h n sent row stored
    · obtain rfl := List.mem_singleton.mp new
      cases stored
  | linking =>
    simp only [stepUpload]
    split
    · exact fun put sent found stored => by
        have there := h put sent found stored
        unfold linkFile
        split <;> exact there
    all_goals exact h
  | checking => exact h
  | confirming => exact h
  | verifying =>
    simp only [stepUpload]
    split
    · split <;> exact h
    all_goals exact h
  | _ =>
    simp only [stepUpload]
    split <;> exact h

/-- What one await of `publishInputBundle` leaves behind. -/
def UploadedSound (runtime : Runtime Body) (storage : Storage Body) (config : Config)
    (runId : RunId) (bundle : PreparedBundle Body) : Uploaded → Prop
  | .goesOn upload => UploadSound storage config runId bundle upload
  | .published => Published runtime storage.objects bundle.published
  | .threw _ => True

theorem checkPublished_sound (config : Config) (runId : RunId) (bundle : PreparedBundle Body)
    (storage : Storage Body) (answer : StorageAnswer) {missing : Uploaded}
    (otherwise : UploadedSound runtime storage config runId bundle missing) :
    UploadedSound runtime storage config runId bundle
      (checkPublished runtime config bundle storage.objects answer missing) := by
  simp only [checkPublished]
  split
  · exact otherwise
  · exact otherwise
  · next seen => exact inputBundleExists_published seen
  · trivial

theorem matchesReference_putOf {config : Config} {runId : RunId} {bundle : PreparedBundle Body}
    (length : (runtime.length (putOf config runId bundle).object.body : Int)
      = (putOf config runId bundle).contentLength) :
    matchesReference runtime (putOf config runId bundle).object bundle.reference = true := by
  simp only [putOf] at length
  simp [matchesReference, putOf, length]

theorem stepUpload_sound {config : Config} {runId : RunId} {bundle : PreparedBundle Body}
    (form : publishedInputBundleReference config bundle.reference runId = .ok bundle.published)
    (accepted : Accepted runtime runId bundle.published) {storage : Storage Body}
    (puts : PutsStored runtime storage) (answer : StorageAnswer) {upload : Upload}
    (h : UploadSound storage config runId bundle upload) :
    UploadedSound runtime (stepUpload runtime config runId bundle storage answer upload).2
      config runId bundle (stepUpload runtime config runId bundle storage answer upload).1 := by
  have seenKey : ∀ look, config.artifactStore = .s3 →
      lookAtKey runtime config runId bundle storage.objects look answer = .result (some true) →
      Published runtime storage.objects bundle.published := by
    intro look s3 seen
    obtain ⟨object, stored, described⟩ := existingObjectMatches_stored seen
    exact published_of_key s3 form accepted stored described
  cases upload with
  | checking => exact checkPublished_sound config runId bundle storage answer trivial
  | confirming => exact checkPublished_sound config runId bundle storage answer trivial
  | copying =>
    simp only [stepUpload]
    split <;> trivial
  | verifying =>
    simp only [stepUpload]
    split
    · split <;> trivial
    all_goals trivial
  | linking =>
    simp only [stepUpload]
    split <;> trivial
  | looking look =>
    simp only [stepUpload]
    split
    · exact h
    · next seen => exact seenKey look h seen
    · trivial
    · exact h
    · trivial
  | putting =>
    refine ⟨h, putOf config runId bundle, ?_, rfl⟩
    simp [stepUpload]
  | waiting put =>
    obtain ⟨s3, sent, found, same⟩ := h
    simp only [stepUpload, found]
    cases decided : sent.status with
    | stored =>
      cases answer with
      | served =>
        -- the request was stored, so its object is the bundle's
        obtain ⟨there, length⟩ := puts put sent found decided
        have object : sent.object = (putOf config runId bundle).object := by rw [← same]; rfl
        have place : (sent.bucket, sent.key)
            = (config.bucket, inputObjectKey runId bundle.reference.digest) := by
          have bucket : sent.bucket = (putOf config runId bundle).bucket := by rw [← same]; rfl
          have key : sent.key = (putOf config runId bundle).key := by rw [← same]; rfl
          rw [bucket, key]
          rfl
        have size : sent.contentLength = (putOf config runId bundle).contentLength := by
          rw [← same]; rfl
        rw [place] at there
        rw [object, size] at length
        rw [object] at there
        exact published_of_key s3 form accepted there (matchesReference_putOf length)
      | status httpStatus error =>
        simp only [putAnswered]
        split
        · exact s3
        · trivial
      | lost error => trivial
    | refused code =>
      cases answer with
      | served =>
        simp only [putAnswered]
        split
        · exact s3
        · trivial
      | status httpStatus error =>
        simp only [putAnswered]
        split
        · exact s3
        · trivial
      | lost error => trivial
    | inFlight =>
      cases answer with
      | served => exact ⟨s3, sent, found, same⟩
      | status httpStatus error =>
        simp only [putAnswered]
        split
        · exact s3
        · trivial
      | lost error => trivial
  | conflicting error look =>
    simp only [stepUpload]
    split
    · exact h
    · next seen => exact seenKey look h seen
    · trivial
    · trivial

theorem beginUpload_sound (config : Config) (runId : RunId) (bundle : PreparedBundle Body)
    (storage : Storage Body) :
    UploadedSound runtime storage config runId bundle (beginUpload runtime config bundle) := by
  simp only [beginUpload]
  split
  · trivial
  · next s3 =>
    split
    · trivial
    · split
      · trivial
      · split
        · trivial
        · exact s3

end StoredBundles
