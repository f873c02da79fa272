import Mathlib.Logic.Function.Basic
import SecReviewBot.FirstOccurrences
import SecReviewBot.TextCodecs

/-!
# The workspace of a pull request review

`prepare-input.ts` asks GitHub for the commits of the pull request when the review
is prepared, and `git-workspace.ts` fetches them with the two bases, checks out the
last ref and pins each of them under `refs/sec-review/`. Which commit is the head
is decided by the position in that list alone.

Git is the effect of the commands that matter here: `fetch` succeeds when the
remote has every ref, `checkout --detach` moves the checked-out commit and
`update-ref` names one.
-/

namespace WorkspaceHistory

open TextCodecs FirstOccurrences

def hexDigit (c : Char) : Bool :=
  (decide (48 ≤ c.toNat) && decide (c.toNat ≤ 57)) ||
    (decide (97 ≤ c.toNat) && decide (c.toNat ≤ 102))

/-- A commit id of Git: a text of hexadecimal digits. -/
structure CommitSha where
  text : String
  digits : text ≠ "" ∧ ∀ c ∈ text.toList, hexDigit c = true

instance : DecidableEq CommitSha := fun a b =>
  decidable_of_iff (a.text = b.text) (by cases a; cases b; simp)

theorem CommitSha.text_injective : Function.Injective CommitSha.text := by
  intro a b h
  cases a
  cases b
  simpa using h

/-- `trim`. -/
def trim (text : String) : String := strip ecmaSpace text

theorem space_of_hexDigit {c : Char} (hex : hexDigit c = true) : ecmaSpace c = false := by
  simp only [hexDigit, Bool.or_eq_true, Bool.and_eq_true, decide_eq_true_eq] at hex
  have small : ¬ 0x2000 ≤ c.toNat := by omega
  simp only [ecmaSpace, small, decide_false, Bool.false_and, Bool.or_false]
  simp only [List.contains_eq_mem, decide_eq_false_iff_not, List.mem_cons, List.not_mem_nil,
    or_false, not_or]
  omega

@[simp] theorem trim_sha (sha : CommitSha) : trim sha.text = sha.text :=
  strip_of_no_space fun c mem => space_of_hexDigit (sha.digits.2 c mem)

theorem startsWith_sha (sha : CommitSha) : sha.text.toList.head? ≠ some '-' := by
  intro dash
  have mem : '-' ∈ sha.text.toList := List.mem_of_head? dash
  have := sha.digits.2 '-' mem
  revert this
  decide

structure PullRequestContext where
  ownerLogin : String
  repoName : String
  baseSha : CommitSha
  headSha : CommitSha
  previousHeadSha : Option CommitSha

inductive WindowKind where
  | full | push
  deriving DecidableEq

inductive WindowReason where
  | pullRequestScope | synchronizeScope | synchronizePreviousHeadMissing
  | synchronizePreviousHeadUnreachable | synchronizePreviousHeadNotAncestor
  | synchronizeNoFilesChanged
  deriving DecidableEq

structure ReviewWindow where
  kind : WindowKind
  baseSha : CommitSha
  headSha : CommitSha
  reason : WindowReason

def fullReviewWindow (pr : PullRequestContext) : ReviewWindow where
  kind := .full
  baseSha := pr.baseSha
  headSha := pr.headSha
  reason := .pullRequestScope

def pushReviewWindow (previousHeadSha headSha : CommitSha) : ReviewWindow where
  kind := .push
  baseSha := previousHeadSha
  headSha := headSha
  reason := .synchronizeScope

inductive EventType where
  | opened | readyForReview | synchronize | manualReview
  deriving DecidableEq

/-- The answer of the compare endpoint about the window that starts at a commit. -/
inductive PushWindowAnswer where
  | files (count : Nat) (previousHeadIsAncestor : Bool)
  | notFound

/-- The window of `resolveReviewWindowFiles`; any failure of the endpoint but a 404 is
thrown on. -/
def resolveReviewWindow (pr : PullRequestContext) (event : EventType)
    (listPushWindowFiles : CommitSha → PushWindowAnswer) : ReviewWindow :=
  let full (reason : WindowReason) : ReviewWindow := { fullReviewWindow pr with reason }
  if event ≠ .synchronize then full .pullRequestScope
  else
    match pr.previousHeadSha with
    | none => full .synchronizePreviousHeadMissing
    | some previous =>
      match listPushWindowFiles previous with
      | .notFound => full .synchronizePreviousHeadUnreachable
      | .files count ancestor =>
        if !ancestor then full .synchronizePreviousHeadNotAncestor
        else if count = 0 then full .synchronizeNoFilesChanged
        else pushReviewWindow previous pr.headSha

/-- A page of the commits connection. -/
structure CommitsPage where
  oids : List (Option String)
  hasNextPage : Bool
  endCursor : Option String

/-- The loop over the pages, in the order the cursors give them. -/
def readCommitOids : List CommitsPage → List String
  | [] => []
  | page :: rest =>
    let shas := page.oids.filterMap fun oid =>
      if trim (oid.getD "") = "" then none else some (trim (oid.getD ""))
    shas ++ if page.hasNextPage && page.endCursor.any (fun cursor => cursor ≠ "") then
        readCommitOids rest
      else []

def listCommitChainRefsForPullRequest (pr : PullRequestContext) (pages : List CommitsPage) :
    List String :=
  let uniqueRefs := (readCommitOids pages).eraseDups
  if uniqueRefs.length = 0 then [pr.headSha.text] else uniqueRefs

theorem listCommitChainRefs_ne_nil (pr : PullRequestContext) (pages : List CommitsPage) :
    listCommitChainRefsForPullRequest pr pages ≠ [] := by
  simp only [listCommitChainRefsForPullRequest]
  split
  · simp
  · next some =>
    intro empty
    exact some (by simp [empty])

/-- The names under `refs/sec-review/`. -/
inductive RefName where
  | head
  | base
  | pinned (index : Nat)
  deriving DecidableEq

def RefName.text : RefName → String
  | .head => "refs/sec-review/head"
  | .base => "refs/sec-review/base"
  | .pinned index => s!"refs/sec-review/pinned-{index}"

/-- What the commands left in the workspace. -/
structure Workspace where
  checkedOut : String
  refs : RefName → Option String

def secReviewInputRefName (ref : String) (index refCount : Nat) (windowBaseSha : Option String) :
    RefName :=
  if index = refCount - 1 then .head
  else if windowBaseSha = some ref then .base
  else .pinned index

inductive WorkspaceError where
  | message (text : String)
  /-- A Git command failed. -/
  | git
  deriving DecidableEq

/-- `git update-ref` for each ref in turn. -/
def updateRefs (refCount : Nat) (windowBaseSha : Option String) :
    List (String × Nat) → (RefName → Option String) → RefName → Option String
  | [], named => named
  | (ref, index) :: rest, named =>
    updateRefs refCount windowBaseSha rest
      (Function.update named (secReviewInputRefName ref index refCount windowBaseSha) (some ref))

def materializeWorkspaceFromRealGitHistory (remoteHas : String → Bool) (refs : List String)
    (windowBaseSha : Option String) : Except WorkspaceError Workspace :=
  if !refs.all remoteHas then .error .git
  else
    match refs.getLast? with
    | none => .error (.message "materializeWorkspaceFromRealGitHistory requires at least one ref.")
    | some headRef =>
      .ok { checkedOut := headRef
            refs := updateRefs refs.length windowBaseSha refs.zipIdx fun _ => none }

def materializeWorkspaceWithCommitHistory (remoteHas : String → Bool) (refs : List String)
    (windowBaseSha : Option String) (gitRemoteUrl : String) : Except WorkspaceError Workspace :=
  let normalizedRefs := (refs.map trim).eraseDups.filter fun ref => ref ≠ ""
  if normalizedRefs.length = 0 then
    .error (.message "materializeWorkspaceWithCommitHistory requires at least one ref.")
  else if normalizedRefs.any fun ref => ref.toList.head? == some '-' then
    .error (.message "materializeWorkspaceWithCommitHistory refs must not start with \"-\".")
  else if trim gitRemoteUrl = "" then
    .error (.message "materializeWorkspaceWithCommitHistory requires git_remote_url.")
  else
    let normalizedWindowBaseSha := (windowBaseSha.map trim).filter fun sha => sha ≠ ""
    if normalizedWindowBaseSha.any fun sha => sha ∉ normalizedRefs then
      .error (.message
        "materializeWorkspaceWithCommitHistory window_base_sha must be one of refs.")
    else materializeWorkspaceFromRealGitHistory remoteHas normalizedRefs normalizedWindowBaseSha

/-- `buildGitRemoteUrl`, with `serverUrl` from the environment. -/
def buildGitRemoteUrl (serverUrl ownerLogin repoName : String) : String :=
  serverUrl ++ "/" ++ ownerLogin ++ "/" ++ repoName ++ ".git"

def materializeWorkspaceHistory (remoteHas : String → Bool) (serverUrl : String)
    (pr : PullRequestContext) (window : ReviewWindow) (commitRefs : List String) :
    Except WorkspaceError Workspace :=
  materializeWorkspaceWithCommitHistory remoteHas
    ([pr.baseSha.text, window.baseSha.text] ++ commitRefs) (some window.baseSha.text)
    (buildGitRemoteUrl serverUrl pr.ownerLogin pr.repoName)

section Names

variable {refCount : Nat} {windowBaseSha : Option String}

/-- A name that no later ref takes keeps its value. -/
theorem updateRefs_of_not_named {entries : List (String × Nat)} {name : RefName}
    (free : ∀ entry ∈ entries,
      secReviewInputRefName entry.1 entry.2 refCount windowBaseSha ≠ name)
    (named : RefName → Option String) :
    updateRefs refCount windowBaseSha entries named name = named name := by
  induction entries generalizing named with
  | nil => rfl
  | cons entry rest ih =>
    have here := free entry List.mem_cons_self
    rw [updateRefs, ih fun e mem => free e (List.mem_cons_of_mem _ mem),
      Function.update_of_ne (Ne.symm here)]

/-- When the names of the refs are distinct, each names its ref. -/
theorem updateRefs_of_named {entries : List (String × Nat)}
    (distinct : entries.Pairwise fun a b =>
      secReviewInputRefName a.1 a.2 refCount windowBaseSha ≠
        secReviewInputRefName b.1 b.2 refCount windowBaseSha)
    {entry : String × Nat} (mem : entry ∈ entries) (named : RefName → Option String) :
    updateRefs refCount windowBaseSha entries named
      (secReviewInputRefName entry.1 entry.2 refCount windowBaseSha) = some entry.1 := by
  induction entries generalizing named with
  | nil => cases mem
  | cons first rest ih =>
    obtain ⟨apart, later⟩ := List.pairwise_cons.mp distinct
    rcases List.mem_cons.mp mem with rfl | mem
    · rw [updateRefs, updateRefs_of_not_named fun e he => (apart e he).symm,
        Function.update_self]
    · exact ih later mem _

end Names

/-- Among different refs no name is given twice. -/
theorem names_distinct {refs : List String} (nodup : refs.Nodup) (windowBaseSha : Option String) :
    refs.zipIdx.Pairwise fun a b =>
      secReviewInputRefName a.1 a.2 refs.length windowBaseSha ≠
        secReviewInputRefName b.1 b.2 refs.length windowBaseSha := by
  rw [List.pairwise_iff_getElem]
  intro i j hi hj before same
  rw [List.length_zipIdx] at hi hj
  simp only [List.getElem_zipIdx, Nat.zero_add, secReviewInputRefName] at same
  rw [if_neg (show ¬ i = refs.length - 1 by omega)] at same
  by_cases last : j = refs.length - 1
  · rw [if_pos last] at same
    split at same <;> cases same
  · rw [if_neg last] at same
    split at same
    · next first =>
      split at same
      · next second =>
        rw [first, Option.some.injEq] at second
        have : i = j := (nodup.getElem_inj_iff).mp second
        omega
      · cases same
    · split at same
      · cases same
      · cases same
        omega

section Commits

variable {remoteHas : String → Bool} {shas : List CommitSha} {windowBase : CommitSha}

/-- What is fetched: every commit once. -/
theorem normalized_shas (shas : List CommitSha) :
    (((shas.map CommitSha.text).map trim).eraseDups.filter fun ref => ref ≠ "") =
      shas.eraseDups.map CommitSha.text := by
  have trimmed : (shas.map CommitSha.text).map trim = shas.map CommitSha.text := by
    simp
  rw [trimmed, eraseDups_map CommitSha.text_injective]
  apply List.filter_eq_self.mpr
  intro ref mem
  obtain ⟨sha, _, rfl⟩ := List.mem_map.mp mem
  simpa using sha.digits.1

theorem trim_remoteUrl (serverUrl ownerLogin repoName : String) :
    trim (buildGitRemoteUrl serverUrl ownerLogin repoName) ≠ "" := by
  have mem : 'g' ∈ (buildGitRemoteUrl serverUrl ownerLogin repoName).toList := by
    simp [buildGitRemoteUrl]
  exact strip_ne_empty mem (by decide)

/-- The commands on a list of commits that the remote has. -/
theorem materialize_shas (fetched : ∀ sha ∈ shas, remoteHas sha.text = true)
    (requested : windowBase ∈ shas) {url : String} (remote : trim url ≠ "") :
    ∃ last, shas.eraseDups.getLast? = some last ∧
      materializeWorkspaceWithCommitHistory remoteHas (shas.map CommitSha.text)
        (some windowBase.text) url =
      .ok { checkedOut := last.text
            refs := updateRefs shas.eraseDups.length (some windowBase.text)
              (shas.eraseDups.map CommitSha.text).zipIdx fun _ => none } := by
  have mem : windowBase ∈ shas.eraseDups := List.mem_eraseDups.mpr requested
  have nonempty := List.ne_nil_of_mem mem
  obtain ⟨last, found⟩ := Option.isSome_iff_exists.mp (List.getLast?_isSome.mpr nonempty)
  have count : (shas.eraseDups.map CommitSha.text).length ≠ 0 := by
    simpa using nonempty
  have noDash : ((shas.eraseDups.map CommitSha.text).any fun ref =>
      ref.toList.head? == some '-') = false := by
    simp [startsWith_sha]
  have all : (shas.eraseDups.map CommitSha.text).all remoteHas = true := by
    simpa using fetched
  have base : ((Option.map trim (some windowBase.text)).filter fun sha => sha ≠ "") =
      some windowBase.text := by
    simp [windowBase.digits.1]
  have pinned : ((some windowBase.text).any fun sha =>
      sha ∉ shas.eraseDups.map CommitSha.text) = false := by
    simpa using ⟨windowBase, requested, rfl⟩
  refine ⟨last, found, ?_⟩
  simp only [materializeWorkspaceWithCommitHistory, normalized_shas]
  rw [if_neg count, if_neg (Bool.eq_false_iff.mp noDash), if_neg remote, base,
    if_neg (Bool.eq_false_iff.mp pinned), materializeWorkspaceFromRealGitHistory, if_neg (by simp [all]), List.getLast?_map, found,
    List.length_map]
  rfl

end Commits

/-- The workspace is at the head of the window, and its two ends and every requested
commit can be named. The exported diff runs from `window.baseSha` to
`window.headSha` and the review is published on `pr.headSha`. -/
structure AtWindowHead (workspace : Workspace) (window : ReviewWindow)
    (requested : List CommitSha) : Prop where
  checkedOut : workspace.checkedOut = window.headSha.text
  head : workspace.refs .head = some window.headSha.text
  base : workspace.refs .base = some window.baseSha.text
  pinned : ∀ sha ∈ requested, ∃ name, workspace.refs name = some sha.text

def requestedCommits (pr : PullRequestContext) (window : ReviewWindow)
    (commitRefs : List CommitSha) : List CommitSha :=
  [pr.baseSha, window.baseSha] ++ commitRefs

/-- Everything requested behind the first mention of the head was requested before it. -/
def HeadRequestedLast (head : CommitSha) (requested : List CommitSha) : Prop :=
  ∃ before rest, requested = before ++ head :: rest ∧ head ∉ before ∧
    ∀ sha ∈ rest, sha ∈ before ∨ sha = head

/-- Each fetched commit has the name of its place. -/
theorem updateRefs_sha {shas : List CommitSha} (nodup : shas.Nodup) (windowBase : CommitSha)
    {i : Nat} (inside : i < shas.length) :
    updateRefs shas.length (some windowBase.text) (shas.map CommitSha.text).zipIdx (fun _ => none)
      (secReviewInputRefName shas[i].text i shas.length (some windowBase.text)) =
        some shas[i].text := by
  have texts : (shas.map CommitSha.text).Nodup := nodup.map CommitSha.text_injective
  have distinct := names_distinct texts (some windowBase.text)
  rw [List.length_map] at distinct
  have mem : (shas[i].text, i) ∈ (shas.map CommitSha.text).zipIdx := by
    rw [List.mem_zipIdx_iff_getElem?, List.getElem?_map, List.getElem?_eq_getElem inside]
    rfl
  exact updateRefs_of_named distinct mem _

theorem atWindowHead_of_last {window : ReviewWindow} {requested : List CommitSha}
    (apart : window.baseSha ≠ window.headSha) (base : window.baseSha ∈ requested)
    (last : requested.eraseDups.getLast? = some window.headSha) :
    AtWindowHead
      { checkedOut := window.headSha.text
        refs := updateRefs requested.eraseDups.length (some window.baseSha.text)
          (requested.eraseDups.map CommitSha.text).zipIdx fun _ => none }
      window requested := by
  have nodup := nodup_eraseDups requested
  have members : ∀ sha, sha ∈ requested ↔ sha ∈ requested.eraseDups :=
    fun sha => List.mem_eraseDups.symm
  simp only [members] at base
  generalize requested.eraseDups = shas at *
  have bound : shas.length - 1 < shas.length := by
    have := List.length_pos_of_mem base
    omega
  have final : shas[shas.length - 1] = window.headSha := by
    rw [List.getLast?_eq_getElem?, List.getElem?_eq_getElem bound] at last
    exact Option.some.inj last
  constructor
  · rfl
  · have named := updateRefs_sha nodup window.baseSha bound
    rwa [secReviewInputRefName, if_pos rfl, final] at named
  · obtain ⟨i, inside, found⟩ := List.getElem_of_mem base
    have early : i ≠ shas.length - 1 := by
      rintro rfl
      exact apart (found.symm.trans final)
    have named := updateRefs_sha nodup window.baseSha inside
    rwa [secReviewInputRefName, if_neg early, found, if_pos rfl] at named
  · intro sha mem
    obtain ⟨i, inside, found⟩ := List.getElem_of_mem ((members sha).mp mem)
    exact ⟨_, found ▸ updateRefs_sha nodup window.baseSha inside⟩

/-- The workspace is the commit under review exactly when the head is the last new
commit of the list that is fetched. -/
theorem workspace_at_window_head_iff (remoteHas : String → Bool) (serverUrl : String)
    (pr : PullRequestContext) (window : ReviewWindow) (commitRefs : List CommitSha)
    (apart : window.baseSha ≠ window.headSha)
    (fetched : ∀ sha ∈ requestedCommits pr window commitRefs, remoteHas sha.text = true) :
    (∃ workspace, materializeWorkspaceHistory remoteHas serverUrl pr window
        (commitRefs.map CommitSha.text) = .ok workspace ∧
        AtWindowHead workspace window (requestedCommits pr window commitRefs)) ↔
      HeadRequestedLast window.headSha (requestedCommits pr window commitRefs) := by
  have base : window.baseSha ∈ requestedCommits pr window commitRefs := by
    simp [requestedCommits]
  obtain ⟨last, found, done⟩ := materialize_shas fetched base
    (trim_remoteUrl serverUrl pr.ownerLogin pr.repoName)
  have result : materializeWorkspaceHistory remoteHas serverUrl pr window
      (commitRefs.map CommitSha.text) = .ok _ := done
  rw [result, HeadRequestedLast, ← getLast?_eraseDups, found]
  constructor
  · rintro ⟨workspace, ⟨rfl⟩, good⟩
    rw [CommitSha.text_injective good.checkedOut]
  · rintro ⟨rfl⟩
    exact ⟨_, rfl, atWindowHead_of_last apart base found⟩

def baseCommit : CommitSha := ⟨"ba5e0", by decide, List.all_eq_true.mp (by decide)⟩

def headCommit : CommitSha := ⟨"ead01", by decide, List.all_eq_true.mp (by decide)⟩

def laterCommit : CommitSha := ⟨"1a7e2", by decide, List.all_eq_true.mp (by decide)⟩

def openedPullRequest : PullRequestContext where
  ownerLogin := "acme"
  repoName := "shop"
  baseSha := baseCommit
  headSha := headCommit
  previousHeadSha := none

/-- The commits were listed before anything else was pushed. -/
theorem unchanged_branch_at_head :
    ∃ workspace, materializeWorkspaceHistory (fun _ => true) "https://github.com"
        openedPullRequest (fullReviewWindow openedPullRequest) [headCommit.text] = .ok workspace ∧
      AtWindowHead workspace (fullReviewWindow openedPullRequest)
        (requestedCommits openedPullRequest (fullReviewWindow openedPullRequest)
          [headCommit]) := by
  refine (workspace_at_window_head_iff (fun _ => true) "https://github.com" openedPullRequest
    (fullReviewWindow openedPullRequest) [headCommit] (by decide)
    (fun _ _ => rfl)).mpr ?_
  exact ⟨[baseCommit, baseCommit], [], rfl, by decide, by simp⟩

/-- One more commit was pushed before they were listed: it is checked out. -/
theorem later_push_not_at_head :
    ¬ ∃ workspace, materializeWorkspaceHistory (fun _ => true) "https://github.com"
        openedPullRequest (fullReviewWindow openedPullRequest)
        [headCommit.text, laterCommit.text] = .ok workspace ∧
      AtWindowHead workspace (fullReviewWindow openedPullRequest)
        (requestedCommits openedPullRequest (fullReviewWindow openedPullRequest)
          [headCommit, laterCommit]) := by
  rintro ⟨workspace, done, good⟩
  have later : (materializeWorkspaceHistory (fun _ => true) "https://github.com"
      openedPullRequest (fullReviewWindow openedPullRequest)
      [headCommit.text, laterCommit.text]).map (·.checkedOut) = .ok laterCommit.text := by
    decide
  rw [done] at later
  have moved : workspace.checkedOut = laterCommit.text := Except.ok.inj later
  rw [good.checkedOut] at moved
  revert moved
  decide

end WorkspaceHistory
