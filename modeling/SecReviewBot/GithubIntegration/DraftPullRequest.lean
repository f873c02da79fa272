import SecReviewBot.TextPieces
import SecReviewBot.ThrowingPrograms
import SecReviewBot.TransitionSystems

/-!
# Publishing a draft pull request

`publishDraftPullRequest` of `draft-pull-request.ts` and GitHub as it sees it: each call
is atomic, and it may take effect and answer, take effect with the answer lost, or not
take effect. Attempts follow one another; the next one finds whatever the last one left.
Others work in the repository all the time, but not on the branch of the run.
-/

namespace DraftPullRequest

open TextPieces ThrowingPrograms TransitionSystems

/-- A commit is named by its place in the object store. -/
abbrev CommitId := Nat

structure Commit where
  message : String
  tree : String
  parents : List CommitId
  deriving DecidableEq

structure PullRequest where
  number : Nat
  htmlUrl : String
  title : String
  body : Option String
  /-- Owner and branch. -/
  head : String × String
  base : String
  draft : Bool
  isOpen : Bool
  deriving DecidableEq

structure GitHub where
  commits : List Commit
  branches : String → Option CommitId
  pulls : List PullRequest

structure DraftTreeElement where
  path : String
  mode : String
  sha : Option String
  deriving DecidableEq

structure DraftPullRequestPlan where
  owner : String
  branchName : String
  headSha : CommitId
  baseBranch : String
  title : String
  body : String
  commitMessage : String
  /-- What `build_tree` yields, the same each time. -/
  tree : List DraftTreeElement
  emptyTreeMessage : String
  mismatchMessage : String

structure PublishedDraftPullRequest where
  branchName : String
  title : String
  body : String
  htmlUrl : String
  number : Nat
  reused : Bool
  deriving DecidableEq

inductive Outcome where
  | answered | lost | notTaken
  deriving DecidableEq

/-- What others did: objects they added, their branches and their pull requests. -/
structure Elsewhere where
  commits : List Commit
  branches : String → Option CommitId
  pulls : List PullRequest

/-- The environment of one call. -/
structure CallEnv where
  /-- What others did since the call before. -/
  elsewhere : Elsewhere
  outcome : Outcome
  /-- A commit made in the same second with the same content has the same id. -/
  sameCommit : Option CommitId
  number : Nat
  htmlUrl : String

inductive AttemptError where
  /-- The call was lost or did not take effect, or the claim was. -/
  | unanswered
  | http (status : Nat) (message : String)
  | message (text : String)
  /-- `DeterministicExecutionPublishError`. -/
  | deterministic (text : String)
  deriving DecidableEq

structure World where
  github : GitHub
  /-- How many calls were made. -/
  made : Nat

abbrev Attempt := ExceptT AttemptError (StateM World)

/-- The environment of every call of an attempt. -/
abbrev Script := Nat → CallEnv

def isBranchAlreadyExists : AttemptError → Bool
  | .http status message =>
    status == 422 && includes (String.ofList (message.toList.map Char.toLower)) "already exists"
  | _ => false

section Protocol

-- the id Git gives to a tree made from a base tree and changed entries
variable (treeWith : String → List DraftTreeElement → String)
variable (plan : DraftPullRequestPlan)

def ownHead (pull : PullRequest) : Bool := pull.head = (plan.owner, plan.branchName)

/-- The pull requests from the branch of the run. -/
def ownPulls (s : GitHub) : List PullRequest := s.pulls.filter (ownHead plan)

def others (e : Elsewhere) (s : GitHub) : GitHub where
  commits := s.commits ++ e.commits
  branches := fun name => if name = plan.branchName then s.branches name else e.branches name
  pulls := ownPulls plan s ++ e.pulls.filter fun pull => !ownHead plan pull

/-- A call with its effect and its answer. -/
def remote {α : Type} (script : Script) (f : CallEnv → GitHub → Except AttemptError α × GitHub) :
    Attempt α := do
  let w ← get
  let env := script w.made
  let s := others plan env.elsewhere w.github
  match env.outcome with
  | .notTaken =>
    set (World.mk s (w.made + 1))
    throw .unanswered
  | .lost =>
    set (World.mk (f env s).2 (w.made + 1))
    throw .unanswered
  | .answered =>
    set (World.mk (f env s).2 (w.made + 1))
    match (f env s).1 with
    | .ok a => pure a
    | .error e => throw e

def answerPullsList (_ : CallEnv) (s : GitHub) : Except AttemptError (List PullRequest) × GitHub :=
  (.ok (s.pulls.filter fun pull => pull.isOpen && ownHead plan pull), s)

def answerGetCommit (id : CommitId) (_ : CallEnv) (s : GitHub) :
    Except AttemptError Commit × GitHub :=
  match s.commits[id]? with
  | some commit => (.ok commit, s)
  | none => (.error (.http 404 "Not Found"), s)

/-- Trees are content: making one twice gives the same id. -/
def answerCreateTree (baseTree : String) (tree : List DraftTreeElement) (_ : CallEnv) (s : GitHub) :
    Except AttemptError String × GitHub :=
  (.ok (treeWith baseTree tree), s)

def answerCreateCommit (commit : Commit) (env : CallEnv) (s : GitHub) :
    Except AttemptError CommitId × GitHub :=
  match env.sameCommit.filter fun id => s.commits[id]? = some commit with
  | some id => (.ok id, s)
  | none => (.ok s.commits.length, { s with commits := s.commits ++ [commit] })

def answerCreateRef (name : String) (id : CommitId) (_ : CallEnv) (s : GitHub) :
    Except AttemptError Unit × GitHub :=
  if (s.branches name).isSome then (.error (.http 422 "Reference already exists"), s)
  else (.ok (), { s with branches := fun other => if other = name then some id else s.branches other })

def answerGetRef (name : String) (_ : CallEnv) (s : GitHub) : Except AttemptError CommitId × GitHub :=
  match s.branches name with
  | some id => (.ok id, s)
  | none => (.error (.http 404 "Not Found"), s)

def newPull (env : CallEnv) : PullRequest where
  number := env.number
  htmlUrl := env.htmlUrl
  title := plan.title
  body := some plan.body
  head := (plan.owner, plan.branchName)
  base := plan.baseBranch
  draft := true
  isOpen := true

def answerPullsCreate (env : CallEnv) (s : GitHub) : Except AttemptError PullRequest × GitHub :=
  (.ok (newPull plan env), { s with pulls := newPull plan env :: s.pulls })

/-- `assert_claim` and `build_tree` ask others than GitHub, or leave nothing that matters
here; they too may fail. -/
def answerWith {α : Type} (a : α) (_ : CallEnv) (s : GitHub) : Except AttemptError α × GitHub :=
  (.ok a, s)

variable (script : Script)

def assertClaim : Attempt Unit := remote plan script (answerWith ())

/-- The `catch` around `createRef`: an existing branch must carry this result. -/
def reconcileBranch (treeSha : String) (error : AttemptError) : Attempt Unit := do
  if !isBranchAlreadyExists error then throw error
  else do
    assertClaim plan script
    let existingRef ← remote plan script (answerGetRef plan.branchName)
    let existingCommit ← remote plan script (answerGetCommit existingRef)
    if existingCommit.tree ≠ treeSha ∨ existingCommit.parents ≠ [plan.headSha] then
      throw (.deterministic plan.mismatchMessage)
    else pure ()

/-- The branch and the pull request, once no open pull request was found. -/
def publishNew : Attempt PublishedDraftPullRequest := do
  let baseCommit ← remote plan script (answerGetCommit plan.headSha)
  let tree ← remote plan script (answerWith plan.tree)
  if tree.length = 0 then throw (.message plan.emptyTreeMessage)
  else do
    assertClaim plan script
    let treeSha ← remote plan script (answerCreateTree treeWith baseCommit.tree tree)
    assertClaim plan script
    let newCommit ← remote plan script
      (answerCreateCommit ⟨plan.commitMessage, treeSha, [plan.headSha]⟩)
    tryCatch
      (do
        assertClaim plan script
        remote plan script (answerCreateRef plan.branchName newCommit))
      (reconcileBranch plan script treeSha)
    assertClaim plan script
    let pullRequest ← remote plan script (answerPullsCreate plan)
    pure
      { branchName := plan.branchName
        title := plan.title
        body := plan.body
        htmlUrl := pullRequest.htmlUrl
        number := pullRequest.number
        reused := false }

def publishDraftPullRequest : Attempt PublishedDraftPullRequest := do
  let existingPullRequests ← remote plan script (answerPullsList plan)
  match existingPullRequests with
  | existing :: _ =>
    pure
      { branchName := plan.branchName
        title := existing.title
        body := existing.body.getD plan.body
        htmlUrl := existing.htmlUrl
        number := existing.number
        reused := true }
  | [] => publishNew treeWith plan script

/-- The repository before the first attempt. -/
structure Start where
  github : GitHub
  base : Commit
  head : github.commits[plan.headSha]? = some base
  noBranch : github.branches plan.branchName = none
  noPulls : ownPulls plan github = []

/-- One attempt, from what the ones before left. -/
def attemptFrom (s : GitHub) : Except AttemptError PublishedDraftPullRequest × World :=
  (publishDraftPullRequest treeWith plan script).run.run ⟨s, 0⟩

def attempts (start : Start plan) : System GitHub Script where
  initial := start.github
  step s script := (attemptFrom treeWith plan script s).2.github

/-- Nothing happened on the branch of the run. -/
structure Apart (s t : GitHub) : Prop where
  commits : s.commits <+: t.commits
  branch : t.branches plan.branchName = s.branches plan.branchName
  pulls : ownPulls plan t = ownPulls plan s

/-- The branch carries the result, and at most one pull request was opened from it. -/
structure Sound (start : Start plan) (s : GitHub) : Prop where
  head : s.commits[plan.headSha]? = some start.base
  branch : ∀ id, s.branches plan.branchName = some id →
    ∃ commit, s.commits[id]? = some commit ∧
      commit.tree = treeWith start.base.tree plan.tree ∧ commit.parents = [plan.headSha]
  pulls : (ownPulls plan s).length ≤ 1
  opened : ∀ pull ∈ ownPulls plan s, pull.isOpen = true

variable {treeWith plan script} {start : Start plan} {s t u : GitHub}

theorem Apart.refl (s : GitHub) : Apart plan s s := ⟨List.prefix_rfl, rfl, rfl⟩

theorem Apart.trans (h : Apart plan s t) (k : Apart plan t u) : Apart plan s u :=
  ⟨h.commits.trans k.commits, k.branch.trans h.branch, k.pulls.trans h.pulls⟩

theorem apart_others (e : Elsewhere) (s : GitHub) : Apart plan s (others plan e s) where
  commits := List.prefix_append _ _
  branch := by simp [others]
  pulls := by
    have none : (e.pulls.filter fun pull => !ownHead plan pull).filter (ownHead plan) = [] := by
      rw [List.filter_eq_nil_iff]
      intro pull mem
      simpa using (List.mem_filter.mp mem).2
    rw [ownPulls, others, List.filter_append, none, List.append_nil, ownPulls, List.filter_filter]
    simp

theorem Apart.commit {id : CommitId} {commit : Commit} (h : Apart plan s t)
    (found : s.commits[id]? = some commit) : t.commits[id]? = some commit := by
  obtain ⟨rest, eq⟩ := h.commits
  have inside : id < s.commits.length := (List.getElem?_eq_some_iff.mp found).1
  rw [← eq, List.getElem?_append_left inside, found]

theorem Sound.of_apart (h : Sound treeWith plan start s) (apart : Apart plan s t) :
    Sound treeWith plan start t where
  head := apart.commit h.head
  branch := by
    intro id pointed
    rw [apart.branch] at pointed
    obtain ⟨commit, found, carries⟩ := h.branch id pointed
    exact ⟨commit, apart.commit found, carries⟩
  pulls := by rw [apart.pulls]; exact h.pulls
  opened := by rw [apart.pulls]; exact h.opened

theorem sound_start (start : Start plan) : Sound treeWith plan start start.github where
  head := start.head
  branch := by
    intro id pointed
    rw [start.noBranch] at pointed
    cases pointed
  pulls := by simp [start.noPulls]
  opened := by simp [start.noPulls]

/-- The branch, once created, stays where it points, and no pull request goes away. -/
structure Kept (plan : DraftPullRequestPlan) (s t : GitHub) : Prop where
  branch : ∀ id, s.branches plan.branchName = some id → t.branches plan.branchName = some id
  pulls : ∀ pull ∈ ownPulls plan s, pull ∈ ownPulls plan t

theorem Kept.refl (s : GitHub) : Kept plan s s := ⟨fun _ h => h, fun _ h => h⟩

theorem Kept.trans (h : Kept plan s t) (k : Kept plan t u) : Kept plan s u :=
  ⟨fun id pointed => k.branch id (h.branch id pointed),
    fun pull mem => k.pulls pull (h.pulls pull mem)⟩

theorem Kept.of_apart (h : Kept plan s t) (apart : Apart plan t u) : Kept plan s u where
  branch := by
    intro id pointed
    rw [apart.branch]
    exact h.branch id pointed
  pulls := by
    rw [apart.pulls]
    exact h.pulls

/-- A sound repository in which the branch is kept. -/
structure Safe (treeWith : String → List DraftTreeElement → String) (start : Start plan)
    (s t : GitHub) : Prop where
  sound : Sound treeWith plan start t
  kept : Kept plan s t

theorem Safe.of_apart (h : Safe treeWith start s t) (apart : Apart plan t u) :
    Safe treeWith start s u :=
  ⟨h.sound.of_apart apart, h.kept.of_apart apart⟩

/-- An attempt stops short because of a call, or because there is nothing to publish. -/
structure Stopped (treeWith : String → List DraftTreeElement → String) (script : Script)
    (start : Start plan) (s : GitHub) (e : AttemptError) (w : World) : Prop where
  safe : Safe treeWith start s w.github
  why : (e = .unanswered ∧ ∃ i < w.made, (script i).outcome ≠ .answered) ∨
    (e = .message plan.emptyTreeMessage ∧ plan.tree = [])

section Rules

variable {α : Type} {w : World} {f : CallEnv → GitHub → Except AttemptError α × GitHub}
variable {Q : α → World → Prop} {E : AttemptError → World → Prop}

/-- One call: before it others act apart from the branch, its effect is safe, and its
answer is as wanted. -/
theorem ends_remote (safe : Safe treeWith start s w.github)
    (effect : ∀ env t, Apart plan w.github t → Safe treeWith start s (f env t).2)
    (stopped : ∀ v, Stopped treeWith script start s .unanswered v → E .unanswered v)
    (returns : ∀ env t a, Apart plan w.github t → (f env t).1 = .ok a →
      Q a ⟨(f env t).2, w.made + 1⟩)
    (throws : ∀ env t e, Apart plan w.github t → (f env t).1 = .error e →
      E e ⟨(f env t).2, w.made + 1⟩) :
    Ends (remote plan script f) w Q E := by
  have apart : Apart plan w.github (others plan (script w.made).elsewhere w.github) :=
    apart_others _ _
  have unanswered : ∀ t, (script w.made).outcome ≠ .answered → Safe treeWith start s t →
      E .unanswered ⟨t, w.made + 1⟩ := by
    intro t none safe
    exact stopped _ ⟨safe, .inl ⟨rfl, w.made, Nat.lt_succ_self _, none⟩⟩
  simp only [remote, ends_bind, ends_get]
  cases outcome : (script w.made).outcome with
  | notTaken =>
    simp only [ends_bind, ends_set, ends_throw]
    exact unanswered _ (by simp [outcome]) (safe.of_apart apart)
  | lost =>
    simp only [ends_bind, ends_set, ends_throw]
    exact unanswered _ (by simp [outcome]) (effect _ _ apart)
  | answered =>
    simp only [ends_bind, ends_set]
    cases answer : (f (script w.made) (others plan (script w.made).elsewhere w.github)).1 with
    | ok a => exact returns _ _ a apart answer
    | error e => exact throws _ _ e apart answer

/-- A call that stays apart from the branch and does not refuse. -/
theorem ends_remote_apart (safe : Safe treeWith start s w.github)
    (effect : ∀ env t, Apart plan t (f env t).2)
    (stopped : ∀ v, Stopped treeWith script start s .unanswered v → E .unanswered v)
    (returns : ∀ env t, Apart plan w.github t →
      ∃ a, (f env t).1 = .ok a ∧ Q a ⟨(f env t).2, w.made + 1⟩) :
    Ends (remote plan script f) w Q E := by
  refine ends_remote safe (fun env t apart => ?_) stopped ?_ ?_
  · exact (safe.of_apart apart).of_apart (effect env t)
  · intro env t a apart answer
    obtain ⟨b, eq, wanted⟩ := returns env t apart
    rw [eq] at answer
    cases answer
    exact wanted
  · intro env t e apart answer
    obtain ⟨b, eq, _⟩ := returns env t apart
    rw [eq] at answer
    cases answer

theorem ends_answerWith {a : α} (safe : Safe treeWith start s w.github)
    (stopped : ∀ v, Stopped treeWith script start s .unanswered v → E .unanswered v)
    (returns : ∀ t, Apart plan w.github t → Q a ⟨t, w.made + 1⟩) :
    Ends (remote plan script (answerWith a)) w Q E :=
  ends_remote_apart safe (fun _ t => Apart.refl t) stopped
    fun _ t apart => ⟨a, rfl, returns t apart⟩

end Rules

section Attempt

variable {w : World}

theorem apart_answerGetCommit (id : CommitId) (env : CallEnv) (t : GitHub) :
    Apart plan t (answerGetCommit id env t).2 := by
  rw [answerGetCommit]
  split <;> exact Apart.refl t

theorem apart_answerGetRef (name : String) (env : CallEnv) (t : GitHub) :
    Apart plan t (answerGetRef name env t).2 := by
  rw [answerGetRef]
  split <;> exact Apart.refl t

theorem apart_answerCreateCommit (commit : Commit) (env : CallEnv) (t : GitHub) :
    Apart plan t (answerCreateCommit commit env t).2 := by
  rw [answerCreateCommit]
  split
  · exact Apart.refl t
  · exact ⟨List.prefix_append _ _, rfl, rfl⟩

/-- The commit can be found under the id it was given. -/
theorem answerCreateCommit_found (commit : Commit) (env : CallEnv) (t : GitHub) :
    ∃ id, (answerCreateCommit commit env t).1 = .ok id ∧
      (answerCreateCommit commit env t).2.commits[id]? = some commit := by
  rw [answerCreateCommit]
  split
  · next id same =>
    obtain ⟨_, found⟩ := Option.filter_eq_some_iff.mp same
    exact ⟨id, rfl, by simpa using found⟩
  · exact ⟨_, rfl, by simp⟩

theorem answerGetCommit_found {id : CommitId} {commit : Commit} {t : GitHub}
    (found : t.commits[id]? = some commit) (env : CallEnv) :
    answerGetCommit id env t = (.ok commit, t) := by
  simp only [answerGetCommit, found]

theorem isBranchAlreadyExists_refused :
    isBranchAlreadyExists (.http 422 "Reference already exists") = true := by decide

/-- A branch that already exists is found to carry the result. -/
theorem reconcileBranch_spec (safe : Safe treeWith start s w.github) {id : CommitId}
    (pointed : w.github.branches plan.branchName = some id) :
    Ends (reconcileBranch plan script (treeWith start.base.tree plan.tree)
        (.http 422 "Reference already exists")) w
      (fun _ v => Apart plan w.github v.github) (Stopped treeWith script start s) := by
  obtain ⟨commit, found, tree, parents⟩ := safe.sound.branch id pointed
  simp only [reconcileBranch, isBranchAlreadyExists_refused, Bool.not_true, Bool.false_eq_true,
    if_false, ends_bind]
  refine ends_answerWith safe (fun _ h => h) fun t₁ apart₁ => ?_
  refine ends_remote_apart (safe.of_apart apart₁) (apart_answerGetRef _) (fun _ h => h) ?_
  intro env t₂ apart₂
  have here : answerGetRef plan.branchName env t₂ = (.ok id, t₂) := by
    simp only [answerGetRef, apart₂.branch, apart₁.branch, pointed]
  refine ⟨id, by rw [here], ?_⟩
  rw [here]
  have upto₂ := apart₁.trans apart₂
  refine ends_remote_apart (safe.of_apart upto₂) (apart_answerGetCommit _) (fun _ h => h) ?_
  intro env t₃ apart₃
  have upto₃ := upto₂.trans apart₃
  have read := answerGetCommit_found (upto₃.commit found) env
  refine ⟨commit, by rw [read], ?_⟩
  rw [read]
  simpa [tree, parents, ends_pure] using upto₃

/-- The repository with the branch of the run pointing to `id`. -/
def withBranch (plan : DraftPullRequestPlan) (id : CommitId) (t : GitHub) : GitHub :=
  { t with branches := fun other => if other = plan.branchName then some id else t.branches other }

theorem answerCreateRef_absent {t : GitHub} (absent : t.branches plan.branchName = none)
    (id : CommitId) (env : CallEnv) :
    answerCreateRef plan.branchName id env t = (.ok (), withBranch plan id t) := by
  simp [answerCreateRef, absent, withBranch]

theorem answerCreateRef_present {t : GitHub} {other : CommitId}
    (pointed : t.branches plan.branchName = some other) (id : CommitId) (env : CallEnv) :
    answerCreateRef plan.branchName id env t =
      (.error (.http 422 "Reference already exists"), t) := by
  simp [answerCreateRef, pointed]

/-- A new branch is safe when its commit carries the result. -/
theorem Safe.withBranch {id : CommitId} {commit : Commit} (safe : Safe treeWith start s t)
    (absent : t.branches plan.branchName = none) (found : t.commits[id]? = some commit)
    (tree : commit.tree = treeWith start.base.tree plan.tree)
    (parents : commit.parents = [plan.headSha]) :
    Safe treeWith start s (withBranch plan id t) where
  sound :=
    { head := safe.sound.head
      branch := by
        intro id' pointed
        simp only [DraftPullRequest.withBranch, if_true, Option.some.injEq] at pointed
        subst pointed
        exact ⟨commit, found, tree, parents⟩
      pulls := safe.sound.pulls
      opened := safe.sound.opened }
  kept :=
    { branch := by
        intro id' pointed
        have before := safe.kept.branch id' pointed
        rw [absent] at before
        cases before
      pulls := safe.kept.pulls }

/-- Whether the branch is new or was there, it carries the result afterwards. -/
theorem createBranch_spec (safe : Safe treeWith start s w.github) {id : CommitId}
    {commit : Commit} (found : w.github.commits[id]? = some commit)
    (tree : commit.tree = treeWith start.base.tree plan.tree)
    (parents : commit.parents = [plan.headSha]) :
    Ends
      (tryCatch
        (do
          assertClaim plan script
          remote plan script (answerCreateRef plan.branchName id))
        (reconcileBranch plan script (treeWith start.base.tree plan.tree))) w
      (fun _ v => Safe treeWith start s v.github ∧ ownPulls plan v.github = ownPulls plan w.github)
      (Stopped treeWith script start s) := by
  have rethrown : ∀ v, Stopped treeWith script start s .unanswered v →
      Ends (reconcileBranch plan script (treeWith start.base.tree plan.tree) .unanswered) v
        (fun _ v => Safe treeWith start s v.github ∧
          ownPulls plan v.github = ownPulls plan w.github)
        (Stopped treeWith script start s) := fun v stopped => stopped
  rw [ends_tryCatch, ends_bind]
  refine ends_answerWith safe rethrown fun t₁ apart₁ => ?_
  refine ends_remote (safe.of_apart apart₁) ?_ rethrown ?_ ?_
  · intro env t₂ apart₂
    have upto := apart₁.trans apart₂
    cases pointed : t₂.branches plan.branchName with
    | none =>
      rw [answerCreateRef_absent pointed]
      exact (safe.of_apart upto).withBranch pointed (upto.commit found) tree parents
    | some other =>
      rw [answerCreateRef_present pointed]
      exact safe.of_apart upto
  · intro env t₂ _ apart₂ answer
    have upto := apart₁.trans apart₂
    cases pointed : t₂.branches plan.branchName with
    | none =>
      rw [answerCreateRef_absent pointed]
      exact ⟨(safe.of_apart upto).withBranch pointed (upto.commit found) tree parents, upto.pulls⟩
    | some other =>
      rw [answerCreateRef_present pointed] at answer
      cases answer
  · intro env t₂ e apart₂ answer
    have upto := apart₁.trans apart₂
    cases pointed : t₂.branches plan.branchName with
    | none =>
      rw [answerCreateRef_absent pointed] at answer
      cases answer
    | some other =>
      rw [answerCreateRef_present pointed] at answer ⊢
      cases answer
      have safe₂ : Safe treeWith start s t₂ := safe.of_apart upto
      refine (reconcileBranch_spec safe₂ pointed).mono ?_ fun _ _ h => h
      intro _ v apart₃
      exact ⟨safe₂.of_apart apart₃, (upto.trans apart₃).pulls⟩

/-- What an attempt returns is the one pull request of the branch. -/
structure Published (treeWith : String → List DraftTreeElement → String) (start : Start plan)
    (s : GitHub) (published : PublishedDraftPullRequest) (w : World) : Prop where
  safe : Safe treeWith start s w.github
  only : ∃ pull, ownPulls plan w.github = [pull] ∧ published.number = pull.number ∧
    published.htmlUrl = pull.htmlUrl

theorem ownPulls_answerPullsCreate (env : CallEnv) (t : GitHub) :
    ownPulls plan (answerPullsCreate plan env t).2 = newPull plan env :: ownPulls plan t := by
  have own : ownHead plan (newPull plan env) = true := by simp [ownHead, newPull]
  rw [ownPulls, answerPullsCreate, List.filter_cons_of_pos own, ownPulls]

theorem Safe.pullsCreate (safe : Safe treeWith start s t) (none : ownPulls plan t = [])
    (env : CallEnv) : Safe treeWith start s (answerPullsCreate plan env t).2 where
  sound :=
    { head := safe.sound.head
      branch := safe.sound.branch
      pulls := by simp [ownPulls_answerPullsCreate, none]
      opened := by simp [ownPulls_answerPullsCreate, none, newPull] }
  kept :=
    { branch := safe.kept.branch
      pulls := by
        intro pull mem
        rw [ownPulls_answerPullsCreate]
        exact List.mem_cons_of_mem _ (safe.kept.pulls pull mem) }

theorem publishNew_spec (safe : Safe treeWith start s w.github)
    (none : ownPulls plan w.github = []) :
    Ends (publishNew treeWith plan script) w (Published treeWith start s)
      (Stopped treeWith script start s) := by
  simp only [publishNew, ends_bind]
  refine ends_remote_apart safe (apart_answerGetCommit _) (fun _ h => h) ?_
  intro env t₁ apart₁
  have read := answerGetCommit_found (apart₁.commit safe.sound.head) env
  refine ⟨start.base, by rw [read], ?_⟩
  rw [read]
  refine ends_answerWith (safe.of_apart apart₁) (fun _ h => h) fun t₂ apart₂ => ?_
  have upto₂ := apart₁.trans apart₂
  by_cases empty : plan.tree.length = 0
  · rw [if_pos empty, ends_throw]
    exact ⟨safe.of_apart upto₂, .inr ⟨rfl, List.length_eq_zero_iff.mp empty⟩⟩
  · rw [if_neg empty]
    simp only [ends_bind]
    refine ends_answerWith (safe.of_apart upto₂) (fun _ h => h) fun t₃ apart₃ => ?_
    have upto₃ := upto₂.trans apart₃
    refine ends_remote_apart (safe.of_apart upto₃) (fun _ t => Apart.refl t) (fun _ h => h) ?_
    intro env t₄ apart₄
    refine ⟨_, rfl, ?_⟩
    have upto₄ := upto₃.trans apart₄
    refine ends_answerWith (safe.of_apart upto₄) (fun _ h => h) fun t₅ apart₅ => ?_
    have upto₅ := upto₄.trans apart₅
    refine ends_remote_apart (safe.of_apart upto₅) (apart_answerCreateCommit _) (fun _ h => h) ?_
    intro env t₆ apart₆
    obtain ⟨id, named, found⟩ := answerCreateCommit_found
      ⟨plan.commitMessage, treeWith start.base.tree plan.tree, [plan.headSha]⟩ env t₆
    refine ⟨id, named, ?_⟩
    have upto₆ := (upto₅.trans apart₆).trans (apart_answerCreateCommit
      ⟨plan.commitMessage, treeWith start.base.tree plan.tree, [plan.headSha]⟩ env t₆)
    refine (createBranch_spec (safe.of_apart upto₆) found rfl rfl).mono ?_ fun _ _ h => h
    rintro _ v ⟨safe₇, pulls₇⟩
    have none₇ : ownPulls plan v.github = [] := pulls₇.trans (upto₆.pulls.trans none)
    refine ends_answerWith safe₇ (fun _ h => h) fun t₈ apart₈ => ?_
    refine ends_remote (safe₇.of_apart apart₈) ?_ (fun _ h => h) ?_ ?_
    · intro env t₉ apart₉
      have upto₉ := apart₈.trans apart₉
      exact (safe₇.of_apart upto₉).pullsCreate (upto₉.pulls.trans none₇) env
    · intro env t₉ pull apart₉ answer
      have upto₉ := apart₈.trans apart₉
      cases answer
      refine ⟨(safe₇.of_apart upto₉).pullsCreate (upto₉.pulls.trans none₇) env,
        newPull plan env, ?_, rfl, rfl⟩
      rw [ownPulls_answerPullsCreate, upto₉.pulls, none₇]
    · intro env t₉ e apart₉ answer
      cases answer

/-- The open pull requests of the branch are all of them. -/
theorem openPulls_eq (sound : Sound treeWith plan start t) :
    (t.pulls.filter fun pull => pull.isOpen && ownHead plan pull) = ownPulls plan t := by
  rw [ownPulls]
  refine List.filter_congr fun pull mem => ?_
  cases own : ownHead plan pull with
  | false => simp
  | true => simp [sound.opened pull (List.mem_filter.mpr ⟨mem, own⟩)]

/-- One attempt, wherever it stops. -/
theorem publishDraftPullRequest_spec (sound : Sound treeWith plan start s) :
    Ends (publishDraftPullRequest treeWith plan script) ⟨s, 0⟩ (Published treeWith start s)
      (Stopped treeWith script start s) := by
  have safe : Safe treeWith start s s := ⟨sound, Kept.refl s⟩
  rw [publishDraftPullRequest, ends_bind]
  refine ends_remote_apart safe (fun _ t => Apart.refl t) (fun _ h => h) ?_
  intro env t apart
  refine ⟨_, rfl, ?_⟩
  have safe₁ := safe.of_apart apart
  rw [openPulls_eq safe₁.sound]
  have few := safe₁.sound.pulls
  cases own : ownPulls plan t with
  | nil => exact publishNew_spec safe₁ own
  | cons existing rest =>
    rw [own] at few
    have last : rest = [] := by simpa using few
    rw [last] at own
    exact ⟨safe₁, existing, own, rfl, rfl⟩

end Attempt

theorem attemptFrom_spec (sound : Sound treeWith plan start s) (script : Script) :
    (∃ published, (attemptFrom treeWith plan script s).1 = .ok published ∧
      Published treeWith start s published (attemptFrom treeWith plan script s).2) ∨
    ∃ e, (attemptFrom treeWith plan script s).1 = .error e ∧
      Stopped treeWith script start s e (attemptFrom treeWith plan script s).2 := by
  have spec : Ends (publishDraftPullRequest treeWith plan script) ⟨s, 0⟩
      (Published treeWith start s) (Stopped treeWith script start s) :=
    publishDraftPullRequest_spec sound
  revert spec
  simp only [Ends, attemptFrom]
  rcases (publishDraftPullRequest treeWith plan script).run.run ⟨s, 0⟩ with ⟨e | published, w⟩
  · exact fun stopped => .inr ⟨e, rfl, stopped⟩
  · exact fun done => .inl ⟨published, rfl, done⟩

theorem attemptFrom_safe (sound : Sound treeWith plan start s) (script : Script) :
    Safe treeWith start s ((attempts treeWith plan start).step s script) := by
  rcases attemptFrom_spec sound script with ⟨_, _, done⟩ | ⟨_, _, stopped⟩
  · exact done.safe
  · exact stopped.safe

theorem runFrom_safe (sound : Sound treeWith plan start s) (scripts : List Script) :
    Safe treeWith start s ((attempts treeWith plan start).runFrom s scripts) := by
  induction scripts generalizing s with
  | nil => exact ⟨sound, Kept.refl s⟩
  | cons script rest ih =>
    have first := attemptFrom_safe sound script
    have later := ih first.sound
    exact ⟨later.sound, first.kept.trans later.kept⟩

/-- Over any sequence of attempts at most one pull request is opened from the branch, the
branch stays at a commit with the tree of the plan and the head as its parent, and no
attempt fails because of the branch. With something to publish, an attempt whose calls
all answer returns that pull request. -/
theorem draft_publication_idempotent (treeWith : String → List DraftTreeElement → String)
    (plan : DraftPullRequestPlan) (start : Start plan) (earlier : List Script) :
    ((ownPulls plan ((attempts treeWith plan start).run earlier)).length ≤ 1 ∧
      ∀ later, ∀ pull ∈ ownPulls plan ((attempts treeWith plan start).run earlier),
        pull ∈ ownPulls plan ((attempts treeWith plan start).run (earlier ++ later))) ∧
    (∀ id, ((attempts treeWith plan start).run earlier).branches plan.branchName = some id →
      (∃ commit, ((attempts treeWith plan start).run earlier).commits[id]? = some commit ∧
        commit.tree = treeWith start.base.tree plan.tree ∧ commit.parents = [plan.headSha]) ∧
      ∀ later, ((attempts treeWith plan start).run (earlier ++ later)).branches plan.branchName =
        some id) ∧
    ∀ script, ∀ result w,
      attemptFrom treeWith plan script ((attempts treeWith plan start).run earlier) = (result, w) →
      result ≠ .error (.deterministic plan.mismatchMessage) ∧
      (plan.tree ≠ [] → (∀ i < w.made, (script i).outcome = .answered) →
        ∃ published pull, result = .ok published ∧ ownPulls plan w.github = [pull] ∧
          published.number = pull.number ∧ published.htmlUrl = pull.htmlUrl) := by
  have sound : Sound treeWith plan start ((attempts treeWith plan start).run earlier) :=
    (runFrom_safe (sound_start start) earlier).sound
  have kept : ∀ later, Kept plan ((attempts treeWith plan start).run earlier)
      ((attempts treeWith plan start).run (earlier ++ later)) := by
    intro later
    have whole : (attempts treeWith plan start).run (earlier ++ later) =
        (attempts treeWith plan start).runFrom ((attempts treeWith plan start).run earlier) later :=
      System.runFrom_append _ _ _ _
    rw [whole]
    exact (runFrom_safe sound later).kept
  refine ⟨⟨sound.pulls, fun later => (kept later).pulls⟩, ?_, ?_⟩
  · intro id pointed
    exact ⟨sound.branch id pointed, fun later => (kept later).branch id pointed⟩
  · intro script result w eq
    have spec := attemptFrom_spec sound script
    rw [eq] at spec
    rcases spec with ⟨published, rfl, done⟩ | ⟨e, rfl, stopped⟩
    · refine ⟨by simp, fun _ _ => ?_⟩
      obtain ⟨pull, only, number, url⟩ := done.only
      exact ⟨published, pull, rfl, only, number, url⟩
    · rcases stopped.why with ⟨rfl, i, before, unanswered⟩ | ⟨rfl, empty⟩
      · exact ⟨by simp, fun _ answered => absurd (answered i before) unanswered⟩
      · exact ⟨by simp, fun some => absurd empty some⟩

end Protocol

/-- The plan of a delivery that changes what `tree` says. -/
def planOf (tree : List DraftTreeElement) : DraftPullRequestPlan where
  owner := "octo"
  branchName := "sec-review-bot/repo-scan/run/delivery"
  headSha := 0
  baseBranch := "main"
  title := "Fix"
  body := "Body"
  commitMessage := "sec: fix"
  tree := tree
  emptyTreeMessage := "Repository security delivery requires at least one changed file."
  mismatchMessage := "Existing delivery draft PR branch does not match the validated result."

def firstStart (tree : List DraftTreeElement) : Start (planOf tree) where
  github :=
    { commits := [⟨"Initial commit", "tree", []⟩]
      branches := fun _ => none
      pulls := [] }
  base := ⟨"Initial commit", "tree", []⟩
  head := rfl
  noBranch := rfl
  noPulls := rfl

/-- Every call answers and nobody else does anything. -/
def quietScript : Script := fun _ =>
  { elsewhere := { commits := [], branches := fun _ => none, pulls := [] }
    outcome := .answered
    sameCommit := none
    number := 1
    htmlUrl := "pull/1" }

/-- The answer to one of the calls is lost. -/
def losing (call : Nat) : Script := fun made =>
  { quietScript made with outcome := if made = call then .lost else .answered }

def changedFile : List DraftTreeElement :=
  [{ path := "src/app.py", mode := "100644", sha := some "blob" }]

def treeOf (base : String) (tree : List DraftTreeElement) : String :=
  tree.foldl (fun made element => made ++ ":" ++ element.path) base

/-- The answer to the creation of the branch is lost, and the next attempt goes on from there. -/
theorem lost_branch_resumed :
    (attemptFrom treeOf (planOf changedFile) (losing 8) (firstStart changedFile).github).1 =
        .error .unanswered ∧
      ((attempts treeOf (planOf changedFile) (firstStart changedFile)).run
        [losing 8]).branches (planOf changedFile).branchName = some 1 ∧
      ∃ published pull,
        (attemptFrom treeOf (planOf changedFile) quietScript
          ((attempts treeOf (planOf changedFile) (firstStart changedFile)).run
            [losing 8])).1 = .ok published ∧
        ownPulls (planOf changedFile) (attemptFrom treeOf (planOf changedFile) quietScript
          ((attempts treeOf (planOf changedFile) (firstStart changedFile)).run
            [losing 8])).2.github = [pull] ∧
        published.number = pull.number ∧ published.htmlUrl = pull.htmlUrl := by
  refine ⟨rfl, rfl, ?_⟩
  exact ((draft_publication_idempotent treeOf (planOf changedFile) (firstStart changedFile)
    [losing 8]).2.2 quietScript _ _ rfl).2 (List.cons_ne_nil _ _) fun _ _ => rfl

theorem empty_tree_not_published :
    (attemptFrom (fun base _ => base) (planOf []) quietScript
        ((attempts (fun base _ => base) (planOf []) (firstStart [])).run [])).1 =
      .error (.message "Repository security delivery requires at least one changed file.") ∧
    ¬ ∀ (script : Script) (result : Except AttemptError PublishedDraftPullRequest) (w : World),
      attemptFrom (fun base _ => base) (planOf []) script
          ((attempts (fun base _ => base) (planOf []) (firstStart [])).run []) = (result, w) →
        (∀ i < w.made, (script i).outcome = .answered) →
        ∃ published pull, result = .ok published ∧ ownPulls (planOf []) w.github = [pull] ∧
          published.number = pull.number ∧ published.htmlUrl = pull.htmlUrl := by
  have thrown : (attemptFrom (fun base _ => base) (planOf []) quietScript
      ((attempts (fun base _ => base) (planOf []) (firstStart [])).run [])).1 =
        .error (.message "Repository security delivery requires at least one changed file.") := rfl
  refine ⟨thrown, ?_⟩
  intro always
  obtain ⟨published, pull, returned, _⟩ := always quietScript _ _ rfl fun _ _ => rfl
  have contradiction := thrown.symm.trans returned
  cases contradiction

end DraftPullRequest
