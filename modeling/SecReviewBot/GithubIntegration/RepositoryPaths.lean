import SecReviewBot.TextCodecs

/-!
# Repository file paths

The worker checks the paths of a repair (`workspace/paths.py`), and the publisher checks them
again (`repo-path.ts`). The rules are the same up to the control characters that the worker
refuses besides, and up to what each language trims.
-/

namespace RepositoryPaths

open TextCodecs

/-- `^[A-Za-z]:`. -/
def driveLetter (path : String) : Bool :=
  match path.toList with
  | c :: ':' :: _ => c.isAlpha
  | _ => false

/-- `path.split('/')`. -/
def segments (path : String) : List (List Char) := path.toList.splitOn '/'

def controls : List Char := ['\x00', '\r', '\n']

def validateRepositoryFilePath (repr : String → String) (path : String) : Except String String :=
  let parts := segments path
  if path = "" ∨ path ≠ strip pythonSpace path ∨ path.toList.head? = some '/' ∨
      driveLetter path = true ∨ '\\' ∈ path.toList ∨
      (∃ part ∈ parts, part ∈ ["", ".", "..", ".git"].map String.toList) ∨
      (∃ c ∈ controls, c ∈ path.toList) then
    .error s!"Unsupported repository file path: {repr path}"
  else .ok path

def validateRepoRelativePathShape (value : String) : Except String String :=
  let normalized := value
  let parts := segments normalized
  if normalized = "" ∨ strip ecmaSpace normalized = "" ∨ normalized ≠ strip ecmaSpace normalized ∨
      normalized.toList.head? = some '/' ∨ driveLetter normalized = true ∨
      '\\' ∈ normalized.toList ∨ (∃ part ∈ parts, part ∈ ["", ".", ".."].map String.toList) then
    .error s!"Unsafe repository file path: {value}"
  else if parts.head? = some ".git".toList ∨ ".git".toList ∈ parts then
    .error s!"Unsafe repository file path targets .git: {normalized}"
  else .ok normalized

/-- A text that a space begins or ends. -/
def EndsIn (space : Char → Bool) (path : String) : Prop :=
  ∃ c, (path.toList.head? = some c ∨ path.toList.getLast? = some c) ∧ space c = true

theorem strip_eq_iff (space : Char → Bool) (path : String) :
    strip space path = path ↔ ¬ EndsIn space path := by
  constructor
  · intro eq
    have chars := congrArg String.toList eq
    rw [strip, String.toList_ofList] at chars
    have size := congrArg List.length chars
    have front : (path.toList.dropWhile space).Sublist path.toList := List.dropWhile_sublist space
    have back : ((path.toList.dropWhile space).reverse.dropWhile space).Sublist
        (path.toList.dropWhile space).reverse := List.dropWhile_sublist space
    have frontLength := front.length_le
    have backLength := back.length_le
    rw [List.length_reverse] at size backLength
    have first := front.eq_of_length (by omega)
    have last := back.eq_of_length (by rw [List.length_reverse]; omega)
    rw [first] at last
    rintro ⟨c, place | place, own⟩
    · have kept := @head_dropWhile space path.toList c (by rw [first, place]; rfl)
      rw [own] at kept
      cases kept
    · have kept := @head_dropWhile space path.toList.reverse c
        (by rw [last, List.head?_reverse, place]; rfl)
      rw [own] at kept
      cases kept
  · intro inner
    have first : path.toList.dropWhile space = path.toList := by
      refine dropWhile_fixed fun c place => ?_
      exact Bool.eq_false_iff.mpr fun own => inner ⟨c, .inl place, own⟩
    have last : path.toList.reverse.dropWhile space = path.toList.reverse := by
      refine dropWhile_fixed fun c place => ?_
      rw [List.head?_reverse] at place
      exact Bool.eq_false_iff.mpr fun own => inner ⟨c, .inr place, own⟩
    rw [strip, first, last, List.reverse_reverse, String.ofList_toList]

/-- The rules that both sides have. -/
structure RelativeShape (path : String) : Prop where
  nonempty : path ≠ ""
  relative : path.toList.head? ≠ some '/'
  no_drive : driveLetter path = false
  no_backslash : '\\' ∉ path.toList
  parts : ∀ part ∈ segments path, part ∉ ["", ".", "..", ".git"].map String.toList

theorem worker_accepts_iff (repr : String → String) (path out : String) :
    validateRepositoryFilePath repr path = .ok out ↔
      out = path ∧ RelativeShape path ∧ (∀ c ∈ controls, c ∉ path.toList) ∧
        ¬ EndsIn pythonSpace path := by
  rw [← strip_eq_iff, validateRepositoryFilePath]
  constructor
  · intro accepted
    split at accepted
    · cases accepted
    · next rules =>
      simp only [not_or, not_exists, not_and, not_not] at rules
      obtain ⟨nonempty, trimmed, relative, noDrive, noBackslash, parts, controlled⟩ := rules
      cases accepted
      exact ⟨rfl, ⟨nonempty, relative, Bool.eq_false_iff.mpr noDrive, noBackslash, parts⟩,
        controlled, trimmed.symm⟩
  · rintro ⟨rfl, shape, controlled, trimmed⟩
    rw [if_neg]
    simp only [not_or, not_exists, not_and, not_not]
    exact ⟨shape.nonempty, trimmed.symm, shape.relative, Bool.eq_false_iff.mp shape.no_drive,
      shape.no_backslash, shape.parts, controlled⟩

theorem publisher_accepts_iff (path out : String) :
    validateRepoRelativePathShape path = .ok out ↔
      out = path ∧ RelativeShape path ∧ ¬ EndsIn ecmaSpace path := by
  rw [← strip_eq_iff, validateRepoRelativePathShape]
  constructor
  · intro accepted
    split at accepted
    · cases accepted
    · next rules =>
      split at accepted
      · cases accepted
      · next git =>
        simp only [not_or, not_exists, not_and, not_not] at rules git
        obtain ⟨nonempty, _, trimmed, relative, noDrive, noBackslash, parts⟩ := rules
        cases accepted
        refine ⟨rfl, ⟨nonempty, relative, Bool.eq_false_iff.mpr noDrive, noBackslash, ?_⟩,
          trimmed.symm⟩
        intro part mem bad
        simp only [List.map_cons, List.map_nil, List.mem_cons, List.not_mem_nil, or_false] at bad
        rcases bad with bad | bad | bad | rfl
        · exact parts part mem (by simp [bad])
        · exact parts part mem (by simp [bad])
        · exact parts part mem (by simp [bad])
        · exact git.2 mem
  · rintro ⟨rfl, shape, trimmed⟩
    have noGit : ".git".toList ∉ segments out := fun mem => shape.parts _ mem (by simp)
    rw [if_neg, if_neg]
    · rintro (first | mem)
      · exact noGit (List.mem_of_mem_head? first)
      · exact noGit mem
    · simp only [not_or, not_exists, not_and, not_not]
      refine ⟨shape.nonempty, by rw [trimmed]; exact shape.nonempty, trimmed.symm, shape.relative,
        Bool.eq_false_iff.mp shape.no_drive, shape.no_backslash, fun part mem bad => ?_⟩
      refine shape.parts part mem ?_
      simp only [List.map_cons, List.map_nil, List.mem_cons, List.not_mem_nil, or_false] at bad ⊢
      tauto

/-- What the worker accepts the publisher accepts as it is, and the other way round for paths
without the controls that only the worker refuses. -/
def Agree (repr : String → String) (path : String) : Prop :=
  ((∃ out, validateRepositoryFilePath repr path = .ok out) →
      validateRepoRelativePathShape path = .ok path) ∧
    ((∃ out, validateRepoRelativePathShape path = .ok out) →
      (∀ c ∈ controls, c ∉ path.toList) → ∃ out, validateRepositoryFilePath repr path = .ok out)

/-- The sides agree exactly where the two languages trim alike. -/
theorem agree_iff (repr : String → String) (path : String) :
    Agree repr path ↔
      (RelativeShape path → (∀ c ∈ controls, c ∉ path.toList) →
        (EndsIn pythonSpace path ↔ EndsIn ecmaSpace path)) := by
  simp only [Agree, worker_accepts_iff, publisher_accepts_iff, true_and]
  constructor
  · rintro ⟨forward, backward⟩ shape controlled
    rw [← not_iff_not]
    constructor
    · exact fun trimmed => (forward ⟨path, rfl, shape, controlled, trimmed⟩).2
    · intro trimmed
      obtain ⟨_, _, _, _, inner⟩ := backward ⟨path, rfl, shape, trimmed⟩ controlled
      exact inner
  · intro alike
    constructor
    · rintro ⟨_, _, shape, controlled, trimmed⟩
      exact ⟨shape, fun other => trimmed ((alike shape controlled).mpr other)⟩
    · rintro ⟨_, _, shape, trimmed⟩ controlled
      exact ⟨path, rfl, shape, controlled, fun other => trimmed ((alike shape controlled).mp other)⟩

/-- A byte-order mark in front is a space for the publisher alone, and a file separator for the
worker alone. -/
theorem marks_disagree : ¬ Agree id "\uFEFFfix.py" ∧ ¬ Agree id "fix.py\x1c" := by
  constructor
  · rintro ⟨forward, _⟩
    have accepted : validateRepositoryFilePath id "\uFEFFfix.py" = .ok "\uFEFFfix.py" := by
      decide
    have refused : validateRepoRelativePathShape "\uFEFFfix.py" ≠ .ok "\uFEFFfix.py" := by
      decide
    exact refused (forward ⟨_, accepted⟩)
  · rintro ⟨_, backward⟩
    have accepted : validateRepoRelativePathShape "fix.py\x1c" = .ok "fix.py\x1c" := by
      decide
    have refused : ∀ out, validateRepositoryFilePath id "fix.py\x1c" ≠ .ok out := by
      intro out accepted
      rw [worker_accepts_iff] at accepted
      exact accepted.2.2.2 ⟨'\x1c', by decide⟩
    obtain ⟨out, accepted⟩ := backward ⟨_, accepted⟩ (by decide)
    exact refused out accepted

end RepositoryPaths
