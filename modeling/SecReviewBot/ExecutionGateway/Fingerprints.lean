import SecReviewBot.JsonWriting

/-!
# Request fingerprints

The execution gateway recognises a replayed request by a digest of its canonical form: members
are sorted by name at every depth. A request read back from a database has its members in some
other order. The digest is the same exactly when the two requests are equal as JSON values and
names that the collation does not tell apart stand in the same order.
-/

namespace Fingerprints

open JsonValues JsonOrders JsonWriting StableSorts

/-- `ExecutionWorkflowInput`; `runtime` may be undefined. -/
structure ExecutionWorkflowInput where
  workflow : String
  runId : String
  input : Json
  timeoutSeconds : Rat
  runtime : Option Json

section Canonical

variable (collation : Collation)

mutual

/-- Objects are listed by `Object.entries`, sorted by `localeCompare` and built again. The values
may be rewritten first: the order depends on the names only. -/
def canonicalValue : Json → Json
  | .arr items => .arr (canonicalItems items)
  | .obj members => .obj (order collation (canonicalMembers members))
  | .null => .null
  | .bool b => .bool b
  | .num r => .num r
  | .str s => .str s

def canonicalItems : List Json → List Json
  | [] => []
  | x :: rest => canonicalValue x :: canonicalItems rest

def canonicalMembers : List (String × Json) → List (String × Json)
  | [] => []
  | (key, x) :: rest => (key, canonicalValue x) :: canonicalMembers rest

end

end Canonical

/-- What of a request counts. `timeout_seconds` is the gateway's own policy. -/
def identityMembers (request : ExecutionWorkflowInput) : List (String × Json) :=
  [("workflow", .str request.workflow), ("run_id", .str request.runId),
    ("input", request.input)] ++ request.runtime.toList.map fun runtime => ("runtime", runtime)

def requestIdentity (request : ExecutionWorkflowInput) : Json := .obj (identityMembers request)

/-- The gateway's digest function, number texts and collation. -/
structure Platform where
  collation : Collation
  numbers : NumberTexts
  sha256 : String → String

def fingerprint (platform : Platform) (request : ExecutionWorkflowInput) : String :=
  platform.sha256
    (stringifyJson platform.numbers (canonicalValue platform.collation (requestIdentity request)))

/-- Equal as JSON values, with tied names in the same order. -/
inductive Alike (collation : Collation) : Json → Json → Prop where
  | null : Alike collation .null .null
  | bool (b : Bool) : Alike collation (.bool b) (.bool b)
  | num (r : Rat) : Alike collation (.num r) (.num r)
  | str (s : String) : Alike collation (.str s) (.str s)
  | arr {xs ys : List Json} (length : xs.length = ys.length)
      (each : ∀ (i : Nat) x y, xs[i]? = some x → ys[i]? = some y → Alike collation x y) :
      Alike collation (.arr xs) (.arr ys)
  | obj {xs ys : List (String × Json)}
      (names : ∀ key, key ∈ xs.map Prod.fst ↔ key ∈ ys.map Prod.fst)
      (each : ∀ key x y, (key, x) ∈ xs → (key, y) ∈ ys → Alike collation x y)
      (ties : ∀ k l, Tied collation k l → [k, l].Sublist (xs.map Prod.fst) →
        ¬ [l, k].Sublist (ys.map Prod.fst)) : Alike collation (.obj xs) (.obj ys)

/-- The same request, whatever its timeout. -/
structure SameRequest (collation : Collation) (a b : ExecutionWorkflowInput) : Prop where
  workflow : a.workflow = b.workflow
  runId : a.runId = b.runId
  input : Alike collation a.input b.input
  given : a.runtime.isSome = b.runtime.isSome
  runtime : ∀ x ∈ a.runtime, ∀ y ∈ b.runtime, Alike collation x y

/-- No object of the request has two members of one name. -/
structure Parsed (request : ExecutionWorkflowInput) : Prop where
  input : Distinct request.input
  runtime : ∀ runtime ∈ request.runtime, Distinct runtime

variable {collation : Collation} {platform : Platform} {a b : ExecutionWorkflowInput}

theorem Alike.same {x y : Json} (alike : Alike collation x y) : Same x y := by
  induction alike with
  | null => exact .null
  | bool b => exact .bool b
  | num r => exact .num r
  | str s => exact .str s
  | arr length _ ih => exact .arr length ih
  | obj names _ _ ih => exact .obj names ih

theorem Alike.text {s t : String} (alike : Alike collation (.str s) (.str t)) : s = t := by
  cases alike
  rfl

/-- Where the collation tells all names apart, equal values are alike. -/
theorem alike_of_same (apart : ∀ k l, collation.Ties k l → k = l) {x y : Json} (same : Same x y)
    (distinct : Distinct x) : Alike collation x y := by
  induction same with
  | null => exact .null
  | bool b => exact .bool b
  | num r => exact .num r
  | str s => exact .str s
  | arr length each ih =>
    cases distinct with
    | arr items =>
      exact .arr length fun i x y hx hy => ih i x y hx hy (items x (List.mem_of_getElem? hx))
  | obj names each ih =>
    cases distinct with
    | obj nodup members =>
      refine .obj names (fun key x y hx hy => ih key x y hx hy (members _ hx)) ?_
      intro k l tied before
      rw [apart k l tied.2.2] at before
      have twice := nodup.sublist before
      simp at twice

theorem canonicalItems_eq (items : List Json) :
    canonicalItems collation items = items.map (canonicalValue collation) := by
  induction items with
  | nil => rfl
  | cons x rest ih => rw [canonicalItems, ih, List.map_cons]

theorem canonicalMembers_eq (members : List (String × Json)) :
    canonicalMembers collation members =
      members.map fun m => (m.1, canonicalValue collation m.2) := by
  induction members with
  | nil => rfl
  | cons m rest ih =>
    obtain ⟨key, x⟩ := m
    rw [canonicalMembers, ih, List.map_cons]

/-- Lists with the same names and no two values for one name are equal. -/
theorem eq_of_names {us vs : List (String × Json)} (names : us.map Prod.fst = vs.map Prod.fst)
    (each : ∀ key u v, (key, u) ∈ us → (key, v) ∈ vs → u = v) : us = vs := by
  induction us generalizing vs with
  | nil => exact (List.map_eq_nil_iff.mp names.symm).symm
  | cons m rest ih =>
    obtain ⟨k, u⟩ := m
    obtain ⟨⟨l, v⟩, others, rfl, same, later⟩ := List.map_eq_cons_iff.mp names.symm
    cases same
    have head := each k u v List.mem_cons_self List.mem_cons_self
    have tail := ih later.symm fun key x y hx hy =>
      each key x y (List.mem_cons_of_mem _ hx) (List.mem_cons_of_mem _ hy)
    rw [head, tail]

theorem value_unique {members : List (String × Json)} (nodup : (members.map Prod.fst).Nodup)
    {key : String} {x y : Json} (hx : (key, x) ∈ members) (hy : (key, y) ∈ members) : x = y := by
  have same := List.inj_on_of_nodup_map nodup hx hy rfl
  cases same
  rfl

/-- Items are written alike one by one. -/
theorem items_eq_iff {xs ys : List Json}
    (each : ∀ x ∈ xs, ∀ y ∈ ys,
      canonicalValue collation x = canonicalValue collation y ↔ Alike collation x y) :
    xs.map (canonicalValue collation) = ys.map (canonicalValue collation) ↔
      Alike collation (.arr xs) (.arr ys) := by
  constructor
  · intro equal
    refine .arr (by simpa using congrArg List.length equal) fun i x y hx hy => ?_
    refine (each x (List.mem_of_getElem? hx) y (List.mem_of_getElem? hy)).mp ?_
    have position := congrArg (fun items => items[i]?) equal
    simpa [hx, hy] using position
  · rintro (_ | _ | _ | _ | ⟨length, alike⟩ | _)
    refine List.ext_getElem? fun i => ?_
    rw [List.getElem?_map, List.getElem?_map]
    cases hx : xs[i]? with
    | none =>
      rw [List.getElem?_eq_none_iff, length, ← List.getElem?_eq_none_iff] at hx
      rw [hx]
    | some x =>
      have bound := (List.getElem?_eq_some_iff.mp hx).1
      obtain ⟨y, hy⟩ : ∃ y, ys[i]? = some y := ⟨_, List.getElem?_eq_getElem (length ▸ bound)⟩
      rw [hy, Option.map_some, Option.map_some]
      exact congrArg some ((each x (List.mem_of_getElem? hx) y (List.mem_of_getElem? hy)).mpr
        (alike i x y hx hy))

/-- Members are written alike name by name, where tied names stand in the same order. -/
theorem members_eq_iff {xs ys : List (String × Json)} (hx : (xs.map Prod.fst).Nodup)
    (hy : (ys.map Prod.fst).Nodup)
    (each : ∀ m ∈ xs, ∀ n ∈ ys,
      canonicalValue collation m.2 = canonicalValue collation n.2 ↔ Alike collation m.2 n.2) :
    order collation (canonicalMembers collation xs) =
        order collation (canonicalMembers collation ys) ↔
      Alike collation (.obj xs) (.obj ys) := by
  have permX := order_perm collation xs
  have permY := order_perm collation ys
  rw [canonicalMembers_eq, canonicalMembers_eq, order_map, order_map]
  have named : ∀ zs : List (String × Json),
      (zs.map fun m => (m.1, canonicalValue collation m.2)).map Prod.fst = zs.map Prod.fst := by
    intro zs
    simp
  constructor
  · intro equal
    have orders : (order collation xs).map Prod.fst = (order collation ys).map Prod.fst := by
      rw [← named, equal, named]
    have names : ∀ key, key ∈ xs.map Prod.fst ↔ key ∈ ys.map Prod.fst := by
      intro key
      rw [← (permX.map Prod.fst).mem_iff, orders, (permY.map Prod.fst).mem_iff]
    refine .obj names (fun key x y mx my => ?_) ((order_names_eq_iff hx hy names).mp orders)
    refine (each (key, x) mx (key, y) my).mp ?_
    have listed : (key, canonicalValue collation x) ∈
        (order collation ys).map fun m => (m.1, canonicalValue collation m.2) := by
      rw [← equal]
      exact List.mem_map.mpr ⟨(key, x), permX.mem_iff.mpr mx, rfl⟩
    obtain ⟨⟨l, z⟩, mz, pair⟩ := List.mem_map.mp listed
    obtain ⟨rfl, same⟩ := Prod.mk.inj pair
    rw [value_unique hy my (permY.mem_iff.mp mz)]
    exact same.symm
  · rintro (_ | _ | _ | _ | _ | ⟨names, alike, ties⟩)
    refine eq_of_names ?_ fun key u v mu mv => ?_
    · rw [named, named]
      exact (order_names_eq_iff hx hy names).mpr ties
    · obtain ⟨⟨k, x⟩, mx, same⟩ := List.mem_map.mp mu
      obtain ⟨⟨l, y⟩, my, other⟩ := List.mem_map.mp mv
      cases same
      cases other
      have inX := permX.mem_iff.mp mx
      have inY := permY.mem_iff.mp my
      exact (each _ inX _ inY).mpr (alike _ x y inX inY)

/-- Two values have one canonical form exactly when they are alike. -/
theorem canonicalValue_eq_iff (x : Json) : ∀ y, Distinct x → Distinct y →
    (canonicalValue collation x = canonicalValue collation y ↔ Alike collation x y) := by
  induction x using json_induction with
  | null | bool b | num r | str s =>
    intro y _ _
    cases y <;> simp only [canonicalValue] <;> constructor <;> intro h <;> cases h <;> constructor
  | arr items ih =>
    intro y hx hy
    cases hx with
    | arr eachX =>
      cases y with
      | arr others =>
        cases hy with
        | arr eachY =>
          rw [canonicalValue, canonicalValue, Json.arr.injEq, canonicalItems_eq,
            canonicalItems_eq]
          exact items_eq_iff fun x hx y hy => ih x hx y (eachX x hx) (eachY y hy)
      | _ =>
        constructor
        · intro equal
          simp [canonicalValue] at equal
        · rintro ⟨⟩
  | obj members ih =>
    intro y hx hy
    cases hx with
    | obj nodupX eachX =>
      cases y with
      | obj others =>
        cases hy with
        | obj nodupY eachY =>
          rw [canonicalValue, canonicalValue, Json.obj.injEq]
          exact members_eq_iff nodupX nodupY fun m hm n hn =>
            ih m hm n.2 (eachX m hm) (eachY n hn)
      | _ =>
        constructor
        · intro equal
          simp [canonicalValue] at equal
        · rintro ⟨⟩

def identityNames (request : ExecutionWorkflowInput) : List String :=
  ["workflow", "run_id", "input"] ++ request.runtime.toList.map fun _ => "runtime"

theorem identity_sublist (request : ExecutionWorkflowInput) :
    (identityNames request).Sublist ["workflow", "run_id", "input", "runtime"] := by
  cases given : request.runtime with
  | none => simp [identityNames, given]
  | some runtime => simp [identityNames, given]

theorem identityMembers_names (request : ExecutionWorkflowInput) :
    (identityMembers request).map Prod.fst = identityNames request := by
  simp [identityMembers, identityNames, Function.comp_def]

theorem mem_identityMembers {request : ExecutionWorkflowInput} {m : String × Json} :
    m ∈ identityMembers request ↔ m = ("workflow", .str request.workflow) ∨
      m = ("run_id", .str request.runId) ∨ m = ("input", request.input) ∨
      ∃ runtime ∈ request.runtime, m = ("runtime", runtime) := by
  cases given : request.runtime with
  | none => simp [identityMembers, given]
  | some runtime => simp [identityMembers, given]

theorem identity_nodup (request : ExecutionWorkflowInput) :
    ((identityMembers request).map Prod.fst).Nodup := by
  rw [identityMembers_names]
  exact List.Nodup.sublist (identity_sublist request) (by decide)

theorem requestIdentity_distinct (parsed : Parsed a) : Distinct (requestIdentity a) := by
  refine .obj (identity_nodup a) fun m mem => ?_
  rcases mem_identityMembers.mp mem with rfl | rfl | rfl | ⟨runtime, given, rfl⟩
  · exact .str _
  · exact .str _
  · exact parsed.input
  · exact parsed.runtime runtime given

theorem runtime_named (request : ExecutionWorkflowInput) :
    "runtime" ∈ (identityMembers request).map Prod.fst ↔ request.runtime.isSome = true := by
  rw [identityMembers_names]
  cases given : request.runtime with
  | none => simp [identityNames, given]
  | some runtime => simp [identityNames, given]

theorem identity_names_iff (given : a.runtime.isSome = b.runtime.isSome) :
    (identityMembers a).map Prod.fst = (identityMembers b).map Prod.fst := by
  rw [identityMembers_names, identityMembers_names]
  cases hx : a.runtime <;> cases hy : b.runtime <;> simp_all [identityNames]

/-- The identities of two requests are alike exactly when the requests are the same. -/
theorem identity_alike_iff :
    Alike collation (requestIdentity a) (requestIdentity b) ↔ SameRequest collation a b := by
  constructor
  · intro alike
    cases alike with
    | obj names each ties =>
      have workflow := each "workflow" _ _ (mem_identityMembers.mpr (.inl rfl))
        (mem_identityMembers.mpr (.inl rfl))
      have runId := each "run_id" _ _ (mem_identityMembers.mpr (.inr (.inl rfl)))
        (mem_identityMembers.mpr (.inr (.inl rfl)))
      have input := each "input" _ _ (mem_identityMembers.mpr (.inr (.inr (.inl rfl))))
        (mem_identityMembers.mpr (.inr (.inr (.inl rfl))))
      refine ⟨?_, ?_, input, ?_, fun x hx y hy => each "runtime" x y ?_ ?_⟩
      · exact workflow.text
      · exact runId.text
      · have named := names "runtime"
        rw [Bool.eq_iff_iff, ← runtime_named, ← runtime_named]
        exact named
      · exact mem_identityMembers.mpr (.inr (.inr (.inr ⟨x, hx, rfl⟩)))
      · exact mem_identityMembers.mpr (.inr (.inr (.inr ⟨y, hy, rfl⟩)))
  · intro same
    have names := identity_names_iff same.given
    refine .obj (fun key => by rw [names]) ?_ ?_
    · intro key x y hx hy
      have own : ∀ z, (key, z) ∈ identityMembers b → y = z := fun z hz =>
        value_unique (identity_nodup b) hy hz
      rcases mem_identityMembers.mp hx with pair | pair | pair | ⟨u, hu, pair⟩ <;>
        obtain ⟨rfl, rfl⟩ := Prod.mk.inj pair
      · rw [own _ (mem_identityMembers.mpr (.inl rfl)), same.workflow]
        exact .str _
      · rw [own _ (mem_identityMembers.mpr (.inr (.inl rfl))), same.runId]
        exact .str _
      · rw [own _ (mem_identityMembers.mpr (.inr (.inr (.inl rfl))))]
        exact same.input
      · obtain ⟨v, hv⟩ := Option.isSome_iff_exists.mp (same.given ▸ Option.isSome_of_mem hu)
        rw [own v (mem_identityMembers.mpr (.inr (.inr (.inr ⟨v, hv, rfl⟩))))]
        exact same.runtime _ hu v hv
    · intro k l tied before after
      rw [names] at before
      exact pair_not_both (identity_nodup b) before after

theorem fingerprint_same (collisionFree : Function.Injective platform.sha256) (first : Parsed a)
    (second : Parsed b) :
    fingerprint platform a = fingerprint platform b ↔ SameRequest platform.collation a b := by
  rw [fingerprint, fingerprint, collisionFree.eq_iff,
    (stringifyJson_injective platform.numbers).eq_iff,
    canonicalValue_eq_iff _ _ (requestIdentity_distinct first) (requestIdentity_distinct second),
    identity_alike_iff]

/-- Where the collation tells all names apart, the requests are the same when workflow, run id,
input and runtime are equal as JSON values. -/
theorem SameRequest.iff_equal (apart : ∀ k l, collation.Ties k l → k = l) (first : Parsed a) :
    SameRequest collation a b ↔ a.workflow = b.workflow ∧ a.runId = b.runId ∧
      Same a.input b.input ∧ a.runtime.isSome = b.runtime.isSome ∧
      ∀ x ∈ a.runtime, ∀ y ∈ b.runtime, Same x y := by
  constructor
  · intro same
    exact ⟨same.workflow, same.runId, same.input.same, same.given,
      fun x hx y hy => (same.runtime x hx y hy).same⟩
  · rintro ⟨workflow, runId, input, given, runtime⟩
    exact ⟨workflow, runId, alike_of_same apart input first.input, given,
      fun x hx y hy => alike_of_same apart (runtime x hx y hy) (first.runtime x hx)⟩

/-- The fingerprints of two requests agree exactly for the same request; with a collation that
tells all names apart, that is equality up to the order of members and the timeout. -/
theorem fingerprints_agree_iff (platform : Platform) (a b : ExecutionWorkflowInput)
    (collisionFree : Function.Injective platform.sha256) (first : Parsed a) (second : Parsed b) :
    (fingerprint platform a = fingerprint platform b ↔ SameRequest platform.collation a b) ∧
      ((∀ k l, platform.collation.Ties k l → k = l) →
        (fingerprint platform a = fingerprint platform b ↔
          a.workflow = b.workflow ∧ a.runId = b.runId ∧ Same a.input b.input ∧
            a.runtime.isSome = b.runtime.isSome ∧
              ∀ x ∈ a.runtime, ∀ y ∈ b.runtime, Same x y)) := by
  have same := fingerprint_same collisionFree first second
  exact ⟨same, fun apart => same.trans (SameRequest.iff_equal apart first)⟩

/-- Code point order, fractions for numbers, and the text as its own digest. -/
def plainPlatform : Platform where
  collation := codePointOrder
  numbers := fractionNumbers
  sha256 := id

def review (input : Json) (timeoutSeconds : Rat) : ExecutionWorkflowInput where
  workflow := "issue-review"
  runId := "run-1"
  input := input
  timeoutSeconds := timeoutSeconds
  runtime := none

def sentInput : Json := .obj [("issue", .num 7), ("body", .str "It leaks.")]

def storedInput : Json := .obj [("body", .str "It leaks."), ("issue", .num 7)]

theorem parsed_sent : Parsed (review sentInput 60) := by
  refine ⟨.obj (by decide) fun m mem => ?_, fun runtime given => nomatch given⟩
  simp only [List.mem_cons, List.not_mem_nil, or_false] at mem
  rcases mem with rfl | rfl
  · exact .num 7
  · exact .str _

theorem parsed_stored : Parsed (review storedInput 90) := by
  refine ⟨.obj (by decide) fun m mem => ?_, fun runtime given => nomatch given⟩
  simp only [List.mem_cons, List.not_mem_nil, or_false] at mem
  rcases mem with rfl | rfl
  · exact .str _
  · exact .num 7

theorem stored_request_recognised :
    (fingerprint plainPlatform (review sentInput 60) =
        fingerprint plainPlatform (review storedInput 90) ↔
      SameRequest codePointOrder (review sentInput 60) (review storedInput 90)) ∧
      ((∀ k l, codePointOrder.Ties k l → k = l) →
        (fingerprint plainPlatform (review sentInput 60) =
            fingerprint plainPlatform (review storedInput 90) ↔
          (review sentInput 60).workflow = (review storedInput 90).workflow ∧
            (review sentInput 60).runId = (review storedInput 90).runId ∧
            Same (review sentInput 60).input (review storedInput 90).input ∧
            (review sentInput 60).runtime.isSome = (review storedInput 90).runtime.isSome ∧
            ∀ x ∈ (review sentInput 60).runtime, ∀ y ∈ (review storedInput 90).runtime,
              Same x y)) :=
  fingerprints_agree_iff plainPlatform _ _ Function.injective_id parsed_sent parsed_stored

end Fingerprints
