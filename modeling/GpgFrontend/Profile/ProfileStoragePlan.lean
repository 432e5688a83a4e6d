import Mathlib.Data.List.Basic

/-!
# Where a session tree goes (`ProfileStoragePlan.cpp`)

The probe of the machine lists the places a session could go, the preferred one first. The plan
takes one of them, or refuses.

- `planProfileStorage`: the loop, which remembers the first unprotected place it passes.
- `chosenCandidate`: what the policy asks for, by two searches of the list.
- `plan_respects_policy`: **the loop finds that**, and refuses when there is none.
-/

namespace GpgFrontend

inductive ProfileStoragePolicy where
  | auto | protectedOnly | disk
  deriving Repr, DecidableEq

structure StorageCandidate where
  path : String := ""
  driver : String := ""
  isVolatile : Bool := false
  isEncryptedAtRest : Bool := false
  usable : Bool := false
  freeBytes : Int := 0
  reason : String := ""
  deriving Repr, DecidableEq

/-- `StorageCandidate::IsProtected`. -/
def StorageCandidate.isProtected (c : StorageCandidate) : Bool :=
  c.isVolatile || c.isEncryptedAtRest

structure ProfileStoragePlan where
  path : String := ""
  driver : String := ""
  isVolatile : Bool := false
  isEncryptedAtRest : Bool := false
  refuse : Bool := false
  rejections : List String := []
  deriving Repr, DecidableEq

/-- `Rejection`. -/
def rejection (candidate : StorageCandidate) : String :=
  let where_ := if candidate.path.isEmpty then candidate.driver else candidate.path
  if candidate.reason.isEmpty then where_ else where_ ++ ": " ++ candidate.reason

/-- `PlanFrom`. -/
def planFrom (candidate : StorageCandidate) : ProfileStoragePlan where
  path := candidate.path
  driver := candidate.driver
  isVolatile := candidate.isVolatile
  isEncryptedAtRest := candidate.isEncryptedAtRest

/-- The loop of `PlanProfileStorage` and what follows it, with `plan.rejections` and
`unprotected`. -/
def planLoop (policy : ProfileStoragePolicy) :
    List StorageCandidate → List String → Option StorageCandidate → ProfileStoragePlan
  | [], rejections, unprotected =>
    if policy = .protectedOnly then
      { refuse := true, rejections := rejections ++ (unprotected.map rejection).toList }
    else
      match unprotected with
      | some candidate => { planFrom candidate with rejections := rejections }
      | none => { refuse := true, rejections := rejections }
  | candidate :: rest, rejections, unprotected =>
    if !candidate.usable then
      planLoop policy rest (rejections ++ [rejection candidate]) unprotected
    else if policy = .disk then
      if candidate.isProtected then planLoop policy rest rejections unprotected
      else { planFrom candidate with rejections := rejections }
    else if candidate.isProtected then { planFrom candidate with rejections := rejections }
    else planLoop policy rest rejections (unprotected.or (some candidate))

def planProfileStorage (policy : ProfileStoragePolicy) (candidates : List StorageCandidate) :
    ProfileStoragePlan :=
  planLoop policy candidates [] none

def provisionedStorageSatisfies (policy : ProfileStoragePolicy)
    (isVolatile isEncryptedAtRest : Bool) : Bool :=
  if policy ≠ .protectedOnly then true else isVolatile || isEncryptedAtRest

/-! ## What the policy asks for -/

def firstProtected (candidates : List StorageCandidate) : Option StorageCandidate :=
  candidates.find? fun c => c.usable && c.isProtected

def firstUnprotected (candidates : List StorageCandidate) : Option StorageCandidate :=
  candidates.find? fun c => c.usable && !c.isProtected

def chosenCandidate (candidates : List StorageCandidate) :
    ProfileStoragePolicy → Option StorageCandidate
  | .auto => (firstProtected candidates).or (firstUnprotected candidates)
  | .protectedOnly => firstProtected candidates
  | .disk => firstUnprotected candidates

/-- Whether a place may be taken under a policy. -/
def MayTake (policy : ProfileStoragePolicy) (c : StorageCandidate) : Prop :=
  match policy with
  | .auto => True
  | .protectedOnly => c.isProtected = true
  | .disk => c.isProtected = false

/-- The plan that takes what was chosen. -/
def planOf (chosen : Option StorageCandidate) (rejections : List String) : ProfileStoragePlan :=
  match chosen with
  | some c => { planFrom c with rejections := rejections }
  | none => { refuse := true, rejections := rejections }

/-! ## The loop -/

variable {candidates : List StorageCandidate} {c : StorageCandidate}

/-- What the loop comes to choose when it has already passed an unprotected place. -/
def chosenAfter (unprotected : Option StorageCandidate) (candidates : List StorageCandidate) :
    ProfileStoragePolicy → Option StorageCandidate
  | .auto => (firstProtected candidates).or (unprotected.or (firstUnprotected candidates))
  | policy => chosenCandidate candidates policy

theorem planLoop_eq (policy : ProfileStoragePolicy) (candidates : List StorageCandidate)
    (rejections : List String) (unprotected : Option StorageCandidate)
    (hdisk : policy = .disk → unprotected = none) :
    ∃ lines, planLoop policy candidates rejections unprotected =
      planOf (chosenAfter unprotected candidates policy) lines := by
  induction candidates generalizing rejections unprotected with
  | nil =>
    unfold planLoop
    cases policy with
    | auto => cases unprotected <;> exact ⟨rejections, rfl⟩
    | protectedOnly => exact ⟨_, rfl⟩
    | disk =>
      rw [hdisk rfl]
      exact ⟨rejections, rfl⟩
  | cons c rest ih =>
    unfold planLoop
    by_cases hu : c.usable = true
    · rw [if_neg (by simp [hu])]
      by_cases hp : c.isProtected = true
      · have hfirst : firstProtected (c :: rest) = some c := by simp [firstProtected, hu, hp]
        have hskip : firstUnprotected (c :: rest) = firstUnprotected rest := by
          simp [firstUnprotected, hp]
        cases policy with
        | auto =>
          rw [if_neg (by simp), if_pos hp]
          exact ⟨rejections, by simp [chosenAfter, hfirst, planOf]⟩
        | protectedOnly =>
          rw [if_neg (by simp), if_pos hp]
          exact ⟨rejections, by simp [chosenAfter, chosenCandidate, hfirst, planOf]⟩
        | disk =>
          rw [if_pos rfl, if_pos hp]
          obtain ⟨lines, hlines⟩ := ih rejections unprotected hdisk
          refine ⟨lines, hlines.trans ?_⟩
          simp [chosenAfter, chosenCandidate, hskip]
      · have hfirst : firstUnprotected (c :: rest) = some c := by
          simp [firstUnprotected, hu, hp]
        have hskip : firstProtected (c :: rest) = firstProtected rest := by
          simp [firstProtected, hp]
        cases policy with
        | auto =>
          rw [if_neg (by simp), if_neg hp]
          obtain ⟨lines, hlines⟩ := ih rejections (unprotected.or (some c)) (by simp)
          refine ⟨lines, hlines.trans ?_⟩
          -- the place passed first stays the one remembered
          cases unprotected <;> simp [chosenAfter, hskip, hfirst]
        | protectedOnly =>
          rw [if_neg (by simp), if_neg hp]
          obtain ⟨lines, hlines⟩ := ih rejections (unprotected.or (some c)) (by simp)
          refine ⟨lines, hlines.trans ?_⟩
          simp [chosenAfter, chosenCandidate, hskip]
        | disk =>
          rw [if_pos rfl, if_neg hp]
          exact ⟨rejections, by simp [chosenAfter, chosenCandidate, hfirst, planOf]⟩
    · rw [if_pos (by simp [hu])]
      obtain ⟨lines, hlines⟩ := ih (rejections ++ [rejection c]) unprotected hdisk
      have hp : firstProtected (c :: rest) = firstProtected rest := by simp [firstProtected, hu]
      have hn : firstUnprotected (c :: rest) = firstUnprotected rest := by
        simp [firstUnprotected, hu]
      refine ⟨lines, hlines.trans ?_⟩
      cases policy <;> simp [chosenAfter, chosenCandidate, hp, hn]

theorem planProfileStorage_eq (policy : ProfileStoragePolicy)
    (candidates : List StorageCandidate) :
    ∃ lines, planProfileStorage policy candidates =
      planOf (chosenCandidate candidates policy) lines := by
  obtain ⟨lines, h⟩ := planLoop_eq policy candidates [] none fun _ => rfl
  refine ⟨lines, h.trans ?_⟩
  cases policy <;> rfl

theorem mem_of_chosen {policy : ProfileStoragePolicy} (h : chosenCandidate candidates policy = some c) :
    c ∈ candidates ∧ c.usable = true ∧ MayTake policy c := by
  have hprotected : ∀ {c}, firstProtected candidates = some c →
      c ∈ candidates ∧ c.usable = true ∧ c.isProtected = true := by
    intro c hc
    have htest := List.find?_some hc
    rw [Bool.and_eq_true] at htest
    exact ⟨List.mem_of_find?_eq_some hc, htest⟩
  have hplain : ∀ {c}, firstUnprotected candidates = some c →
      c ∈ candidates ∧ c.usable = true ∧ c.isProtected = false := by
    intro c hc
    have htest := List.find?_some hc
    rw [Bool.and_eq_true, Bool.not_eq_true'] at htest
    exact ⟨List.mem_of_find?_eq_some hc, htest⟩
  cases policy with
  | auto =>
    rcases Option.or_eq_some_iff.mp h with hc | ⟨-, hc⟩
    · exact ⟨(hprotected hc).1, (hprotected hc).2.1, trivial⟩
    · exact ⟨(hplain hc).1, (hplain hc).2.1, trivial⟩
  | protectedOnly => exact hprotected h
  | disk => exact hplain h

theorem chosen_eq_none_iff (policy : ProfileStoragePolicy) :
    chosenCandidate candidates policy = none ↔
      ∀ c ∈ candidates, c.usable = true → ¬ MayTake policy c := by
  constructor
  · intro h c hc hu
    cases policy with
    | auto =>
      obtain ⟨hp, hn⟩ := Option.or_eq_none_iff.mp h
      have hp := List.find?_eq_none.mp hp c hc
      have hn := List.find?_eq_none.mp hn c hc
      simp_all
    | protectedOnly =>
      have hp := List.find?_eq_none.mp h c hc
      simpa [hu, MayTake] using hp
    | disk =>
      have hn := List.find?_eq_none.mp h c hc
      simpa [hu, MayTake] using hn
  · intro h
    cases hchosen : chosenCandidate candidates policy with
    | none => rfl
    | some c =>
      obtain ⟨hc, hu, hadm⟩ := mem_of_chosen hchosen
      exact absurd hadm (h c hc hu)

/-- **The plan respects the policy**: it takes the candidate the policy asks for, as it was
probed; that one is usable and admissible, so under `kPROTECTED_ONLY` it is protected; and the
plan refuses exactly when no admissible candidate is usable. -/
theorem plan_respects_policy (policy : ProfileStoragePolicy)
    (candidates : List StorageCandidate) :
    (∃ lines, planProfileStorage policy candidates =
      planOf (chosenCandidate candidates policy) lines) ∧
    (∀ c, chosenCandidate candidates policy = some c →
      c ∈ candidates ∧ c.usable = true ∧ MayTake policy c) ∧
    ((planProfileStorage policy candidates).refuse = true ↔
      ∀ c ∈ candidates, c.usable = true → ¬ MayTake policy c) ∧
    ((planProfileStorage policy candidates).refuse = false →
      provisionedStorageSatisfies policy (planProfileStorage policy candidates).isVolatile
        (planProfileStorage policy candidates).isEncryptedAtRest = true) := by
  obtain ⟨lines, hplan⟩ := planProfileStorage_eq policy candidates
  refine ⟨⟨lines, hplan⟩, fun c hc => mem_of_chosen hc, ?_, ?_⟩
  · rw [hplan, ← chosen_eq_none_iff]
    cases chosenCandidate candidates policy <;> simp [planOf, planFrom]
  · rw [hplan]
    cases hchosen : chosenCandidate candidates policy with
    | none => intro h; cases h
    | some c =>
      intro _
      have hadm := (mem_of_chosen hchosen).2.2
      cases policy with
      | protectedOnly => exact hadm
      | auto => rfl
      | disk => rfl

end GpgFrontend
