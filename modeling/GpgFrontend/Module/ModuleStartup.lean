import GpgFrontend.Base.Runs
import Mathlib.Data.Prod.Lex

/-!
# Which modules a start still waits for (`ModuleManager.cpp`, `ModuleInit.cpp`)

The scan announces how many candidates it found. Each of them is then refused, which takes
one off the number needed, or loaded and later registered, which adds one to the number
registered. The two numbers are atomics, and every access to one is a step of its own.

- `startup_accounting`: **the numbers agree exactly when the last candidate is decided**, and
  they always come to it.
-/

namespace GpgFrontend

/-! ## A candidate -/

/-- `ModuleFileIdentity`. -/
structure ModuleFileIdentity where
  size : Int := -1
  modifiedMs : Int := -1
  fileId : Nat := 0
  deriving Repr, DecidableEq

/-- What the signed manifest of a candidate says it is. -/
structure ModuleIdentityClaim where
  id : String
  version : String
  deriving Repr, DecidableEq

/-- `ModuleLoadCandidate`: what the scan established. -/
structure ModuleLoadCandidate where
  sourcePath : String
  libraryPath : String
  ok : Bool := false
  manifest : Option ModuleIdentityClaim := none
  identity : ModuleFileIdentity := {}
  deriving Repr, DecidableEq

/-- What `LoadPreparedModule` finds: whether the dispatch gate admits it, the file as it is
now, what the loader says, and what the image says of itself. -/
structure ModuleLoadFacts where
  admitted : Bool
  identity : ModuleFileIdentity
  loadError : Option String
  good : Bool
  identifier : String
  version : String
  deriving Repr, DecidableEq

inductive ModuleLoadOutcome where
  | refused (why : String)
  | abandoned
  | loaded
  deriving Repr, DecidableEq

/-- `LoadPreparedModule`, up to the registration that it posts. -/
def loadPreparedModule (c : ModuleLoadCandidate) (f : ModuleLoadFacts) : ModuleLoadOutcome :=
  match c.ok, c.manifest with
  | true, some manifest =>
    if !f.admitted then .abandoned
    else if f.identity ≠ c.identity then
      .refused (c.libraryPath ++ ", reason: it changed after it was verified")
    else
      match f.loadError with
      | some error => .refused (c.libraryPath ++ ", reason: " ++ error)
      | none =>
        if !f.good then .refused (c.libraryPath ++ ", reason: it is not a usable module")
        else if f.identifier ≠ manifest.id then
          .refused (c.sourcePath ++ ", reason: its manifest says " ++ manifest.id
            ++ " and the module inside says " ++ f.identifier)
        else if f.version ≠ manifest.version then
          .refused (c.sourcePath ++ ", reason: its manifest says version " ++ manifest.version
            ++ " and the module inside says " ++ f.version)
        else .loaded
  | _, _ => .refused c.sourcePath

/-- The task that `RegisterLoadedModule` posts: its return code. -/
def registerLoadedModule (registered autoActivate activated : Bool) : Int :=
  if !registered then -1
  else if autoActivate && !activated then -1
  else 0

/-! ## The counters -/

/-- Where a candidate stands. `testing` and `exchanging` are inside the loop of
`DropFromExpectedRegistrations`, with the value of `current`. -/
inductive CandidatePhase where
  | scanned
  | refused
  | testing (current : Int)
  | exchanging (current : Int)
  | loaded
  | decided
  deriving Repr, DecidableEq

/-- `need_register_modules_` and `registered_modules_`; whether the scan has announced its
number; the candidates. -/
structure ModuleStartup where
  needRegisterModules : Int := -1
  registeredModules : Int := 0
  announced : Bool := false
  phases : List CandidatePhase
  deriving Repr, DecidableEq

namespace ModuleStartup

/-- Before the scan is done. -/
def start (prepared : List ModuleLoadCandidate) : ModuleStartup where
  phases := prepared.map fun _ => .scanned

/-- `SetNeedRegisterModulesNum`: set once. -/
def setNeedRegisterModulesNum (s : ModuleStartup) (n : Int) : ModuleStartup :=
  if n < 0 then s
  else if s.needRegisterModules = -1 then { s with needRegisterModules := n }
  else s

/-- `IsAllModulesRegistered`, where both numbers are read at once. -/
def isAllModulesRegistered (s : ModuleStartup) : Bool :=
  if s.needRegisterModules = -1 then false
  else s.needRegisterModules = s.registeredModules

def setPhase (s : ModuleStartup) (i : Nat) (p : CandidatePhase) : ModuleStartup :=
  { s with phases := s.phases.set i p }

/-- The candidates that are neither refused for good nor registered, or failed to. -/
def undecided (s : ModuleStartup) : Nat := s.phases.countP (· ≠ .decided)

end ModuleStartup

/-- Where a candidate stands once `loadPreparedModule` is through with it. -/
def ModuleLoadOutcome.phase : ModuleLoadOutcome → CandidatePhase
  | .refused _ | .abandoned => .refused
  | .loaded => .loaded

/-- One atomic step. Tasks are posted once the number is announced, and may run in any
order. -/
inductive StartupStep (prepared : List ModuleLoadCandidate) (s : ModuleStartup) :
    ModuleStartup → Prop where
  | announce : s.announced = false →
      StartupStep prepared s { s.setNeedRegisterModulesNum prepared.length with announced := true }
  | load {i c} (f : ModuleLoadFacts) : s.announced = true → prepared[i]? = some c →
      s.phases[i]? = some .scanned →
      StartupStep prepared s (s.setPhase i (loadPreparedModule c f).phase)
  | readNeed {i} : s.phases[i]? = some .refused →
      StartupStep prepared s (s.setPhase i (.testing s.needRegisterModules))
  | testPasses {i current} : s.phases[i]? = some (.testing current) →
      current > s.registeredModules → StartupStep prepared s (s.setPhase i (.exchanging current))
  | testFails {i current} : s.phases[i]? = some (.testing current) →
      ¬ current > s.registeredModules → StartupStep prepared s (s.setPhase i .decided)
  | exchange {i current} : s.phases[i]? = some (.exchanging current) →
      s.needRegisterModules = current →
      StartupStep prepared s
        { s.setPhase i .decided with needRegisterModules := current - 1 }
  | exchangeFails {i current} : s.phases[i]? = some (.exchanging current) →
      s.needRegisterModules ≠ current →
      StartupStep prepared s (s.setPhase i (.testing s.needRegisterModules))
  -- counted whatever the outcome of `registerLoadedModule`
  | register {i} (registered autoActivate activated : Bool) : s.phases[i]? = some .loaded →
      StartupStep prepared s
        { s.setPhase i .decided with registeredModules := s.registeredModules + 1 }

/-- `compare_exchange_weak` may fail although the value is the expected one. -/
inductive SpuriousStep (s : ModuleStartup) : ModuleStartup → Prop where
  | fails {i current} : s.phases[i]? = some (.exchanging current) →
      SpuriousStep s (s.setPhase i (.testing s.needRegisterModules))

/-- What a run reaches. -/
abbrev StartupReach (prepared : List ModuleLoadCandidate) : ModuleStartup → ModuleStartup → Prop :=
  Relation.ReflTransGen fun s s' => StartupStep prepared s s' ∨ SpuriousStep s s'

theorem StartupReach.next {prepared : List ModuleLoadCandidate} {s s' s'' : ModuleStartup}
    (h : StartupReach prepared s s') (hstep : StartupStep prepared s' s'') :
    StartupReach prepared s s'' :=
  Relation.ReflTransGen.tail h (Or.inl hstep)

/-! ## The invariant -/

/-- The value of `current` in the loop. -/
def CandidatePhase.current : CandidatePhase → Option Int
  | .testing current | .exchanging current => some current
  | _ => none

namespace ModuleStartup

variable {s : ModuleStartup} {i : Nat} {p q : CandidatePhase}

@[simp] theorem setPhase_needRegisterModules :
    (s.setPhase i q).needRegisterModules = s.needRegisterModules := rfl

@[simp] theorem setPhase_registeredModules :
    (s.setPhase i q).registeredModules = s.registeredModules := rfl

/-- One candidate moves on. -/
theorem undecided_setPhase (hp : s.phases[i]? = some p) (hne : p ≠ .decided) :
    (s.setPhase i q).undecided + (if q = .decided then 1 else 0) = s.undecided := by
  have hcount := countP_set_add (p := fun p => decide (p ≠ .decided)) (b := q) hp
  have hset : (s.setPhase i q).undecided
      = (s.phases.set i q).countP fun p => decide (p ≠ .decided) := rfl
  rw [hset, undecided]
  by_cases hq : q = .decided
  · simp only [hne, hq, ne_eq, not_true_eq_false, not_false_eq_true, decide_true, decide_false,
      if_true, Bool.false_eq_true, if_false] at hcount ⊢
    omega
  · simp only [hne, hq, ne_eq, not_false_eq_true, decide_true, if_true, if_false] at hcount ⊢
    omega

theorem undecided_pos (hp : s.phases[i]? = some p) (hne : p ≠ .decided) : 0 < s.undecided :=
  List.countP_pos_iff.mpr ⟨p, List.mem_of_getElem? hp, by simpa using hne⟩

theorem undecided_start (prepared : List ModuleLoadCandidate) :
    (start prepared).undecided = prepared.length := by
  simp [undecided, start, List.countP_replicate]

end ModuleStartup

/-- Until the number is announced nothing has happened; from then on what is needed and not
registered is what is not decided. A `current` in hand was read from a number that only
goes down. -/
structure StartupInv (prepared : List ModuleLoadCandidate) (s : ModuleStartup) : Prop where
  length_eq : s.phases.length = prepared.length
  before : s.announced = false → s = .start prepared
  after : s.announced = true → s.needRegisterModules - s.registeredModules = s.undecided
  nonneg : 0 ≤ s.registeredModules
  read : ∀ (i : Nat) (p : CandidatePhase) current, s.phases[i]? = some p → p.current = some current →
    s.needRegisterModules ≤ current

namespace StartupInv

variable {prepared : List ModuleLoadCandidate} {s : ModuleStartup} {i : Nat} {p q : CandidatePhase}

/-- A candidate that has moved on was announced. -/
theorem announced_of_phase (h : StartupInv prepared s) (hp : s.phases[i]? = some p)
    (hne : p ≠ .scanned) : s.announced = true := by
  by_contra hnot
  have hstart := h.before (Bool.eq_false_iff.mpr hnot)
  rw [hstart] at hp
  obtain ⟨c, -, rfl⟩ := List.mem_map.mp (List.mem_of_getElem? hp)
  exact hne rfl

/-- One candidate moves on, and the numbers with it. -/
theorem move (h : StartupInv prepared s) {need registered : Int} (hp : s.phases[i]? = some p)
    (hne : p ≠ .decided) (hann : s.announced = true)
    (hcount : need - registered =
      s.needRegisterModules - s.registeredModules - if q = .decided then 1 else 0)
    (hneed : need ≤ s.needRegisterModules) (hregistered : s.registeredModules ≤ registered)
    (hcurrent : ∀ current, q.current = some current → need ≤ current) :
    StartupInv prepared
      { s.setPhase i q with needRegisterModules := need, registeredModules := registered } where
  length_eq := List.length_set.trans h.length_eq
  before hnot := by
    rw [ModuleStartup.setPhase, hann] at hnot
    cases hnot
  after _ := by
    have hundecided := ModuleStartup.undecided_setPhase (q := q) hp hne
    have hafter := h.after hann
    show need - registered = ((s.setPhase i q).undecided : Int)
    rw [hcount, hafter]
    split at hundecided
    · next hq =>
      rw [if_pos hq]
      omega
    · next hq =>
      rw [if_neg hq]
      omega
  nonneg := le_trans h.nonneg hregistered
  read j p' current hj hcur := by
    rcases getElem?_set_cases hj with ⟨-, rfl⟩ | ⟨-, hj⟩
    · exact hcurrent current hcur
    · exact le_trans hneed (h.read j p' current hj hcur)

/-- **Every atomic step keeps the invariant.** -/
theorem step (h : StartupInv prepared s) {s' : ModuleStartup} (hstep : StartupStep prepared s s') :
    StartupInv prepared s' := by
  cases hstep with
  | announce hnot =>
    have hstart := h.before hnot
    subst hstart
    have hset : (ModuleStartup.start prepared).setNeedRegisterModulesNum prepared.length
        = { ModuleStartup.start prepared with needRegisterModules := prepared.length } := by
      simp [ModuleStartup.setNeedRegisterModulesNum, ModuleStartup.start]
    rw [hset]
    refine ⟨h.length_eq, fun hnot => absurd hnot (by simp), fun _ => ?_, le_refl _,
      fun j p current hj hcur => ?_⟩
    · have := ModuleStartup.undecided_start prepared
      simp only [ModuleStartup.undecided, ModuleStartup.start] at this ⊢
      omega
    · obtain ⟨c, -, rfl⟩ := List.mem_map.mp (List.mem_of_getElem? hj)
      cases hcur
  | @load i c f hann hc hp =>
    refine h.move hp (by simp) hann ?_ (le_refl _) (le_refl _) ?_ <;>
      cases loadPreparedModule c f <;> simp [ModuleLoadOutcome.phase, CandidatePhase.current]
  | readNeed hp =>
    exact h.move hp (by simp) (h.announced_of_phase hp (by simp)) (by simp) (le_refl _) (le_refl _)
      (by simp [CandidatePhase.current])
  | testPasses hp =>
    refine h.move hp (by simp) (h.announced_of_phase hp (by simp)) (by simp) (le_refl _)
      (le_refl _) fun current hcur => ?_
    exact h.read _ _ current hp hcur
  | @testFails i current hp hnot =>
    -- the candidate itself is still needed
    have hpos := ModuleStartup.undecided_pos hp (by simp)
    have hafter := h.after (h.announced_of_phase hp (by simp))
    have hread := h.read _ _ current hp rfl
    omega
  | @exchange i current hp heq =>
    refine h.move hp (by simp) (h.announced_of_phase hp (by simp)) ?_ (by omega) (le_refl _)
      (by simp [CandidatePhase.current])
    simp only [ModuleStartup.setPhase_registeredModules, if_true]
    omega
  | exchangeFails hp =>
    exact h.move hp (by simp) (h.announced_of_phase hp (by simp)) (by simp) (le_refl _) (le_refl _)
      (by simp [CandidatePhase.current])
  | register _ _ _ hp =>
    refine h.move hp (by simp) (h.announced_of_phase hp (by simp)) ?_ (le_refl _) (by omega)
      (by simp [CandidatePhase.current])
    simp only [ModuleStartup.setPhase_needRegisterModules, if_true]
    omega

theorem spurious (h : StartupInv prepared s) {s' : ModuleStartup} (hstep : SpuriousStep s s') :
    StartupInv prepared s' := by
  obtain ⟨hp⟩ := hstep
  exact h.move hp (by simp) (h.announced_of_phase hp (by simp)) (by simp) (le_refl _) (le_refl _)
    (by simp [CandidatePhase.current])

theorem reach (h : StartupInv prepared s) {s' : ModuleStartup} (hreach : StartupReach prepared s s') :
    StartupInv prepared s' := by
  induction hreach with
  | refl => exact h
  | tail _ hstep ih => exact hstep.elim ih.step ih.spurious

end StartupInv

theorem startupInv_start (prepared : List ModuleLoadCandidate) :
    StartupInv prepared (.start prepared) := by
  refine ⟨List.length_map _, fun _ => rfl, fun hann => absurd hann (by simp [ModuleStartup.start]), le_refl _,
    fun j p current hj hcur => ?_⟩
  obtain ⟨c, -, rfl⟩ := List.mem_map.mp (List.mem_of_getElem? hj)
  cases hcur

/-! ## Every candidate is decided in the end -/

/-- How far a candidate is from its decision, while the number needed stays as it is. -/
def CandidatePhase.weight (need : Int) : CandidatePhase → Nat
  | .scanned => 6
  | .refused => 5
  | .testing current => if current = need then 2 else 4
  | .exchanging current => if current = need then 1 else 3
  | .loaded => 1
  | .decided => 0

namespace ModuleStartup

/-- The undecided candidates first; between two decisions, how far each is from its own. -/
def distance (s : ModuleStartup) : Nat ×ₗ Nat :=
  toLex (s.undecided + (if s.announced then 0 else 1),
    (s.phases.map (CandidatePhase.weight s.needRegisterModules)).sum)

variable {s : ModuleStartup} {i : Nat} {p q : CandidatePhase}

theorem distance_lt_of_decided {need registered : Int} (hp : s.phases[i]? = some p)
    (hne : p ≠ .decided) :
    distance { s.setPhase i .decided with
      needRegisterModules := need, registeredModules := registered } < s.distance := by
  have hundecided := undecided_setPhase (q := .decided) hp hne
  rw [if_pos rfl] at hundecided
  refine Prod.Lex.toLex_lt_toLex.mpr (Or.inl ?_)
  show (s.setPhase i .decided).undecided + (if s.announced then 0 else 1) < _
  omega

theorem distance_lt_of_weight (hp : s.phases[i]? = some p) (hne : p ≠ .decided)
    (hq : q ≠ .decided)
    (hweight : q.weight s.needRegisterModules < p.weight s.needRegisterModules) :
    (s.setPhase i q).distance < s.distance := by
  have hundecided := undecided_setPhase (q := q) hp hne
  rw [if_neg hq] at hundecided
  have hsum := sum_map_set_add (w := CandidatePhase.weight s.needRegisterModules) (b := q) hp
  refine Prod.Lex.toLex_lt_toLex.mpr (Or.inr ⟨?_, ?_⟩)
  · show (s.setPhase i q).undecided + (if s.announced then 0 else 1) = _
    omega
  · show ((s.phases.set i q).map _).sum < _
    simp only [setPhase_needRegisterModules]
    omega

end ModuleStartup

theorem StartupStep.distance_lt {prepared : List ModuleLoadCandidate} {s s' : ModuleStartup}
    (hstep : StartupStep prepared s s') : s'.distance < s.distance := by
  cases hstep with
  | announce hnot =>
    have hundecided : (s.setNeedRegisterModulesNum prepared.length).undecided = s.undecided := by
      simp only [ModuleStartup.setNeedRegisterModulesNum]
      split
      · rfl
      · split <;> rfl
    refine Prod.Lex.toLex_lt_toLex.mpr (Or.inl ?_)
    show (s.setNeedRegisterModulesNum prepared.length).undecided + 0
      < s.undecided + (if s.announced then 0 else 1)
    rw [hundecided, hnot]
    simp
  | @load i c f _ _ hp =>
    refine ModuleStartup.distance_lt_of_weight hp (by simp) ?_ ?_ <;>
      cases loadPreparedModule c f <;> simp [ModuleLoadOutcome.phase, CandidatePhase.weight]
  | readNeed hp =>
    exact ModuleStartup.distance_lt_of_weight hp (by simp) (by simp) (by simp [CandidatePhase.weight])
  | @testPasses i current hp =>
    refine ModuleStartup.distance_lt_of_weight hp (by simp) (by simp) ?_
    simp only [CandidatePhase.weight]
    split <;> omega
  | testFails hp => exact ModuleStartup.distance_lt_of_decided hp (by simp)
  | exchange hp => exact ModuleStartup.distance_lt_of_decided hp (by simp)
  | exchangeFails hp hne =>
    exact ModuleStartup.distance_lt_of_weight hp (by simp) (by simp)
      (by simp [CandidatePhase.weight, Ne.symm hne])
  | register _ _ _ hp => exact ModuleStartup.distance_lt_of_decided hp (by simp)

/-- While the number is not announced or a candidate undecided, something can go on. -/
theorem StartupInv.can_step {prepared : List ModuleLoadCandidate} {s : ModuleStartup}
    (h : StartupInv prepared s) (hopen : s.announced = false ∨ 0 < s.undecided) :
    ∃ s', StartupStep prepared s s' := by
  cases hann : s.announced with
  | false => exact ⟨_, .announce hann⟩
  | true =>
    have hpos : 0 < s.undecided := hopen.resolve_left (by simp [hann])
    obtain ⟨p, hmem, hne⟩ := List.countP_pos_iff.mp hpos
    obtain ⟨i, hi⟩ := List.getElem?_of_mem hmem
    cases p with
    | scanned =>
      have hlt : i < prepared.length := by
        rw [← h.length_eq]
        exact (List.getElem?_eq_some_iff.mp hi).1
      exact ⟨_, .load ⟨false, {}, none, false, "", ""⟩ hann (List.getElem?_eq_getElem hlt) hi⟩
    | refused => exact ⟨_, .readNeed hi⟩
    | testing current =>
      by_cases htest : current > s.registeredModules
      · exact ⟨_, .testPasses hi htest⟩
      · exact ⟨_, .testFails hi htest⟩
    | exchanging current =>
      by_cases heq : s.needRegisterModules = current
      · exact ⟨_, .exchange hi heq⟩
      · exact ⟨_, .exchangeFails hi heq⟩
    | loaded => exact ⟨_, .register true true true hi⟩
    | decided => simp at hne

/-! ## The accounting -/

namespace StartupInv

variable {prepared : List ModuleLoadCandidate} {s : ModuleStartup}

theorem isAll_iff (h : StartupInv prepared s) :
    s.isAllModulesRegistered = true ↔ s.announced = true ∧ s.undecided = 0 := by
  cases hann : s.announced with
  | false =>
    rw [h.before hann]
    simp [ModuleStartup.isAllModulesRegistered, ModuleStartup.start]
  | true =>
    have hafter := h.after hann
    have hnonneg := h.nonneg
    have hunset : s.needRegisterModules ≠ -1 := by omega
    simp only [ModuleStartup.isAllModulesRegistered, if_neg hunset, decide_eq_true_eq, true_and]
    omega

/-- The number needed never rises again. -/
theorem need_le (h : StartupInv prepared s) {s' : ModuleStartup}
    (hreach : StartupReach prepared s s') (hset : s.needRegisterModules ≠ -1) :
    s.announced = true ∧ s'.announced = true ∧
      s'.needRegisterModules ≤ s.needRegisterModules := by
  have hann : s.announced = true := by
    by_contra hnot
    rw [h.before (Bool.eq_false_iff.mpr hnot)] at hset
    exact hset rfl
  refine ⟨hann, ?_⟩
  induction hreach with
  | refl => exact ⟨hann, le_refl _⟩
  | tail _ hstep ih =>
    obtain ⟨hann', hle⟩ := ih
    rcases hstep with hstep | hstep
    · cases hstep with
      | announce hnot =>
        rw [hann'] at hnot
        cases hnot
      | @exchange i current _ heq =>
        refine ⟨hann', ?_⟩
        show current - 1 ≤ _
        omega
      | _ => exact ⟨hann', hle⟩
    · cases hstep with
      | fails => exact ⟨hann', hle⟩

end StartupInv

/-- **The start waits for exactly the candidates that are not decided.** For every list of
candidates and every order of refusals, loads and registrations: the number needed less the
number registered is the number of undecided candidates, once it is announced; the two
agree exactly when there are none left, also where the second is read later than the
first; and a run that goes on while it can comes to that and stays there. -/
theorem startup_accounting {prepared : List ModuleLoadCandidate} {s : ModuleStartup}
    (h : StartupReach prepared (.start prepared) s) :
    (s.announced = true → s.needRegisterModules - s.registeredModules = s.undecided) ∧
    (s.isAllModulesRegistered = true ↔ s.announced = true ∧ s.undecided = 0) ∧
    (∀ s', StartupReach prepared s s' → s.needRegisterModules ≠ -1 →
      s.needRegisterModules = s'.registeredModules → s'.undecided = 0) ∧
    ∀ f : Nat → ModuleStartup, f 0 = s →
      (∀ n, StartupStep prepared (f n) (f (n + 1)) ∨
        (∀ s', ¬ StartupStep prepared (f n) s') ∧ f (n + 1) = f n) →
      ∃ N, ∀ n, N ≤ n → (f n).isAllModulesRegistered = true := by
  have hinv := (startupInv_start prepared).reach h
  refine ⟨hinv.after, hinv.isAll_iff, fun s' hreach hset heq => ?_, fun f hf0 hf => ?_⟩
  · obtain ⟨-, hann', hle⟩ := hinv.need_le hreach hset
    have hafter := (hinv.reach hreach).after hann'
    omega
  · have hinvs : ∀ n, StartupInv prepared (f n) := by
      intro n
      induction n with
      | zero =>
        rw [hf0]
        exact hinv
      | succ n ih =>
        rcases hf n with hstep | ⟨-, heq⟩
        · exact ih.step hstep
        · rw [heq]
          exact ih
    have hlt : ∀ s s', StartupStep prepared s s' → s'.distance < s.distance :=
      fun _ _ hstep => hstep.distance_lt
    obtain ⟨N, hstuck, hstays⟩ := exists_stop hlt hf
    refine ⟨N, fun n hn => ?_⟩
    rw [hstays n hn, (hinvs N).isAll_iff]
    by_contra hopen
    obtain ⟨s', hstep⟩ := (hinvs N).can_step (by
      rw [not_and_or] at hopen
      exact hopen.imp (Bool.eq_false_iff.mpr ·) Nat.pos_of_ne_zero)
    exact hstuck s' hstep

/-- One candidate, refused: its decision is the exchange. -/
theorem startup_accounting_refused :
    ∃ s, StartupReach [⟨"a.gfmodule", "a.gfmodule", false, none, {}⟩]
        (.start [⟨"a.gfmodule", "a.gfmodule", false, none, {}⟩]) s ∧
      s.isAllModulesRegistered = true ∧ s.announced = true ∧ s.undecided = 0 := by
  let c : ModuleLoadCandidate := ⟨"a.gfmodule", "a.gfmodule", false, none, {}⟩
  have hann : StartupStep [c] (.start [c]) ⟨1, 0, true, [.scanned]⟩ := .announce rfl
  have hload : StartupStep [c] ⟨1, 0, true, [.scanned]⟩ ⟨1, 0, true, [.refused]⟩ :=
    .load (s := ⟨1, 0, true, [.scanned]⟩) (i := 0) (c := c) ⟨true, {}, none, true, "", ""⟩ rfl rfl rfl
  have hread : StartupStep [c] ⟨1, 0, true, [.refused]⟩ ⟨1, 0, true, [.testing 1]⟩ :=
    .readNeed (i := 0) rfl
  have htest : StartupStep [c] ⟨1, 0, true, [.testing 1]⟩ ⟨1, 0, true, [.exchanging 1]⟩ :=
    .testPasses (i := 0) rfl (by decide)
  have hdrop : StartupStep [c] ⟨1, 0, true, [.exchanging 1]⟩ ⟨0, 0, true, [.decided]⟩ :=
    .exchange (i := 0) rfl rfl
  have hstart : StartupReach [c] (.start [c]) (.start [c]) := Relation.ReflTransGen.refl
  have hreach := ((((hstart.next hann).next hload).next hread).next htest).next hdrop
  have hall : (⟨0, 0, true, [.decided]⟩ : ModuleStartup).isAllModulesRegistered = true := rfl
  exact ⟨_, hreach, hall, (startup_accounting hreach).2.1.mp hall⟩

end GpgFrontend
