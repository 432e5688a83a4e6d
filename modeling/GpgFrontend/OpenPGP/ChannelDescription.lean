import GpgFrontend.Base.Runs
import GpgFrontend.OpenPGP.ChannelSafety

/-!
# What a channel handle says it opens (`OpenPGPContext::Initialize`)

`Initialize` records its database under its channel in two lock sections:
`RegisterChannelHandle`, which may refuse, and then `DescribeChannelHandle`, whatever the
first one said. Between the two any other thread may run.

- `ChannelHandleRegistry.labelOf`: the id, name, path and backend of a handle. No section
  but those two changes it (`ChannelSystem.step_labels`).
- `handle_describes_own_database`: **as long as `Initialize` is only run on a channel that
  is new or carries the same database, a handle describes the database it carries.**
-/

namespace GpgFrontend

/-- `OpenPGPEngine`. -/
inductive OpenPGPEngine where
  | gnupg
  | rpgp
  deriving Repr, DecidableEq

/-- The fields of `OpenPGPContextInitArgs` that reach the registry. -/
structure OpenPGPContextInitArgs where
  engine : OpenPGPEngine := .rpgp
  dbId : String
  dbName : String
  generation : Int := 1
  order : Int := 0
  dbPath : String
  deriving Repr, DecidableEq

/-- The backend as `Initialize` spells it. -/
def OpenPGPContextInitArgs.backendType (args : OpenPGPContextInitArgs) : String :=
  if args.engine = .gnupg then "gnupg" else "rpgp"

/-- The registry, the calls of `Initialize` that have registered and not described yet, and
the arguments of every call made. -/
structure InitializeSystem where
  system : ChannelSystem := {}
  initializing : List (Int × OpenPGPContextInitArgs) := []
  opened : List OpenPGPContextInitArgs := []

/-- Sections other than `DescribeChannelHandle`, which only `Initialize` runs. -/
def ChannelAction.isDescribe : ChannelAction → Bool
  | .describe .. => true
  | _ => false

/-- One lock section. -/
inductive InitializeAction where
  /-- `Initialize` up to and with `RegisterChannelHandle`; `good` is whether the context
  opened. -/
  | register (channel : Int) (args : OpenPGPContextInitArgs) (good : Bool)
  /-- The rest of the `i`-th call that stands there. -/
  | describe (i : Nat)
  | other (action : ChannelAction) (h : action.isDescribe = false)

namespace InitializeSystem

def step (s : InitializeSystem) : InitializeAction → InitializeSystem
  | .register channel args good =>
    -- the result is dropped
    { system := s.system.step (.register channel args.dbId good args.generation)
      initializing := s.initializing ++ [(channel, args)]
      opened := args :: s.opened }
  | .describe i =>
    match s.initializing[i]? with
    | none => s
    | some (channel, args) =>
      { s with
        system := s.system.step
          (.describe channel args.dbName args.dbPath args.backendType args.order)
        initializing := s.initializing.eraseIdx i }
  | .other action _ => { s with system := s.system.step action }

end InitializeSystem

/-! ## What the sections do to a handle's label -/

/-- The database a handle carries, and what is recorded of it. -/
def ChannelHandleInfo.label (info : ChannelHandleInfo) : String × String × String × String :=
  (info.databaseId, info.name, info.path, info.backendType)

namespace ChannelHandleRegistry

variable {r r' r'' : ChannelHandleRegistry}

def labelOf (r : ChannelHandleRegistry) (h : Int) : Option (String × String × String × String) :=
  (r.find h).map ChannelHandleInfo.label

/-- Every record was issued: a slot that is there is never `kUNKNOWN`. -/
def AllIssued (r : ChannelHandleRegistry) : Prop :=
  ∀ h info, r.find h = some info → info.state ≠ .unknown

/-- A section that labels no handle. -/
structure KeepsLabels (r r' : ChannelHandleRegistry) : Prop where
  labels : r'.labelOf = r.labelOf
  issued : r.AllIssued → r'.AllIssued

theorem KeepsLabels.of_handles (h : r'.handles = r.handles) : KeepsLabels r r' := by
  constructor
  · funext k
    unfold labelOf find
    rw [h]
  · intro hr k info hfind
    unfold find at hfind
    rw [h] at hfind
    exact hr k info hfind

theorem KeepsLabels.trans (h : KeepsLabels r r') (h' : KeepsLabels r' r'') :
    KeepsLabels r r'' :=
  ⟨h'.labels.trans h.labels, fun hr => h'.issued (h.issued hr)⟩

theorem KeepsLabels.modify (r : ChannelHandleRegistry) (h : Int)
    {f : ChannelHandleInfo → ChannelHandleInfo} (hlabel : ∀ info, (f info).label = info.label)
    (hstate : ∀ info, info.state ≠ .unknown → (f info).state ≠ .unknown) :
    KeepsLabels r (r.modify h f) := by
  constructor
  · funext k
    unfold labelOf
    rw [find_modify]
    by_cases hk : k = h
    · rw [if_pos hk, hk, Option.map_map]
      congr 1
      funext info
      exact hlabel info
    · rw [if_neg hk]
  · intro hr k info hfind
    rw [find_modify] at hfind
    by_cases hk : k = h
    · rw [if_pos hk] at hfind
      obtain ⟨old, hold, rfl⟩ := Option.map_eq_some_iff.mp hfind
      exact hstate old (hr h old hold)
    · rw [if_neg hk] at hfind
      exact hr k info hfind

theorem takeReclaimLocked_labels (r : ChannelHandleRegistry) (h : Int) :
    KeepsLabels r (r.takeReclaimLocked h).2 :=
  .of_handles (takeReclaimLocked_spec r h).1

theorem retire_labels (r : ChannelHandleRegistry) (h : Int) :
    KeepsLabels r (r.modify h ChannelHandleInfo.retire) :=
  .modify r h (fun _ => rfl) fun _ _ hretired => by cases hretired

theorem retireChannelHandle_labels (r : ChannelHandleRegistry) (h : Int) :
    KeepsLabels r (r.retireChannelHandle h).2.2 := by
  unfold retireChannelHandle
  cases r.find h with
  | none => exact .of_handles rfl
  | some info => exact (retire_labels r h).trans (takeReclaimLocked_labels _ h)

theorem foldl_retire_labels (hs : List Int) (r : ChannelHandleRegistry) :
    KeepsLabels r (hs.foldl (·.modify · ChannelHandleInfo.retire) r) := by
  induction hs generalizing r with
  | nil => exact .of_handles rfl
  | cons h rest ih => exact (retire_labels r h).trans (ih _)

theorem retireGenerationLocked_labels (r : ChannelHandleRegistry) (generation : Int) :
    KeepsLabels r (r.retireGenerationLocked generation).2.2 := by
  unfold retireGenerationLocked
  exact (foldl_retire_labels _ r).trans (.of_handles (takeReclaims_spec _ _).1)

theorem publishRuntimeGeneration_labels (r : ChannelHandleRegistry)
    (generation defaultHandle : Int) :
    KeepsLabels r (r.publishRuntimeGeneration generation defaultHandle).2.2 := by
  unfold publishRuntimeGeneration
  by_cases hgen : r.currentGeneration ≠ generation
  · simp only [if_pos hgen]
    exact (retireGenerationLocked_labels r r.currentGeneration).trans (.of_handles rfl)
  · simp only [if_neg hgen]
    exact .of_handles rfl

theorem tryAcquireEngineLease_labels {h : Int} {operation : Bool}
    (hok : r.tryAcquireEngineLease h operation = .ok r') : KeepsLabels r r' := by
  unfold tryAcquireEngineLease at hok
  dsimp only at hok
  split at hok
  · cases hok
  · cases hok
    exact .modify r h (fun _ => rfl) fun _ hstate => hstate

theorem releaseToken_labels (r : ChannelHandleRegistry) (h : Int) (operation : Bool) :
    KeepsLabels r (r.releaseToken h operation).2 := by
  unfold releaseToken
  refine KeepsLabels.trans (.modify r h (fun info => ?_) fun info hstate => ?_)
    (takeReclaimLocked_labels _ h)
  · split <;> rfl
  · split <;> exact hstate

theorem reclaimChannelAgainIfReclaimed_labels (r : ChannelHandleRegistry) (h : Int) :
    KeepsLabels r (r.reclaimChannelAgainIfReclaimed h).2.2 := by
  unfold reclaimChannelAgainIfReclaimed
  cases r.find h with
  | none => exact .of_handles rfl
  | some info =>
    dsimp only
    split
    · exact .of_handles rfl
    · have hmodify : KeepsLabels r (r.modify h fun info => { info with reclaimed := false }) :=
        .modify r h (fun _ => rfl) fun _ hstate => hstate
      refine hmodify.trans (.of_handles ?_)
      exact (takeReclaimLocked_spec _ h).1

theorem labels_insert (hr : r.AllIssued) {h : Int} {info : ChannelHandleInfo}
    (hstate : info.state ≠ .unknown) (hh : r'.handles = r.handles.insert h info) :
    r'.AllIssued ∧ ∀ k, r'.labelOf k = if k = h then some info.label else r.labelOf k := by
  constructor
  · intro k info' hfind
    unfold find at hfind
    rw [hh] at hfind
    by_cases hk : k = h
    · rw [hk, AList.lookup_insert] at hfind
      cases hfind
      exact hstate
    · rw [AList.lookup_insert_ne hk] at hfind
      exact hr k info' hfind
  · intro k
    unfold labelOf find
    rw [hh]
    by_cases hk : k = h
    · rw [if_pos hk, hk, AList.lookup_insert]
      rfl
    · rw [if_neg hk, AList.lookup_insert_ne hk]

/-- Registering gives a new handle its id and no description, and leaves the label of a
handle that is there, the same database's or not. -/
theorem registerChannelHandle_labels (hr : r.AllIssued) (h : Int) (databaseId : String)
    (available : Bool) (generation : Int) :
    (r.registerChannelHandle h databaseId available generation).2.AllIssued ∧
    ∀ k, (r.registerChannelHandle h databaseId available generation).2.labelOf k =
      if k = h ∧ 0 ≤ h ∧ r.labelOf h = none then some (databaseId, "", "", "")
      else r.labelOf k := by
  have hissued : (if available then ChannelHandleState.available else .unavailable) ≠
      .unknown := by
    cases available <;> decide
  unfold registerChannelHandle
  split
  · next hneg =>
    refine ⟨hr, fun k => ?_⟩
    rw [if_neg fun hnew => absurd hnew.2.1 (by omega)]
  · next hneg =>
    have hpos : 0 ≤ h := by omega
    dsimp only
    cases hfind : r.find h with
    | none =>
      have hnone : r.labelOf h = none := by rw [labelOf, hfind]; rfl
      dsimp only [Option.getD_none]
      rw [if_neg fun hrefused => hrefused.1 rfl]
      refine ⟨(labels_insert hr hissued rfl).1, fun k => ?_⟩
      rw [(labels_insert hr hissued rfl).2 k]
      simp only [hpos, hnone, and_true]
      rfl
    | some slot =>
      have hslot : r.labelOf h = some slot.label := by rw [labelOf, hfind]; rfl
      have hold : ∀ k, (if k = h ∧ 0 ≤ h ∧ r.labelOf h = none then
          some (databaseId, "", "", "") else r.labelOf k) = r.labelOf k := by
        intro k
        rw [if_neg]
        intro hnew
        rw [hslot] at hnew
        cases hnew.2.2
      dsimp only [Option.getD_some]
      split
      · exact ⟨hr, fun k => (hold k).symm⟩
      · next haccepted =>
        -- a slot that is there is registered again for its own database only
        have hsame : slot.databaseId = databaseId := by
          by_contra hother
          exact haccepted ⟨hr h slot hfind, Or.inr hother⟩
        refine ⟨(labels_insert hr hissued rfl).1, fun k => ?_⟩
        rw [(labels_insert hr hissued rfl).2 k, hold k]
        by_cases hk : k = h
        · rw [if_pos hk, hk, hslot]
          unfold ChannelHandleInfo.label
          rw [hsame]
        · rw [if_neg hk]

/-- Describing gives a handle that is there the description, and keeps its id. -/
theorem describeChannelHandle_labels (r : ChannelHandleRegistry) (h : Int)
    (name path backendType : String) (order : Int) :
    (r.AllIssued → (r.describeChannelHandle h name path backendType order).AllIssued) ∧
    ∀ k, (r.describeChannelHandle h name path backendType order).labelOf k =
      if k = h then (r.labelOf h).map fun label => (label.1, name, path, backendType)
      else r.labelOf k := by
  constructor
  · intro hr k info hfind
    unfold describeChannelHandle at hfind
    rw [find_modify] at hfind
    by_cases hk : k = h
    · rw [if_pos hk] at hfind
      obtain ⟨old, hold, rfl⟩ := Option.map_eq_some_iff.mp hfind
      exact hr h old hold
    · rw [if_neg hk] at hfind
      exact hr k info hfind
  · intro k
    unfold labelOf describeChannelHandle
    rw [find_modify]
    by_cases hk : k = h
    · rw [if_pos hk, if_pos hk, Option.map_map, Option.map_map]
      rfl
    · rw [if_neg hk, if_neg hk]

end ChannelHandleRegistry

/-- No section other than the two of `Initialize` and a bare registration labels a handle. -/
theorem ChannelSystem.step_labels (s : ChannelSystem) {action : ChannelAction}
    (hdescribe : action.isDescribe = false)
    (hregister : ∀ h id available generation, action ≠ .register h id available generation) :
    s.registry.KeepsLabels (s.step action).registry := by
  cases action with
  | register h id available generation => exact absurd rfl (hregister h id available generation)
  | describe h name path backendType order => cases hdescribe
  | allocateHandle => exact .of_handles rfl
  | allocateGeneration => exact .of_handles rfl
  | setDefault h => exact .of_handles rfl
  | setReclaimer reclaimer => exact .of_handles rfl
  | acquire h operation =>
    rw [ChannelSystem.step]
    cases hok : s.registry.tryAcquireEngineLease h operation with
    | error why => exact .of_handles rfl
    | ok registry => exact ChannelHandleRegistry.tryAcquireEngineLease_labels hok
  | copyLease i => exact .of_handles rfl
  | dropLease i =>
    rw [ChannelSystem.step]
    cases s.tokens[i]? with
    | none => exact .of_handles rfl
    | some token =>
      dsimp only
      split
      · exact .of_handles rfl
      · exact ChannelHandleRegistry.releaseToken_labels s.registry token.handle token.operation
  | retire h => exact ChannelHandleRegistry.retireChannelHandle_labels s.registry h
  | retireGeneration generation =>
    exact ChannelHandleRegistry.retireGenerationLocked_labels s.registry generation
  | publish generation defaultHandle =>
    exact ChannelHandleRegistry.publishRuntimeGeneration_labels s.registry generation
      defaultHandle
  | markReclaimed h => exact .modify s.registry h (fun _ => rfl) fun _ hstate => hstate
  | reclaimAgain h =>
    exact ChannelHandleRegistry.reclaimChannelAgainIfReclaimed_labels s.registry h
  | runReclaimer i =>
    rw [ChannelSystem.step]
    cases s.pending[i]? with
    | none => exact .of_handles rfl
    | some p => exact .of_handles rfl

/-! ## Whole runs -/

/-- The name, path and backend recorded for a handle are ones that `Initialize` was given
for the very database the handle carries, once any are recorded. -/
def DescribesOwnDatabase (s : InitializeSystem) : Prop :=
  ∀ h info, s.system.registry.find h = some info →
    (info.name = "" ∧ info.path = "" ∧ info.backendType = "") ∨
    ∃ args ∈ s.opened, args.dbId = info.databaseId ∧ args.dbName = info.name ∧
      args.dbPath = info.path ∧ args.backendType = info.backendType

/-- `Initialize` is run on a channel that is new, or that carries the same database. -/
def OnOwnChannel (s : InitializeSystem) : InitializeAction → Prop
  | .register channel args _ =>
    ∀ info, s.system.registry.find channel = some info → info.databaseId = args.dbId
  | _ => True

/-- Whose description a label holds. -/
def LabelOwn (opened : List OpenPGPContextInitArgs) (label : String × String × String × String) :
    Prop :=
  label.2 = ("", "", "") ∨
    ∃ args ∈ opened, label = (args.dbId, args.dbName, args.dbPath, args.backendType)

/-- The invariant, over what the registry says, the calls between their sections and the
arguments of all calls. -/
structure DescriptionInv (r : ChannelHandleRegistry)
    (initializing : List (Int × OpenPGPContextInitArgs)) (opened : List OpenPGPContextInitArgs) :
    Prop where
  issued : r.AllIssued
  negative : ∀ h, h < 0 → r.labelOf h = none
  own : ∀ h label, r.labelOf h = some label → LabelOwn opened label
  /-- A call on its way to describe a handle belongs to the database of that handle. -/
  initializing : ∀ p ∈ initializing, p.2 ∈ opened ∧
    (p.1 < 0 ∨ ∃ label, r.labelOf p.1 = some label ∧ label.1 = p.2.dbId)

namespace DescriptionInv

variable {r r' : ChannelHandleRegistry} {initializing : List (Int × OpenPGPContextInitArgs)}
  {opened : List OpenPGPContextInitArgs}

theorem initial : DescriptionInv {} [] [] where
  issued := fun _ _ hfind => by cases hfind
  negative := fun _ _ => rfl
  own := fun _ _ hlabel => by cases hlabel
  initializing := fun _ hp => by cases hp

theorem keeps (h : DescriptionInv r initializing opened) (hk : r.KeepsLabels r') :
    DescriptionInv r' initializing opened := by
  refine ⟨hk.issued h.issued, ?_, ?_, ?_⟩
  · rw [hk.labels]
    exact h.negative
  · rw [hk.labels]
    exact h.own
  · rw [hk.labels]
    exact h.initializing

/-- Registration labels a new handle, which describes nothing yet. -/
theorem registered (h : DescriptionInv r initializing opened) (channel : Int) (id : String)
    (good : Bool) (generation : Int) :
    DescriptionInv (r.registerChannelHandle channel id good generation).2 initializing
      opened := by
  obtain ⟨hissued, hlabels⟩ := ChannelHandleRegistry.registerChannelHandle_labels h.issued
    channel id good generation
  refine ⟨hissued, ?_, ?_, ?_⟩
  · intro k hk
    rw [hlabels k, if_neg, h.negative k hk]
    intro hnew
    omega
  · intro k label hlabel
    rw [hlabels k] at hlabel
    split at hlabel
    · cases hlabel
      exact Or.inl rfl
    · exact h.own k label hlabel
  · intro p hp
    refine ⟨(h.initializing p hp).1, ?_⟩
    rcases (h.initializing p hp).2 with hneg | ⟨label, hlabel, hid⟩
    · exact Or.inl hneg
    · refine Or.inr ⟨label, ?_, hid⟩
      rw [hlabels p.1, if_neg, hlabel]
      rintro ⟨hp1, -, hnone⟩
      rw [← hp1, hlabel] at hnone
      cases hnone

variable {channel : Int}

/-- The id a channel carries after a registration that found it new or its own. -/
theorem registered_id (h : DescriptionInv r initializing opened) {id : String} {good : Bool}
    {generation : Int} (hpos : 0 ≤ channel)
    (hown : ∀ info, r.find channel = some info → info.databaseId = id) :
    ∃ label, (r.registerChannelHandle channel id good generation).2.labelOf channel =
      some label ∧ label.1 = id := by
  rw [(ChannelHandleRegistry.registerChannelHandle_labels h.issued channel id good
    generation).2 channel]
  cases hfind : r.find channel with
  | none =>
    have hnone : r.labelOf channel = none := by
      rw [ChannelHandleRegistry.labelOf, hfind]
      rfl
    rw [if_pos ⟨rfl, hpos, hnone⟩]
    exact ⟨_, rfl, rfl⟩
  | some info =>
    have hsome : r.labelOf channel = some info.label := by
      rw [ChannelHandleRegistry.labelOf, hfind]
      rfl
    rw [if_neg, hsome]
    · exact ⟨_, rfl, hown info hfind⟩
    · rintro ⟨-, -, hnone⟩
      rw [hsome] at hnone
      cases hnone

variable {args : OpenPGPContextInitArgs}

/-- The first section of `Initialize`. -/
theorem entered (h : DescriptionInv r initializing opened) {good : Bool} {generation : Int}
    (hown : ∀ info, r.find channel = some info → info.databaseId = args.dbId) :
    DescriptionInv (r.registerChannelHandle channel args.dbId good generation).2
      (initializing ++ [(channel, args)]) (args :: opened) := by
  have hreg := h.registered channel args.dbId good generation
  refine ⟨hreg.issued, hreg.negative, ?_, ?_⟩
  · intro k label hlabel
    rcases hreg.own k label hlabel with hblank | ⟨other, hother, heq⟩
    · exact Or.inl hblank
    · exact Or.inr ⟨other, List.mem_cons_of_mem _ hother, heq⟩
  · intro p hp
    rcases List.mem_append.mp hp with hp | hp
    · exact ⟨List.mem_cons_of_mem _ (hreg.initializing p hp).1, (hreg.initializing p hp).2⟩
    · rw [List.mem_singleton.mp hp]
      refine ⟨List.mem_cons_self, ?_⟩
      by_cases hneg : channel < 0
      · exact Or.inl hneg
      · exact Or.inr (h.registered_id (by omega) hown)

/-- The second section of `Initialize`. -/
theorem described (h : DescriptionInv r initializing opened) {i : Nat}
    (hi : initializing[i]? = some (channel, args)) :
    DescriptionInv (r.describeChannelHandle channel args.dbName args.dbPath args.backendType
      args.order) (initializing.eraseIdx i) opened := by
  obtain ⟨hopened, htarget⟩ := h.initializing (channel, args) (List.mem_of_getElem? hi)
  obtain ⟨hissued, hlabels⟩ := ChannelHandleRegistry.describeChannelHandle_labels r channel
    args.dbName args.dbPath args.backendType args.order
  refine ⟨hissued h.issued, ?_, ?_, ?_⟩
  · intro k hk
    rw [hlabels k]
    by_cases hkc : k = channel
    · rw [if_pos hkc, ← hkc, h.negative k hk]
      rfl
    · rw [if_neg hkc, h.negative k hk]
  · intro k label hlabel
    rw [hlabels k] at hlabel
    by_cases hkc : k = channel
    · rw [if_pos hkc] at hlabel
      obtain ⟨old, hold, rfl⟩ := Option.map_eq_some_iff.mp hlabel
      right
      refine ⟨args, hopened, ?_⟩
      rcases htarget with hneg | ⟨label, hlabel', hid⟩
      · rw [h.negative channel hneg] at hold
        cases hold
      · rw [hlabel'] at hold
        cases hold
        rw [hid]
    · rw [if_neg hkc] at hlabel
      exact h.own k label hlabel
  · intro p hp
    have hp' := h.initializing p (List.mem_of_mem_eraseIdx hp)
    refine ⟨hp'.1, ?_⟩
    rcases hp'.2 with hneg | ⟨label, hlabel, hid⟩
    · exact Or.inl hneg
    · right
      rw [hlabels p.1]
      by_cases hpc : p.1 = channel
      · rw [if_pos hpc, ← hpc, hlabel]
        exact ⟨_, rfl, hid⟩
      · rw [if_neg hpc]
        exact ⟨label, hlabel, hid⟩

/-- **Step.** Every section keeps the invariant, the first one of `Initialize` on a channel
of its own. -/
theorem step {s : InitializeSystem}
    (h : DescriptionInv s.system.registry s.initializing s.opened) {action : InitializeAction}
    (hown : OnOwnChannel s action) :
    DescriptionInv (s.step action).system.registry (s.step action).initializing
      (s.step action).opened := by
  cases action with
  | register channel args good => exact h.entered hown
  | describe i =>
    unfold InitializeSystem.step
    dsimp only
    cases hi : s.initializing[i]? with
    | none => exact h
    | some p => exact h.described hi
  | other action hdescribe =>
    by_cases hregister : ∃ k id good generation, action = .register k id good generation
    · obtain ⟨k, id, good, generation, rfl⟩ := hregister
      exact h.registered k id good generation
    · refine h.keeps (s.system.step_labels hdescribe ?_)
      intro k id good generation heq
      exact hregister ⟨k, id, good, generation, heq⟩

theorem describesOwn {s : InitializeSystem}
    (h : DescriptionInv s.system.registry s.initializing s.opened) :
    DescribesOwnDatabase s := by
  intro k info hfind
  have hlabel : s.system.registry.labelOf k = some info.label := by
    rw [ChannelHandleRegistry.labelOf, hfind]
    rfl
  rcases h.own k info.label hlabel with hblank | ⟨args, hargs, heq⟩
  · left
    simpa [ChannelHandleInfo.label] using hblank
  · right
    simp only [ChannelHandleInfo.label, Prod.mk.injEq] at heq
    obtain ⟨hid, hname, hpath, hbackend⟩ := heq
    exact ⟨args, hargs, hid.symm, hname.symm, hpath.symm, hbackend.symm⟩

end DescriptionInv

/-- **A handle describes its own database**, in every state of every run in which
`Initialize` is only run on a channel that is new or carries the same database. Between
such calls anything goes: registrations that are refused, retirement, new generations,
leases and reclaims. -/
theorem handle_describes_own_database {s : InitializeSystem}
    (h : ReachableUnder InitializeSystem.step OnOwnChannel {} s) : DescribesOwnDatabase s :=
  DescriptionInv.describesOwn (h.inv
    (I := fun s => DescriptionInv s.system.registry s.initializing s.opened)
    DescriptionInv.initial fun _ _ hs hown => hs.step hown)

/-- One database, and another one. -/
def argsA : OpenPGPContextInitArgs :=
  { dbId := "id-a", dbName := "first", dbPath := "/a", engine := .gnupg }

def argsB : OpenPGPContextInitArgs := { dbId := "id-b", dbName := "second", dbPath := "/b" }

/-- A channel is opened for its database, described and retired: it is still described as it
was. -/
theorem retired_handle_describes_own :
    (∃ info, (((({} : InitializeSystem).step (.register 0 argsA true)).step (.describe 0)).step
      (.other (.retire 0) rfl)).system.registry.find 0 = some info) ∧
    DescribesOwnDatabase (((({} : InitializeSystem).step (.register 0 argsA true)).step
      (.describe 0)).step (.other (.retire 0) rfl)) := by
  refine ⟨⟨_, rfl⟩, handle_describes_own_database ?_⟩
  refine .next _ (.next _ (.next _ .start ?_) trivial) trivial
  intro info hfind
  cases hfind

/-- **`Initialize` on a channel that carries another database** is refused, and the handle
then carries one database and describes the other. -/
theorem refused_handle_describes_other :
    ¬ ∀ s, ReachableUnder InitializeSystem.step (fun _ _ => True) {} s →
      DescribesOwnDatabase s := by
  intro hall
  have hreach : ReachableUnder InitializeSystem.step (fun _ _ => True) {}
      ((((({} : InitializeSystem).step (.register 0 argsA true)).step (.describe 0)).step
        (.register 0 argsB true)).step (.describe 0)) :=
    .next _ (.next _ (.next _ (.next _ .start trivial) trivial) trivial) trivial
  rcases hall _ hreach 0 _ rfl with hblank | ⟨args, hargs, hid, hname, -⟩
  · exact absurd hblank.1 (by decide)
  · have hargs : args = argsB ∨ args = argsA := by
      simpa [InitializeSystem.step] using hargs
    rcases hargs with rfl | rfl
    · exact absurd hid (by decide)
    · exact absurd hname (by decide)

end GpgFrontend
