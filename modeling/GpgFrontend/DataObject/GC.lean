import GpgFrontend.Base.Runs
import GpgFrontend.DataObject.Object
import Mathlib.Data.List.Sort

/-!
# The collector of data objects (`RunDataObjectGC`)

A run classifies every file of the object directory, sets unusable ones aside in a
quarantine directory, and removes what has been there long enough. What it knows
from earlier runs is a record per file name in a state file.

- `maybeQuarantineOrDelete`, `classifyDataObjects`, `compactGcState`,
  `runDataObjectGC`: the run.
- `GcSystem.step`: runs, and whatever happens to the files between them.

Every file operation asks `GcEnv` at the current count of clock readings, so that
any outcome is possible at any call.
-/

namespace GpgFrontend

namespace DataObjectOperator

/-- The calendar day of a moment, in UTC. -/
def dayOf (t : QDateTime) : Nat := t / 86400000

/-- `QDateTime::daysTo`: calendar days from one moment to another. -/
def daysTo (t t' : QDateTime) : Int := (dayOf t' : Int) - dayOf t

theorem dayOf_mono {t t' : QDateTime} (h : t ≤ t') : dayOf t ≤ dayOf t' :=
  Nat.div_le_div_right h

/-- Counting from an earlier day only makes the count longer. -/
theorem daysTo_le_of_dayOf_le {t t' : QDateTime} (h : dayOf t ≤ dayOf t') (u : QDateTime) :
    daysTo t' u ≤ daysTo t u := by
  unfold daysTo
  omega

structure DataObjectGCPolicy where
  dryRun : Bool := true
  deleteMissingKey : Bool := false
  deleteDecryptFailed : Bool := false
  missingKeyGraceDays : Int := 30
  decryptFailedGraceDays : Int := 30
  quarantineGraceDays : Int := 7

def normalPolicy : DataObjectGCPolicy where
  dryRun := false
  deleteMissingKey := true
  deleteDecryptFailed := false
  missingKeyGraceDays := 7
  decryptFailedGraceDays := 7
  quarantineGraceDays := 30

def highSecurityPolicy : DataObjectGCPolicy where
  dryRun := false
  deleteMissingKey := true
  deleteDecryptFailed := true
  missingKeyGraceDays := 3
  decryptFailedGraceDays := 3
  quarantineGraceDays := 7

def isDeleteAllowed (h : DataObjectHealth) (policy : DataObjectGCPolicy) : Bool :=
  match h with
  | .invalidFileName => true
  | .fileTooSmall => true
  | .missingKey => policy.deleteMissingKey
  | .decryptFailed => policy.deleteDecryptFailed
  | .readFailed => false
  | .invalidJson => false
  | .ok => false

def graceDaysFor (h : DataObjectHealth) (policy : DataObjectGCPolicy) : Int :=
  match h with
  | .missingKey => policy.missingKeyGraceDays
  | .decryptFailed => policy.decryptFailedGraceDays
  | _ => policy.quarantineGraceDays

def isWholesaleKeyFailure (ok missingKey : Nat) : Bool := decide (missingKey > 0 ∧ ok = 0)

/-- `IsDataObjectSaveInFlight`, with its default window of an hour. -/
def isDataObjectSaveInFlight (name : FileName) (modified : Option QDateTime) (now : QDateTime) :
    Bool :=
  match name.idxOf? 0x2e, modified with
  | some dot, some modified =>
    dot ≠ name.length - 1 && isValidRefHex (name.take dot) &&
      decide (Int.tdiv ((now : Int) - modified) 1000 < 3600)
  | _, _ => false

inductive DataObjectGCAction
  | none
  | quarantine
  | delete
  deriving DecidableEq

/-- The values of a record's "action". -/
inductive GcItemAction
  | quarantinedWaitingDelete
  | deleteFailed
  | recordOnly
  | dryRun
  | missingKeyWaiting
  | quarantineFailed
  | quarantined
  deriving DecidableEq

/-- One record of the state file. -/
structure GcItem where
  ref : FileName
  firstSeen : QDateTime
  lastSeen : QDateTime
  reason : DataObjectHealth
  path : ObjectPath
  size : Nat
  keyId : Option Bytes := none
  action : Option GcItemAction := none
  graceDays : Option Int := none
  wouldQuarantineOrDelete : Bool := false
  quarantinePath : Option ObjectPath := none
  quarantinedAt : Option QDateTime := none
  deriving DecidableEq

abbrev GcState : Type := Dir GcItem

/-- A file in quarantine, and since when this content is there; the code has no
access to the second. -/
structure QuarantinedFile where
  content : Bytes
  entered : QDateTime
  deriving DecidableEq

structure DataObjectGCReport where
  total : Nat := 0
  ok : Nat := 0
  invalidName : Nat := 0
  missingKey : Nat := 0
  decryptFailed : Nat := 0
  fileTooSmall : Nat := 0
  readFailed : Nat := 0
  invalidJson : Nat := 0
  quarantined : Nat := 0
  deleted : Nat := 0
  deriving DecidableEq

/-- What `SaveGcState` leaves: the new state; the old file, when it could not be
opened; or a file cut short, which does not parse. -/
inductive SaveOutcome
  | written
  | unopened
  | damaged
  deriving DecidableEq

/-- What the collector meets outside itself. All but the clock are asked at the
number of clock readings made so far. -/
structure GcEnv where
  now : Nat → QDateTime
  now_mono : Monotone now
  keys : Nat → KeySession
  reads : Nat → FileName → Bool
  jsonParses : Bytes → Bool
  shuttingDown : Nat → Bool
  mkpath : Nat → Bool
  remove : Nat → Bool
  rename : Nat → Bool
  copy : Nat → Bool
  removeSource : Nat → Bool
  removeState : Nat → Bool
  save : Nat → SaveOutcome

/-- The disk the collector works on, and how often the clock was read. -/
structure GcWorld where
  objects : Dir ObjectFile
  quarantine : Option (Dir QuarantinedFile)
  stateFile : Option GcState
  tick : Nat

namespace GcWorld

/-- The file of this name in quarantine. -/
def quarantined (w : GcWorld) (name : FileName) : Option QuarantinedFile :=
  (w.quarantine.getD ∅).lookup name

/-- `QFileInfo::exists`. -/
def fileExists (w : GcWorld) (path : ObjectPath) : Bool :=
  match path.dir with
  | .objects => (w.objects.lookup path.name).isSome
  | .quarantine => (w.quarantined path.name).isSome

/-- `LoadGcState`: a file that is missing or does not parse is no records. -/
def loadGcState (w : GcWorld) : GcState := w.stateFile.getD ∅

end GcWorld

structure DataObjectGCContext where
  policy : DataObjectGCPolicy
  report : DataObjectGCReport
  state : GcState
  stateDirty : Bool

/-- A file put into quarantine by a run: why, when, and the grace the policy had
for that reason. -/
structure GcMove where
  name : FileName
  reason : DataObjectHealth
  time : QDateTime
  grace : Int
  deriving DecidableEq

/-- A quarantined file removed for good, and the quarantine grace of the policy. -/
structure GcDeletion where
  name : FileName
  file : QuarantinedFile
  time : QDateTime
  grace : Int
  deriving DecidableEq

/-- What one run observed and did. -/
structure GcRunLog where
  observed : Dir (DataObjectHealth × QDateTime) := ∅
  moved : List GcMove := []
  deleted : List GcDeletion := []

/-- A run under way. -/
structure GcRun extends DataObjectGCContext, GcWorld where
  log : GcRunLog

namespace GcRun

/-- Write a record. -/
def store (s : GcRun) (refHex : FileName) (item : GcItem) : GcRun :=
  { s with state := s.state.insert refHex item, stateDirty := true }

/-- Drop a record. -/
def forget (s : GcRun) (refHex : FileName) : GcRun :=
  { s with state := s.state.erase refHex, stateDirty := true }

/-- `QFile::remove` in the quarantine directory, when it succeeds. -/
def removeQuarantined (s : GcRun) (name : FileName) (time : QDateTime) : GcRun :=
  match s.quarantined name with
  | none => s
  | some file =>
    { s with
      quarantine := s.quarantine.map (·.erase name)
      log := { s.log with
        deleted := ⟨name, file, time, s.policy.quarantineGraceDays⟩ :: s.log.deleted } }

/-- The file of this name appears in quarantine. -/
def enterQuarantine (s : GcRun) (name : FileName) (content : Bytes) (time : QDateTime) : GcRun :=
  { s with quarantine := s.quarantine.map (·.insert name ⟨content, time⟩) }

def removeObject (s : GcRun) (name : FileName) : GcRun :=
  { s with objects := s.objects.erase name }

/-- Count a file as quarantined by this run. -/
def noteMove (s : GcRun) (move : GcMove) : GcRun :=
  { s with
    report := { s.report with quarantined := s.report.quarantined + 1 }
    log := { s.log with moved := move :: s.log.moved } }

end GcRun

/-- `EnsureDir` of the quarantine directory. -/
def ensureQuarantineDir (env : GcEnv) (s : GcRun) : Bool × GcRun :=
  match s.quarantine with
  | some _ => (true, s)
  | none => if env.mkpath s.tick then (true, { s with quarantine := some ∅ }) else (false, s)

/-- `MoveFileReplacing` from the object directory into quarantine. Neither a rename
nor a copy replaces a file that is still there. -/
def moveFileReplacing (env : GcEnv) (name : FileName) (time : QDateTime) (s : GcRun) :
    Bool × GcRun :=
  let s := if env.remove s.tick then s.removeQuarantined name time else s
  match s.objects.lookup name, s.quarantined name with
  | some file, none =>
    if env.rename s.tick then (true, (s.enterQuarantine name file.content time).removeObject name)
    else if env.copy s.tick then
      let s := s.enterQuarantine name file.content time
      if env.removeSource s.tick then (true, s.removeObject name) else (false, s)
    else (false, s)
  | _, _ => (false, s)

/-- The record of a file the collector looks at: the one it has, or a new one, with
what this look saw. -/
def seenItem (result : DataObjectCheckResult) (path : ObjectPath) (refHex : FileName)
    (now : QDateTime) (known : Option GcItem) : GcItem :=
  let item : GcItem := known.getD
    { ref := refHex, firstSeen := now, lastSeen := now, reason := result.health, path,
      size := result.size }
  { item with
    lastSeen := now
    reason := result.health
    path
    size := result.size
    keyId := if result.keyIdHex.isEmpty then item.keyId else some result.keyIdHex }

/-- Since when a file in quarantine is counted: "quarantined_at", or "first_seen"
when the record has none. -/
def GcItem.quarantineBase (item : GcItem) : QDateTime := item.quarantinedAt.getD item.firstSeen

/-- The record of a file that has just been moved. -/
def GcItem.markQuarantined (item : GcItem) (name : FileName) (now : QDateTime) : GcItem :=
  { item with
    action := some .quarantined
    quarantinePath := some ⟨.quarantine, name⟩
    quarantinedAt := some now }

/-- The branch of `MaybeQuarantineOrDelete` for a file that lies in quarantine. -/
def deleteWhenServed (env : GcEnv) (refHex : FileName) (path : ObjectPath) (item : GcItem)
    (later : QDateTime) (s : GcRun) : DataObjectGCAction × GcRun :=
  if s.policy.dryRun then (.none, s)
  else if daysTo item.quarantineBase later < s.policy.quarantineGraceDays then
    (.none, s.store refHex { item with
      action := some .quarantinedWaitingDelete, graceDays := some s.policy.quarantineGraceDays })
  else if !env.remove s.tick then
    (.none, s.store refHex { item with action := some .deleteFailed })
  else
    let s := (s.removeQuarantined path.name later).forget refHex
    (.delete, { s with report := { s.report with deleted := s.report.deleted + 1 } })

/-- The guards between a file of the object directory and its move. -/
inductive Verdict
  | recordOnly
  | dryRun
  | waiting
  | move
  deriving DecidableEq

def verdict (policy : DataObjectGCPolicy) (health : DataObjectHealth) (age : Int) : Verdict :=
  if !isDeleteAllowed health policy then .recordOnly
  else if policy.dryRun then .dryRun
  else if health = .missingKey ∧ age < graceDaysFor health policy then .waiting
  else .move

/-- The branch for a file of the object directory. -/
def quarantineUnlessWaiting (env : GcEnv) (health : DataObjectHealth) (refHex : FileName)
    (path : ObjectPath) (item : GcItem) (now later : QDateTime) (s : GcRun) :
    DataObjectGCAction × GcRun :=
  let graceDays := graceDaysFor health s.policy
  match verdict s.policy health (daysTo item.firstSeen later) with
  | .recordOnly => (.none, s.store refHex { item with action := some .recordOnly })
  | .dryRun =>
    (.none, s.store refHex
      { item with action := some .dryRun, wouldQuarantineOrDelete := true })
  | .waiting =>
    (.none, s.store refHex
      { item with action := some .missingKeyWaiting, graceDays := some graceDays })
  | .move =>
    let (made, s) := ensureQuarantineDir env s
    if !made then (.none, s.store refHex { item with action := some .quarantineFailed })
    else
      let (moved, s) := moveFileReplacing env path.name later s
      if !moved then (.none, s.store refHex { item with action := some .quarantineFailed })
      else
        let s := s.store refHex (item.markQuarantined path.name now)
        (.quarantine, s.noteMove ⟨path.name, health, later, graceDays⟩)

/-- `MaybeQuarantineOrDelete`. The clock is read twice: for the stamps, and again in
`DaysSince`. -/
def maybeQuarantineOrDelete (env : GcEnv) (result : DataObjectCheckResult) (s : GcRun) :
    DataObjectGCAction × GcRun :=
  match result.path with
  | none => (.none, s)
  | some path =>
    if result.health = .ok ∨ s.fileExists path = false then (.none, s)
    else
      let refHex := if result.refHex.isEmpty then path.name else result.refHex
      let now := env.now s.tick
      let item := seenItem result path refHex now (s.state.lookup refHex)
      let later := env.now (s.tick + 1)
      let s := { s with tick := s.tick + 2 }
      match path.dir with
      | .quarantine => deleteWhenServed env refHex path item later s
      | .objects => quarantineUnlessWaiting env result.health refHex path item now later s

/-- A directory's files in the order of `QDir::Name`. -/
def entryInfoList {β : Type} (dir : Dir β) : List (Sigma fun _ : FileName => β) :=
  dir.entries.insertionSort fun e e' => e.1 ≤ e'.1

def DataObjectGCReport.tally (report : DataObjectGCReport) (health : DataObjectHealth) :
    DataObjectGCReport :=
  let report := { report with total := report.total + 1 }
  match health with
  | .ok => { report with ok := report.ok + 1 }
  | .invalidFileName => { report with invalidName := report.invalidName + 1 }
  | .fileTooSmall => { report with fileTooSmall := report.fileTooSmall + 1 }
  | .readFailed => { report with readFailed := report.readFailed + 1 }
  | .missingKey => { report with missingKey := report.missingKey + 1 }
  | .decryptFailed => { report with decryptFailed := report.decryptFailed + 1 }
  | .invalidJson => { report with invalidJson := report.invalidJson + 1 }

section Run

variable (S : Sodium) (env : GcEnv)

/-- The check of one file of the object directory. -/
def checkEntry (s : GcRun) (name : FileName) (file : ObjectFile) : DataObjectCheckResult :=
  if isValidRefHex name then
    checkDataObjectByRef S (env.keys s.tick) s.objects (env.reads s.tick) env.jsonParses name false
  else
    { refHex := name, path := some ⟨.objects, name⟩, health := .invalidFileName
      size := file.content.length, lastModified := file.lastModified }

/-- One turn of `ClassifyDataObjects`: what is left for the caller to act on, if
anything. -/
def classifyEntry (s : GcRun) (name : FileName) (file : ObjectFile) :
    Option DataObjectCheckResult × GcRun :=
  let now := env.now s.tick
  let s := { s with tick := s.tick + 1 }
  if isDataObjectSaveInFlight name file.lastModified now then (none, s)
  else
    let result := checkEntry S env s name file
    let s := { s with
      report := s.report.tally result.health
      log := { s.log with observed := s.log.observed.insert name (result.health, now) } }
    if result.health = .ok then
      (none, if (s.state.lookup name).isSome then s.forget name else s)
    else (some result, s)

def classifyEntries : List (Sigma fun _ : FileName => ObjectFile) → GcRun →
    List DataObjectCheckResult × GcRun
  | [], s => ([], s)
  | e :: es, s =>
    let (result, s) := classifyEntry S env s e.1 e.2
    let (pending, s) := classifyEntries es s
    (result.toList ++ pending, s)

def classifyDataObjects (s : GcRun) : List DataObjectCheckResult × GcRun :=
  classifyEntries S env (entryInfoList s.objects) s

/-- What the sweep makes of a file in quarantine. -/
def sweepResult (name : FileName) (file : QuarantinedFile) : DataObjectCheckResult where
  refHex := name
  path := some ⟨.quarantine, name⟩
  health := if isValidRefHex name then .decryptFailed else .invalidFileName
  size := file.content.length

/-- The sweep of the quarantine directory. -/
def sweepQuarantine (s : GcRun) : GcRun :=
  (entryInfoList (s.quarantine.getD ∅)).foldl
    (fun s e =>
      let s := { s with report := { s.report with total := s.report.total + 1 } }
      (maybeQuarantineOrDelete env (sweepResult e.1 e.2) s).2)
    s

/-- Whether `CompactGcState` keeps a record. -/
def keepsItem (s : GcRun) (now : QDateTime) (item : GcItem) : Bool :=
  let srcExists := s.fileExists item.path
  let quarantineExists := (item.quarantinePath.map fun path => s.fileExists path).getD false
  let ageDays := daysTo item.lastSeen now
  if !srcExists && !quarantineExists then false
  else if srcExists && isValidRefHex item.path.name &&
      decide ((checkDataObjectByRef S (env.keys s.tick) s.objects (env.reads s.tick)
        env.jsonParses item.path.name false).health = .ok) then false
  else if item.action = some .dryRun ∧ ageDays ≥ 7 then false
  else if item.action = some .recordOnly ∧ ageDays ≥ 90 then false
  else if (item.action = some .deleteFailed ∨ item.action = some .quarantineFailed) ∧
      ageDays ≥ 90 then false
  else true

/-- `CompactGcState`. A record that is dropped marks the state dirty. -/
def compactGcState (s : GcRun) : GcRun :=
  if s.state.entries.isEmpty then s
  else
    let now := env.now s.tick
    let s := { s with tick := s.tick + 1 }
    let compacted := AList.keep (fun _ item => keepsItem S env s now item) s.state
    if compacted.entries.length ≠ s.state.entries.length then
      { s with state := compacted, stateDirty := true }
    else s

/-- `SaveOrRemoveGcState`. -/
def saveOrRemoveGcState (s : GcRun) : GcRun :=
  if s.state.entries.isEmpty then
    if s.stateFile.isSome && env.removeState s.tick then { s with stateFile := none } else s
  else
    match env.save s.tick with
    | .written => { s with stateFile := some s.state }
    | .unopened => s
    | .damaged => { s with stateFile := none }

/-- A run before it looked at anything. -/
def startRun (policy : DataObjectGCPolicy) (w : GcWorld) : GcRun :=
  { w with policy, report := {}, state := w.loadGcState, stateDirty := false, log := {} }

/-- Whether the keys look broken, after classification. -/
def keySetSuspect (s : GcRun) : Bool := isWholesaleKeyFailure s.report.ok s.report.missingKey

/-- What the tally does to the policy. -/
def suppressPolicy (s : GcRun) : GcRun :=
  if keySetSuspect s then { s with policy := { s.policy with deleteMissingKey := false } } else s

/-- The state and the work list the loop over the objects starts from. -/
def classified (policy : DataObjectGCPolicy) (w : GcWorld) :
    List DataObjectCheckResult × GcRun :=
  let (pending, s) := classifyDataObjects S env (startRun policy w)
  (pending, suppressPolicy s)

/-- One turn of the loop over the objects. -/
def actOn (s : GcRun) (result : DataObjectCheckResult) : GcRun :=
  (maybeQuarantineOrDelete env result s).2

/-- The loop over the objects, which a shutdown ends early. -/
def actOnPending (policy : DataObjectGCPolicy) (w : GcWorld) : Bool × GcRun :=
  let (pending, s) := classified S env policy w
  loopUntil (fun s => env.shuttingDown s.tick) (actOn env) pending s

/-- The part of a run after the loop: the sweep, unless the keys are suspect, and
the compaction. -/
def sweepAndCompact (suspect : Bool) (s : GcRun) : GcRun :=
  compactGcState S env (if suspect then s else sweepQuarantine env s)

/-- `RunDataObjectGC`: the disk it leaves, its report and its log. A run ended by a
shutdown returns with its records unsaved. -/
def runDataObjectGC (policy : DataObjectGCPolicy) (w : GcWorld) : GcRun :=
  let suspect := keySetSuspect (classified S env policy w).2
  let (stopped, s) := actOnPending S env policy w
  if stopped then s
  else
    let s := sweepAndCompact S env suspect s
    if s.stateDirty then saveOrRemoveGcState env s else s

end Run

/-! ## Runs, and what happens between them -/

/-- What is found when the collector is not running: any objects, any files in
quarantine, and the state file as it was or lost. -/
structure Outside where
  objects : Dir ObjectFile
  quarantine : Option (Dir Bytes)
  stateLost : Bool

/-- The files found in quarantine: content that was there before has been there
since then, other content since now. -/
def settle (w : GcWorld) (now : QDateTime) (dir : Dir Bytes) : Dir QuarantinedFile :=
  AList.mapValues (fun name content =>
    match w.quarantined name with
    | some file => if file.content = content then file else ⟨content, now⟩
    | none => ⟨content, now⟩) dir

/-- The collector's disk with the logs of the runs so far, the latest first. -/
structure GcSystem where
  world : GcWorld
  history : List GcRunLog

inductive GcEpisode
  | run (policy : DataObjectGCPolicy)
  | outside (change : Outside)

namespace GcSystem

/-- No files and no runs yet. -/
def empty : GcSystem := ⟨⟨∅, none, none, 0⟩, []⟩

def step (S : Sodium) (env : GcEnv) (sys : GcSystem) : GcEpisode → GcSystem
  | .run policy =>
    let s := runDataObjectGC S env policy sys.world
    ⟨s.toGcWorld, s.log :: sys.history⟩
  | .outside change =>
    { sys with world := { sys.world with
        objects := change.objects
        quarantine := change.quarantine.map (settle sys.world (env.now sys.world.tick))
        stateFile := if change.stateLost then none else sys.world.stateFile } }

end GcSystem

end DataObjectOperator

end GpgFrontend
