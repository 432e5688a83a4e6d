import GpgFrontend.Base.Crash

/-!
# The migration ladder (`ProfileMigration.cpp`, `ProfileLoader.cpp`)

A profile records the layout version it was written for. Opening it runs the
rungs of a ladder, each taking the layout one version up, in two stages: before
the profile key is loaded and after it. Each rung is committed to the marker
before the next one starts.

The profile's own storage is an arbitrary type `σ`: a rung is whatever it does
to it. The marker file is written through `QSaveFile`, so a write that fails
leaves the marker as it was.
-/

namespace GpgFrontend

/-- `ProfileMigrationStage`. -/
inductive ProfileMigrationStage where
  | preKey
  | postKey
  deriving Repr, DecidableEq

/-- `ProfileMigrationOutcome`. -/
structure ProfileMigrationOutcome where
  ok : Bool := true
  detail : String := ""
  deriving Repr, DecidableEq

/-- `ProfileMigration`: one rung. -/
structure ProfileMigration (σ : Type) where
  fromVersion : Int
  toVersion : Int
  name : String
  stage : ProfileMigrationStage := .preKey
  runsOnClassic : Bool := true
  raisesMinReaderTo : Int := 0
  apply : σ → σ × ProfileMigrationOutcome

/-- `ProfileMigrationRecord`. -/
structure ProfileMigrationRecord where
  fromVersion : Int
  toVersion : Int
  name : String
  recordedAt : String
  recordedBy : String
  skipped : Bool := false
  reason : String := ""
  deriving Repr, DecidableEq

/-- `ProfileMarker`, as far as opening a profile reads or writes it. -/
structure ProfileMarker where
  schemaVersion : Int := 0
  minReaderVersion : Int := 0
  profile : String := ""
  lastWriterVersion : String := ""
  profileUuid : String := ""
  created : String := ""
  createdByVersion : String := ""
  lastOpened : String := ""
  migrations : List ProfileMigrationRecord := []
  deriving Repr, DecidableEq

/-- `ProfileMigrationVerdict`. -/
inductive ProfileMigrationVerdict where
  | none
  | upgrade
  | tooNew
  | refuse
  deriving Repr, DecidableEq

/-- `ProfileMigrationPlan`. -/
structure ProfileMigrationPlan where
  verdict : ProfileMigrationVerdict
  fromVersion : Int
  toVersion : Int
  reason : String
  writerVersion : String
  deriving Repr, DecidableEq

/-- `kOldestSupportedProfileSchema`. -/
def oldestSupportedProfileSchema : Int := 1

/-- `PlanProfileMigration`: decide, without touching anything. -/
def planProfileMigration (marker : Option ProfileMarker) (target : Int)
    (knownRungNames : List String) : ProfileMigrationPlan :=
  match marker with
  | none => ⟨.none, target, target, "", ""⟩
  | some marker =>
    let plan verdict reason : ProfileMigrationPlan :=
      ⟨verdict, marker.schemaVersion, target, reason, marker.lastWriterVersion⟩
    if target < marker.schemaVersion then
      plan .tooNew ("This profile was written for layout version " ++
        toString marker.schemaVersion ++ ", but this build understands only " ++
        toString target ++ ".")
    else if target < marker.minReaderVersion then
      plan .tooNew ("This profile requires layout version " ++
        toString marker.minReaderVersion ++
        " or newer to be opened safely; this build provides " ++ toString target ++ ".")
    else
      match marker.migrations.find? fun record =>
        !record.skipped && decide (target < record.toVersion) &&
          !knownRungNames.contains record.name with
      | some record =>
        plan .refuse ("This profile has been through a migration this build does not know ('" ++
          record.name ++ "').")
      | none =>
        if marker.schemaVersion < oldestSupportedProfileSchema then
          plan .refuse ("This profile uses layout version " ++ toString marker.schemaVersion ++
            ", which is too old for this build to upgrade automatically.")
        else plan (if marker.schemaVersion = target then .none else .upgrade) ""

section Ladder

variable {σ : Type}

/-- `ProfileMigrationsFor`: the rungs of one stage, version by version. -/
def profileMigrationsFor (fromVersion toVersion : Int) (stage : ProfileMigrationStage)
    (ladder : List (ProfileMigration σ)) : List (ProfileMigration σ) :=
  (List.range (toVersion - fromVersion).toNat).flatMap fun (i : Nat) =>
    ladder.filter fun rung =>
      rung.fromVersion = fromVersion + i ∧ rung.toVersion = fromVersion + i + 1 ∧
        rung.stage = stage

/-- What is on disk: the marker, what the rungs work on, and the copies of the
marker kept before an upgrade, by the version they were taken at. -/
structure ProfileDisk (σ : Type) where
  marker : Option ProfileMarker
  storage : σ
  backups : Int → Option ProfileMarker
  commits : Nat

/-- One opening of a profile: the build, the profile's kind, and what the file
operations and the key load do. -/
structure OpenContext where
  schemaVersion : Int
  minReaderSchema : Int
  projectVersion : String
  profileName : String
  mintedUuid : String
  nowIso : String
  isClassic : Bool
  copiesBackup : Bool
  writeOk : Nat → Bool
  keyLoads : Bool

namespace OpenContext

variable (ctx : OpenContext)

/-- A rung passed over because of classic's split storage. -/
def skips (rung : ProfileMigration σ) : Bool := ctx.isClassic && !rung.runsOnClassic

/-- The record a rung leaves. -/
def recordOf (rung : ProfileMigration σ) : ProfileMigrationRecord :=
  { fromVersion := rung.fromVersion
    toVersion := rung.toVersion
    name := rung.name
    recordedAt := ctx.nowIso
    recordedBy := ctx.projectVersion
    skipped := ctx.skips rung
    reason := if ctx.skips rung then "classic" else "" }

/-- The marker after a rung. -/
def commit (marker : ProfileMarker) (rung : ProfileMigration σ) : ProfileMarker :=
  { marker with
    migrations := marker.migrations ++ [ctx.recordOf rung]
    schemaVersion := rung.toVersion
    minReaderVersion := if marker.minReaderVersion < rung.raisesMinReaderTo then
      rung.raisesMinReaderTo else marker.minReaderVersion }

/-- `WriteProfileMarker`. -/
def writeProfileMarker (marker : ProfileMarker) : CrashM (ProfileDisk σ) Bool :=
  CrashM.step fun d =>
    if ctx.writeOk d.commits then
      ({ d with marker := some marker, commits := d.commits + 1 }, true)
    else ({ d with commits := d.commits + 1 }, false)

/-- `rung.apply`, or nothing at all when it is skipped. -/
def applyRung (rung : ProfileMigration σ) : CrashM (ProfileDisk σ) ProfileMigrationOutcome :=
  if ctx.skips rung then pure {}
  else CrashM.step fun d =>
    ({ d with storage := (rung.apply d.storage).1 }, (rung.apply d.storage).2)

end OpenContext

/-- `ProfileMigrationResult`. -/
structure ProfileMigrationResult where
  ok : Bool
  reached : Int
  failedRung : String
  detail : String
  deriving Repr, DecidableEq

/-- The loop of `RunProfileMigration`. -/
def migrateLoop (ctx : OpenContext) (marker : ProfileMarker) (reached : Int) :
    List (ProfileMigration σ) → CrashM (ProfileDisk σ) ProfileMigrationResult
  | [] => pure ⟨true, reached, "", ""⟩
  | rung :: rest => do
    let outcome ← ctx.applyRung rung
    if !outcome.ok then pure ⟨false, reached, rung.name, outcome.detail⟩
    else
      let marker := ctx.commit marker rung
      if ← ctx.writeProfileMarker marker then migrateLoop ctx marker rung.toVersion rest
      else pure ⟨false, reached, rung.name, "the profile marker could not be committed"⟩

/-- `RunProfileMigration`. -/
def runProfileMigration (ctx : OpenContext) (plan : ProfileMigrationPlan)
    (stage : ProfileMigrationStage) (ladder : List (ProfileMigration σ)) :
    CrashM (ProfileDisk σ) ProfileMigrationResult :=
  if plan.verdict ≠ .upgrade then pure ⟨true, plan.fromVersion, "", ""⟩
  else
    let rungs := profileMigrationsFor plan.fromVersion plan.toVersion stage ladder
    if rungs.isEmpty then pure ⟨true, plan.fromVersion, "", ""⟩
    else do
      let marker ← CrashM.read fun d => d.marker.getD {}
      CrashM.step fun d =>
        ({ d with backups := fun v =>
            if v = plan.fromVersion ∧ (d.backups v).isNone ∧ ctx.copiesBackup then d.marker
            else d.backups v }, ())
      migrateLoop ctx marker plan.fromVersion rungs

/-- Why a profile did not open. -/
inductive OpenFailure where
  | tooNew (reason writerVersion : String)
  | upgradeRefused (reason writerVersion : String)
  | upgradeFailed (detail failedRung : String)
  | keyNotLoaded
  deriving Repr, DecidableEq

/-- `ProfileLoader::run_migrations`. -/
def runMigrations (ctx : OpenContext) (stage : ProfileMigrationStage)
    (ladder : List (ProfileMigration σ)) : CrashM (ProfileDisk σ) (Except OpenFailure Unit) := do
  let marker ← CrashM.read (·.marker)
  let plan := planProfileMigration marker ctx.schemaVersion (ladder.map (·.name))
  match plan.verdict with
  | .tooNew => pure (.error (.tooNew plan.reason plan.writerVersion))
  | .refuse => pure (.error (.upgradeRefused plan.reason plan.writerVersion))
  | .none => pure (.ok ())
  | .upgrade =>
    let result ← runProfileMigration ctx plan stage ladder
    if !result.ok then pure (.error (.upgradeFailed result.detail result.failedRung))
    else pure (.ok ())

/-- The identity `ensure_identity` mints. -/
def mintIdentity (ctx : OpenContext) (marker : ProfileMarker) : ProfileMarker :=
  let marker := { marker with
    profileUuid := ctx.mintedUuid
    created := ctx.nowIso
    createdByVersion := ctx.projectVersion }
  if marker.schemaVersion = 0 then
    { marker with
      schemaVersion := ctx.schemaVersion
      minReaderVersion := ctx.minReaderSchema
      profile := ctx.profileName }
  else marker

/-- `ProfileLoader::ensure_identity`. -/
def ensureIdentity (ctx : OpenContext) : CrashM (ProfileDisk σ) Unit := do
  let marker ← CrashM.read fun d => d.marker.getD {}
  if marker.profileUuid ≠ "" then pure ()
  else
    let _ ← ctx.writeProfileMarker (mintIdentity ctx marker)
    pure ()

/-- What `stamp_marker` makes of the marker. -/
def stamped (ctx : OpenContext) (marker : ProfileMarker) : ProfileMarker :=
  { marker with
    schemaVersion := ctx.schemaVersion
    profile := ctx.profileName
    lastWriterVersion := ctx.projectVersion
    minReaderVersion := if marker.minReaderVersion = 0 then ctx.minReaderSchema
      else marker.minReaderVersion
    lastOpened := ctx.nowIso }

/-- `ProfileLoader::stamp_marker`. -/
def stampMarker (ctx : OpenContext) : CrashM (ProfileDisk σ) Unit := do
  let marker ← CrashM.read fun d => d.marker.getD {}
  let _ ← ctx.writeProfileMarker (stamped ctx marker)
  pure ()

/-- `ProfileLoader::Open`, as far as the marker is concerned; the key load is an
outcome. -/
def openProfile (ctx : OpenContext) (ladder : List (ProfileMigration σ)) :
    CrashM (ProfileDisk σ) (Except OpenFailure Unit) := do
  match ← runMigrations ctx .preKey ladder with
  | .error e => pure (.error e)
  | .ok () =>
    ensureIdentity ctx
    if !ctx.keyLoads then pure (.error .keyNotLoaded)
    else
      match ← runMigrations ctx .postKey ladder with
      | .error e => pure (.error e)
      | .ok () =>
        stampMarker ctx
        pure (.ok ())

end Ladder

end GpgFrontend
