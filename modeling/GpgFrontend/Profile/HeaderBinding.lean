import GpgFrontend.Profile.PackageArchive

/-!
# A package and its header

The routing header travels in the clear, and the manifest sealed behind it carries its
digest.

- `PackageLibraries`: what is asked of compression, of the seal and of the digest.
- `package_header_authenticity`: **behind another header a sealed body is never believed.**
-/

namespace GpgFrontend

section Binding

variable {S : SecretStream} {E : PackageExport S} {request : ProfileExportRequest}
  {content : ExportContent} {R : PackageReading S}

/-- The header of an export, as it stands in front of the body. -/
def exportedHeader (E : PackageExport S) (request : ProfileExportRequest) : Bytes :=
  encodeProfilePackageHeader E.codec (exportHeader E request)

/-- What is assumed of the libraries of an export and of a reader of the same build: the
stream is ideal on what was sealed in it, no other bytes have the header's digest, JSON
reads back, the archive delivers its members in order, and the sealed body is neither an
archive nor a container of the first format. -/
structure PackageLibraries (E : PackageExport S) (request : ProfileExportRequest)
    (content : ExportContent) (R : PackageReading S) : Prop where
  hash : R.hash = E.hash
  manifestCodec : R.manifestCodec = E.manifestCodec
  seals : S.Seals
  ideal : ∀ key, E.pwhash request.passphrase E.salt.1 = some key →
    S.Ideal key E.streamHeader.1 (chunkMessages (exportJob E request content).payload)
  digest : ∀ other, E.hash other = E.hash (exportedHeader E request) →
    other = exportedHeader E request
  manifest : E.manifestCodec.Keeps content.manifest
  noManifest : E.manifestCodec.fromJson [] = none
  follows : ∀ d, d <+: (exportJob E request content).payload →
    ∃ n, List.Forall₂ ArchiveEntry.Carries (R.unarchive d).entries (content.members.take n)
  noArchive : ∀ body, (exportJob E request content).IsBody body → ∀ d, d <+: body →
    (R.unarchive d).entries = []
  noContainer : ∀ body, (exportJob E request content).IsBody body → ∀ key,
    R.sodium.aeadDecrypt key (AESCryptoHelper.noncePart body) (AESCryptoHelper.ciphertextPart body)
      (AESCryptoHelper.tagPart body) = none

/-! ## Another header -/

section Forged

variable {τ : Type} {steps : ReadSteps} {routing : ProfileExtractionRouting τ}
  {view : ProfilePackageHeaderView}

theorem packagePolicy_requireEmptyDestination (fileBytes : Nat) :
    (packagePolicy fileBytes).requireEmptyDestination = true := rfl

variable {children : List (String × FsNode Bytes)}

/-- The manifest read out of such a directory is the exported one, if it is any. -/
theorem readManifest_digest (hlibraries : PackageLibraries E request content R)
    (hcontent : exportContent E request = .ok content)
    (hmanifest : HoldsManifest (encodeProfilePackageManifest E.manifestCodec content.manifest)
      children) {manifest : ProfilePackageManifest}
    (hread : (readManifestFile steps children).bind
      (parseProfilePackageManifest R.manifestCodec R.castOutside) = some manifest) :
    manifest.headerDigest = profilePackageHeaderDigest E.hash (exportedHeader E request) := by
  obtain ⟨bytes, hfile, hparse⟩ := Option.bind_eq_some_iff.mp hread
  rw [hlibraries.manifestCodec] at hparse
  unfold readManifestFile at hfile
  rcases hmanifest with hnone | ⟨found, hfound, hbytes⟩
  · rw [hnone] at hfile
    cases hfile
  rw [hfound] at hfile
  dsimp only [Option.bind_some, FsNode.content] at hfile
  split at hfile
  · cases hfile
  split at hfile
  · cases hfile
  obtain rfl := Option.some.inj hfile
  rcases hbytes with rfl | rfl
  · rw [parseProfilePackageManifest, hlibraries.noManifest] at hparse
    cases hparse
  · rw [parse_encode hlibraries.manifest] at hparse
    obtain ⟨unpacked, hexported⟩ := (exportContent_ok hcontent).2.1
    rw [← Option.some.inj hparse, hexported]
    rfl

/-- What is believed of a directory that holds the exported manifest has the exported
header. -/
theorem checkUnpacked_forged (hlibraries : PackageLibraries E request content R)
    (hcontent : exportContent E request = .ok content)
    (hforged : view.headerBytes ≠ exportedHeader E request)
    (hmanifest : HoldsManifest (encodeProfilePackageManifest E.manifestCodec content.manifest)
      children) : (checkUnpacked R steps view children).status ≠ .ok := by
  unfold checkUnpacked
  split
  · exact ProfilePackageReadStatus.noConfusion
  next manifest hread =>
  have hdigest := readManifest_digest hlibraries hcontent hmanifest hread
  have hmismatch : checkPackageHeaderAgainstManifest R.hash view.header view.headerBytes manifest ≠
      "" := by
    unfold checkPackageHeaderAgainstManifest
    split
    · decide
    split
    · decide
    split
    · decide
    next hsame =>
    exfalso
    refine hsame ⟨?_, ?_⟩
    · rw [hdigest]
      exact profilePackageHeaderDigest_ne_empty _ _
    · rw [hdigest, hlibraries.hash]
      intro heq
      exact hforged (hlibraries.digest _ (profilePackageHeaderDigest_inj heq.symm))
  dsimp only
  rw [if_pos hmismatch]
  exact ProfilePackageReadStatus.noConfusion

variable {passphrase : Bytes}

variable {file : Bytes}

/-- Whatever was delivered, if it follows the exported members it is not believed behind
another header. -/
theorem readPackageBody_forged (hlibraries : PackageLibraries E request content R)
    (hcontent : exportContent E request = .ok content)
    (hforged : view.headerBytes ≠ exportedHeader E request) {payload : Option Bytes}
    {staging : Option (FsNode Bytes)} {sink : τ} {n : Nat}
    (hentries : List.Forall₂ ArchiveEntry.Carries
      (R.unarchive (deliverBody R steps view passphrase file payload).2).entries
      (content.members.take n)) :
    (readPackageBody R steps routing view passphrase file payload staging sink).result.status ≠
      .ok := by
  unfold readPackageBody
  extract_lets delivered unpacked abandon children result
  split
  · exact ProfilePackageReadStatus.noConfusion
  split
  · exact ProfilePackageReadStatus.noConfusion
  next hunpacked =>
  have hok : unpacked.ok = true := by simpa using hunpacked
  obtain ⟨left, hleft, hmanifest⟩ := extracted_manifest
    (packagePolicy_requireEmptyDestination file.length) (exportContent_ok hcontent).2.2 hentries hok
  have hchildren : children = left := by
    unfold children
    rw [show unpacked.destination = some (.dir left) from hleft]
  have hresult : result.status ≠ .ok :=
    checkUnpacked_forged hlibraries hcontent hforged (hchildren ▸ hmanifest)
  rw [if_neg hresult]
  exact hresult

theorem headerRefusal_status (view : ProfilePackageHeaderView) :
    (headerRefusal view).status ≠ .ok := by
  unfold headerRefusal
  dsimp only
  split <;> exact ProfilePackageReadStatus.noConfusion

/-- What is fed of the sealed body follows the exported members, or is no archive. -/
theorem deliverBody_streamed (hlibraries : PackageLibraries E request content R)
    (hpin : request.protection = .pin) {body : Bytes}
    (hbody : (exportJob E request content).IsBody body)
    (hpipe : ∀ i taken, steps.pipe i ≠ .aborted taken) (hfile : file.drop view.bodyOffset = body) :
    ∃ n, List.Forall₂ ArchiveEntry.Carries
      (R.unarchive (deliverBody R steps view passphrase file none).2).entries
      (content.members.take n) := by
  unfold deliverBody
  dsimp only
  by_cases hprotected : view.header.protection = .pin
  · -- opened as it was sealed: a front part of the payload
    have hsealed : (exportJob E request content).isProtected = true := decide_eq_true hpin
    rw [PackageWriteJob.IsBody, if_pos hsealed] at hbody
    obtain ⟨key, st₀, cs, st, hkey, -⟩ := hbody
    have hfed : Delivers (feed S R.pwhash steps.pipe steps.bodyOpens
        ⟨file.drop view.bodyOffset, 0, steps.bodyReads⟩ passphrase true) []
        (exportJob E request content).payload :=
      feed_delivers hlibraries.seals (hlibraries.ideal key hkey) hpipe
    rw [hprotected]
    exact hlibraries.follows _ hfed.isPrefix
  · -- opened as a plain one: a front part of the sealed bytes
    have hfed : (feed S R.pwhash steps.pipe steps.bodyOpens
        ⟨file.drop view.bodyOffset, 0, steps.bodyReads⟩ passphrase false).fed <+:
        file.drop view.bodyOffset := feed_plain hpipe
    rw [decide_eq_false hprotected]
    refine ⟨0, ?_⟩
    rw [hlibraries.noArchive body hbody _ (hfile ▸ hfed)]
    exact .nil

theorem legacyPayload_error {result : ProfilePackageReadResult}
    (h : legacyPayload R steps view passphrase file = .error result) : result.status ≠ .ok := by
  unfold legacyPayload at h
  split at h
  · rw [← Except.error.inj h]
    exact ProfilePackageReadStatus.noConfusion
  split at h
  · rw [← Except.error.inj h]
    exact ProfilePackageReadStatus.noConfusion
  split at h
  · split at h
    · rw [← Except.error.inj h]
      exact ProfilePackageReadStatus.noConfusion
    · cases h
  · cases h

/-- Bytes that no key opens are a body of the first format only as they stand. -/
theorem legacyPayload_ok {payload : Bytes}
    (h : legacyPayload R steps view passphrase file = .ok payload)
    (hclosed : ∀ key, R.sodium.aeadDecrypt key
      (AESCryptoHelper.noncePart (file.drop view.bodyOffset))
      (AESCryptoHelper.ciphertextPart (file.drop view.bodyOffset))
      (AESCryptoHelper.tagPart (file.drop view.bodyOffset)) = none) :
    payload = file.drop view.bodyOffset := by
  unfold legacyPayload at h
  split at h
  · cases h
  split at h
  · cases h
  split at h
  · split at h
    · cases h
    · next plain hopened =>
      obtain ⟨-, key, -, hdecrypted⟩ := GFBufferFactory.decryptImpl_inv hopened
      rw [hclosed key] at hdecrypted
      cases hdecrypted
  · exact (Except.ok.inj h).symm

theorem queued_prefix (write : PipeWrite) (chunk : Bytes) : write.queued chunk <+: chunk := by
  cases write with
  | whole => exact List.prefix_refl chunk
  | closed taken => exact List.take_prefix taken chunk
  | aborted taken => exact List.take_prefix taken chunk

/-- **Another header is never believed.** -/
theorem readProfilePackage_forged (hlibraries : PackageLibraries E request content R)
    (hcontent : exportContent E request = .ok content) (hpin : request.protection = .pin)
    {body forged : Bytes} (hbody : (exportJob E request content).IsBody body)
    (hheader : IsHeaderBytes forged) (hforged : forged ≠ exportedHeader E request)
    (hpipe : ∀ i taken, steps.pipe i ≠ .aborted taken) {staging : Option (FsNode Bytes)} {sink : τ} :
    (readProfilePackage R steps routing passphrase (forged ++ body) staging sink).result.status ≠
      .ok := by
  unfold readProfilePackage
  split
  · exact ProfilePackageReadStatus.noConfusion
  extract_lets head view
  split
  · exact headerRefusal_status view
  next hview =>
  have hok : view.status = .ok := Decidable.not_not.mp hview
  -- the header that was read is the one in front of the body
  have hbytes : view.headerBytes = forged := by
    unfold view head at hok ⊢
    split at hok
    · next hreads =>
      rw [if_pos hreads]
      exact headerBytes_of_isHeaderBytes hheader (Nat.le_add_right _ _) hok
    · cases hok
  have hfile : (forged ++ body).drop view.bodyOffset = body := by
    rw [ProfilePackageHeaderView.bodyOffset, hbytes, List.drop_left]
  have hother : view.headerBytes ≠ exportedHeader E request := hbytes ▸ hforged
  split
  · obtain ⟨n, hentries⟩ := deliverBody_streamed hlibraries hpin hbody hpipe hfile
    exact readPackageBody_forged hlibraries hcontent hother hentries
  · split
    · next result hrefused => exact legacyPayload_error hrefused
    · next payload hpayload =>
      have hplain : payload = body := hfile ▸ legacyPayload_ok hpayload
        (hfile.symm ▸ hlibraries.noContainer body hbody)
      refine readPackageBody_forged (n := 0) hlibraries hcontent hother ?_
      have hqueued : (deliverBody R steps view passphrase (forged ++ body) (some payload)).2 <+:
          body := hplain ▸ queued_prefix (steps.pipe 0) payload
      rw [hlibraries.noArchive body hbody _ hqueued]
      exact .nil

end Forged

/-- **Package header authenticity.** What a protected export leaves at its destination is
its header and a sealed body. Behind any other header, however it is read, that body is
never believed, unless a write into the pipe throws. -/
theorem package_header_authenticity (hlibraries : PackageLibraries E request content R)
    (hcontent : exportContent E request = .ok content) (hpin : request.protection = .pin)
    (env : PackageWriteOutcomes) (s₀ : PackageDisk)
    (hok : ((exportProfilePackage E request env).value s₀).ok = true) :
    ∃ body, ((exportProfilePackage E request env).final s₀).files request.fileName =
        some (exportedHeader E request ++ body) ∧
      ∀ forged, IsHeaderBytes forged → forged ≠ exportedHeader E request →
        ∀ (τ : Type) (steps : ReadSteps) (routing : ProfileExtractionRouting τ)
          (passphrase : Bytes) (staging : Option (FsNode Bytes)) (sink : τ),
          (∀ i taken, steps.pipe i ≠ .aborted taken) →
          (readProfilePackage R steps routing passphrase (forged ++ body) staging
            sink).result.status ≠ .ok := by
  have hwrite : exportProfilePackage E request env =
      writeProfilePackage (exportJob E request content) env := by
    rw [exportProfilePackage, hcontent]
  rw [hwrite] at hok ⊢
  have hreopens : (exportJob E request content).Reopens :=
    fun _ key hkey => (hlibraries.ideal key hkey).reopens
  have hrun := (writeProfilePackage_spec hlibraries.seals hreopens env s₀).post
  obtain ⟨file, ⟨-, body, hbody, rfl⟩, hfile⟩ := hrun.installed hok
  refine ⟨body, hfile, ?_⟩
  intro forged hheader hforged τ steps routing passphrase staging sink hpipe
  exact readProfilePackage_forged hlibraries hcontent hpin hbody hheader hforged hpipe

end Binding

/-! ## A package and one that was tampered with -/

/-- The entry that carries a member whole. -/
def entryOf (member : ArchiveMember) : ArchiveEntry where
  pathName := member.pathName
  fileType := member.fileType
  declared := some (member.content.length : Int)
  blocks := [⟨0, member.content⟩]

theorem entryOf_carries (member : ArchiveMember) : (entryOf member).Carries member :=
  ⟨rfl, rfl, rfl, fun _ => ⟨rfl, [], (List.append_nil _).symm, rfl⟩⟩

def sampleRouting : ProfilePackageHeader where
  writer := "2.2.0"
  writerStable := true
  created := "2026-01-01T00:00:00Z"

/-- The libraries of the sample: the manifest is one document, and the archive of its
members is `samplePayload`. -/
def sampleExport (document : ManifestDocument) : PackageExport sampleStream where
  pwhash := samplePwhash
  hash bytes := if bytes = encodeProfilePackageHeader
    ⟨fun _ => [123, 125], fun _ => none⟩ sampleRouting
    then ⟨List.replicate 32 1, rfl⟩ else ⟨List.replicate 32 0, rfl⟩
  codec := ⟨fun _ => [123, 125], fun _ => some (headerDocument sampleRouting)⟩
  manifestCodec := ⟨fun _ => [123, 32, 125], fun bytes =>
    if bytes = [123, 32, 125] then some document else none⟩
  pack _ := ⟨[samplePayload], 0⟩
  projectVersion := "2.2.0"
  isStableBuild := true
  nowIso := "2026-01-01T00:00:00Z"
  packageUuid := "0123456789abcdef0123456789abcdef"
  temporaryUuid := "01234567"
  backupUuid := "89abcdef"
  salt := ⟨sampleSalt, rfl⟩
  streamHeader := ⟨sampleHeader, rfl⟩

/-- A profile with a key and its settings. -/
def sampleRequest : ProfileExportRequest where
  fileName := "work.gfp"
  secureMembers := [{ path := "secure/app.key", bytes := [5, 6] }]
  passphrase := [1]
  settingsIni := some [7]
  manifest := {}
  walk _ := {}

def sampleManifest : ProfilePackageManifest :=
  exportManifest (sampleExport (manifestDocument {})) sampleRequest 3

def sampleMembers : List ArchiveMember :=
  exportMembers [123, 32, 125] [{ path := "secure/app.key", bytes := [5, 6] },
    { path := "config/config.ini", bytes := [7] }] {}

def sampleBuild : PackageExport sampleStream :=
  sampleExport (manifestDocument sampleManifest)

/-- The reader of the same build. -/
def sampleReading : PackageReading sampleStream where
  pwhash := samplePwhash
  hash := sampleBuild.hash
  sodium := ⟨fun _ _ => none, fun _ _ => none, fun _ => none, fun _ _ => none, fun _ _ _ => none,
    fun _ _ _ _ => none⟩
  codec := sampleBuild.codec
  manifestCodec := sampleBuild.manifestCodec
  castOutside := .least
  unarchive bytes :=
    if bytes = samplePayload then { entries := sampleMembers.map entryOf }
    else { opens := false, entries := [] }
  formattedDataSize _ := ""
  payloadCap := 2 ^ 28

/-- Nothing fails. -/
def sampleSteps : ReadSteps where
  opens := true
  headReads := true
  readsWhole := true
  bodyOpens := true
  bodyReads _ := true
  pipe _ := .whole
  extraction := {
    unicode := ⟨fun _ => true, id⟩
    makesDestination := true
    header := fun _ => .ok
    block := fun _ _ => true
    frees := true
    closes := true
    errorText := ""
    removeDestination := fun _ => none }
  manifestReads := true
  removeStaging _ := none

def sampleFileOutcomes : PackageWriteOutcomes := { lockedDestination with movesIntoPlace := true }

theorem sampleContent :
    exportContent sampleBuild sampleRequest = .ok ⟨sampleManifest, sampleMembers⟩ := rfl

theorem samplePackage_libraries :
    PackageLibraries sampleBuild sampleRequest ⟨sampleManifest, sampleMembers⟩ sampleReading where
  hash := rfl
  manifestCodec := rfl
  seals := sampleStream_seals
  ideal key hkey := Option.some.inj hkey ▸ sampleStream_ideal
  digest other hother := by
    by_cases h : other = exportedHeader sampleBuild sampleRequest
    · exact h
    · have hfixed : sampleBuild.hash (exportedHeader sampleBuild sampleRequest) =
          ⟨List.replicate 32 1, rfl⟩ := by decide +kernel
      rw [hfixed, show sampleBuild.hash other = ⟨List.replicate 32 0, rfl⟩ from if_neg h]
        at hother
      cases Subtype.mk.inj hother
  manifest := rfl
  noManifest := rfl
  follows d _ := by
    by_cases h : d = samplePayload
    · refine ⟨sampleMembers.length, ?_⟩
      rw [show sampleReading.unarchive d = _ from if_pos h, List.take_length]
      exact List.forall₂_map_left_iff.mpr
        (List.forall₂_same.mpr fun member _ => entryOf_carries member)
    · refine ⟨0, ?_⟩
      rw [show sampleReading.unarchive d = _ from if_neg h]
      exact .nil
  noArchive body hbody d hd := by
    -- the body begins with its salt, which the archive does not
    have hne : d ≠ samplePayload := by
      rintro rfl
      obtain ⟨key, st₀, cs, st, -, -, -, rfl⟩ := hbody
      obtain ⟨t, ht⟩ := hd
      exact absurd (List.cons.inj ht).1 (by decide)
    exact congrArg ArchiveStream.entries (if_neg hne)
  noContainer _ _ _ := rfl

/-- Nothing is held in memory. -/
def sampleDisk : ProfileExtractionRouting Unit := ⟨[], fun _ _ s => (true, s)⟩

/-- The write of the sample. -/
def sampleJob : PackageWriteJob sampleStream :=
  exportJob sampleBuild sampleRequest ⟨sampleManifest, sampleMembers⟩

def sampleFile : Bytes := exportedHeader sampleBuild sampleRequest ++ sampleBody

theorem sampleExport_write :
    exportProfilePackage sampleBuild sampleRequest sampleFileOutcomes =
      writeProfilePackage sampleJob sampleFileOutcomes := rfl

theorem sampleJob_file :
    ((writeProfilePackage sampleJob sampleFileOutcomes).final previousPackage).files "work.gfp" =
      some sampleFile := by
  -- block by block: run in one piece, each block would be run again for the next
  have hwritten : (sampleJob.writeTemporary sampleFileOutcomes).value previousPackage = .ok 3 := by
    decide +kernel
  have hverified : (sampleJob.verifyTemporary sampleFileOutcomes 3).value
      ((sampleJob.writeTemporary sampleFileOutcomes).final previousPackage) = .ok () := by
    decide +kernel
  rw [writeProfilePackage, CrashM.final_bind, hwritten]
  dsimp only
  rw [CrashM.final_bind, hverified]
  decide +kernel

theorem sampleExport_ok :
    ((exportProfilePackage sampleBuild sampleRequest sampleFileOutcomes).value
      previousPackage).ok = true := by
  rw [sampleExport_write, ← Bool.not_eq_false]
  intro hfailed
  have hreopens : sampleJob.Reopens :=
    fun _ key hkey => (samplePackage_libraries.ideal key hkey).reopens
  have hrun := (writeProfilePackage_spec sampleStream_seals hreopens sampleFileOutcomes
    previousPackage).post
  rcases hrun.unchanged hfailed with hold | hstranded
  · exact nomatch sampleJob_file.symm.trans hold
  · exact nomatch hstranded.notInstalled

/-- What another build would write for the same header. -/
def sampleForged : Bytes := profilePackageMagic ++ (bigEndian32 3 ++ [123, 32, 125])

theorem package_header_authenticity_sample :
    ∃ body, ((exportProfilePackage sampleBuild sampleRequest sampleFileOutcomes).final
        previousPackage).files sampleRequest.fileName =
        some (exportedHeader sampleBuild sampleRequest ++ body) ∧
      (readProfilePackage sampleReading sampleSteps sampleDisk [1] (sampleForged ++ body) none
        ()).result.status ≠ .ok := by
  obtain ⟨body, hfile, hforged⟩ := package_header_authenticity samplePackage_libraries
    sampleContent rfl sampleFileOutcomes previousPackage sampleExport_ok
  exact ⟨body, hfile, hforged sampleForged ⟨[123, 32, 125], by decide, rfl⟩ (by decide) Unit
    sampleSteps sampleDisk [1] none () fun _ _ h => nomatch h⟩

/-- Behind its own header the body is believed. -/
example : (readProfilePackage sampleReading sampleSteps sampleDisk [1] sampleFile none
    ()).result.status = .ok := by decide +kernel

end GpgFrontend
