import Mathlib.Data.List.TakeWhile
import GpgFrontend.Function.ArchiveEntryPaths
import GpgFrontend.Module.ManifestRoundTrip
import GpgFrontend.Module.ModuleDescriptorExact

/-!
# The builder and the verifier of a descriptor

What is built and signed on one side is read and judged on the other, by rules of its own.

- `agree_iff`: **a built descriptor is authenticated, with the manifest that was asked for,
  exactly if the specification is deliverable.**
-/

namespace GpgFrontend

/-! ## What is asked for -/

section Requested

variable (B : ModuleBuilder) (spec : ModuleDescriptorBuildSpec)

/-- The resources as they are to be packed. -/
def requestedStaged : List StagedResource :=
  spec.resources.map fun source =>
    ⟨stagedPath B source, sourceDigest B source, sourceBytes B source⟩

/-- The manifest as it is to be written. -/
def requestedObject : JsonValue :=
  .object (moduleManifestObject B spec (requestedStaged B spec) ((entryObject B spec).toOption.getD []))

/-- The text that is to be signed. -/
def requestedText : List Char := (canonicalValue (requestedObject B spec)).getD []

/-- The keys the seed derives. -/
def requestedKeys : Bytes × Bytes := (B.seedKeypair spec.signingSeed).getD ([], [])

def requestedSignature : Bytes :=
  (B.signDetached (utf8 (requestedText B spec)) (requestedKeys B spec).2).getD []

/-- The members that are to be packed. -/
def requestedMembers : List ArchiveMember :=
  descriptorMembers spec.origin (utf8 (requestedText B spec)) (requestedSignature B spec)
    (requestedKeys B spec).1 (requestedStaged B spec)

end Requested

/-! ## What the libraries promise -/

/-- What members hold together. -/
def memberBytes (members : List ArchiveMember) : Nat :=
  (members.map fun member => member.bytes.length).sum

/-- The character a C string ends at. -/
def nul : Char := Char.ofNat 0

/-- A member under the name that the archive library is given as a C string. -/
def ArchiveMember.cNamed (member : ArchiveMember) : ArchiveMember :=
  { member with relativePath := String.ofList (member.relativePath.toList.takeWhile (· ≠ nul)) }

theorem cNamed_eq {member : ArchiveMember} (h : nul ∉ member.relativePath.toList) :
    member.cNamed = member := by
  have hwhole : member.relativePath.toList.takeWhile (· ≠ nul) = member.relativePath.toList :=
    List.takeWhile_eq_self_iff.2 fun c hc => decide_eq_true fun heq => h (heq ▸ hc)
  rw [ArchiveMember.cNamed, hwhole, String.ofList_toList]

/-- A member as a store-only archive gives it back. -/
structure StoredAs (member : ArchiveMember) (entry : ArchiveEntry) : Prop where
  name : entry.pathName = member.relativePath.toList
  plain : entry.PlainFile
  data : entry.data = member.bytes

/-- An archive that is read as it was written, nothing in it compressed. -/
structure StoreOnly (stream : ArchiveStream) (members : List ArchiveMember) : Prop where
  opens : stream.opens = true
  readsToEnd : stream.readsToEnd = true
  entries : List.Forall₂ StoredAs members stream.entries
  takesUp : TakesUp 0 stream.entries
  consumed : (memberBytes members : Int) ≤ stream.consumed

/-- Detached signatures verify under the key of their pair, and have their sizes. -/
structure Signs (B : ModuleBuilder) : Prop where
  keySize : ∀ {seed key}, B.seedKeypair seed = some key → key.1.length = signPublicKeyBytes
  size : ∀ {message secret signature}, B.signDetached message secret = some signature →
    signature.length = signBytes
  verifies : ∀ {seed key message signature}, B.seedKeypair seed = some key →
    B.signDetached message key.2 = some signature →
    B.host.verifyDetached signature message key.1 = true

/-! ## Deliverable specifications -/

/-- What the verifier asks for, and the builder does not. -/
structure Deliverable (B : ModuleBuilder) (spec : ModuleDescriptorBuildSpec) : Prop where
  /-- Every character of the manifest is one UTF-16 unit. -/
  texts : ∀ text ∈ manifestTexts (requestedManifest B spec), OneUnitEach text
  /-- The size the entry is bound to is a double. -/
  entrySize : SizeIsDouble (requestedManifest B spec)
  /-- The verifier, with its narrower limits, takes the name of each resource. -/
  named : ∀ source ∈ spec.resources, (validateArchiveEntryPath B.host.steps.unicode
    modulePackagePolicy (stagedPath B source).toList).1 = .accept
  /-- No name ends before its last character when it is taken as a C string. -/
  terminated : ∀ source ∈ spec.resources, nul ∉ (stagedPath B source).toList
  /-- No two names differ by case only, those in `META-INF` among them. -/
  apart : ((requestedMembers B spec).map fun member =>
    B.host.steps.unicode.toCaseFolded member.relativePath).Nodup
  number : ((requestedMembers B spec).length : Int) ≤ maxPackageEntries
  each : ∀ member ∈ requestedMembers B spec, (member.bytes.length : Int) ≤ maxPackageEntryBytes
  total : (memberBytes (requestedMembers B spec) : Int) ≤ maxPackageTotalBytes
  archive : ∀ file, B.writeArchive (requestedMembers B spec) = some file →
    (file.length : Int) ≤ maxPackageTotalBytes

/-! ## What a successful build has done -/

section Built

variable {B : ModuleBuilder} {spec : ModuleDescriptorBuildSpec} {built : BuiltDescriptor}

/-- Each resource that was staged passed the builder's checks. -/
structure StagedFrom (B : ModuleBuilder) (source : ModuleResourceSource) : Prop where
  named : (validateArchiveEntryPath B.host.steps.unicode namingPolicy
    source.archivePath.toList).1 = .accept
  outside : isMetaPath (stagedPath B source) = false
  hashed : sourceDigest B source ≠ ""

theorem stageResources_ok (sources : List ModuleResourceSource) :
    ∀ {seen : List String} {staged : List StagedResource},
      stageResources B sources seen = .ok staged →
      staged = (sources.map fun source =>
        ⟨stagedPath B source, sourceDigest B source, sourceBytes B source⟩) ∧
      ∀ source ∈ sources, StagedFrom B source := by
  induction sources with
  | nil =>
    intro seen staged h
    exact ⟨(Except.ok.inj h).symm, List.forall_mem_nil _⟩
  | cons source rest ih =>
    intro seen staged h
    rw [stageResources] at h
    obtain ⟨hverdict, h⟩ := of_ite_error h
    obtain ⟨hmeta, h⟩ := of_ite_error h
    obtain ⟨-, h⟩ := of_ite_error h
    obtain ⟨hdigest, h⟩ := of_ite_error h
    cases hrest : stageResources B rest
        (B.host.steps.unicode.toCaseFolded (stagedPath B source) :: seen) with
    | error why =>
      rw [hrest] at h
      cases h
    | ok later =>
      rw [hrest] at h
      obtain ⟨hlater, hsources⟩ := ih hrest
      refine ⟨?_, List.forall_mem_cons.2 ⟨⟨not_not.1 hverdict, ?_, hdigest⟩, hsources⟩⟩
      · rw [List.map_cons, ← hlater]
        exact (Except.ok.inj h).symm
      · exact Bool.not_eq_true _ ▸ hmeta

/-- The digest of a resource is that of what it holds. -/
theorem sourceDigest_eq {source : ModuleResourceSource} (h : sourceDigest B source ≠ "") :
    sourceDigest B source = B.host.sha256Hex (sourceBytes B source) := by
  unfold sourceDigest sourceBytes sha256HexOfFile at *
  split
  · rfl
  next hfile =>
  rw [if_neg hfile] at h
  cases hbytes : B.files source.sourceFile with
  | none =>
    rw [hbytes] at h
    exact absurd rfl h
  | some bytes => rfl

/-- The parts of a build that succeeded. -/
structure BuiltFrom (B : ModuleBuilder) (spec : ModuleDescriptorBuildSpec)
    (built : BuiltDescriptor) : Prop where
  ready : B.host.sodiumReady = true
  sources : ∀ source ∈ spec.resources, StagedFrom B source
  entry : entryObject B spec = .ok ((entryObject B spec).toOption.getD [])
  text : canonicalValue (requestedObject B spec) = some (requestedText B spec)
  parsed : ∃ m, parseModuleManifest B.host.strings B.host.fromJson (utf8 (requestedText B spec))
    = .ok m
  keys : B.seedKeypair spec.signingSeed = some (requestedKeys B spec)
  key : spec.origin = .integrated ↔ (requestedKeys B spec).1 = B.host.buildPublicKey
  signed : B.signDetached (utf8 (requestedText B spec)) (requestedKeys B spec).2
    = some (requestedSignature B spec)
  written : B.writeArchive (requestedMembers B spec) = some built.file

theorem buildManifest_ok {staged : List StagedResource} {manifestBytes : Bytes}
    (h : buildManifest B spec = .ok (staged, manifestBytes)) :
    staged = requestedStaged B spec ∧ (∀ source ∈ spec.resources, StagedFrom B source) ∧
      entryObject B spec = .ok ((entryObject B spec).toOption.getD []) ∧
      canonicalValue (requestedObject B spec) = some (requestedText B spec) ∧
      manifestBytes = utf8 (requestedText B spec) ∧
      ∃ m, parseModuleManifest B.host.strings B.host.fromJson manifestBytes = .ok m := by
  unfold buildManifest at h
  simp only [bind_eq_ok] at h
  obtain ⟨staged', hstaged, entry, hentry, h⟩ := h
  obtain ⟨rfl, hsources⟩ := stageResources_ok spec.resources hstaged
  have hoption : (entryObject B spec).toOption.getD [] = entry := by rw [hentry]; rfl
  have hobject : requestedObject B spec = .object (moduleManifestObject B spec (requestedStaged B spec) entry) := by
    rw [requestedObject, hoption]
  cases htext : canonicalValue (requestedObject B spec) with
  | none =>
    rw [hobject] at htext
    simp only [canonicalJson, requestedStaged] at h htext
    rw [htext] at h
    cases h
  | some text =>
    have hrequested : requestedText B spec = text := by rw [requestedText, htext]; rfl
    rw [hobject] at htext
    simp only [canonicalJson, requestedStaged] at h htext
    rw [htext] at h
    dsimp only [Option.map_some] at h
    split at h
    · cases h
    · next m hparsed =>
      obtain ⟨hs, rfl⟩ := Prod.mk.inj (Except.ok.inj h)
      exact ⟨hs.symm, hsources, by rw [hoption, hentry], by rw [hrequested],
        by rw [hrequested], m, hparsed⟩

theorem signingKey_ok {key : Bytes × Bytes} (h : signingKey B spec = .ok key) :
    B.seedKeypair spec.signingSeed = some key ∧
      (spec.origin = .integrated ↔ key.1 = B.host.buildPublicKey) := by
  unfold signingKey at h
  simp only [bind_eq_ok] at h
  obtain ⟨_, -, h⟩ := h
  cases hkeys : B.seedKeypair spec.signingSeed with
  | none =>
    rw [hkeys] at h
    cases h
  | some found =>
    rw [hkeys] at h
    cases horigin : spec.origin with
    | integrated =>
      simp only [horigin, bind_eq_ok, require_eq_ok, pure_eq_ok] at h
      obtain ⟨_, hkey, rfl⟩ := h
      exact ⟨rfl, iff_of_true rfl hkey⟩
    | external =>
      simp only [horigin, bind_eq_ok, require_eq_ok, pure_eq_ok] at h
      obtain ⟨_, hkey, rfl⟩ := h
      exact ⟨rfl, iff_of_false (by decide) hkey⟩

theorem builtFrom_of_ok (h : buildModuleDescriptor B spec = .ok built) : BuiltFrom B spec built := by
  unfold buildModuleDescriptor at h
  simp only [bind_eq_ok] at h
  obtain ⟨_, hspec, ⟨staged, manifestBytes⟩, hmanifest, ⟨publicKey, secretKey⟩, hkey, h⟩ := h
  have hready : B.host.sodiumReady = true := by
    unfold checkSpec at hspec
    simp only [bind_eq_ok, require_eq_ok] at hspec
    exact hspec.choose_spec.1
  obtain ⟨rfl, hsources, hentry, htext, rfl, hparsed⟩ := buildManifest_ok hmanifest
  obtain ⟨hkeys, horigin⟩ := signingKey_ok hkey
  have hrequested : requestedKeys B spec = (publicKey, secretKey) := by
    rw [requestedKeys, hkeys]
    rfl
  dsimp only at h
  cases hsigned : B.signDetached (utf8 (requestedText B spec)) secretKey with
  | none =>
    rw [hsigned] at h
    cases h
  | some signature =>
    have hsignature : requestedSignature B spec = signature := by
      rw [requestedSignature, hrequested, hsigned]
      rfl
    rw [hsigned] at h
    simp only [bind_eq_ok, pure_eq_ok] at h
    obtain ⟨file, hfile, rfl⟩ := h
    have hmembers : descriptorMembers spec.origin (utf8 (requestedText B spec)) signature publicKey
        (requestedStaged B spec) = requestedMembers B spec := by
      rw [requestedMembers, hsignature, hrequested]
    rw [hmembers] at hfile
    refine ⟨hready, hsources, hentry, htext, hparsed, by rw [hrequested, hkeys],
      by rw [hrequested]; exact horigin, by rw [hrequested, hsignature, hsigned], ?_⟩
    unfold writeDescriptor at hfile
    simp only [bind_eq_ok] at hfile
    obtain ⟨_, -, hfile⟩ := hfile
    cases hwritten : B.writeArchive (requestedMembers B spec) with
    | none =>
      rw [hwritten] at hfile
      cases hfile
    | some written =>
      rw [hwritten] at hfile
      simp only [bind_eq_ok, pure_eq_ok] at hfile
      obtain ⟨_, -, rfl⟩ := hfile
      rfl

end Built

/-! ## What is read of what was written -/

section Read

variable {B : ModuleBuilder} {spec : ModuleDescriptorBuildSpec} {unicode : QtUnicode}
  {members : List ArchiveMember} {entries : List ArchiveEntry}

/-- The members that are delivered, by their names as the verifier normalises them. -/
theorem deliveredMembers_stored (h : List.Forall₂ StoredAs members entries) :
    deliveredMembers unicode modulePackagePolicy entries = members.map fun member =>
      (joinParts (validateArchiveEntryPath unicode modulePackagePolicy
        member.relativePath.toList).2, member.bytes) := by
  induction h with
  | nil => rfl
  | cons hstored _ ih =>
    rw [deliveredMembers_cons, deliveredMembers_plain hstored.plain, ih, List.map_cons,
      ArchiveEntry.path, hstored.name, hstored.data]
    rfl

theorem forall_stored (h : List.Forall₂ StoredAs members entries) :
    (∀ entry ∈ entries, entry.PlainFile) ∧ members.length = entries.length ∧
      entries.map ArchiveEntry.pathName = members.map fun member => member.relativePath.toList := by
  induction h with
  | nil => exact ⟨List.forall_mem_nil _, rfl, rfl⟩
  | cons hstored _ ih =>
    obtain ⟨hplain, hlength, hnames⟩ := ih
    refine ⟨List.forall_mem_cons.2 ⟨hstored.plain, hplain⟩, ?_, ?_⟩
    · rw [List.length_cons, List.length_cons, hlength]
    · rw [List.map_cons, List.map_cons, hstored.name, hnames]

/-- The names in `META-INF` are taken, and normalised to themselves. -/
theorem validate_metaPath {path : String} (h : path ∈ [moduleDescriptorManifestPath,
    moduleDescriptorSignaturePath, moduleDescriptorPublisherKeyPath]) :
    (validateArchiveEntryPath unicode modulePackagePolicy path.toList).1 = .accept ∧
      joinParts (validateArchiveEntryPath unicode modulePackagePolicy path.toList).2 = path := by
  simp only [List.mem_cons, List.not_mem_nil, or_false] at h
  rcases h with rfl | rfl | rfl
  all_goals exact ⟨rfl, rfl⟩

/-- A member of a descriptor is one of `META-INF` or a resource. -/
theorem mem_requestedMembers {member : ArchiveMember} (h : member ∈ requestedMembers B spec) :
    member.relativePath ∈ [moduleDescriptorManifestPath, moduleDescriptorSignaturePath,
      moduleDescriptorPublisherKeyPath] ∨
    ∃ source ∈ spec.resources, member.relativePath = stagedPath B source := by
  rw [requestedMembers, descriptorMembers, List.mem_cons, List.mem_cons, List.mem_append] at h
  rcases h with rfl | rfl | hkey | hstaged
  · exact .inl (by simp)
  · exact .inl (by simp)
  · split at hkey
    · rw [List.mem_singleton.1 hkey]
      exact .inl (by simp)
    · cases hkey
  · obtain ⟨resource, hresource, rfl⟩ := List.mem_map.1 hstaged
    obtain ⟨source, hsource, rfl⟩ := List.mem_map.1 hresource
    exact .inr ⟨source, hsource, rfl⟩

theorem mem_requestedMembers_of_source {source : ModuleResourceSource}
    (h : source ∈ spec.resources) :
    ∃ member ∈ requestedMembers B spec, member.relativePath = stagedPath B source := by
  refine ⟨{ relativePath := stagedPath B source, bytes := sourceBytes B source }, ?_, rfl⟩
  rw [requestedMembers, descriptorMembers]
  refine List.mem_cons_of_mem _ (List.mem_cons_of_mem _ (List.mem_append_right _ ?_))
  rw [requestedStaged, List.map_map]
  exact List.mem_map.2 ⟨source, h, rfl⟩

/-- A staged name is normalised to itself where the verifier takes it. -/
theorem stagedPath_normal {source : ModuleResourceSource} (hstaged : StagedFrom B source)
    (h : (validateArchiveEntryPath unicode modulePackagePolicy
      (stagedPath B source).toList).1 = .accept) :
    joinParts (validateArchiveEntryPath unicode modulePackagePolicy
      (stagedPath B source).toList).2 = stagedPath B source := by
  obtain ⟨parts, hvalid⟩ : ∃ parts, validateArchiveEntryPath B.host.steps.unicode namingPolicy
      source.archivePath.toList = (.accept, parts) := ⟨_, Prod.ext hstaged.named rfl⟩
  have hpath : stagedPath B source = joinParts parts := by rw [stagedPath, hvalid]
  rw [hpath] at h ⊢
  exact joinParts_validate (plainParts_of_validate hvalid) (nonempty_of_validate hvalid) h

/-- Names that are all taken are delivered as they are. -/
theorem deliveredMembers_requested
    (hstored : List.Forall₂ StoredAs (requestedMembers B spec) entries)
    (hsources : ∀ source ∈ spec.resources, StagedFrom B source)
    (hnamed : ∀ source ∈ spec.resources, (validateArchiveEntryPath unicode
      modulePackagePolicy (stagedPath B source).toList).1 = .accept) :
    deliveredMembers unicode modulePackagePolicy entries
      = (requestedMembers B spec).map fun member => (member.relativePath, member.bytes) := by
  rw [deliveredMembers_stored hstored]
  refine List.map_congr_left fun member hmember => ?_
  rcases mem_requestedMembers hmember with hmeta | ⟨source, hsource, hpath⟩
  · rw [(validate_metaPath hmeta).2]
  · rw [hpath, stagedPath_normal (hsources source hsource) (hnamed source hsource)]

/-- Whether the verifier takes all names is a matter of the resources. -/
theorem entries_named_iff (hstored : List.Forall₂ StoredAs (requestedMembers B spec) entries) :
    (∀ entry ∈ entries,
      (validateArchiveEntryPath unicode modulePackagePolicy entry.pathName).1 = .accept) ↔
    ∀ source ∈ spec.resources, (validateArchiveEntryPath unicode modulePackagePolicy
      (stagedPath B source).toList).1 = .accept := by
  obtain ⟨-, -, hnames⟩ := forall_stored hstored
  have hentries : (∀ entry ∈ entries,
        (validateArchiveEntryPath unicode modulePackagePolicy entry.pathName).1 = .accept) ↔
      ∀ member ∈ requestedMembers B spec, (validateArchiveEntryPath unicode modulePackagePolicy
        member.relativePath.toList).1 = .accept := by
    have hleft : (∀ name ∈ entries.map ArchiveEntry.pathName,
        (validateArchiveEntryPath unicode modulePackagePolicy name).1 = .accept) ↔ _ :=
      List.forall_mem_map
    rw [hnames, List.forall_mem_map] at hleft
    exact hleft.symm
  rw [hentries]
  constructor
  · intro h source hsource
    obtain ⟨member, hmember, hpath⟩ := mem_requestedMembers_of_source hsource
    rw [← hpath]
    exact h member hmember
  · intro h member hmember
    rcases mem_requestedMembers hmember with hmeta | ⟨source, hsource, hpath⟩
    · exact (validate_metaPath hmeta).1
    · rw [hpath]
      exact h source hsource

end Read

/-! ## The walk over a built descriptor -/

section Walk

variable {B : ModuleBuilder} {spec : ModuleDescriptorBuildSpec}

theorem readMember_resource {host : ModuleHost} {path : String} {bytes : Bytes} {walk : PackageWalk}
    (houtside : isMetaPath path = false) (hdigest : host.sha256Hex bytes ≠ "") :
    readMember host path bytes walk
      = (true, { walk with actualDigests := walk.actualDigests.insert path (host.sha256Hex bytes) }) := by
  have hmeta : ∀ known ∈ [moduleDescriptorManifestPath, moduleDescriptorSignaturePath,
      moduleDescriptorPublisherKeyPath], path ≠ known := by
    rintro known hknown rfl
    revert houtside
    simp only [List.mem_cons, List.not_mem_nil, or_false] at hknown
    rcases hknown with rfl | rfl | rfl
    all_goals decide
  rw [readMember, if_neg (hmeta _ (by simp)), if_neg (hmeta _ (by simp)),
    if_neg (hmeta _ (by simp)), if_neg (by rw [houtside]; decide)]
  exact if_neg hdigest

/-- The resources are taken one after the other. -/
theorem takeAll_staged {host : ModuleHost} (staged : List StagedResource) :
    ∀ {walk : PackageWalk}, (∀ resource ∈ staged, isMetaPath resource.path = false ∧
        host.sha256Hex resource.bytes = resource.digest ∧ resource.digest ≠ "") →
      takeAll (readMember host) (staged.map fun resource => (resource.path, resource.bytes)) walk
        = (true, { walk with
            actualDigests := walk.actualDigests.insertAll
              (staged.map fun resource => (resource.path, resource.digest)) }) := by
  induction staged with
  | nil => exact fun _ => rfl
  | cons resource rest ih =>
    intro walk h
    obtain ⟨⟨houtside, hhash, hdigest⟩, hrest⟩ := List.forall_mem_cons.1 h
    have htaken : readMember host resource.path resource.bytes walk = (true, _) :=
      readMember_resource houtside (hhash ▸ hdigest)
    rw [List.map_cons, takeAll_cons htaken, ih hrest, List.map_cons, QMap.insertAll_cons, hhash]

/-- What is kept of a descriptor that is taken whole. -/
def builtWalk (B : ModuleBuilder) (spec : ModuleDescriptorBuildSpec) : PackageWalk where
  manifestBytes := utf8 (requestedText B spec)
  signatureBytes := requestedSignature B spec
  publicKeyBytes := if spec.origin = .external then (requestedKeys B spec).1 else []
  manifestCount := 1
  signatureCount := 1
  publicKeyCount := if spec.origin = .external then 1 else 0
  actualDigests := QMap.empty.insertAll
    ((requestedStaged B spec).map fun resource => (resource.path, resource.digest))

theorem takeAll_requested (hsources : ∀ source ∈ spec.resources, StagedFrom B source) :
    takeAll (readMember B.host)
      ((requestedMembers B spec).map fun member => (member.relativePath, member.bytes)) {}
      = (true, builtWalk B spec) := by
  have hstaged : ∀ resource ∈ requestedStaged B spec, isMetaPath resource.path = false ∧
      B.host.sha256Hex resource.bytes = resource.digest ∧ resource.digest ≠ "" := by
    intro resource hresource
    obtain ⟨source, hsource, rfl⟩ := List.mem_map.1 hresource
    have hfrom := hsources source hsource
    exact ⟨hfrom.outside, (sourceDigest_eq hfrom.hashed).symm, hfrom.hashed⟩
  have hmap : (((requestedStaged B spec).map fun resource =>
        ({ relativePath := resource.path, bytes := resource.bytes } : ArchiveMember)).map fun member =>
          (member.relativePath, member.bytes))
      = (requestedStaged B spec).map fun resource => (resource.path, resource.bytes) := by
    rw [List.map_map]
    rfl
  rw [requestedMembers, descriptorMembers, List.map_cons, List.map_cons, List.map_append, hmap,
    builtWalk]
  rw [takeAll_cons (Prod.ext rfl rfl), takeAll_cons (Prod.ext rfl rfl)]
  cases horigin : spec.origin with
  | integrated =>
    simp only [reduceCtorEq, if_false, List.map_nil, List.nil_append]
    rw [takeAll_staged _ hstaged]
    rfl
  | external =>
    simp only [if_true, List.map_cons, List.map_nil, List.singleton_append]
    rw [takeAll_cons (Prod.ext rfl rfl), takeAll_staged _ hstaged]
    rfl

end Walk

/-! ## Agreement -/

section Agreement

variable {B : ModuleBuilder} {spec : ModuleDescriptorBuildSpec} {built : BuiltDescriptor}
  {unicode : QtUnicode} {entries : List ArchiveEntry}

theorem deliveredMembers_of_plain (h : ∀ entry ∈ entries, entry.PlainFile) :
    deliveredMembers unicode modulePackagePolicy entries
      = entries.map fun entry => (entry.path unicode modulePackagePolicy, entry.data) := by
  induction entries with
  | nil => rfl
  | cons entry rest ih =>
    obtain ⟨hentry, hrest⟩ := List.forall_mem_cons.1 h
    rw [deliveredMembers_cons, deliveredMembers_plain hentry, ih hrest]
    rfl

/-- What the policy of the verifier asks of a built archive. -/
theorem membersFit_iff (hstored : List.Forall₂ StoredAs (requestedMembers B spec) entries)
    (hsources : ∀ source ∈ spec.resources, StagedFrom B source) :
    MembersFit unicode modulePackagePolicy entries ↔
      (∀ source ∈ spec.resources, (validateArchiveEntryPath unicode modulePackagePolicy
        (stagedPath B source).toList).1 = .accept) ∧
      ((requestedMembers B spec).map fun member =>
        unicode.toCaseFolded member.relativePath).Nodup ∧
      ((requestedMembers B spec).length : Int) ≤ maxPackageEntries ∧
      (∀ member ∈ requestedMembers B spec, (member.bytes.length : Int) ≤ maxPackageEntryBytes) ∧
      (memberBytes (requestedMembers B spec) : Int) ≤ maxPackageTotalBytes := by
  obtain ⟨hplain, hlength, -⟩ := forall_stored hstored
  have hwhole : (∀ source ∈ spec.resources, (validateArchiveEntryPath unicode modulePackagePolicy
        (stagedPath B source).toList).1 = .accept) →
      deliveredMembers unicode modulePackagePolicy entries
          = (requestedMembers B spec).map (fun member => (member.relativePath, member.bytes)) ∧
        bytesTotal (deliveredMembers unicode modulePackagePolicy entries)
          = memberBytes (requestedMembers B spec) ∧
        (entries.map fun entry =>
            unicode.toCaseFolded (entry.path unicode modulePackagePolicy))
          = (requestedMembers B spec).map fun member => unicode.toCaseFolded member.relativePath := by
    intro hnamed
    have hdelivered := deliveredMembers_requested hstored hsources hnamed
    refine ⟨hdelivered, ?_, ?_⟩
    · rw [hdelivered, bytesTotal, List.map_map]
      rfl
    · have hnames := congrArg (List.map fun member => unicode.toCaseFolded member.1) hdelivered
      rw [deliveredMembers_of_plain hplain, List.map_map, List.map_map] at hnames
      exact hnames
  constructor
  · intro h
    have hnamed := (entries_named_iff hstored).1 h.named
    obtain ⟨hdelivered, htotal, hfolded⟩ := hwhole hnamed
    refine ⟨hnamed, hfolded ▸ h.distinct rfl, ?_, fun member hmember => ?_, ?_⟩
    · rw [hlength]
      exact h.number (by decide)
    · refine h.each (member.relativePath, member.bytes) ?_ (by decide)
      rw [hdelivered]
      exact List.mem_map.2 ⟨member, hmember, rfl⟩
    · rw [← htotal]
      exact h.total (by decide)
  · rintro ⟨hnamed, hapart, hnumber, heach, hsum⟩
    obtain ⟨hdelivered, htotal, hfolded⟩ := hwhole hnamed
    refine ⟨(entries_named_iff hstored).2 hnamed, fun _ => hlength ▸ hnumber, ?_,
      fun _ => htotal ▸ hsum, fun _ => hfolded ▸ hapart⟩
    rw [hdelivered]
    intro pair hpair
    obtain ⟨member, hmember, rfl⟩ := List.mem_map.1 hpair
    exact fun _ => heach member hmember

/-- A built archive that fits is read, and what the walk keeps is what was built. -/
theorem walkPackage_built (hfrom : BuiltFrom B spec built) (hfrees : B.host.steps.frees = true)
    (hstore : StoreOnly (B.host.readArchive built.file) (requestedMembers B spec)) :
    ((walkPackage B.host built.file).ok = true ↔
      MembersFit B.host.steps.unicode modulePackagePolicy
        (B.host.readArchive built.file).entries) ∧
    ((walkPackage B.host built.file).ok = true →
      (walkPackage B.host built.file).sink = builtWalk B spec) := by
  have hdelivered : MembersFit B.host.steps.unicode modulePackagePolicy
        (B.host.readArchive built.file).entries →
      deliveredMembers B.host.steps.unicode modulePackagePolicy
          (B.host.readArchive built.file).entries
        = (requestedMembers B spec).map fun member => (member.relativePath, member.bytes) :=
    fun hfit => deliveredMembers_requested hstore.entries hfrom.sources
      ((entries_named_iff hstore.entries).1 hfit.named)
  refine ⟨⟨fun h => (walkPackage_ok h).2, fun hfit => ?_⟩, fun h => ?_⟩
  · have htaken : takeAll (readMember B.host) (deliveredMembers B.host.steps.unicode
        modulePackagePolicy (B.host.readArchive built.file).entries) {}
          = (true, builtWalk B spec) := by
      rw [hdelivered hfit]
      exact takeAll_requested hfrom.sources
    refine readArchiveMembers_of_fit (by decide) (fun _ => rfl) hstore.opens hstore.readsToEnd hfrees
      (forall_stored hstore.entries).1 hstore.takesUp ?_ hfit htaken
    rw [hdelivered hfit, bytesTotal, List.map_map]
    exact hstore.consumed
  · obtain ⟨htaken, hfit⟩ := walkPackage_ok h
    rw [packageMembers, hdelivered hfit, takeAll_requested hfrom.sources] at htaken
    exact (Prod.mk.inj htaken).2.symm

/-- The shape and the signature of a built descriptor are those the verifier asks for. -/
theorem checks_built (hfrom : BuiltFrom B spec built) (hsigns : Signs B) :
    checkShape B.host spec.origin (builtWalk B spec) = .ok () ∧
      checkSignature B.host spec.origin (builtWalk B spec) = .ok () := by
  have hkey := hsigns.keySize hfrom.keys
  have hexpected : expectedPublicKey B.host spec.origin (builtWalk B spec)
      = (requestedKeys B spec).1 := by
    cases horigin : spec.origin with
    | integrated => exact (hfrom.key.1 horigin).symm
    | external =>
      rw [expectedPublicKey, builtWalk, if_pos horigin]
  constructor
  · unfold checkShape
    simp only [bind_eq_ok, require_eq_ok]
    refine ⟨(), ⟨rfl, rfl⟩, ?_⟩
    have hother := hfrom.key
    have hcount : (builtWalk B spec).publicKeyCount = if spec.origin = .external then 1 else 0 := rfl
    cases horigin : spec.origin with
    | integrated =>
      rw [require_eq_ok, hcount, if_neg (by rw [horigin]; decide)]
    | external =>
      rw [horigin] at hother
      have hwalk : (builtWalk B spec).publicKeyBytes = (requestedKeys B spec).1 := by
        rw [builtWalk, if_pos horigin]
      simp only [bind_eq_ok, require_eq_ok]
      refine ⟨(), ?_, (), ?_, ?_⟩
      · rw [hcount, if_pos horigin]
      · rw [hwalk, hkey]
      · rw [hwalk]
        exact fun heq => absurd (hother.2 heq) (by decide)
  · unfold checkSignature
    simp only [bind_eq_ok, require_eq_ok]
    refine ⟨(), hsigns.size hfrom.signed, (), ?_, ?_⟩
    · rw [hexpected, hkey]
    · rw [hexpected]
      exact hsigns.verifies hfrom.keys hfrom.signed

/-- What the verifier parses is what the specification asked for, unless something of it was
lost. -/
theorem parsed_built (hfrom : BuiltFrom B spec built)
    (hjson : ReadsJson B.host.fromJson (requestedText B spec)) {m : ModuleManifest}
    (hparsed : parseModuleManifest B.host.strings B.host.fromJson (utf8 (requestedText B spec))
      = .ok m) :
    m = requestedManifest B spec ↔
      (∀ text ∈ manifestTexts (requestedManifest B spec), OneUnitEach text) ∧
        SizeIsDouble (requestedManifest B spec) := by
  obtain ⟨root, hroot, hm⟩ := parseModuleManifest_ok hparsed
  rw [hjson _ (readJson_canonicalValue hfrom.text)] at hroot
  have hobject := Except.ok.inj hroot
  rw [requestedObject, JsonValue.unitwise, JsonValue.object.injEq] at hobject
  rw [← hobject] at hm
  refine parsed_eq_iff hfrom.entry ?_ hm
  rw [requestedStaged, List.map_map]
  rfl

/-- The digests that are kept are those the manifest declares. -/
theorem declared_built
    (hnodup : ((requestedStaged B spec).map fun resource => resource.path).Nodup) :
    checkDeclared (builtWalk B spec).actualDigests (requestedManifest B spec).resources = .ok () ∧
      checkUndeclared (builtWalk B spec).actualDigests (requestedManifest B spec).resources
        = .ok () := by
  have hnames : (((requestedStaged B spec).map fun resource =>
      (resource.path, resource.digest)).map Prod.fst).Nodup := by
    rw [List.map_map]
    exact hnodup
  have hresources : (requestedManifest B spec).resources
      = (requestedStaged B spec).map fun resource => ⟨resource.path, resource.digest⟩ := by
    rw [requestedStaged, List.map_map]
    rfl
  constructor
  · refine checkDeclared_ok_iff.2 fun declared hdeclared => ?_
    rw [hresources] at hdeclared
    obtain ⟨resource, hresource, rfl⟩ := List.mem_map.1 hdeclared
    exact QMap.value_insertAll hnames (List.mem_map.2 ⟨resource, hresource, rfl⟩)
  · refine checkUndeclared_ok_iff.2 fun hsize => absurd ?_ hsize
    rw [builtWalk, QMap.size_insertAll hnames, hresources, List.length_map, List.length_map]

/-- What the manifest of an authenticated descriptor declares is the path of an entry. -/
theorem exists_entry_of_declared {host : ModuleHost} {origin : ModuleOrigin} {bytes : Bytes}
    {m : ModuleManifest} (h : Vouched host origin bytes m) {resource : ModuleManifestResource}
    (hresource : resource ∈ m.resources) :
    ∃ entry ∈ (host.readArchive bytes).entries,
      entry.path host.steps.unicode modulePackagePolicy = resource.path := by
  have hkey : resource.path ∈ (walkPackage host bytes).sink.actualDigests.keys :=
    QMap.mem_keys_iff.2 ⟨_, checkDeclared_ok_iff.1 h.declared resource hresource⟩
  rw [actualDigests_takeAll _ (walkPackage_ok h.read).1, QMap.mem_keys_insertAll] at hkey
  rcases hkey with hkey | hkey
  · cases hkey
  · obtain ⟨pair, hpair, hpath⟩ := List.mem_map.1 hkey
    obtain ⟨member, hmember, rfl⟩ := List.mem_map.1 hpair
    obtain ⟨entry, hentry, rfl⟩ := List.mem_map.1 (List.mem_filter.1 hmember).1
    exact ⟨entry, (List.mem_filter.1 hentry).1, hpath⟩

/-- **A name with a NUL in it never comes back.** -/
theorem terminated_of_vouched {origin : ModuleOrigin} {bytes : Bytes}
    (hstore : StoreOnly (B.host.readArchive bytes)
      ((requestedMembers B spec).map ArchiveMember.cNamed))
    (h : Vouched B.host origin bytes (requestedManifest B spec)) :
    ∀ source ∈ spec.resources, nul ∉ (stagedPath B source).toList := by
  intro source hsource hnul
  have hdeclared : (⟨stagedPath B source, sourceDigest B source⟩ : ModuleManifestResource) ∈
      (requestedManifest B spec).resources := List.mem_map.2 ⟨source, hsource, rfl⟩
  obtain ⟨entry, hentry, hpath⟩ := exists_entry_of_declared h hdeclared
  obtain ⟨-, -, hnames⟩ := forall_stored hstore.entries
  have hstored := List.mem_map_of_mem (f := ArchiveEntry.pathName) hentry
  rw [hnames, List.map_map] at hstored
  obtain ⟨member, -, hname⟩ := List.mem_map.1 hstored
  have haccept := (walkPackage_ok h.read).2.named entry hentry
  rw [← show _ = stagedPath B source from hpath] at hnul
  rcases mem_of_mem_joinParts (Prod.ext haccept rfl) hnul with hslash | hmem
  · exact absurd hslash (by decide)
  · rw [← hname, Function.comp, ArchiveMember.cNamed, String.toList_ofList] at hmem
    have hne := List.mem_takeWhile_imp hmem
    exact of_decide_eq_true hne rfl

/-- Names without one are packed as they are. -/
theorem cNamed_requestedMembers
    (h : ∀ source ∈ spec.resources, nul ∉ (stagedPath B source).toList) :
    (requestedMembers B spec).map ArchiveMember.cNamed = requestedMembers B spec := by
  refine (List.map_congr_left fun member hmember => ?_).trans (List.map_id _)
  refine cNamed_eq ?_
  rcases mem_requestedMembers hmember with hmeta | ⟨source, hsource, hpath⟩
  · simp only [List.mem_cons, List.not_mem_nil, or_false] at hmeta
    rcases hmeta with hpath | hpath | hpath
    all_goals
      rw [hpath]
      decide
  · rw [hpath]
    exact h source hsource

/-- **When the verifier takes what the builder made.** -/
theorem agree_iff (B : ModuleBuilder) (spec : ModuleDescriptorBuildSpec) (built : BuiltDescriptor)
    (hbuilt : buildModuleDescriptor B spec = .ok built) (hsigns : Signs B)
    (hfrees : B.host.steps.frees = true)
    (hjson : ReadsJson B.host.fromJson (requestedText B spec))
    (hstore : ∀ file, B.writeArchive (requestedMembers B spec) = some file →
      file ≠ [] ∧ StoreOnly (B.host.readArchive file)
        ((requestedMembers B spec).map ArchiveMember.cNamed)) :
    ((readPackage B.host spec.origin (.content built.file)).authenticated = true ∧
      (readPackage B.host spec.origin (.content built.file)).manifest
        = some (requestedManifest B spec)) ↔
    Deliverable B spec := by
  have hfrom := builtFrom_of_ok hbuilt
  obtain ⟨hnonempty, hstore⟩ := hstore _ hfrom.written
  constructor
  · rintro ⟨hauth, hmanifest⟩
    obtain ⟨m, h, hundeclared⟩ := authenticated_iff.1 hauth
    have hm : m = requestedManifest B spec := Option.some.inj
      ((vouchedBy_of_vouched h hundeclared).manifest.symm.trans hmanifest)
    have hterminated := terminated_of_vouched hstore (hm ▸ h)
    rw [cNamed_requestedMembers hterminated] at hstore
    obtain ⟨hread, hsink⟩ := walkPackage_built hfrom hfrees hstore
    have hfits : MembersFit B.host.steps.unicode modulePackagePolicy _ ↔ _ :=
      membersFit_iff hstore.entries hfrom.sources
    have hparsed := h.parsed
    rw [hsink h.read] at hparsed
    obtain ⟨htexts, hsize⟩ := (parsed_built hfrom hjson hparsed).1 hm
    obtain ⟨hnamed, hapart, hnumber, heach, htotal⟩ := hfits.1 (hread.1 h.read)
    refine ⟨htexts, hsize, hnamed, hterminated, hapart, hnumber, heach, htotal,
      fun file hfile => ?_⟩
    obtain rfl : built.file = file := Option.some.inj (hfrom.written.symm.trans hfile)
    exact Int.not_lt.1 h.small
  · intro h
    rw [cNamed_requestedMembers h.terminated] at hstore
    obtain ⟨hread, hsink⟩ := walkPackage_built hfrom hfrees hstore
    have hfits : MembersFit B.host.steps.unicode modulePackagePolicy _ ↔ _ :=
      membersFit_iff hstore.entries hfrom.sources
    obtain ⟨m, hparsed⟩ := hfrom.parsed
    obtain rfl := (parsed_built hfrom hjson hparsed).2 ⟨h.texts, h.entrySize⟩
    have hok := hread.2 (hfits.2 ⟨h.named, h.apart, h.number, h.each, h.total⟩)
    obtain ⟨hshape, hsigned⟩ := checks_built hfrom hsigns
    have hnodup : ((requestedStaged B spec).map fun resource => resource.path).Nodup := by
      have hpaths : ((requestedMembers B spec).map fun member => member.relativePath).Nodup := by
        have hfolded := h.apart
        rw [show ((requestedMembers B spec).map fun member =>
            B.host.steps.unicode.toCaseFolded member.relativePath)
          = ((requestedMembers B spec).map fun member => member.relativePath).map
            B.host.steps.unicode.toCaseFolded by rw [List.map_map]; rfl] at hfolded
        exact List.Nodup.of_map _ hfolded
      refine List.Nodup.sublist ?_ hpaths
      rw [requestedMembers, descriptorMembers, List.map_cons, List.map_cons, List.map_append,
        List.map_map]
      exact ((List.sublist_append_right _ _).cons _).cons _
    obtain ⟨hdeclared, hundeclared⟩ := declared_built hnodup
    have hvouched : Vouched B.host spec.origin built.file (requestedManifest B spec) := by
      refine ⟨hfrom.ready, Int.not_lt.2 (h.archive _ hfrom.written), hnonempty, hok, ?_, ?_, ?_, ?_,
        ?_, ?_⟩
      all_goals rw [hsink hok]
      · rfl
      · rfl
      · exact hshape
      · exact hsigned
      · exact hparsed
      · exact hdeclared
    have hall : checkUndeclared (walkPackage B.host built.file).sink.actualDigests
        (requestedManifest B spec).resources = .ok () := by
      rw [hsink hok]
      exact hundeclared
    exact ⟨authenticated_iff.2 ⟨_, hvouched, hall⟩, (vouchedBy_of_vouched hvouched hall).manifest⟩

end Agreement

/-! ## A machine that packs and signs -/

/-- Members one after the other: the length of the name, the name, the length of the data in
two bytes, the data. -/
def samplePack (members : List ArchiveMember) : Bytes :=
  members.flatMap fun member =>
    let name := utf8 member.relativePath.toList
    UInt8.ofNat name.length :: name ++ UInt8.ofNat (member.bytes.length / 256) ::
      UInt8.ofNat (member.bytes.length % 256) :: member.bytes

/-- The entries of such an archive, whose names are in ASCII. -/
def sampleUnpack (consumed : Nat) : Nat → Bytes → List ArchiveEntry
  | fuel + 1, length :: rest =>
    let name := (rest.take length.toNat).map fun byte => Char.ofNat byte.toNat
    match rest.drop length.toNat with
    | high :: low :: data =>
      let size := 256 * high.toNat + low.toNat
      { storedEntry (String.ofList name) (data.take size) with consumed } ::
        sampleUnpack consumed fuel (data.drop size)
    | _ => []
  | _, _ => []

/-- A reader of JSON in ASCII. -/
def asciiJson (bytes : Bytes) : Except String JsonValue :=
  match readJson (bytes.map fun byte => Char.ofNat byte.toNat) with
  | some v => .ok v
  | none => .error "illegal value"

/-- A signature that tells messages of different lengths apart. -/
def lengthSignature (message : Bytes) : Bytes :=
  UInt8.ofNat message.length :: List.replicate 63 1

def sampleBuilder : ModuleBuilder where
  host :=
    { sampleHost with
      fromJson := asciiJson
      readArchive := fun bytes =>
        { entries := sampleUnpack bytes.length bytes.length bytes, consumed := bytes.length }
      verifyDetached := fun signature message key =>
        signature = lengthSignature message && key = sampleKey }
  files := fun path => if path = "entry.so" then some [7, 7] else none
  peDigest := fun _ => .error "no such file"
  seedKeypair := fun seed => if seed = List.replicate 32 9 then some (sampleKey, [9]) else none
  signDetached := fun message _ => some (lengthSignature message)
  writeArchive := fun members => some (samplePack members)
  opensOutput := true
  commits := true

/-- A specification with one resource, by its name and the context of its translations. -/
def sampleSpec (archivePath context : String) : ModuleDescriptorBuildSpec where
  moduleId := "org.sample"
  version := "1.0"
  sdkAbi := ⟨4, by decide⟩
  minHostVersion := "2.1"
  securityEpoch := ⟨0, by decide⟩
  capabilities := ["ui"]
  events := ["STARTED"]
  commands := []
  translationContext := context
  metadata := .empty
  buildId := "build-1"
  buildTimestamp := "now"
  buildSourceCommit := "c0ffee"
  platformOs := ""
  platformArch := ""
  platformQt := "6.8"
  resources := [{ archivePath, bytes := [7] }]
  entryNativeName := "entry"
  entryNativeFile := "entry.so"
  signingSeed := List.replicate 32 9
  outputPath := "out.gfmodule"

/-- A member as the archive gives it back. -/
def unpackedEntry (consumed : Nat) (member : ArchiveMember) : ArchiveEntry :=
  { storedEntry member.relativePath member.bytes with consumed }

theorem forall_unpackedEntry (consumed : Nat) (members : List ArchiveMember) :
    List.Forall₂ StoredAs members (members.map (unpackedEntry consumed)) := by
  induction members with
  | nil => exact .nil
  | cons member rest ih =>
    have hdata : (unpackedEntry consumed member).data = member.bytes := List.append_nil _
    refine .cons ⟨rfl, ⟨rfl, rfl, rfl, ?_, rfl⟩, hdata⟩ ih
    rw [hdata]
    rfl

theorem takesUp_unpackedEntry {consumed : Nat} (members : List ArchiveMember) :
    ∀ {written : Nat}, written + memberBytes members ≤ consumed →
      TakesUp written (members.map (unpackedEntry consumed)) := by
  induction members with
  | nil => exact fun _ => trivial
  | cons member rest ih =>
    intro written h
    have hsum : memberBytes (member :: rest) = member.bytes.length + memberBytes rest := rfl
    have hdata : (unpackedEntry consumed member).data = member.bytes := List.append_nil _
    have hwritten : (written : Int) ≤ (unpackedEntry consumed member).consumed := by
      show (written : Int) ≤ (consumed : Int)
      omega
    refine ⟨hwritten, ?_⟩
    rw [hdata, ← Int.natCast_add]
    exact ih (by omega)

theorem signs_sampleBuilder : Signs sampleBuilder where
  keySize := by
    intro seed key h
    obtain ⟨-, rfl⟩ : _ ∧ (sampleKey, [9]) = key := by simpa [sampleBuilder] using h
    rfl
  size := by
    intro message secret signature h
    rw [← Option.some.inj h]
    rfl
  verifies := by
    intro seed key message signature hkey h
    obtain ⟨-, rfl⟩ : _ ∧ (sampleKey, [9]) = key := by simpa [sampleBuilder] using hkey
    rw [← Option.some.inj h]
    simp [sampleBuilder]

/-- Whether what is built is authenticated, and comes back as it was asked for. -/
def comesBack (spec : ModuleDescriptorBuildSpec) : Option (Bool × Bool) :=
  (buildModuleDescriptor sampleBuilder spec).toOption.map fun built =>
    let v := readPackage sampleBuilder.host spec.origin (.content built.file)
    (v.authenticated, v.manifest = some (requestedManifest sampleBuilder spec))

theorem comesBack_some {spec : ModuleDescriptorBuildSpec} {authenticated same : Bool}
    (h : comesBack spec = some (authenticated, same)) :
    ∃ built, buildModuleDescriptor sampleBuilder spec = .ok built ∧
      (readPackage sampleBuilder.host spec.origin (.content built.file)).authenticated
        = authenticated ∧
      (same = true ↔ (readPackage sampleBuilder.host spec.origin (.content built.file)).manifest
        = some (requestedManifest sampleBuilder spec)) := by
  unfold comesBack at h
  cases hbuilt : buildModuleDescriptor sampleBuilder spec with
  | error why =>
    rw [hbuilt] at h
    cases h
  | ok built =>
    rw [hbuilt] at h
    obtain ⟨hauth, hsame⟩ := Prod.mk.inj (Option.some.inj h)
    exact ⟨built, rfl, hauth, by rw [← hsame, decide_eq_true_iff]⟩

/-- Whether the archive of a specification is unpacked as it was packed. -/
def unpacks (members : List ArchiveMember) : Bool :=
  let file := samplePack members
  file ≠ [] && memberBytes members ≤ file.length &&
    sampleUnpack file.length file.length file = members.map (unpackedEntry file.length)

theorem storeOnly_of_unpacks {members : List ArchiveMember} (h : unpacks members = true) :
    samplePack members ≠ [] ∧
      StoreOnly (sampleBuilder.host.readArchive (samplePack members)) members := by
  unfold unpacks at h
  extract_lets file at h
  simp only [Bool.and_eq_true, decide_eq_true_eq] at h
  obtain ⟨⟨hfile, htotal⟩, hunpack⟩ := h
  refine ⟨hfile, rfl, rfl, ?_, ?_, Int.ofNat_le.2 htotal⟩
  · show List.Forall₂ StoredAs members (sampleUnpack file.length file.length file)
    rw [hunpack]
    exact forall_unpackedEntry _ members
  · show TakesUp ((0 : Nat) : Int) (sampleUnpack file.length file.length file)
    rw [hunpack]
    exact takesUp_unpackedEntry members (by rw [Nat.zero_add]; exact htotal)

theorem readsJson_ascii {text : List Char}
    (h : (utf8 text).map (fun byte => Char.ofNat byte.toNat) = text) :
    ReadsJson asciiJson text := by
  intro v hv
  rw [asciiJson, h, hv]

/-- A specification in plain letters is deliverable. -/
theorem agree_iff_plain : Deliverable sampleBuilder (sampleSpec "a" "Sample") := by
  obtain ⟨built, hbuilt, hauth, hsame⟩ := comesBack_some
    (by decide +kernel : comesBack (sampleSpec "a" "Sample") = some (true, true))
  obtain ⟨hascii, hnames, hunpacks⟩ :
      (utf8 (requestedText sampleBuilder (sampleSpec "a" "Sample"))).map
          (fun byte => Char.ofNat byte.toNat)
        = requestedText sampleBuilder (sampleSpec "a" "Sample") ∧
      (requestedMembers sampleBuilder (sampleSpec "a" "Sample")).map ArchiveMember.cNamed
        = requestedMembers sampleBuilder (sampleSpec "a" "Sample") ∧
      unpacks (requestedMembers sampleBuilder (sampleSpec "a" "Sample")) = true := by
    decide +kernel
  refine (agree_iff sampleBuilder (sampleSpec "a" "Sample") built hbuilt signs_sampleBuilder rfl
    (readsJson_ascii hascii) (fun file hfile => ?_)).1 ⟨hauth, hsame.1 rfl⟩
  obtain rfl := Option.some.inj hfile
  rw [hnames]
  exact storeOnly_of_unpacks hunpacks

/-- A context beyond U+FFFF is built and authenticated, and comes back as two question marks;
a resource whose name differs from that of the manifest by case only is built and refused. -/
theorem built_and_not_delivered :
    (∃ built, buildModuleDescriptor sampleBuilder (sampleSpec "a" "😀") = .ok built ∧
      (readPackage sampleBuilder.host .integrated (.content built.file)).authenticated = true ∧
      (readPackage sampleBuilder.host .integrated (.content built.file)).manifest
        ≠ some (requestedManifest sampleBuilder (sampleSpec "a" "😀"))) ∧
    ∃ built, buildModuleDescriptor sampleBuilder (sampleSpec "meta-inf/manifest.json" "Sample")
        = .ok built ∧
      (readPackage sampleBuilder.host .integrated (.content built.file)).authenticated = false := by
  obtain ⟨marked, hmarked, hauth, hsame⟩ := comesBack_some
    (by decide +kernel : comesBack (sampleSpec "a" "😀") = some (true, false))
  obtain ⟨refused, hrefused, hnot, -⟩ := comesBack_some
    (by decide +kernel :
      comesBack (sampleSpec "meta-inf/manifest.json" "Sample") = some (false, false))
  exact ⟨⟨marked, hmarked, hauth, fun h => absurd (hsame.2 h) (by decide)⟩, refused, hrefused, hnot⟩

end GpgFrontend
