import GpgFrontend.Function.ArchiveExtraction
import GpgFrontend.Profile.PackageExport
import GpgFrontend.Profile.PackageRead
import GpgFrontend.Profile.PackageSafety

/-!
# The archive inside a package

The manifest comes first and is diverted into memory; what follows lies below `profile/`.
-/

namespace GpgFrontend

/-- `kProfilePackageTreePrefix`. -/
def profileTreePrefix : List Char := "profile".toList

/-- The name of the manifest in the archive. -/
def manifestName : List Char := "manifest.json".toList

theorem isPlainPart_profile : IsPlainPart profileTreePrefix :=
  ⟨by decide, by decide, by decide, fun _ hc h => absurd (h ▸ hc) (by decide),
    fun _ hc h => absurd (h ▸ hc) (by decide)⟩

theorem isPlainPart_manifest : IsPlainPart manifestName :=
  ⟨by decide, by decide, by decide, fun _ hc h => absurd (h ▸ hc) (by decide),
    fun _ hc h => absurd (h ▸ hc) (by decide)⟩

theorem manifest_ne_profile : "manifest.json" ≠ String.ofList profileTreePrefix := by decide

/-- What an export packs: the manifest, and members below `profile/` behind it. -/
structure ExportedMembers (manifestBytes : Bytes) (members : List ArchiveMember) : Prop where
  manifest : members.head? = some { relativePath := "manifest.json", bytes := manifestBytes }
  below : ∀ member ∈ members.tail, ∃ path, member.relativePath = "profile/" ++ path

section Export

variable {S : SecretStream} {E : PackageExport S} {request : ProfileExportRequest}
  {content : ExportContent}

/-- What an export that gets to its write has checked and made. -/
theorem exportContent_ok (h : exportContent E request = .ok content) :
    (request.protection = .pin → request.passphrase ≠ []) ∧
      (∃ unpacked, content.manifest = exportManifest E request unpacked) ∧
      ExportedMembers (encodeProfilePackageManifest E.manifestCodec content.manifest)
        content.members := by
  unfold exportContent at h
  split at h
  · cases h
  next hpass =>
  split at h
  · cases h
  split at h
  · cases h
  dsimp only at h
  split at h
  · cases h
  obtain rfl := Except.ok.inj h
  refine ⟨fun hpin hnil => hpass ⟨hpin, hnil⟩, ⟨_, rfl⟩, rfl, ?_⟩
  intro member hmember
  rcases List.mem_append.mp hmember with hextra | htree
  · obtain ⟨m, -, rfl⟩ := List.mem_map.mp hextra
    exact ⟨m.path, rfl⟩
  · obtain ⟨m, -, rfl⟩ := List.mem_map.mp htree
    exact ⟨m.path, rfl⟩

end Export

/-- The name of a member below `profile/`. -/
theorem pathName_below {member : ArchiveMember}
    (h : ∃ path, member.relativePath = "profile/" ++ path) :
    ∃ rest, member.pathName = profileTreePrefix ++ '/' :: rest := by
  obtain ⟨path, hpath⟩ := h
  refine ⟨path.toList ++ if member.directory then ['/'] else [], ?_⟩
  rw [ArchiveMember.pathName, hpath, String.toList_append, List.append_assoc]
  rfl

/-! ## The manifest in the staging directory -/

/-- The manifest in a directory is the one given or an empty one, or there is none. -/
def HoldsManifest (manifestBytes : Bytes) (children : List (String × FsNode Bytes)) : Prop :=
  FsNode.find "manifest.json" children = none ∨
    ∃ bytes, FsNode.find "manifest.json" children = some (.file bytes) ∧
      (bytes = [] ∨ bytes = manifestBytes)

section Extracted

variable {τ : Type} {steps : ExtractionSteps} {policy : ArchiveExtractPolicy}
  {routing : ProfileExtractionRouting τ} {x : Extraction τ} {entry : ArchiveEntry}
  {manifestBytes : Bytes}

theorem claims_manifest (routing : ProfileExtractionRouting τ) :
    routing.claims (joinParts [manifestName]) = false := by
  have hparts : pathParts (joinParts [manifestName]) = [manifestName] := by decide
  rw [ProfileExtractionRouting.claims, hparts]

theorem diversion_manifest :
    routing.diversion.filter (·.claims (joinParts [manifestName])) = none := by
  rw [ProfileExtractionRouting.diversion]
  split
  · rfl
  · exact Option.filter_some.trans
      (if_neg fun h => Bool.false_ne_true ((claims_manifest routing).symm.trans h))

/-- The first entry of the archive, into an empty directory. -/
theorem extractEntry_manifest
    (hcarries : entry.Carries { relativePath := "manifest.json", bytes := manifestBytes })
    (htree : x.tree = [])
    (hgo : (extractEntry steps policy routing.diversion true x entry).1 = true) :
    HoldsManifest manifestBytes (extractEntry steps policy routing.diversion true x entry).2.tree := by
  unfold extractEntry at hgo ⊢
  rcases hadmitted : admitEntry steps policy x entry with why | ⟨y, parts⟩
  · rw [hadmitted] at hgo
    cases hgo
  obtain ⟨hvalid, hsame, -⟩ := admitEntry_ok hadmitted
  have hname : entry.pathName = manifestName := hcarries.pathName.trans (List.append_nil _)
  rw [hname] at hvalid
  obtain rfl := validate_plain isPlainPart_manifest hvalid
  rw [hadmitted] at hgo
  dsimp only at hgo ⊢
  rw [diversion_manifest] at hgo ⊢
  obtain ⟨content, hwritten, hcontent⟩ := writeEntry_first hcarries rfl (hsame.trans htree) hgo
  right
  refine ⟨content, ?_, hcontent⟩
  have hfirst : (writeEntry steps policy y entry [manifestName]).2.tree =
      [("manifest.json", .file content)] := hwritten
  dsimp only
  rw [if_neg (by decide), hfirst]
  rfl

variable {members : List ArchiveMember}

/-- A walk over entries that follow the members of an export, into an empty directory. -/
theorem extractLoop_manifest {entries : List ArchiveEntry} {n : Nat}
    (hmembers : ExportedMembers manifestBytes members)
    (hentries : List.Forall₂ ArchiveEntry.Carries entries (members.take n)) (htree : x.tree = [])
    (hgo : (extractLoop steps policy routing.diversion true entries x).1 = true) :
    HoldsManifest manifestBytes
      (extractLoop steps policy routing.diversion true entries x).2.tree := by
  obtain ⟨hmanifest, hbelow⟩ := hmembers
  rcases members with _ | ⟨manifest, members⟩
  · cases hmanifest
  obtain rfl := Option.some.inj hmanifest
  have hnone : HoldsManifest manifestBytes x.tree := by
    rw [htree]
    exact .inl rfl
  cases n with
  | zero =>
    obtain rfl := List.forall₂_nil_right_iff.mp hentries
    exact hnone
  | succ n =>
    obtain ⟨entry, rest, hcarries, hrest, rfl⟩ := List.forall₂_cons_right_iff.mp hentries
    rw [extractLoop] at hgo ⊢
    split at hgo
    · next hstep =>
      have hafter := extractEntry_manifest hcarries htree hstep
      rw [if_pos hstep]
      -- the others stay below `profile/`
      have hothers : ∀ e ∈ rest, ∃ below, e.pathName = profileTreePrefix ++ '/' :: below := by
        intro e he
        obtain ⟨member, hmember, hcarried⟩ := carried_of_mem hrest he
        rw [hcarried.pathName]
        exact pathName_below (hbelow member (List.mem_of_mem_take hmember))
      rw [HoldsManifest, extractLoop_find isPlainPart_profile manifest_ne_profile rest hothers]
      exact hafter
    · next hstep => exact absurd hgo hstep

variable {destination : Option (FsNode Bytes)}

/-- An extraction that asks for an empty destination starts from one. -/
theorem startTree_nil {tree : List (String × FsNode Bytes)}
    (hempty : policy.requireEmptyDestination = true)
    (h : startTree steps policy true destination = some tree) : tree = [] := by
  unfold startTree at h
  rw [if_pos (by rw [hempty]; rfl)] at h
  split at h
  · split at h
    · exact (Option.some.inj h).symm
    · cases h
  · exact (Option.some.inj h).symm
  · cases h

/-- **The manifest arrives as it was packed.** Whatever front part of an exported archive
comes through: when it unpacks, the manifest in the staging directory is the packed one,
an empty one, or there is none. -/
theorem extracted_manifest {stream : ArchiveStream} {n : Nat} {sink : τ}
    (hempty : policy.requireEmptyDestination = true)
    (hmembers : ExportedMembers manifestBytes members)
    (hentries : List.Forall₂ ArchiveEntry.Carries stream.entries (members.take n))
    (hok : (extractArchive steps policy routing.diversion true stream destination sink).ok = true) :
    ∃ children, (extractArchive steps policy routing.diversion true stream destination
      sink).destination = some (.dir children) ∧ HoldsManifest manifestBytes children := by
  unfold extractArchive at hok ⊢
  rcases hstart : startTree steps policy true destination with _ | tree
  · rw [hstart] at hok
    cases hok
  obtain rfl := startTree_nil hempty hstart
  rw [hstart] at hok
  dsimp only at hok ⊢
  split at hok
  · cases hok
  next hopens =>
  rw [if_neg hopens]
  split at hok
  · cases hok
  next hwalked =>
  rw [if_neg hwalked]
  set walked := walkArchive steps policy routing.diversion true stream { tree := [], sink := sink }
    with hwalk
  have hgo : walked.1 = true := by simpa using hwalked
  have hloop := walkArchive_ok hgo
  rw [hwalk, hloop] at hgo
  refine ⟨walked.2.tree, ?_, ?_⟩
  · rw [if_pos rfl]
    split <;> rfl
  · rw [hwalk, hloop]
    exact extractLoop_manifest hmembers hentries rfl hgo

end Extracted

/-! ## The whole archive -/

section Placed

variable {unicode : QtUnicode} {policy : ArchiveExtractPolicy}

end Placed

end GpgFrontend
