import GpgFrontend.Module.ModuleDescriptor

/-!
# A verified descriptor holds what its manifest declares

- `descriptor_exact_iff`: **a package is exact whenever it is authenticated, unless its
  manifest repeats resource paths and its archive carries as many members that nothing
  declares.** The look for such members is skipped when the numbers agree
  (`appended_member_verifies`).
-/

namespace GpgFrontend

/-! ## What is in a package -/

section Package

variable (host : ModuleHost) (bytes : Bytes)

/-- The members of a package, by their normalised names. -/
def packageMembers : List (String × Bytes) :=
  deliveredMembers host.steps.unicode modulePackagePolicy (host.readArchive bytes).entries

/-- The members outside `META-INF`. -/
def resourceMembers : List (String × Bytes) :=
  (packageMembers host bytes).filter fun member => !isMetaPath member.1

/-- The members are those the manifest declares. A manifest declares no sizes: what fixes the
size is the digest, as far as nothing else has it. -/
structure DescriptorExact (m : ModuleManifest) : Prop where
  declared : ∀ member ∈ resourceMembers host bytes, ∃ resource ∈ m.resources,
    resource.path = member.1 ∧ resource.sha256 = host.sha256Hex member.2
  present : ∀ resource ∈ m.resources, ∃ member ∈ resourceMembers host bytes,
    member.1 = resource.path ∧ host.sha256Hex member.2 = resource.sha256
  once : ((resourceMembers host bytes).map Prod.fst).Nodup
  sized : ∀ resource ∈ m.resources, ∀ file,
    (∀ other, host.sha256Hex other = host.sha256Hex file → other = file) →
    host.sha256Hex file = resource.sha256 → (resource.path, file) ∈ resourceMembers host bytes
  caseDistinct : ((packageMembers host bytes).map fun member =>
    host.steps.unicode.toCaseFolded member.1).Nodup

/-- The manifest shown is parsed from a member that a signature in the package is over, under
the key shown, which for an integrated module is that of this build. -/
structure VouchedBy (origin : ModuleOrigin) (v : ModuleDescriptorVerification)
    (m : ModuleManifest) : Prop where
  manifest : v.manifest = some m
  parsed : parseModuleManifest host.strings host.fromJson v.manifestBytes = .ok m
  carried : (moduleDescriptorManifestPath, v.manifestBytes) ∈ packageMembers host bytes
  signed : ∃ signature, (moduleDescriptorSignaturePath, signature) ∈ packageMembers host bytes ∧
    host.verifyDetached signature v.manifestBytes v.signerPublicKey = true
  integrated : origin = .integrated → v.signerPublicKey = host.buildPublicKey

/-- If the verification concludes that the package is authentic, it is what its signed
manifest declares. -/
def VerificationExact (origin : ModuleOrigin) : Prop :=
  let v := readPackage host origin (.content bytes)
  v.authenticated = true → ∃ m, VouchedBy host bytes origin v m ∧ DescriptorExact host bytes m

end Package

/-! ## What the walk keeps -/

section Walk

variable {host : ModuleHost} {members : List (String × Bytes)}

/-- The digest of a member outside `META-INF` is kept. -/
theorem actualDigests_readMember {walk : PackageWalk} {path : String} {bytes : Bytes}
    (h : (readMember host path bytes walk).1 = true) :
    (readMember host path bytes walk).2.actualDigests =
      if isMetaPath path then walk.actualDigests
      else walk.actualDigests.insert path (host.sha256Hex bytes) := by
  have hmeta : ∀ path ∈ [moduleDescriptorManifestPath, moduleDescriptorSignaturePath,
      moduleDescriptorPublisherKeyPath], isMetaPath path = true := by decide
  rw [readMember] at h ⊢
  split
  · next hpath => rw [hmeta path (by simp [hpath]), if_pos rfl]
  split
  · next hpath => rw [hmeta path (by simp [hpath]), if_pos rfl]
  split
  · next hpath => rw [hmeta path (by simp [hpath]), if_pos rfl]
  next hmanifest hsignature hkey =>
  rw [if_neg hmanifest, if_neg hsignature, if_neg hkey] at h
  split
  · rfl
  next hresource =>
  rw [if_neg hresource] at h
  dsimp only at h ⊢
  split at h
  · cases h
  · next hdigest => rw [if_neg hdigest]

/-- The digests the walk gathers are those of the members outside `META-INF`. -/
theorem actualDigests_takeAll (members : List (String × Bytes)) :
    ∀ {walk walk' : PackageWalk}, takeAll (readMember host) members walk = (true, walk') →
      walk'.actualDigests = walk.actualDigests.insertAll
        ((members.filter fun member => !isMetaPath member.1).map fun member =>
          (member.1, host.sha256Hex member.2)) := by
  induction members with
  | nil =>
    intro walk walk' h
    rw [← (Prod.mk.inj h).2]
    rfl
  | cons member rest ih =>
    intro walk walk' h
    obtain ⟨htaken, hrest⟩ := takeAll_cons_ok h
    rw [ih hrest, actualDigests_readMember htaken, List.filter_cons]
    cases hpath : isMetaPath member.1 <;> simp

/-- The bytes the walk keeps under a name of `META-INF` are those of a member, once it has
counted one. -/
structure MetaKept (members : List (String × Bytes)) (walk : PackageWalk) : Prop where
  manifest : 0 < walk.manifestCount →
    (moduleDescriptorManifestPath, walk.manifestBytes) ∈ members
  signature : 0 < walk.signatureCount →
    (moduleDescriptorSignaturePath, walk.signatureBytes) ∈ members

theorem metaKept_readMember {walk : PackageWalk} {member : String × Bytes}
    (hmember : member ∈ members) (h : MetaKept members walk) :
    MetaKept members (readMember host member.1 member.2 walk).2 := by
  rw [readMember]
  split
  · next hpath => exact ⟨fun _ => by rw [← hpath]; exact hmember, h.signature⟩
  split
  · next hpath => exact ⟨h.manifest, fun _ => by rw [← hpath]; exact hmember⟩
  split
  · exact ⟨h.manifest, h.signature⟩
  split
  · exact ⟨h.manifest, h.signature⟩
  dsimp only
  split <;> exact ⟨h.manifest, h.signature⟩

theorem metaKept_takeAll (later : List (String × Bytes)) :
    ∀ {walk walk' : PackageWalk}, (∀ member ∈ later, member ∈ members) → MetaKept members walk →
      takeAll (readMember host) later walk = (true, walk') → MetaKept members walk' := by
  induction later with
  | nil =>
    intro walk walk' _ hkept h
    rw [← (Prod.mk.inj h).2]
    exact hkept
  | cons member rest ih =>
    intro walk walk' hmembers hkept h
    exact ih (fun m hm => hmembers m (List.mem_cons_of_mem _ hm))
      (metaKept_readMember (hmembers member List.mem_cons_self) hkept) (takeAll_cons_ok h).2

end Walk

/-! ## The checks on the resources -/

theorem checkDeclared_ok_iff {actual : QMap String} {resources : List ModuleManifestResource} :
    checkDeclared actual resources = .ok () ↔
      ∀ resource ∈ resources, actual.value resource.path = some resource.sha256 := by
  induction resources with
  | nil => simp [checkDeclared]
  | cons resource rest ih =>
    rw [checkDeclared, List.forall_mem_cons]
    cases hvalue : actual.value resource.path with
    | none => simp
    | some digest =>
      by_cases hdigest : digest = resource.sha256
      · simp [hdigest, ih]
      · simp [hdigest]

theorem checkUndeclared_ok_iff {actual : QMap String} {resources : List ModuleManifestResource} :
    checkUndeclared actual resources = .ok () ↔
      (actual.size ≠ resources.length →
        ∀ path ∈ actual.keys, path ∈ resources.map (·.path)) := by
  rw [checkUndeclared]
  by_cases hsize : actual.size ≠ resources.length
  · rw [if_pos hsize]
    cases hfind : actual.keys.find? fun path => !(resources.map (·.path)).contains path with
    | none =>
      rw [List.find?_eq_none] at hfind
      simpa [hsize] using hfind
    | some path =>
      have hpath := List.find?_some hfind
      have hmem := List.mem_of_find?_eq_some hfind
      simp only [reduceCtorEq, false_iff, not_forall]
      exact ⟨hsize, path, hmem, by simpa using hpath⟩
  · rw [if_neg hsize]
    simp [hsize]

/-! ## What authentication comes to -/

section Authentic

variable {host : ModuleHost} {origin : ModuleOrigin} {bytes : Bytes} {m : ModuleManifest}

/-- Everything authentication asks for, but that no member is left undeclared. -/
structure Vouched (host : ModuleHost) (origin : ModuleOrigin) (bytes : Bytes)
    (m : ModuleManifest) : Prop where
  ready : host.sodiumReady = true
  small : ¬ maxPackageTotalBytes < bytes.length
  nonempty : bytes ≠ []
  read : (walkPackage host bytes).ok = true
  hashed : (walkPackage host bytes).sink.hashFailed = false
  known : (walkPackage host bytes).sink.unknownMeta = []
  shaped : checkShape host origin (walkPackage host bytes).sink = .ok ()
  signed : checkSignature host origin (walkPackage host bytes).sink = .ok ()
  parsed : parseModuleManifest host.strings host.fromJson
    (walkPackage host bytes).sink.manifestBytes = .ok m
  declared : checkDeclared (walkPackage host bytes).sink.actualDigests m.resources = .ok ()

variable {walk : PackageWalk}

theorem authenticate_ok_iff :
    authenticate host origin walk = .ok m ↔
      checkShape host origin walk = .ok () ∧ checkSignature host origin walk = .ok () ∧
      parseModuleManifest host.strings host.fromJson walk.manifestBytes = .ok m ∧
      checkDeclared walk.actualDigests m.resources = .ok () ∧
      checkUndeclared walk.actualDigests m.resources = .ok () := by
  unfold authenticate
  simp only [bind_eq_ok, pure_eq_ok]
  constructor
  · rintro ⟨_, hshape, _, hsigned, m', hparsed, _, hdeclared, _, hundeclared, rfl⟩
    cases hparse : parseModuleManifest host.strings host.fromJson walk.manifestBytes with
    | error refused =>
      rw [hparse] at hparsed
      cases hparsed
    | ok m'' =>
      rw [hparse] at hparsed
      obtain rfl : m'' = m' := Except.ok.inj hparsed
      exact ⟨hshape, hsigned, rfl, hdeclared, hundeclared⟩
  · rintro ⟨hshape, hsigned, hparsed, hdeclared, hundeclared⟩
    exact ⟨(), hshape, (), hsigned, m, by rw [hparsed]; rfl, (), hdeclared, (), hundeclared, rfl⟩

/-- The facts a verdict carries once the package is authenticated. -/
theorem concludeVerification_ok (h : authenticate host origin walk = .ok m) :
    let v := concludeVerification host origin walk
    v.authenticated = true ∧ v.manifest = some m ∧ v.manifestBytes = walk.manifestBytes ∧
      v.signerPublicKey = expectedPublicKey host origin walk := by
  rw [concludeVerification, h]
  dsimp only
  cases admission host origin m <;> exact ⟨rfl, rfl, rfl, rfl⟩

theorem concludeVerification_authenticated
    (h : (concludeVerification host origin walk).authenticated = true) :
    ∃ m, authenticate host origin walk = .ok m := by
  cases hauth : authenticate host origin walk with
  | ok m => exact ⟨m, rfl⟩
  | error refused =>
    rw [concludeVerification, hauth] at h
    cases h

/-- A package that is held and walked is judged by what the walk kept. -/
theorem readPackage_walked (hready : host.sodiumReady = true)
    (hsmall : ¬ maxPackageTotalBytes < bytes.length) (hnonempty : bytes ≠ [])
    (hread : (walkPackage host bytes).ok = true)
    (hhashed : (walkPackage host bytes).sink.hashFailed = false)
    (hknown : (walkPackage host bytes).sink.unknownMeta = []) :
    readPackage host origin (.content bytes)
      = concludeVerification host origin (walkPackage host bytes).sink := by
  rw [readPackage, hready]
  simp [readPackageBytes, hsmall, hnonempty, hread, hhashed, hknown]

/-- **What authentication comes to.** -/
theorem authenticated_iff :
    (readPackage host origin (.content bytes)).authenticated = true ↔
      ∃ m, Vouched host origin bytes m ∧
        checkUndeclared (walkPackage host bytes).sink.actualDigests m.resources = .ok () := by
  constructor
  · intro h
    have hready : host.sodiumReady = true := by
      by_contra hnot
      rw [Bool.not_eq_true] at hnot
      simp [readPackage, hnot] at h
    have hbytes : (readPackageBytes host origin bytes).authenticated = true := by
      simpa [readPackage, hready] using h
    unfold readPackageBytes at hbytes
    split at hbytes
    · cases hbytes
    next hsmall =>
    split at hbytes
    · cases hbytes
    next hnonempty =>
    dsimp only at hbytes
    split at hbytes
    · cases hbytes
    next hread =>
    split at hbytes
    · cases hbytes
    next hhashed =>
    split at hbytes
    · cases hbytes
    next hknown =>
    obtain ⟨m, hauth⟩ := concludeVerification_authenticated hbytes
    obtain ⟨hshape, hsigned, hparsed, hdeclared, hundeclared⟩ := authenticate_ok_iff.1 hauth
    exact ⟨m, ⟨hready, hsmall, hnonempty, by simpa using hread, by simpa using hhashed,
      by simpa using hknown, hshape, hsigned, hparsed, hdeclared⟩, hundeclared⟩
  · rintro ⟨m, h, hundeclared⟩
    rw [readPackage_walked h.ready h.small h.nonempty h.read h.hashed h.known]
    exact (concludeVerification_ok (authenticate_ok_iff.2
      ⟨h.shaped, h.signed, h.parsed, h.declared, hundeclared⟩)).1

/-! ## The members of an authenticated package -/

theorem checkShape_counts (h : checkShape host origin walk = .ok ()) :
    walk.manifestCount = 1 ∧ walk.signatureCount = 1 := by
  unfold checkShape at h
  simp only [bind_eq_ok, require_eq_ok] at h
  exact h.choose_spec.1

theorem checkSignature_verified (h : checkSignature host origin walk = .ok ()) :
    host.verifyDetached walk.signatureBytes walk.manifestBytes
      (expectedPublicKey host origin walk) = true := by
  unfold checkSignature at h
  simp only [bind_eq_ok, require_eq_ok] at h
  obtain ⟨-, -, -, -, hverified⟩ := h
  exact hverified

/-- What the walk of a package that is read has handed over. -/
theorem walkPackage_ok (h : (walkPackage host bytes).ok = true) :
    takeAll (readMember host) (packageMembers host bytes) {}
        = (true, (walkPackage host bytes).sink) ∧
      MembersFit host.steps.unicode modulePackagePolicy (host.readArchive bytes).entries :=
  readArchiveMembers_ok (by decide) (by decide) h

theorem vouchedBy_of_vouched (h : Vouched host origin bytes m)
    (hundeclared : checkUndeclared (walkPackage host bytes).sink.actualDigests m.resources
      = .ok ()) :
    VouchedBy host bytes origin (readPackage host origin (.content bytes)) m := by
  obtain ⟨htaken, -⟩ := walkPackage_ok h.read
  have hstart : MetaKept (packageMembers host bytes) {} :=
    ⟨fun hpos => absurd hpos (lt_irrefl 0), fun hpos => absurd hpos (lt_irrefl 0)⟩
  have hkept := metaKept_takeAll _ (fun _ h => h) hstart htaken
  obtain ⟨hmanifest, hsignature⟩ := checkShape_counts h.shaped
  obtain ⟨-, hshown, hbytes, hkey⟩ := concludeVerification_ok (authenticate_ok_iff.2
    ⟨h.shaped, h.signed, h.parsed, h.declared, hundeclared⟩)
  rw [readPackage_walked h.ready h.small h.nonempty h.read h.hashed h.known]
  refine ⟨hshown, by rw [hbytes]; exact h.parsed, ?_, ⟨_, hkept.signature (by omega), ?_⟩, ?_⟩
  · rw [hbytes]
    exact hkept.manifest (by omega)
  · rw [hbytes, hkey]
    exact checkSignature_verified h.signed
  · rintro rfl
    exact hkey

/-- No two names of a package that is read differ by case only. -/
theorem caseDistinct_of_read (h : (walkPackage host bytes).ok = true) :
    ((packageMembers host bytes).map fun member =>
      host.steps.unicode.toCaseFolded member.1).Nodup := by
  have hdistinct := (walkPackage_ok h).2.distinct rfl
  rw [packageMembers, deliveredMembers, List.map_map]
  exact (List.filter_sublist.map _).nodup hdistinct

theorem resourceMembers_nodup (h : (walkPackage host bytes).ok = true) :
    ((resourceMembers host bytes).map Prod.fst).Nodup := by
  have hfolded := caseDistinct_of_read h
  have hnames : ((packageMembers host bytes).map Prod.fst).Nodup := by
    have heq : ((packageMembers host bytes).map fun member =>
        host.steps.unicode.toCaseFolded member.1)
        = ((packageMembers host bytes).map Prod.fst).map host.steps.unicode.toCaseFolded := by
      rw [List.map_map]
      rfl
    exact List.Nodup.of_map _ (heq ▸ hfolded)
  exact (List.filter_sublist.map _).nodup hnames

/-- The members outside `META-INF`, with their digests. -/
def resourceDigests (host : ModuleHost) (bytes : Bytes) : List (String × String) :=
  (resourceMembers host bytes).map fun member => (member.1, host.sha256Hex member.2)

theorem resourceDigests_names (host : ModuleHost) (bytes : Bytes) :
    (resourceDigests host bytes).map Prod.fst = (resourceMembers host bytes).map Prod.fst := by
  rw [resourceDigests, List.map_map]
  rfl

theorem actualDigests_eq (h : (walkPackage host bytes).ok = true) :
    (walkPackage host bytes).sink.actualDigests
      = QMap.empty.insertAll (resourceDigests host bytes) :=
  actualDigests_takeAll _ (walkPackage_ok h).1

theorem mem_actualDigests_keys (h : (walkPackage host bytes).ok = true) {path : String} :
    path ∈ (walkPackage host bytes).sink.actualDigests.keys ↔
      path ∈ (resourceMembers host bytes).map Prod.fst := by
  rw [actualDigests_eq h, QMap.mem_keys_insertAll, resourceDigests_names, QMap.keys_empty]
  simp

theorem actualDigests_size (h : (walkPackage host bytes).ok = true) :
    (walkPackage host bytes).sink.actualDigests.size = (resourceMembers host bytes).length := by
  have hnodup : ((resourceDigests host bytes).map Prod.fst).Nodup := by
    rw [resourceDigests_names]
    exact resourceMembers_nodup h
  rw [actualDigests_eq h, QMap.size_insertAll hnodup, resourceDigests, List.length_map]

/-- The digest kept under a name is that of its member. -/
theorem actualDigests_value (h : (walkPackage host bytes).ok = true) {member : String × Bytes}
    (hmember : member ∈ resourceMembers host bytes) :
    (walkPackage host bytes).sink.actualDigests.value member.1
      = some (host.sha256Hex member.2) := by
  have hnodup : ((resourceDigests host bytes).map Prod.fst).Nodup := by
    rw [resourceDigests_names]
    exact resourceMembers_nodup h
  rw [actualDigests_eq h]
  exact QMap.value_insertAll hnodup (List.mem_map.2 ⟨member, hmember, rfl⟩)

/-- Every declared resource of a package that is vouched for is one of its members. -/
theorem present_of_vouched (h : Vouched host origin bytes m) {resource : ModuleManifestResource}
    (hresource : resource ∈ m.resources) :
    ∃ member ∈ resourceMembers host bytes,
      member.1 = resource.path ∧ host.sha256Hex member.2 = resource.sha256 := by
  have hvalue := checkDeclared_ok_iff.1 h.declared resource hresource
  have hkey : resource.path ∈ (walkPackage host bytes).sink.actualDigests.keys :=
    QMap.mem_keys_iff.2 ⟨_, hvalue⟩
  obtain ⟨member, hmember, hpath⟩ := List.mem_map.1 ((mem_actualDigests_keys h.read).1 hkey)
  refine ⟨member, hmember, hpath, ?_⟩
  have hdigest := actualDigests_value h.read hmember
  rw [hpath, hvalue] at hdigest
  exact (Option.some.inj hdigest).symm

/-- What is exact about a package that is vouched for, once every member is declared. -/
theorem exact_of_vouched (h : Vouched host origin bytes m)
    (hall : ∀ member ∈ resourceMembers host bytes, member.1 ∈ m.resources.map (·.path)) :
    DescriptorExact host bytes m := by
  refine ⟨fun member hmember => ?_, fun resource hresource => present_of_vouched h hresource,
    resourceMembers_nodup h.read, fun resource hresource file hunique hfile => ?_,
    caseDistinct_of_read h.read⟩
  · obtain ⟨resource, hresource, hpath⟩ := List.mem_map.1 (hall member hmember)
    refine ⟨resource, hresource, hpath, ?_⟩
    have hvalue := checkDeclared_ok_iff.1 h.declared resource hresource
    rw [hpath, actualDigests_value h.read hmember] at hvalue
    exact (Option.some.inj hvalue).symm
  · obtain ⟨member, hmember, hpath, hdigest⟩ := present_of_vouched h hresource
    have heq : member.2 = file := hunique member.2 (hdigest.trans hfile.symm)
    rw [← hpath, ← heq]
    exact hmember

/-- Where no path is declared twice, as many declarations as members are all the members. -/
theorem declared_of_nodup (h : Vouched host origin bytes m)
    (hnodup : (m.resources.map (·.path)).Nodup)
    (hcount : (resourceMembers host bytes).length = m.resources.length) :
    ∀ member ∈ resourceMembers host bytes, member.1 ∈ m.resources.map (·.path) := by
  have hsubset : m.resources.map (·.path) ⊆ (resourceMembers host bytes).map Prod.fst := by
    intro path hpath
    obtain ⟨resource, hresource, rfl⟩ := List.mem_map.1 hpath
    obtain ⟨member, hmember, hname, -⟩ := present_of_vouched h hresource
    exact List.mem_map.2 ⟨member, hmember, hname⟩
  have hperm : (m.resources.map (·.path)).Perm ((resourceMembers host bytes).map Prod.fst) :=
    (List.subperm_of_subset hnodup hsubset).perm_of_length_le (by simp [hcount])
  exact fun member hmember => hperm.mem_iff.2 (List.mem_map_of_mem hmember)

/-- A package carries a member that nothing declares although it has as many as its manifest
has declarations: some of these repeat a path. -/
def Appended (host : ModuleHost) (bytes : Bytes) (m : ModuleManifest) : Prop :=
  (resourceMembers host bytes).length = m.resources.length ∧
    ∃ member ∈ resourceMembers host bytes, member.1 ∉ m.resources.map (·.path)

/-- **When the verification is exact.** A package that is vouched for must not carry as many
members that nothing declares as its manifest repeats paths. One whose manifest repeats none
is exact. -/
theorem descriptor_exact_iff (host : ModuleHost) (origin : ModuleOrigin) (bytes : Bytes) :
    (VerificationExact host bytes origin ↔
      ∀ m, Vouched host origin bytes m → ¬ Appended host bytes m) ∧
    ((∀ m, Vouched host origin bytes m → (m.resources.map (·.path)).Nodup) →
      VerificationExact host bytes origin) := by
  have hiff : VerificationExact host bytes origin ↔
      ∀ m, Vouched host origin bytes m → ¬ Appended host bytes m := by
    constructor
    · rintro hexact m h ⟨hcount, member, hmember, hundeclared⟩
      have hpassed : checkUndeclared (walkPackage host bytes).sink.actualDigests m.resources
          = .ok () := checkUndeclared_ok_iff.2 fun hne =>
        absurd ((actualDigests_size h.read).trans hcount) hne
      obtain ⟨m', hvouched, hm'⟩ := hexact (authenticated_iff.2 ⟨m, h, hpassed⟩)
      obtain rfl : m' = m := Option.some.inj
        (hvouched.manifest.symm.trans (vouchedBy_of_vouched h hpassed).manifest)
      obtain ⟨resource, hresource, hpath, -⟩ := hm'.declared member hmember
      exact hundeclared (List.mem_map.2 ⟨resource, hresource, hpath⟩)
    · intro hnone hauth
      obtain ⟨m, h, hpassed⟩ := authenticated_iff.1 hauth
      refine ⟨m, vouchedBy_of_vouched h hpassed, exact_of_vouched h fun member hmember => ?_⟩
      by_contra hundeclared
      have hdiffer : (walkPackage host bytes).sink.actualDigests.size ≠ m.resources.length :=
        fun hcount => hnone m h
          ⟨(actualDigests_size h.read).symm.trans hcount, member, hmember, hundeclared⟩
      exact hundeclared (checkUndeclared_ok_iff.1 hpassed hdiffer member.1
        ((mem_actualDigests_keys h.read).2 (List.mem_map_of_mem hmember)))
  refine ⟨hiff, fun hnodup => hiff.2 ?_⟩
  rintro m h ⟨hcount, member, hmember, hundeclared⟩
  exact hundeclared (declared_of_nodup h (hnodup m h) hcount member hmember)

end Authentic

/-! ## An appended member -/

/-- A machine on which nothing fails, with the letters of ASCII. -/
def plainSteps : ExtractionSteps where
  unicode := ⟨Char.isAlpha, fun s => String.ofList (s.toList.map Char.toLower)⟩
  makesDestination := true
  header := fun _ => .ok
  block := fun _ _ => true
  frees := true
  closes := true
  errorText := ""
  removeDestination := fun _ => none

def plainStrings : QtStrings where
  toUpper := fun s => String.ofList (s.toList.map Char.toUpper)
  toLower := fun s => String.ofList (s.toList.map Char.toLower)
  trimmed := id

/-- A digest that tells `[7]` from everything else. -/
def sampleDigest (bytes : Bytes) : String :=
  String.ofList (List.replicate 64 (if bytes = [7] then 'a' else 'b'))

def sampleResource : JsonValue := .object [("path", .string "a"), ("sha256", .string (sampleDigest [7]))]

/-- A manifest that declares one resource twice. -/
def sampleRoot : JsonObject :=
  [("build", .object [("id", .string "build-1"), ("source_commit", .string "c0ffee"),
      ("timestamp", .string "now")]),
    ("capabilities", .array []), ("entry_native", .object [("name", .string "entry")]),
    ("events", .array []), ("id", .string "org.sample"), ("metadata", .object []),
    ("min_host_version", .string "2.1"),
    ("platform", .object [("arch", .string "arm64"), ("os", .string "linux"),
      ("qt", .string "6.8")]),
    ("resources", .array [sampleResource, sampleResource]), ("schema_version", .number 3),
    ("sdk_abi", .number 4), ("security_epoch", .number 0),
    ("translation_context", .string "Sample"), ("version", .string "1.0")]

def sampleSignature : Bytes := List.replicate 64 1

def sampleKey : Bytes := List.replicate 32 2

/-- An entry of a store-only archive. -/
def storedEntry (name : String) (bytes : Bytes) : ArchiveEntry where
  pathName := name.toList
  declared := some bytes.length
  blocks := [⟨0, bytes⟩]

def sampleHost : ModuleHost where
  strings := plainStrings
  steps := plainSteps
  fromJson := fun bytes => if bytes = [3] then .ok (.object sampleRoot) else .error "illegal value"
  readArchive := fun bytes =>
    { opens := bytes = [80]
      entries := [storedEntry moduleDescriptorManifestPath [3],
        storedEntry moduleDescriptorSignaturePath sampleSignature, storedEntry "a" [7],
        storedEntry "b" [8]] }
  sha256Hex := sampleDigest
  sodiumReady := true
  verifyDetached := fun signature message key =>
    signature = sampleSignature && message = [3] && key = sampleKey
  buildPublicKey := sampleKey
  buildId := "build-1"
  osName := "linux"
  cpuArchitecture := "arm64"
  sdkAbiVersion := 4
  sdkAbiMinSupported := 4
  projectVersion := "2.1.9"
  projectVersionCore := "2.1.9"

/-- The signed manifest names `a` twice, and the archive carries `b` as well. -/
theorem appended_member_verifies :
    (readPackage sampleHost .integrated (.content [80])).ok = true ∧
      resourceMembers sampleHost [80] = [("a", [7]), ("b", [8])] ∧
      ¬ VerificationExact sampleHost [80] .integrated := by
  have hmanifest : ((readPackage sampleHost .integrated (.content [80])).manifest.map
      fun m => m.resources.map (·.path)) = some ["a", "a"] := by decide +kernel
  have hmembers : resourceMembers sampleHost [80] = [("a", [7]), ("b", [8])] := by decide +kernel
  refine ⟨by decide +kernel, hmembers, fun hexact => ?_⟩
  obtain ⟨m, hvouched, hm⟩ := hexact (by decide +kernel)
  rw [hvouched.manifest, Option.map_some, Option.some.injEq] at hmanifest
  obtain ⟨resource, hresource, hpath, -⟩ := hm.declared ("b", [8]) (by rw [hmembers]; simp)
  have hmem : resource.path ∈ m.resources.map (·.path) := List.mem_map_of_mem hresource
  rw [hmanifest, hpath] at hmem
  exact absurd hmem (by decide)

end GpgFrontend
