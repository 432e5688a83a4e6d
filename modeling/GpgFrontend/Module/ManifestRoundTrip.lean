import GpgFrontend.Module.ModuleDescriptorBuilder

/-!
# What is read of a built manifest

- `parsed_eq_iff`: **the manifest parsed from the signed text is the requested one exactly when
  each text of it is made of single UTF-16 units and the size of the entry is a double.**
-/

namespace GpgFrontend

/-! ## What is asked for -/

/-- The binding a specification asks for. -/
def requestedVerification (B : ModuleBuilder) (spec : ModuleDescriptorBuildSpec) :
    Option ModuleEntryVerification :=
  match spec.entryBinding, (moduleEntryVerificationModeFor (builtOs B spec)).mode with
  | .required, some mode =>
    some { mode
           value := (computeEntryVerificationValue B mode spec.entryNativeFile).toOption.getD ""
           size := if mode = .fileSha256 then entryFileSize B spec else -1 }
  | _, _ => none

/-- The manifest a specification asks for. -/
def requestedManifest (B : ModuleBuilder) (spec : ModuleDescriptorBuildSpec) : ModuleManifest where
  schemaVersion := moduleManifestSchemaVersion
  id := spec.moduleId
  version := spec.version
  sdkAbi := spec.sdkAbi.1
  minHostVersion := spec.minHostVersion
  securityEpoch := spec.securityEpoch.1
  capabilities := spec.capabilities
  events := spec.events
  commands := spec.commands
  translationContext := spec.translationContext
  metadata := spec.metadata
  buildId := spec.buildId
  buildTimestamp := spec.buildTimestamp
  buildSourceCommit := spec.buildSourceCommit
  platformOs := builtOs B spec
  platformArch := builtArch B spec
  platformQt := spec.platformQt
  entryNative := ⟨spec.entryNativeName, requestedVerification B spec⟩
  resources := spec.resources.map fun source => ⟨stagedPath B source, sourceDigest B source⟩

/-- The texts of a manifest. -/
def manifestTexts (m : ModuleManifest) : List String :=
  [m.id, m.version, m.minHostVersion, m.translationContext, m.buildId, m.buildTimestamp,
    m.buildSourceCommit, m.platformOs, m.platformArch, m.platformQt, m.entryNative.name] ++
  m.capabilities ++ m.events ++ m.commands ++
  m.metadata.entries.flatMap (fun entry => [entry.1, entry.2]) ++
  (m.entryNative.verification.map (·.value)).toList ++
  m.resources.flatMap fun resource => [resource.path, resource.sha256]

/-- The JSON reader reads one text as the grammar says. -/
def ReadsJson (fromJson : Bytes → Except String JsonValue) (text : List Char) : Prop :=
  ∀ v, readJson text = some v → fromJson (utf8 text) = .ok v

/-! ## Objects after a round trip -/

section Unitwise

theorem itemsUnitwise_eq (items : List JsonValue) :
    itemsUnitwise items = items.map JsonValue.unitwise := by
  induction items with
  | nil => rfl
  | cons v rest ih => rw [itemsUnitwise, ih, List.map_cons]

theorem membersUnitwise_eq (members : List (String × JsonValue)) :
    membersUnitwise members = members.map fun member => (unitwise member.1, member.2.unitwise) := by
  induction members with
  | nil => rfl
  | cons member rest ih => rw [membersUnitwise, ih, List.map_cons]

/-- An object whose names are in order and come through. -/
structure PlainNames (o : JsonObject) : Prop where
  sorted : o.Pairwise fun a b => a.1 < b.1
  through : ∀ member ∈ o, unitwise member.1 = member.1

variable {o : JsonObject} {key : String}

/-- The object a reader finds for one with plain names. -/
theorem objectOf_membersUnitwise (h : PlainNames o) :
    objectOf (membersUnitwise o) = o.map fun member => (member.1, member.2.unitwise) := by
  have hnames : membersUnitwise o = o.map fun member => (member.1, member.2.unitwise) := by
    rw [membersUnitwise_eq]
    exact List.map_congr_left fun member hmember => by rw [h.through member hmember]
  rw [hnames]
  exact objectOf_sorted (List.pairwise_map.2 h.sorted)

/-- Its members are those that were written. -/
theorem value_unitwise (h : PlainNames o) :
    (objectOf (membersUnitwise o)).value key = (o.value key).map JsonValue.unitwise := by
  rw [objectOf_membersUnitwise h, JsonObject.value, JsonObject.value]
  induction o with
  | nil => rfl
  | cons member rest ih =>
    rw [List.map_cons, List.lookup_cons, List.lookup_cons]
    cases hkey : key == member.1 with
    | true => rfl
    | false =>
      exact ih ⟨h.sorted.of_cons, fun m hm => h.through m (List.mem_cons_of_mem _ hm)⟩

theorem PlainNames.objectOf {members : List (String × JsonValue)}
    (h : ∀ member ∈ members, unitwise member.1 = member.1) : PlainNames (objectOf members) :=
  ⟨sorted_objectOf, fun member hmember => h member (mem_objectOf hmember)⟩

theorem PlainNames.put {v : JsonValue} (h : PlainNames o) (hkey : unitwise key = key) :
    PlainNames (o.put key v) := by
  refine ⟨sorted_put h.sorted, fun member hmember => ?_⟩
  rcases mem_put hmember with rfl | hold
  · exact hkey
  · exact h.through member hold

variable {root : JsonObject}

/-- A text that is read comes through. -/
theorem takeString_unitwise {text found : String} (h : PlainNames o)
    (hroot : root = objectOf (membersUnitwise o)) (hvalue : o.value key = some (.string text))
    (hfound : takeString root key = .ok found) : found = unitwise text := by
  rw [takeString, hroot, value_unitwise h, hvalue] at hfound
  simp only [Option.map_some, JsonValue.unitwise, JsonValue.toText] at hfound
  split at hfound
  · cases hfound
  · exact (Except.ok.inj hfound).symm

theorem takeInt_unitwise {n found : Int} (h : PlainNames o) (hn : JsonValue.FitsInt n)
    (hroot : root = objectOf (membersUnitwise o)) (hvalue : o.value key = some (.number n))
    (hfound : takeInt root key = .ok found) : found = n := by
  have hround : roundToDouble n = n := by
    refine roundToDouble_of_lt ?_
    obtain ⟨hlow, hhigh⟩ := hn
    omega
  rw [takeInt, hroot, value_unitwise h, hvalue] at hfound
  simp only [Option.map_some, JsonValue.unitwise, Rat.den_intCast, if_true, Rat.num_intCast, hround,
    JsonValue.toDouble, JsonValue.toInt_intCast hn] at hfound
  exact (Except.ok.inj hfound).symm

theorem takeObject_unitwise {found members : JsonObject} (h : PlainNames o)
    (hroot : root = objectOf (membersUnitwise o)) (hvalue : o.value key = some (.object members))
    (hfound : takeObject root key = .ok found) : found = objectOf (membersUnitwise members) := by
  rw [takeObject, hroot, value_unitwise h, hvalue] at hfound
  exact (Except.ok.inj hfound).symm

theorem takeArray_unitwise {items found : List JsonValue} (h : PlainNames o)
    (hroot : root = objectOf (membersUnitwise o)) (hvalue : o.value key = some (.array items))
    (hfound : takeArray root key = .ok found) : found = items.map JsonValue.unitwise := by
  rw [takeArray, hroot, value_unitwise h, hvalue] at hfound
  rw [← itemsUnitwise_eq]
  exact (Except.ok.inj hfound).symm

/-- A loop whose items are determined one by one. -/
theorem takeEach_map {α β : Type} {take : List α → JsonValue → Except String α}
    {f : β → JsonValue} {g : β → α}
    (htake : ∀ taken x a, take taken (f x) = .ok a → a = g x) (xs : List β) :
    ∀ {taken out : List α}, takeEach take (xs.map f) taken = .ok out →
      out = taken ++ xs.map g := by
  induction xs with
  | nil =>
    intro taken out h
    rw [List.map_nil, List.append_nil]
    exact (Except.ok.inj h).symm
  | cons x xs ih =>
    intro taken out h
    rw [List.map_cons, takeEach, bind_eq_ok] at h
    obtain ⟨a, ha, hrest⟩ := h
    rw [ih hrest, htake taken x a ha, List.map_cons, List.append_assoc, List.singleton_append]

/-- The object of texts a reader finds. -/
theorem textObject_value {members : List (String × String)}
    (hnames : (members.map Prod.fst).Nodup) :
    (textObject members).value key = (members.lookup key).map JsonValue.string := by
  rw [textObject, value_objectOf (by rw [List.map_map]; exact hnames)]
  clear hnames
  induction members with
  | nil => rfl
  | cons member rest ih =>
    rw [List.map_cons, List.lookup_cons, List.lookup_cons]
    cases key == member.1
    · exact ih
    · rfl

theorem PlainNames.textObject {members : List (String × String)}
    (h : ∀ member ∈ members, unitwise member.1 = member.1) : PlainNames (textObject members) := by
  refine PlainNames.objectOf fun member hmember => ?_
  obtain ⟨m, hm, rfl⟩ := List.mem_map.1 hmember
  exact h m hm

end Unitwise

/-! ## The manifest that is read -/

/-- A manifest as it comes back: each text unit by unit, the size as a double. -/
def ModuleManifest.unitwise (m : ModuleManifest) : ModuleManifest where
  schemaVersion := m.schemaVersion
  id := GpgFrontend.unitwise m.id
  version := GpgFrontend.unitwise m.version
  sdkAbi := m.sdkAbi
  minHostVersion := GpgFrontend.unitwise m.minHostVersion
  securityEpoch := m.securityEpoch
  capabilities := m.capabilities.map GpgFrontend.unitwise
  events := m.events.map GpgFrontend.unitwise
  commands := m.commands.map GpgFrontend.unitwise
  translationContext := GpgFrontend.unitwise m.translationContext
  metadata := QMap.empty.insertAll
    (m.metadata.entries.map fun entry => (GpgFrontend.unitwise entry.1, GpgFrontend.unitwise entry.2))
  buildId := GpgFrontend.unitwise m.buildId
  buildTimestamp := GpgFrontend.unitwise m.buildTimestamp
  buildSourceCommit := GpgFrontend.unitwise m.buildSourceCommit
  platformOs := GpgFrontend.unitwise m.platformOs
  platformArch := GpgFrontend.unitwise m.platformArch
  platformQt := GpgFrontend.unitwise m.platformQt
  entryNative :=
    { name := GpgFrontend.unitwise m.entryNative.name
      verification := m.entryNative.verification.map fun v =>
        { v with
          value := GpgFrontend.unitwise v.value
          size := truncateDouble (roundToDouble v.size) } }
  resources := m.resources.map fun resource =>
    ⟨GpgFrontend.unitwise resource.path, GpgFrontend.unitwise resource.sha256⟩

/-- The sizes a manifest may bind its entry to and find again. -/
def SizeIsDouble (m : ModuleManifest) : Prop :=
  ∀ v, m.entryNative.verification = some v → roundToDouble v.size = v.size

theorem truncate_round_eq_iff {n : Int} :
    truncateDouble (roundToDouble n) = n ↔ roundToDouble n = n := by
  obtain ⟨k, hk, -⟩ := roundToDouble_round n
  rw [hk, truncateDouble_intCast]
  exact Int.cast_inj.symm

theorem map_eq_self_iff {α : Type} {f : α → α} {xs : List α} :
    xs.map f = xs ↔ ∀ x ∈ xs, f x = x := by
  constructor
  · intro h x hx
    obtain ⟨i, hi, rfl⟩ := List.mem_iff_getElem.1 hx
    have hat := congrArg (fun ys => ys[i]?) h
    simpa [hi] using hat
  · intro h
    rw [List.map_congr_left h, List.map_id']

/-- Entries whose texts come through are the map again, and no others are. -/
theorem insertAll_unitwise_eq_iff {metadata : QMap String} :
    QMap.empty.insertAll
        (metadata.entries.map fun entry => (unitwise entry.1, unitwise entry.2)) = metadata ↔
      ∀ entry ∈ metadata.entries, OneUnitEach entry.1 ∧ OneUnitEach entry.2 := by
  constructor
  · intro h entry hentry
    rw [← h] at hentry
    obtain ⟨e, -, rfl⟩ := List.mem_map.1 ((QMap.mem_insertAll hentry).resolve_left List.not_mem_nil)
    exact ⟨oneUnitEach_unitwise e.1, oneUnitEach_unitwise e.2⟩
  · intro h
    have hsame : metadata.entries.map (fun entry => (unitwise entry.1, unitwise entry.2))
        = metadata.entries := by
      refine map_eq_self_iff.2 fun entry hentry => ?_
      rw [unitwise_eq_self_iff.2 (h entry hentry).1, unitwise_eq_self_iff.2 (h entry hentry).2]
    rw [hsame]
    exact QMap.insertAll_entries metadata

theorem map_unitwise_eq_iff {texts : List String} :
    texts.map unitwise = texts ↔ ∀ text ∈ texts, OneUnitEach text :=
  map_eq_self_iff.trans (forall₂_congr fun _ _ => unitwise_eq_self_iff)

theorem resources_unitwise_eq_iff {resources : List ModuleManifestResource} :
    resources.map (fun resource => (⟨unitwise resource.path,
        unitwise resource.sha256⟩ : ModuleManifestResource)) = resources ↔
      ∀ resource ∈ resources, OneUnitEach resource.path ∧ OneUnitEach resource.sha256 := by
  refine map_eq_self_iff.trans (forall₂_congr fun resource _ => ?_)
  rw [← unitwise_eq_self_iff, ← unitwise_eq_self_iff]
  constructor
  · exact fun h => ⟨congrArg (·.path) h, congrArg (·.sha256) h⟩
  · exact fun h => by rw [h.1, h.2]

/-- Two texts of each item. -/
theorem forall_mem_two {α : Type} {xs : List α} {f g : α → String} {p : String → Prop} :
    (∀ text ∈ xs.flatMap fun x => [f x, g x], p text) ↔ ∀ x ∈ xs, p (f x) ∧ p (g x) := by
  rw [List.forall_mem_flatMap]
  refine forall₂_congr fun x _ => ?_
  rw [List.forall_mem_cons, List.forall_mem_singleton]

/-- **A manifest comes back as it was exactly if its texts are of single units and its size is
a double.** -/
theorem ModuleManifest.unitwise_eq_self_iff {m : ModuleManifest} :
    m.unitwise = m ↔ (∀ text ∈ manifestTexts m, OneUnitEach text) ∧ SizeIsDouble m := by
  obtain ⟨schemaVersion, id, version, sdkAbi, minHostVersion, securityEpoch, capabilities, events,
    commands, translationContext, metadata, buildId, buildTimestamp, buildSourceCommit, platformOs,
    platformArch, platformQt, ⟨name, verification⟩, resources⟩ := m
  cases verification with
  | none =>
    simp only [ModuleManifest.unitwise, ModuleManifest.mk.injEq, ModuleEntryNative.mk.injEq, map_unitwise_eq_iff,
      insertAll_unitwise_eq_iff, resources_unitwise_eq_iff, GpgFrontend.unitwise_eq_self_iff, manifestTexts,
      List.forall_mem_append, forall_mem_two, List.forall_mem_cons, List.not_mem_nil, false_implies, SizeIsDouble,
      Option.map_none, Option.toList_none, true_and, and_true, reduceCtorEq, implies_true]
    tauto
  | some v =>
    obtain ⟨mode, value, size⟩ := v
    simp only [ModuleManifest.unitwise, ModuleManifest.mk.injEq, ModuleEntryNative.mk.injEq, map_unitwise_eq_iff,
      insertAll_unitwise_eq_iff, resources_unitwise_eq_iff, GpgFrontend.unitwise_eq_self_iff, manifestTexts,
      List.forall_mem_append, forall_mem_two, List.forall_mem_cons, List.not_mem_nil, false_implies, SizeIsDouble,
      Option.map_some, Option.toList_some, true_and, and_true, Option.some.injEq, forall_eq',
      ModuleEntryVerification.mk.injEq, truncate_round_eq_iff, implies_true]
    tauto

/-! ## Each section as it is read -/

section Parsed

variable {B : ModuleBuilder} {spec : ModuleDescriptorBuildSpec} {staged : List StagedResource}
  {entry : JsonObject} {root : JsonObject} {strings : QtStrings} {m : ModuleManifest}

theorem plainName {key : String} (h : OneUnitEach key) : unitwise key = key :=
  unitwise_eq_self_iff.2 h

/-- An object of texts as a map. -/
theorem textObject_eq (members : List (String × String)) :
    textObject members
      = (QMap.empty.insertAll members).entries.map fun member => (member.1, .string member.2) := by
  have hput : ∀ (key text : String) (entries : List (String × String)),
      JsonObject.put (entries.map fun member => (member.1, JsonValue.string member.2)) key
          (.string text)
        = (QMap.insertEntry key text entries).map fun member =>
          (member.1, JsonValue.string member.2) := by
    intro key text entries
    induction entries with
    | nil => rfl
    | cons first rest ih =>
      rw [List.map_cons, JsonObject.put, QMap.insertEntry]
      split
      · rfl
      split
      · rfl
      · rw [ih, List.map_cons]
  have hall : ∀ (later : List (String × String)) (map : QMap String),
      putAll (map.entries.map fun member => (member.1, JsonValue.string member.2))
          (later.map fun member => (member.1, .string member.2))
        = (map.insertAll later).entries.map fun member => (member.1, .string member.2) := by
    intro later
    induction later with
    | nil => exact fun _ => rfl
    | cons first rest ih =>
      intro map
      rw [QMap.insertAll_cons, ← ih, List.map_cons, putAll, List.foldl_cons, hput]
      rfl
  exact hall members QMap.empty

/-- The members of an object of texts, inserted in order. -/
theorem takeMetadataFrom_texts (entries : List (String × String)) :
    ∀ metadata : QMap String,
      takeMetadataFrom (entries.map fun entry => (entry.1, .string entry.2)) metadata
        = .ok (metadata.insertAll entries) := by
  induction entries with
  | nil => exact fun _ => rfl
  | cons first rest ih =>
    intro metadata
    rw [List.map_cons, takeMetadataFrom, QMap.insertAll_cons]
    exact ih _

/-- What a reader finds of an object of texts. -/
theorem objectOf_textObject_unitwise {entries : List (String × String)}
    (hsorted : entries.Pairwise fun a b => a.1 < b.1) :
    objectOf (membersUnitwise (textObject entries))
      = textObject (entries.map fun entry => (unitwise entry.1, unitwise entry.2)) := by
  have htexts : textObject entries = entries.map fun entry => (entry.1, .string entry.2) :=
    objectOf_sorted (List.pairwise_map.2 hsorted)
  rw [htexts, membersUnitwise_eq, List.map_map, textObject, List.map_map]
  rfl

/-- The members other than the last three. -/
theorem moduleManifestObject_value {key : String}
    (hkey : key ∉ ["commands", "translation_context", "entry_native"]) :
    (moduleManifestObject B spec staged entry).value key = List.lookup key [
      ("schema_version", .number moduleManifestSchemaVersion),
      ("id", .string spec.moduleId),
      ("version", .string spec.version),
      ("sdk_abi", .number spec.sdkAbi.1),
      ("min_host_version", .string spec.minHostVersion),
      ("security_epoch", .number spec.securityEpoch.1),
      ("capabilities", stringArray spec.capabilities),
      ("metadata", .object (textObject spec.metadata.entries)),
      ("build", .object (textObject [("id", spec.buildId), ("timestamp", spec.buildTimestamp),
        ("source_commit", spec.buildSourceCommit)])),
      ("platform", .object (textObject [("os", builtOs B spec), ("arch", builtArch B spec),
        ("qt", spec.platformQt)])),
      ("resources", .array (staged.map fun resource =>
        .object (textObject [("path", resource.path), ("sha256", resource.digest)]))),
      ("events", stringArray spec.events)] := by
  simp only [List.mem_cons, List.not_mem_nil, or_false, not_or] at hkey
  obtain ⟨hcommands, hcontext, hentry⟩ := hkey
  unfold moduleManifestObject
  extract_lets first second third
  rw [JsonObject.value_put_ne hentry, JsonObject.value_put_ne hcontext]
  have hsecond : second.value key = first.value key := by
    unfold second
    split
    · rfl
    · exact JsonObject.value_put_ne hcommands
  rw [hsecond]
  refine value_objectOf ?_
  simp only [List.map_cons, List.map_nil]
  decide

theorem plainNames_moduleManifestObject : PlainNames (moduleManifestObject B spec staged entry) := by
  unfold moduleManifestObject
  extract_lets first second third
  have hfirst : PlainNames first := by
    refine PlainNames.objectOf fun member hmember => plainName ?_
    have hname := List.mem_map_of_mem (f := Prod.fst) hmember
    simp only [List.map_cons, List.map_nil] at hname
    revert hname
    generalize member.1 = name
    revert name
    decide
  have hsecond : PlainNames second := by
    unfold second
    split
    · exact hfirst
    · exact hfirst.put (plainName (by decide))
  exact (hsecond.put (plainName (by decide))).put (plainName (by decide))

/-- The root that is parsed is the one that was written, unit by unit. -/
abbrev IsManifestRoot (B : ModuleBuilder) (spec : ModuleDescriptorBuildSpec)
    (staged : List StagedResource) (entry root : JsonObject) : Prop :=
  root = objectOf (membersUnitwise (moduleManifestObject B spec staged entry))

variable {found : List String}

/-- A list of texts under a name. -/
theorem takeTexts_unitwise {key : String} {texts : List String}
    {take : List String → JsonValue → Except String String}
    (ho : PlainNames (moduleManifestObject B spec staged entry))
    (hroot : IsManifestRoot B spec staged entry root)
    (hvalue : (moduleManifestObject B spec staged entry).value key = some (stringArray texts))
    (htake : ∀ taken text a, take taken (.string text) = .ok a → a = text)
    (hfound : (takeArray root key >>= fun items => takeEach take items []) = .ok found) :
    found = texts.map unitwise := by
  obtain ⟨items, hitems, heach⟩ := bind_eq_ok.1 hfound
  rw [takeArray_unitwise ho hroot hvalue hitems, List.map_map] at heach
  exact takeEach_map (g := unitwise) (fun taken text a h => htake taken (unitwise text) a h) texts heach

theorem takeItem_string {list text a : String} (h : takeItem list (.string text) = .ok a) :
    a = text :=
  (Except.ok.inj h).symm

/-- The list `commands`, which is written when there are any. -/
theorem takeCommands_unitwise {moduleId : String}
    (hroot : IsManifestRoot B spec staged entry root)
    (hfound : takeCommands moduleId root = .ok found) : found = spec.commands.map unitwise := by
  have ho : PlainNames (moduleManifestObject B spec staged entry) := plainNames_moduleManifestObject
  have hvalue : (moduleManifestObject B spec staged entry).value "commands"
      = if spec.commands = [] then none else some (stringArray spec.commands) := by
    unfold moduleManifestObject
    extract_lets first second third
    rw [JsonObject.value_put_ne (by decide), JsonObject.value_put_ne (by decide)]
    unfold second
    split
    · unfold first
      rw [value_objectOf (by simp only [List.map_cons, List.map_nil]; decide)]
      rfl
    · exact JsonObject.value_put_self _ _ _
  unfold takeCommands at hfound
  by_cases hnone : spec.commands = []
  · rw [hroot, value_unitwise ho, hvalue, if_pos hnone] at hfound
    rw [hnone]
    exact (Except.ok.inj hfound).symm
  · rw [if_neg hnone] at hvalue
    have hsome : root.value "commands" = some (stringArray spec.commands).unitwise := by
      rw [hroot, value_unitwise ho, hvalue]
      rfl
    rw [hsome] at hfound
    refine takeTexts_unitwise ho hroot hvalue (fun taken text a h => ?_) hfound
    simp only [takeCommand, bind_eq_ok, pure_eq_ok] at h
    obtain ⟨_, hitem, -, -, -, -, -, -, rfl⟩ := h
    exact takeItem_string hitem

theorem takeCapabilities_unitwise (hroot : IsManifestRoot B spec staged entry root)
    (hfound : takeCapabilities root = .ok found) : found = spec.capabilities.map unitwise := by
  have hlist : (takeArray root "capabilities" >>= fun items => takeEach takeCapability items [])
      = .ok found := by
    simp only [takeCapabilities, bind_eq_ok, pure_eq_ok] at hfound
    obtain ⟨items, hitems, capabilities, hread, -, -, -, -, -, -, -, -, -, -, rfl⟩ := hfound
    exact bind_eq_ok.2 ⟨items, hitems, hread⟩
  refine takeTexts_unitwise plainNames_moduleManifestObject hroot
    ((moduleManifestObject_value (by decide)).trans rfl) (fun taken text a h => ?_) hlist
  simp only [takeCapability, bind_eq_ok, pure_eq_ok] at h
  obtain ⟨_, hitem, -, -, rfl⟩ := h
  exact takeItem_string hitem

theorem takeEvents_unitwise (hroot : IsManifestRoot B spec staged entry root)
    (hfound : takeEvents strings root = .ok found) : found = spec.events.map unitwise := by
  refine takeTexts_unitwise plainNames_moduleManifestObject hroot
    ((moduleManifestObject_value (by decide)).trans rfl) (fun taken text a h => ?_) hfound
  simp only [takeEvent, bind_eq_ok, pure_eq_ok] at h
  obtain ⟨_, hitem, -, -, -, -, -, -, rfl⟩ := h
  exact takeItem_string hitem

theorem takeMetadata_unitwise {found : QMap String}
    (hroot : IsManifestRoot B spec staged entry root)
    (hfound : takeMetadata root = .ok found) :
    found = QMap.empty.insertAll
      (spec.metadata.entries.map fun entry => (unitwise entry.1, unitwise entry.2)) := by
  obtain ⟨members, hmembers, hread⟩ := bind_eq_ok.1 hfound
  rw [takeObject_unitwise plainNames_moduleManifestObject hroot
    ((moduleManifestObject_value (by decide)).trans rfl) hmembers,
    objectOf_textObject_unitwise spec.metadata.sorted, textObject_eq, takeMetadataFrom_texts,
    QMap.insertAll_entries] at hread
  exact (Except.ok.inj hread).symm

/-- A text of an object of texts. -/
theorem takeString_textObject (members : List (String × String)) {object : JsonObject}
    {key text found : String} (hplain : ∀ member ∈ members, OneUnitEach member.1)
    (hnames : (members.map Prod.fst).Nodup) (hlookup : members.lookup key = some text)
    (hobject : object = objectOf (membersUnitwise (textObject members)))
    (hfound : takeString object key = .ok found) : found = unitwise text := by
  refine takeString_unitwise (PlainNames.textObject fun member hm => plainName (hplain member hm))
    hobject ?_ hfound
  rw [textObject_value hnames, hlookup]
  rfl

theorem takeResources_unitwise {found : List ModuleManifestResource}
    (hroot : IsManifestRoot B spec staged entry root)
    (hfound : takeResources root = .ok found) :
    found = staged.map fun resource => ⟨unitwise resource.path, unitwise resource.digest⟩ := by
  obtain ⟨items, hitems, hread⟩ := bind_eq_ok.1 hfound
  rw [takeArray_unitwise plainNames_moduleManifestObject hroot
    ((moduleManifestObject_value (by decide)).trans rfl) hitems, List.map_map] at hread
  refine takeEach_map (fun taken resource a h => ?_) staged hread
  simp only [Function.comp_apply, JsonValue.unitwise, takeResource, bind_eq_ok, within_eq_ok,
    pure_eq_ok] at h
  obtain ⟨path, hpath, sha256, hsha256, -, -, rfl⟩ := h
  have hplain : ∀ member ∈ [("path", resource.path), ("sha256", resource.digest)],
      OneUnitEach member.1 := by
    simp only [List.forall_mem_cons]
    exact ⟨(by decide : OneUnitEach "path"), (by decide : OneUnitEach "sha256"), List.forall_mem_nil _⟩
  rw [takeString_textObject _ hplain (by simp) rfl rfl hpath,
    takeString_textObject _ hplain (by simp) rfl rfl hsha256]

/-! ## The entry -/

/-- The binding an entry is written with. -/
def boundEntry (B : ModuleBuilder) (spec : ModuleDescriptorBuildSpec)
    (mode : ModuleEntryVerificationMode) (value : String) : JsonObject :=
  let bound := (textObject [("name", spec.entryNativeName)]).put "verification"
    (.object (textObject [("mode", moduleEntryVerificationModeKey mode), ("value", value)]))
  if mode = .fileSha256 then bound.put "size" (.number (roundToDouble (entryFileSize B spec)))
  else bound

/-- An entry with no binding, or with one of the mode its system has. -/
theorem entryObject_ok (h : entryObject B spec = .ok entry) :
    (moduleEntryVerificationModeFor (builtOs B spec)).knownOs = true ∧
      ((requestedVerification B spec = none ∧
          entry = textObject [("name", spec.entryNativeName)]) ∨
        ∃ mode value, (moduleEntryVerificationModeFor (builtOs B spec)).mode = some mode ∧
          requestedVerification B spec = some ⟨mode, value,
            if mode = .fileSha256 then entryFileSize B spec else -1⟩ ∧
          entry = boundEntry B spec mode value) := by
  unfold entryObject at h
  extract_lets rule plain at h
  have hrule : rule = moduleEntryVerificationModeFor (builtOs B spec) := rfl
  rw [requestedVerification, ← hrule]
  cases hknown : rule.knownOs with
  | false =>
    rw [hknown] at h
    cases h
  | true =>
    refine ⟨rfl, ?_⟩
    rw [hknown] at h
    simp only [Bool.not_true, Bool.false_eq_true, if_false] at h
    cases hbinding : spec.entryBinding with
    | notRequired =>
      rw [hbinding] at h
      exact .inl ⟨rfl, (Except.ok.inj h).symm⟩
    | required =>
      cases hmode : rule.mode with
      | none =>
        rw [hbinding, hmode] at h
        cases h
      | some mode =>
        rw [hbinding, hmode] at h
        dsimp only at h
        cases hvalue : computeEntryVerificationValue B mode spec.entryNativeFile with
        | error why =>
          rw [hvalue] at h
          cases h
        | ok value =>
          rw [hvalue] at h
          refine .inr ⟨mode, value, rfl, ?_, (Except.ok.inj h).symm⟩
          simp only [hvalue, Except.toOption, Option.getD_some]

/-- The name of a known system is made of single units. -/
theorem oneUnitEach_of_knownOs {os : String}
    (h : (moduleEntryVerificationModeFor os).knownOs = true) : OneUnitEach os := by
  unfold moduleEntryVerificationModeFor at h
  split at h
  · next hos => rw [hos]; decide
  split at h
  · next hos => rw [hos]; decide
  split at h
  · next hos => rw [hos]; decide
  · cases h

section Entry

variable {mode : ModuleEntryVerificationMode} {value : String}

theorem plainNames_boundEntry : PlainNames (boundEntry B spec mode value) := by
  have hname : PlainNames (textObject [("name", spec.entryNativeName)]) := by
    refine PlainNames.textObject fun member hmember => plainName ?_
    rw [List.mem_singleton.1 hmember]
    exact (by decide : OneUnitEach "name")
  have hbound := hname.put (v := .object
    (textObject [("mode", moduleEntryVerificationModeKey mode), ("value", value)]))
    (plainName (by decide : OneUnitEach "verification"))
  unfold boundEntry
  extract_lets bound
  split
  · exact hbound.put (plainName (by decide))
  · exact hbound

theorem boundEntry_name :
    (boundEntry B spec mode value).value "name" = some (.string spec.entryNativeName) := by
  have hname : (textObject [("name", spec.entryNativeName)]).value "name"
      = some (.string spec.entryNativeName) := rfl
  unfold boundEntry
  extract_lets bound
  have hbound : bound.value "name" = some (.string spec.entryNativeName) :=
    (JsonObject.value_put_ne (by decide)).trans hname
  split
  · exact (JsonObject.value_put_ne (by decide)).trans hbound
  · exact hbound

theorem boundEntry_verification :
    (boundEntry B spec mode value).value "verification" = some (.object
      (textObject [("mode", moduleEntryVerificationModeKey mode), ("value", value)])) := by
  unfold boundEntry
  extract_lets bound
  split
  · exact (JsonObject.value_put_ne (by decide)).trans (JsonObject.value_put_self _ _ _)
  · exact JsonObject.value_put_self _ _ _

theorem boundEntry_size :
    (boundEntry B spec mode value).value "size" =
      if mode = .fileSha256 then some (.number (roundToDouble (entryFileSize B spec)))
      else none := by
  unfold boundEntry
  extract_lets bound
  split
  · exact JsonObject.value_put_self _ _ _
  · exact (JsonObject.value_put_ne (by decide)).trans rfl

/-- The size that is read is the double the size was written as. -/
theorem takeEntrySize_unitwise {object : JsonObject} {os : String} {size : Int}
    (hobject : object = objectOf (membersUnitwise (boundEntry B spec mode value)))
    (h : takeEntrySize mode os object = .ok size) :
    size = truncateDouble
      (roundToDouble (if mode = .fileSha256 then entryFileSize B spec else -1)) := by
  rw [takeEntrySize, hobject, value_unitwise plainNames_boundEntry, boundEntry_size] at h
  by_cases hmode : mode = .fileSha256
  · obtain ⟨n, hn, hround⟩ := roundToDouble_round (entryFileSize B spec)
    simp only [if_pos hmode, Option.map_some, hn, JsonValue.unitwise, Rat.den_intCast,
      Rat.num_intCast, if_true, hround, JsonValue.toDouble] at h ⊢
    rw [if_neg (not_not.2 hmode)] at h
    exact (Except.ok.inj (of_ite_error h).2).symm
  · simp only [if_neg hmode, Option.map_none] at h ⊢
    rw [← Except.ok.inj h]
    decide

theorem takeVerification_unitwise {object verification : JsonObject} {os : String}
    {found : ModuleEntryVerification}
    (hobject : object = objectOf (membersUnitwise (boundEntry B spec mode value)))
    (hverification : verification = objectOf (membersUnitwise
      (textObject [("mode", moduleEntryVerificationModeKey mode), ("value", value)])))
    (h : takeVerification mode os object verification = .ok found) :
    found = ⟨mode, unitwise value, truncateDouble
      (roundToDouble (if mode = .fileSha256 then entryFileSize B spec else -1))⟩ := by
  simp only [takeVerification, bind_eq_ok, within_eq_ok, pure_eq_ok] at h
  obtain ⟨_, -, text, hvalue, -, -, -, -, size, hsize, rfl⟩ := h
  have hplain : ∀ member ∈ [("mode", moduleEntryVerificationModeKey mode), ("value", value)],
      OneUnitEach member.1 := by
    simp only [List.forall_mem_cons]
    exact ⟨(by decide : OneUnitEach "mode"), (by decide : OneUnitEach "value"), List.forall_mem_nil _⟩
  rw [takeEntrySize_unitwise hobject hsize,
    takeString_textObject _ hplain (by simp) rfl hverification hvalue]

end Entry

theorem takeEntryNative_unitwise {found : ModuleEntryNative} {os : String}
    (hentry : entryObject B spec = .ok entry) (hos : os = builtOs B spec)
    (hroot : IsManifestRoot B spec staged entry root)
    (hfound : takeEntryNative root os = .ok found) :
    found = (requestedManifest B spec).unitwise.entryNative := by
  subst hos
  simp only [takeEntryNative, bind_eq_ok, require_eq_ok, within_eq_ok, pure_eq_ok] at hfound
  obtain ⟨object, hobject, name, hname, _, -, _, -, verification, hverified, rfl⟩ := hfound
  replace hobject := takeObject_unitwise plainNames_moduleManifestObject hroot
    (JsonObject.value_put_self _ _ _) hobject
  obtain ⟨-, ⟨hnone, rfl⟩ | ⟨mode, value, hmode, hsome, rfl⟩⟩ := entryObject_ok hentry
  · have hplain : ∀ member ∈ [("name", spec.entryNativeName)], OneUnitEach member.1 := by
      simp only [List.forall_mem_cons]
      exact ⟨(by decide : OneUnitEach "name"), List.forall_mem_nil _⟩
    have habsent : object.value "verification" = none := by
      rw [hobject, value_unitwise (PlainNames.textObject fun member hm =>
        plainName (hplain member hm))]
      rfl
    have hunbound : verification = none := by
      simp only [takeEntryVerification, habsent, bind_eq_ok, pure_eq_ok] at hverified
      obtain ⟨_, -, rfl⟩ := hverified
      rfl
    rw [takeString_textObject _ hplain (by simp) rfl hobject hname, hunbound]
    simp only [ModuleManifest.unitwise, requestedManifest, hnone, Option.map_none]
  · have hbound : object.value "verification" = some (.object (objectOf (membersUnitwise
        (textObject [("mode", moduleEntryVerificationModeKey mode), ("value", value)])))) := by
      rw [hobject, value_unitwise plainNames_boundEntry, boundEntry_verification, Option.map_some,
        JsonValue.unitwise]
    have hread : ∃ found, takeVerification mode (builtOs B spec) object (objectOf (membersUnitwise
        (textObject [("mode", moduleEntryVerificationModeKey mode), ("value", value)])))
          = .ok found ∧ verification = some found := by
      simp only [takeEntryVerification, hbound, hmode] at hverified
      cases hfound : takeVerification mode (builtOs B spec) object (objectOf (membersUnitwise
        (textObject [("mode", moduleEntryVerificationModeKey mode), ("value", value)]))) with
      | error why =>
        rw [hfound] at hverified
        cases hverified
      | ok found =>
        rw [hfound] at hverified
        exact ⟨found, rfl, (Except.ok.inj hverified).symm⟩
    obtain ⟨found, hfound, rfl⟩ := hread
    rw [takeVerification_unitwise hobject rfl hfound,
      takeString_unitwise plainNames_boundEntry hobject boundEntry_name hname]
    simp only [ModuleManifest.unitwise, requestedManifest, hsome, Option.map_some]

/-! ## The whole manifest -/

theorem takeInt_manifest {key : String} {n found : Int} (hn : JsonValue.FitsInt n)
    (hroot : IsManifestRoot B spec staged entry root)
    (hvalue : (moduleManifestObject B spec staged entry).value key = some (.number n))
    (hfound : takeInt root key = .ok found) : found = n :=
  takeInt_unitwise plainNames_moduleManifestObject hn hroot hvalue hfound

theorem takeString_manifest {key text found : String}
    (hroot : IsManifestRoot B spec staged entry root)
    (hvalue : (moduleManifestObject B spec staged entry).value key = some (.string text))
    (hfound : takeString root key = .ok found) : found = unitwise text :=
  takeString_unitwise plainNames_moduleManifestObject hroot hvalue hfound

theorem oneUnitEach_buildNames (id timestamp sourceCommit : String) :
    ∀ member ∈ [("id", id), ("timestamp", timestamp), ("source_commit", sourceCommit)],
      OneUnitEach member.1 := by
  simp only [List.forall_mem_cons]
  exact ⟨(by decide : OneUnitEach "id"), (by decide : OneUnitEach "timestamp"),
    (by decide : OneUnitEach "source_commit"), List.forall_mem_nil _⟩

theorem oneUnitEach_platformNames (os arch qt : String) :
    ∀ member ∈ [("os", os), ("arch", arch), ("qt", qt)], OneUnitEach member.1 := by
  simp only [List.forall_mem_cons]
  exact ⟨(by decide : OneUnitEach "os"), (by decide : OneUnitEach "arch"),
    (by decide : OneUnitEach "qt"), List.forall_mem_nil _⟩

/-- What is parsed from a written manifest is the requested one, unit by unit. -/
theorem manifestOf_unitwise (hentry : entryObject B spec = .ok entry)
    (hstaged : (staged.map fun resource => (⟨resource.path, resource.digest⟩ : ModuleManifestResource))
      = (requestedManifest B spec).resources)
    (hroot : IsManifestRoot B spec staged entry root)
    (h : ManifestOf strings root m) : m = (requestedManifest B spec).unitwise := by
  obtain ⟨build, hbuild, hbuildId, htimestamp, hcommit⟩ := h.build
  obtain ⟨platform, hplatform, hos, harch, hqt⟩ := h.platform
  replace hbuild := takeObject_unitwise plainNames_moduleManifestObject hroot
    ((moduleManifestObject_value (by decide)).trans rfl) hbuild
  replace hplatform := takeObject_unitwise plainNames_moduleManifestObject hroot
    ((moduleManifestObject_value (by decide)).trans rfl) hplatform
  have hplatformOs : m.platformOs = unitwise (builtOs B spec) :=
    takeString_textObject _ (oneUnitEach_platformNames _ _ _) (by simp) rfl hplatform hos
  have hknown : unitwise (builtOs B spec) = builtOs B spec :=
    plainName (oneUnitEach_of_knownOs (entryObject_ok hentry).1)
  have hresources : m.resources = (requestedManifest B spec).unitwise.resources := by
    rw [takeResources_unitwise hroot h.resources, ModuleManifest.unitwise, ← hstaged, List.map_map]
    rfl
  have hnative : m.entryNative = (requestedManifest B spec).unitwise.entryNative :=
    takeEntryNative_unitwise hentry (hplatformOs.trans hknown) hroot h.entryNative
  have hcontext : m.translationContext = unitwise spec.translationContext :=
    takeString_manifest hroot ((JsonObject.value_put_ne (by decide)).trans
      (JsonObject.value_put_self _ _ _)) h.translationContext
  have hid := takeString_manifest hroot ((moduleManifestObject_value (by decide)).trans rfl) h.id
  have hversion := takeString_manifest hroot ((moduleManifestObject_value (by decide)).trans rfl) h.version
  have hsdkAbi := takeInt_manifest spec.sdkAbi.2 hroot
    ((moduleManifestObject_value (by decide)).trans rfl) h.sdkAbi
  have hminHost := takeString_manifest hroot ((moduleManifestObject_value (by decide)).trans rfl)
    h.minHostVersion
  have hepoch := takeInt_manifest spec.securityEpoch.2 hroot
    ((moduleManifestObject_value (by decide)).trans rfl) h.securityEpoch
  have hcapabilities := takeCapabilities_unitwise hroot h.capabilities
  have hevents := takeEvents_unitwise hroot h.events
  have hcommands := takeCommands_unitwise hroot h.commands
  have hmetadata := takeMetadata_unitwise hroot h.metadata
  replace hbuildId := takeString_textObject _ (oneUnitEach_buildNames _ _ _) (by simp) rfl hbuild hbuildId
  replace htimestamp := takeString_textObject _ (oneUnitEach_buildNames _ _ _) (by simp) rfl hbuild htimestamp
  replace hcommit := takeString_textObject _ (oneUnitEach_buildNames _ _ _) (by simp) rfl hbuild hcommit
  replace harch := takeString_textObject _ (oneUnitEach_platformNames _ _ _) (by simp) rfl hplatform harch
  replace hqt := takeString_textObject _ (oneUnitEach_platformNames _ _ _) (by simp) rfl hplatform hqt
  have hschema := h.supported
  cases m
  simp only [ModuleManifest.unitwise, requestedManifest] at *
  subst_vars
  rfl

/-- **The manifest that is parsed is the requested one exactly if nothing in that is lost.** -/
theorem parsed_eq_iff (hentry : entryObject B spec = .ok entry)
    (hstaged : (staged.map fun resource => (⟨resource.path, resource.digest⟩ : ModuleManifestResource))
      = (requestedManifest B spec).resources)
    (h : ManifestOf strings (objectOf (membersUnitwise (moduleManifestObject B spec staged entry))) m) :
    m = requestedManifest B spec ↔
      (∀ text ∈ manifestTexts (requestedManifest B spec), OneUnitEach text) ∧
        SizeIsDouble (requestedManifest B spec) := by
  rw [manifestOf_unitwise hentry hstaged rfl h]
  exact ModuleManifest.unitwise_eq_self_iff

end Parsed

end GpgFrontend
