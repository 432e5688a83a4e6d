import GpgFrontend.Utils.KeyDatabaseReconcile

/-!
# What a reconciling pass keeps of a list

Every read of the list of key databases makes a pass over it, `ReconcileKeyDatabaseList` or,
in the macOS app sandbox, `ReconcileSandboxKeyDatabaseList`. A pass settles entries; it is
not meant to add databases or to take them away.

- `reconcileSandboxKeyDatabaseList`, `KeyDatabaseReader.reconcile`: the two passes.
- `idCount`, `nameCount`: how many entries have an id, a name.
-/

namespace GpgFrontend

/-! ## In the sandbox -/

/-- `QString::toLower`, as far as a comparison with ASCII text can tell. -/
def lowerCaseUnit (c : UInt16) : UInt16 :=
  if 65 ≤ c ∧ c ≤ 90 then c + 32 else if c = 0x212A then 107 else c

def QString.toLower (s : QString) : QString := s.map lowerCaseUnit

def gnupgBackend : QString := [103, 110, 117, 112, 103]

/-- A directory below `dbs`, as `ScanManagedKeyDatabaseDir` lists it. -/
structure ScannedKeyDatabase where
  name : QString
  path : QString
  deriving DecidableEq

section Sandbox

variable (supported : List QString) (stored : List KeyDatabaseItemSO)

def isSupportedBackend (type : QString) : Bool := supported.contains type.toLower.trimmed

def pickDefaultBackend : QString :=
  if supported.contains gnupgBackend then gnupgBackend else rpgpBackend

/-- `stored_by_name`: a later entry takes the place of an earlier one. -/
def storedByName (name : QString) : Option KeyDatabaseItemSO :=
  (stored.filter fun db => !db.name.isEmpty && db.name = name).getLast?

/-- The entry on channel 0. -/
def sandboxDefault (defaultDb : KeyDatabaseItemSO) : KeyDatabaseItemSO :=
  let recovered := match storedByName stored defaultDb.name with
    | some db =>
      if isSupportedBackend supported db.backendType then db.backendType
      else defaultDb.backendType
    | none => defaultDb.backendType
  { defaultDb with
    backendType :=
      if isSupportedBackend supported recovered then recovered else pickDefaultBackend supported
    channel := 0
    kind := some .default }

/-- A folder is a database when a stored entry names it. -/
def sandboxEntry (keyDb : ScannedKeyDatabase) : Option KeyDatabaseItemSO :=
  if keyDb.name.isEmpty || isReservedKeyDatabaseName keyDb.name then none
  else
    (storedByName stored keyDb.name).map fun db =>
      { name := keyDb.name
        path := keyDb.path
        kind := some .managed
        backendType :=
          if isSupportedBackend supported db.backendType then db.backendType
          else pickDefaultBackend supported
        channel := db.channel
        id := db.id }

def reconcileSandboxKeyDatabaseList (fresh : Nat → QString) (n : Nat)
    (defaultDb : KeyDatabaseItemSO) (discovered : List ScannedKeyDatabase) :
    List KeyDatabaseItemSO × Nat :=
  assignKeyDatabaseIds fresh n (normalizeKeyDatabaseChannels
    (sandboxDefault supported stored defaultDb ::
      discovered.filterMap (sandboxEntry supported stored)))

end Sandbox

/-! ## A read -/

/-- What a read finds on this computer, and the ids it mints when it needs some. -/
inductive KeyDatabaseReader where
  | desktop (fs : ProfileFs) (engine : EngineState) (profileRoot appDataPath : QString)
      (minted : Nat → QString)
  | sandbox (fs : ProfileFs) (engine : EngineState) (appDataPath : QString)
      (discovered : List ScannedKeyDatabase) (supported : List QString) (minted : Nat → QString)

namespace KeyDatabaseReader

/-- The pass of `GetKeyDatabasesBySettings`. -/
def reconcile : KeyDatabaseReader → List KeyDatabaseItemSO → List KeyDatabaseItemSO
  | desktop fs engine profileRoot appDataPath minted, stored =>
    (ReconcileInputs.reconcileKeyDatabaseList
      ⟨fs, defaultKeyDatabaseCandidate fs engine appDataPath,
        makeDefaultKeyDatabaseItem fs engine appDataPath, profileRoot, appDataPath⟩
      minted 0 stored).1
  | sandbox fs engine appDataPath discovered supported minted, stored =>
    (reconcileSandboxKeyDatabaseList supported stored minted 0
      (makeDefaultKeyDatabaseItem fs engine appDataPath) discovered).1

def minted : KeyDatabaseReader → Nat → QString
  | desktop _ _ _ _ minted => minted
  | sandbox _ _ _ _ _ minted => minted

/-- The read does not mint this id. -/
def MintsOther (r : KeyDatabaseReader) (id : QString) : Prop := ∀ m, (r.minted m).trimmed ≠ id

/-- In the sandbox a database is what has a folder: here, one. -/
def Finds : KeyDatabaseReader → QString → Prop
  | desktop .., _ => True
  | sandbox _ _ _ discovered _ _, name =>
    discovered.countP (fun keyDb => keyDb.name = name) = 1 ∧
      ∀ keyDb ∈ discovered, keyDb.name = name → keyDb.path ≠ []

def IsDesktop : KeyDatabaseReader → Prop
  | desktop .. => True
  | sandbox .. => False

end KeyDatabaseReader

/-! ## Counting -/

/-- How many entries have an id, spaces around it apart. -/
def idCount (id : QString) (items : List KeyDatabaseItemSO) : Nat :=
  items.countP fun x => x.id.trimmed = id

def nameCount (name : QString) (items : List KeyDatabaseItemSO) : Nat :=
  items.countP fun x => x.name = name

theorem eq_of_countP_le_one {α : Type} {p : α → Bool} {items : List α} {x y : α}
    (h : items.countP p ≤ 1) (hx : x ∈ items) (hpx : p x = true) (hy : y ∈ items)
    (hpy : p y = true) : x = y := by
  induction items with
  | nil => cases hx
  | cons item rest ih =>
    rw [List.countP_cons] at h
    have hnone : p item = true → ∀ z ∈ rest, p z = true → False := by
      intro hitem z hz hpz
      have hpos : 0 < rest.countP p := List.countP_pos_iff.mpr ⟨z, hz, hpz⟩
      rw [if_pos hitem] at h
      omega
    rcases List.mem_cons.mp hx with rfl | hxrest
    · rcases List.mem_cons.mp hy with rfl | hyrest
      · rfl
      · exact (hnone hpx y hyrest hpy).elim
    · rcases List.mem_cons.mp hy with rfl | hyrest
      · exact (hnone hpy x hxrest hpx).elim
      · exact ih (Nat.le_trans (Nat.le_add_right _ _) h) hxrest hyrest

/-! ### Numbering and naming -/

variable {p : KeyDatabaseItemSO → Bool}

/-- Numbering the channels changes nothing else. -/
theorem countP_normalize
    (hp : ∀ (x : KeyDatabaseItemSO) (c : Int32), p { x with channel := c } = p x)
    (items : List KeyDatabaseItemSO) :
    (normalizeKeyDatabaseChannels items).countP p = items.countP p := by
  have hmap : ∀ l : List KeyDatabaseItemSO, l.countP p = (l.map p).countP id := by
    intro l
    rw [List.countP_map]
    rfl
  unfold normalizeKeyDatabaseChannels
  rw [hmap, spreadChannels_map hp, ← hmap, (sortByChannel_perm items).countP_eq]

theorem exists_mem_normalize {items : List KeyDatabaseItemSO} {x : KeyDatabaseItemSO}
    (hx : x ∈ items) : ∃ c, { x with channel := c } ∈ normalizeKeyDatabaseChannels items := by
  let f : KeyDatabaseItemSO → KeyDatabaseItemSO := fun y => { y with channel := 0 }
  have hmem : f x ∈ (normalizeKeyDatabaseChannels items).map f := by
    unfold normalizeKeyDatabaseChannels
    rw [spreadChannels_map fun _ _ => rfl]
    exact List.mem_map_of_mem ((sortByChannel_perm items).mem_iff.mpr hx)
  obtain ⟨y, hy, heq⟩ := List.mem_map.mp hmem
  refine ⟨y.channel, ?_⟩
  have hyx : { x with channel := y.channel } = y :=
    congrArg (fun z : KeyDatabaseItemSO => { z with channel := y.channel }) heq.symm
  rw [hyx]
  exact hy

section Assign

variable {fresh : Nat → QString} {n : Nat} {claimed : List QString}
  {items : List KeyDatabaseItemSO} {id : QString}

/-- An id that is given out is DEFAULT's, a new one, or the entry's own, once. -/
theorem idCount_assign (hdefault : id ≠ defaultKeyDatabaseId)
    (hfresh : ∀ m, (fresh m).trimmed ≠ id) :
    idCount id (assignIdsFrom fresh n claimed items).1 ≤ min 1 (idCount id items) ∧
    (id ∈ claimed → idCount id (assignIdsFrom fresh n claimed items).1 = 0) := by
  unfold idCount
  induction items generalizing n claimed with
  | nil => exact ⟨Nat.zero_le _, fun _ => rfl⟩
  | cons item rest ih =>
    rw [assignIdsFrom, List.countP_cons]
    split
    · have hother : defaultKeyDatabaseId.trimmed ≠ id := Ne.symm hdefault
      obtain ⟨hle, hzero⟩ := @ih n claimed
      rw [List.countP_cons_of_neg (by simpa using hother)]
      refine ⟨?_, hzero⟩
      omega
    · dsimp only
      split
      · obtain ⟨hle, hzero⟩ := @ih (n + 1) (fresh n :: claimed)
        rw [List.countP_cons_of_neg (by simpa using hfresh n)]
        refine ⟨?_, fun h => hzero (List.mem_cons_of_mem _ h)⟩
        omega
      · next hkeep =>
        simp only [Bool.or_eq_true, decide_eq_true_eq, not_or, List.contains_iff_mem] at hkeep
        obtain ⟨hle, hzero⟩ := @ih n (item.id.trimmed :: claimed)
        by_cases hown : item.id.trimmed = id
        · rw [List.countP_cons_of_pos (by simpa [trimmed_trimmed] using hown),
            hzero (by rw [hown]; exact List.mem_cons_self), if_pos (by simpa using hown)]
          refine ⟨by omega, fun h => absurd (hown ▸ h) hkeep.2⟩
        · rw [List.countP_cons_of_neg (by simpa [trimmed_trimmed] using hown)]
          refine ⟨?_, fun h => hzero (List.mem_cons_of_mem _ h)⟩
          omega

/-- An entry whose id no other has keeps it. -/
theorem mem_assign {x : KeyDatabaseItemSO} (hx : x ∈ items) (hkind : x.kind ≠ some .default)
    (htrim : x.id.trimmed = x.id) (hne : x.id ≠ []) (hdefault : x.id ≠ defaultKeyDatabaseId)
    (hfresh : ∀ m, (fresh m).trimmed ≠ x.id) (hone : idCount x.id items ≤ 1)
    (hfree : x.id ∉ claimed) : x ∈ (assignIdsFrom fresh n claimed items).1 := by
  unfold idCount at hone
  induction items generalizing n claimed with
  | nil => cases hx
  | cons item rest ih =>
    rw [assignIdsFrom]
    rcases List.mem_cons.mp hx with rfl | hrest
    · rw [if_neg hkind]
      dsimp only
      rw [htrim, if_neg]
      · exact List.mem_cons_self
      · simp only [Bool.or_eq_true, decide_eq_true_eq, not_or, List.contains_iff_mem]
        exact ⟨⟨hne, hdefault⟩, hfree⟩
    · rw [List.countP_cons] at hone
      have hpos : 0 < rest.countP fun y => y.id.trimmed = x.id :=
        List.countP_pos_iff.mpr ⟨x, hrest, by simpa using htrim⟩
      have hother : item.id.trimmed ≠ x.id := by
        intro heq
        rw [if_pos (by simpa using heq)] at hone
        omega
      rw [if_neg (by simpa using hother)] at hone
      have hmem : ∀ (m : Nat) (taken : QString), taken ≠ x.id →
          x ∈ (assignIdsFrom fresh m (taken :: claimed) rest).1 := by
        intro m taken htaken
        refine ih hrest hone fun h => ?_
        rcases List.mem_cons.mp h with heq | h
        · exact htaken heq.symm
        · exact hfree h
      split
      · exact List.mem_cons_of_mem _ (ih hrest hone hfree)
      · dsimp only
        split
        · refine List.mem_cons_of_mem _ (hmem (n + 1) (fresh n) fun heq => hfresh n ?_)
          rw [heq, htrim]
        · exact List.mem_cons_of_mem _ (hmem n item.id.trimmed hother)

end Assign

/-- What the last two passes change is the channel and the id. -/
theorem countP_numbered {fresh : Nat → QString} {n : Nat}
    (hchannel : ∀ (x : KeyDatabaseItemSO) (c : Int32), p { x with channel := c } = p x)
    (hid : ∀ (x : KeyDatabaseItemSO) (id : QString), p { x with id := id } = p x)
    (items : List KeyDatabaseItemSO) :
    (assignKeyDatabaseIds fresh n (normalizeKeyDatabaseChannels items)).1.countP p =
      items.countP p := by
  have hmap : ∀ l : List KeyDatabaseItemSO, l.countP p = (l.map p).countP id := by
    intro l
    rw [List.countP_map]
    rfl
  unfold assignKeyDatabaseIds
  rw [hmap, assignIdsFrom_map p hid, ← hmap, countP_normalize hchannel]

/-! ## The passes of `ReconcileKeyDatabaseList` -/

theorem mem_dropDefaultsAfter {items : List KeyDatabaseItemSO} {x : KeyDatabaseItemSO}
    (hx : x ∈ items) (hname : isReservedKeyDatabaseName x.name = false) (seen : Bool) :
    x ∈ dropDefaultsAfter seen items := by
  induction items generalizing seen with
  | nil => cases hx
  | cons item rest ih =>
    rw [dropDefaultsAfter]
    rcases List.mem_cons.mp hx with rfl | hx
    · rw [hname]
      exact List.mem_cons_self
    · split
      · exact List.mem_cons_of_mem _ (ih hx _)
      · split
        · exact ih hx _
        · exact List.mem_cons_of_mem _ (ih hx _)

theorem dropDefaultsAfter_sublist (seen : Bool) (items : List KeyDatabaseItemSO) :
    (dropDefaultsAfter seen items).Sublist items := by
  induction items generalizing seen with
  | nil => exact List.Sublist.refl _
  | cons item rest ih =>
    rw [dropDefaultsAfter]
    split
    · exact (ih seen).cons_cons item
    · split
      · exact (ih seen).cons item
      · exact (ih true).cons_cons item

theorem adoptItem_of_not_reserved {localPath localBackend : QString} {x : KeyDatabaseItemSO}
    (h : isReservedKeyDatabaseName x.name = false) : adoptItem localPath localBackend x = x := by
  unfold adoptItem isForeignDefault
  rw [h, Bool.false_and, if_neg Bool.false_ne_true]

/-- The keyring that DEFAULT leaves behind is the only entry that may be added, with a name
that is not taken and no id. -/
theorem adopt_cases (fs : ProfileFs) (databases : List KeyDatabaseItemSO)
    (localPath localBackend root : QString) :
    adoptLocalDefaultKeyDatabase fs databases localPath localBackend root = databases ∨
    ∃ added : List KeyDatabaseItemSO, added.length ≤ 1 ∧
      (∀ carried ∈ added, carried.id = [] ∧ isReservedKeyDatabaseName carried.name = false ∧
        ∀ x ∈ databases, x.name ≠ carried.name) ∧
      adoptLocalDefaultKeyDatabase fs databases localPath localBackend root =
        databases.map (adoptItem localPath localBackend) ++ added := by
  unfold adoptLocalDefaultKeyDatabase
  split
  · exact Or.inl rfl
  · right
    dsimp only
    split
    · exact ⟨[], Nat.zero_le _, fun _ h => (by cases h), (List.append_nil _).symm⟩
    · refine ⟨_, Nat.le_refl _, fun carried hcarried => ?_, rfl⟩
      rw [List.mem_singleton.mp hcarried]
      refine ⟨rfl, (carriedName_not_reserved databases).1, fun x hx hname => ?_⟩
      have hfree := unusedKeyDatabaseName_unused databases [114, 80, 71, 80]
      have htaken : isNameTaken databases (unusedKeyDatabaseName databases [114, 80, 71, 80]) =
          true := List.any_eq_true.mpr ⟨x, hx, by rw [hname]; exact decide_eq_true rfl⟩
      rw [htaken] at hfree
      cases hfree

namespace ReconcileInputs

variable {c : ReconcileInputs} {stored : List KeyDatabaseItemSO} {x : KeyDatabaseItemSO}

theorem mem_candidates (hx : x ∈ stored) (hreserved : isReservedKeyDatabaseName x.name = false)
    (hname : x.name ≠ []) (hpath : x.path ≠ []) : x ∈ c.candidates stored := by
  refine List.mem_filter.mpr ⟨?_, by simp [hname, hpath]⟩
  have hkept : x ∈ dropDuplicateDefaultKeyDatabases stored := mem_dropDefaultsAfter hx hreserved _
  unfold adopted
  rcases adopt_cases c.fs (dropDuplicateDefaultKeyDatabases stored) c.localDefault.path
      c.localDefault.backendType c.profileRoot with heq | ⟨added, -, -, heq⟩
  · rw [heq]
    exact hkept
  · rw [heq]
    exact List.mem_append_left _
      (List.mem_map.mpr ⟨x, hkept, adoptItem_of_not_reserved hreserved⟩)

/-- What is counted among the candidates by something that adoption leaves alone. -/
theorem countP_candidates_le {p : KeyDatabaseItemSO → Bool}
    (hp : ∀ y : KeyDatabaseItemSO,
      p (adoptItem c.localDefault.path c.localDefault.backendType y) = p y) :
    (c.candidates stored).countP p ≤ stored.countP p ∨
    ∃ carried : KeyDatabaseItemSO, carried.id = [] ∧ p carried = true ∧
      (∀ y ∈ dropDuplicateDefaultKeyDatabases stored, y.name ≠ carried.name) ∧
      (c.candidates stored).countP p ≤
        (dropDuplicateDefaultKeyDatabases stored).countP p + 1 := by
  have hdrop : (dropDuplicateDefaultKeyDatabases stored).countP p ≤ stored.countP p :=
    (dropDefaultsAfter_sublist false stored).countP_le
  have hfilter : (c.candidates stored).countP p ≤ (c.adopted stored).countP p :=
    List.filter_sublist.countP_le
  have hmap : ((dropDuplicateDefaultKeyDatabases stored).map
      (adoptItem c.localDefault.path c.localDefault.backendType)).countP p =
      (dropDuplicateDefaultKeyDatabases stored).countP p := by
    rw [List.countP_map]
    exact List.countP_congr fun y _ => by rw [Function.comp_apply, hp]
  unfold adopted at hfilter
  rcases adopt_cases c.fs (dropDuplicateDefaultKeyDatabases stored) c.localDefault.path
      c.localDefault.backendType c.profileRoot with heq | ⟨added, hlen, hadded, heq⟩
  · rw [heq] at hfilter
    exact Or.inl (Nat.le_trans hfilter hdrop)
  · rw [heq, List.countP_append, hmap] at hfilter
    cases added with
    | nil => exact Or.inl (Nat.le_trans hfilter hdrop)
    | cons carried rest =>
      have hrest : rest = [] := List.eq_nil_of_length_eq_zero (by simpa using hlen)
      rw [hrest] at hfilter
      by_cases hcarried : p carried = true
      · obtain ⟨hid, -, hfree⟩ := hadded carried List.mem_cons_self
        refine Or.inr ⟨carried, hid, hcarried, hfree, ?_⟩
        rwa [List.countP_cons_of_pos hcarried] at hfilter
      · rw [List.countP_cons_of_neg hcarried] at hfilter
        exact Or.inl (Nat.le_trans hfilter hdrop)

theorem idCount_candidates_le {id : QString} (hne : id ≠ []) :
    idCount id (c.candidates stored) ≤ idCount id stored := by
  rcases @countP_candidates_le c stored (fun y => y.id.trimmed = id)
    (fun y => by rw [adoptItem_id]) with hle | ⟨carried, hid, hcarried, -, -⟩
  · exact hle
  · rw [hid, decide_eq_true_eq] at hcarried
    exact absurd hcarried.symm hne

theorem nameCount_candidates_le {name : QString} (hone : nameCount name stored ≤ 1) :
    nameCount name (c.candidates stored) ≤ 1 := by
  rcases @countP_candidates_le c stored (fun y => y.name = name)
    (fun y => by rw [adoptItem_name]) with hle | ⟨carried, -, hcarried, hfree, hle⟩
  · exact Nat.le_trans hle hone
  · rw [decide_eq_true_eq] at hcarried
    have hzero : (dropDuplicateDefaultKeyDatabases stored).countP (fun y => y.name = name) = 0 :=
      List.countP_eq_zero.mpr fun y hy => by simpa [← hcarried] using hfree y hy
    unfold nameCount
    omega

theorem settle_fields (e : KeyDatabaseItemSO) :
    (c.settle e).id = e.id ∧ (c.settle e).name = e.name := by
  obtain ⟨kind, heq, -⟩ := c.settle_spec e
  rw [heq]
  exact ⟨rfl, rfl⟩

/-- The fallback has no id, and DEFAULT's name. -/
theorem countP_seeded_le {p : KeyDatabaseItemSO → Bool} (hp : ∀ y, p (c.settle y) = p y)
    (hfallback : p c.fallback = false) : (c.seeded stored).countP p ≤
      (c.candidates stored).countP p := by
  by_cases h : c.candidates stored = []
  · rw [seeded_of_none h, List.countP_cons_of_neg (by rw [hfallback]; exact Bool.false_ne_true)]
    exact Nat.zero_le _
  · rw [seeded_of_candidates h, List.countP_map]
    exact Nat.le_of_eq (List.countP_congr fun y _ => by rw [Function.comp_apply, hp])

end ReconcileInputs

/-! ## An entry of the list -/

/-- An id and a name of its own: what identifies a database that is not DEFAULT. -/
structure HasOwnIdentity (x : KeyDatabaseItemSO) : Prop where
  trimmed : x.id.trimmed = x.id
  idNonempty : x.id ≠ []
  idOther : x.id ≠ defaultKeyDatabaseId
  nameNonempty : x.name ≠ []
  nameOther : isReservedKeyDatabaseName x.name = false

/-- The list has this database, once. -/
structure HoldsEntry (x : KeyDatabaseItemSO) (items : List KeyDatabaseItemSO) : Prop where
  found : ∃ y ∈ items, y.id = x.id ∧ y.name = x.name ∧ y.path ≠ []
  idOnce : idCount x.id items ≤ 1
  nameOnce : nameCount x.name items ≤ 1

/-- The last two passes keep an entry that is not DEFAULT. -/
theorem HoldsEntry.numbered {fresh : Nat → QString} {n : Nat} {items : List KeyDatabaseItemSO}
    {x : KeyDatabaseItemSO} (h : HoldsEntry x items) (hx : HasOwnIdentity x)
    (hkind : ∀ y ∈ items, y.name = x.name → y.kind ≠ some .default)
    (hfresh : ∀ m, (fresh m).trimmed ≠ x.id) :
    HoldsEntry x (assignKeyDatabaseIds fresh n (normalizeKeyDatabaseChannels items)).1 := by
  obtain ⟨⟨y, hy, hid, hname, hpath⟩, hidOnce, hnameOnce⟩ := h
  have hcount : idCount x.id (normalizeKeyDatabaseChannels items) ≤ 1 :=
    Nat.le_trans (Nat.le_of_eq (countP_normalize (fun _ _ => rfl) items)) hidOnce
  refine ⟨?_, ?_, ?_⟩
  · obtain ⟨channel, hmem⟩ := exists_mem_normalize hy
    refine ⟨{ y with channel := channel }, mem_assign hmem (hkind y hy hname) ?_ ?_ ?_ ?_ ?_
      List.not_mem_nil, hid, hname, hpath⟩
    · show y.id.trimmed = y.id
      rw [hid, hx.trimmed]
    · show y.id ≠ []
      rw [hid]
      exact hx.idNonempty
    · show y.id ≠ defaultKeyDatabaseId
      rw [hid]
      exact hx.idOther
    · show ∀ m, (fresh m).trimmed ≠ y.id
      rw [hid]
      exact hfresh
    · show idCount y.id _ ≤ 1
      rw [hid]
      exact hcount
  · exact Nat.le_trans (idCount_assign hx.idOther hfresh).1 (Nat.min_le_left _ _)
  · exact Nat.le_trans (Nat.le_of_eq (countP_numbered (fun _ _ => rfl) (fun _ _ => rfl) items))
      hnameOnce

theorem HoldsEntry.seeded {c : ReconcileInputs} {stored : List KeyDatabaseItemSO}
    {x : KeyDatabaseItemSO} (h : HoldsEntry x stored) (hx : HasOwnIdentity x)
    (hseed : SeedsDefault c) (hid : c.fallback.id = []) : HoldsEntry x (c.seeded stored) := by
  obtain ⟨⟨y, hy, hyid, hyname, hypath⟩, hidOnce, hnameOnce⟩ := h
  have hmem : y ∈ c.candidates stored := c.mem_candidates hy (by rw [hyname]; exact hx.nameOther)
    (by rw [hyname]; exact hx.nameNonempty) hypath
  have hname : x.name ≠ defaultKeyDatabaseName := by
    intro heq
    have hreserved := hx.nameOther
    rw [heq, ReconcileInputs.reserved_defaultName] at hreserved
    cases hreserved
  refine ⟨?_, ?_, ?_⟩
  · rw [ReconcileInputs.seeded_of_candidates (List.ne_nil_of_mem hmem)]
    obtain ⟨kind, heq, -⟩ := c.settle_spec y
    refine ⟨c.settle y, List.mem_map_of_mem hmem, ?_⟩
    rw [heq]
    exact ⟨hyid, hyname, reanchor_ne_nil hypath⟩
  · have hle : idCount x.id (c.seeded stored) ≤ idCount x.id (c.candidates stored) :=
      ReconcileInputs.countP_seeded_le (fun z => by rw [(ReconcileInputs.settle_fields z).1])
        (by rw [hid]; exact decide_eq_false hx.idNonempty.symm)
    exact Nat.le_trans hle
      (Nat.le_trans (ReconcileInputs.idCount_candidates_le hx.idNonempty) hidOnce)
  · have hle : nameCount x.name (c.seeded stored) ≤ nameCount x.name (c.candidates stored) :=
      ReconcileInputs.countP_seeded_le (fun z => by rw [(ReconcileInputs.settle_fields z).2])
        (by rw [hseed.name]; exact decide_eq_false hname.symm)
    exact Nat.le_trans hle (ReconcileInputs.nameCount_candidates_le hnameOnce)

/-! ### In the sandbox -/

section Sandbox

variable {supported : List QString} {stored : List KeyDatabaseItemSO} {name : QString}

theorem storedByName_spec {db : KeyDatabaseItemSO} (h : storedByName stored name = some db) :
    db ∈ stored ∧ db.name = name := by
  have hmem := List.mem_of_getLast? h
  rw [List.mem_filter, Bool.and_eq_true, decide_eq_true_eq] at hmem
  exact ⟨hmem.1, hmem.2.2⟩

theorem storedByName_of_once {x : KeyDatabaseItemSO} (hx : x ∈ stored) (hname : x.name ≠ [])
    (honce : nameCount x.name stored ≤ 1) : storedByName stored x.name = some x := by
  cases hlast : storedByName stored x.name with
  | none =>
    unfold storedByName at hlast
    rw [List.getLast?_eq_none_iff, List.filter_eq_nil_iff] at hlast
    exact absurd (by simp [hname]) (hlast x hx)
  | some db =>
    obtain ⟨hdb, hdbname⟩ := storedByName_spec hlast
    rw [eq_of_countP_le_one honce hdb (by simpa using hdbname) hx (by simp)]

theorem sandboxEntry_spec {keyDb : ScannedKeyDatabase} {e : KeyDatabaseItemSO}
    (h : sandboxEntry supported stored keyDb = some e) :
    isReservedKeyDatabaseName keyDb.name = false ∧ e.name = keyDb.name ∧ e.path = keyDb.path ∧
      e.kind = some .managed ∧ ∃ db ∈ stored, db.name = keyDb.name ∧ e.id = db.id := by
  unfold sandboxEntry at h
  split at h
  · cases h
  · next hnot =>
    rw [Bool.or_eq_true, not_or, Bool.not_eq_true] at hnot
    obtain ⟨db, hdb, rfl⟩ := Option.map_eq_some_iff.mp h
    obtain ⟨hmem, hname⟩ := storedByName_spec hdb
    exact ⟨Bool.eq_false_iff.mpr hnot.2, rfl, rfl, rfl, db, hmem, hname, rfl⟩

/-- A folder that is found for the entry takes its id from it, and no other does. -/
theorem HoldsEntry.sandbox {discovered : List ScannedKeyDatabase} {defaultDb x : KeyDatabaseItemSO}
    (h : HoldsEntry x stored) (hx : HasOwnIdentity x) (hid : defaultDb.id = [])
    (hname : isReservedKeyDatabaseName defaultDb.name = true)
    (honce : discovered.countP (fun keyDb => keyDb.name = x.name) = 1)
    (hpath : ∀ keyDb ∈ discovered, keyDb.name = x.name → keyDb.path ≠ []) :
    HoldsEntry x (sandboxDefault supported stored defaultDb ::
      discovered.filterMap (sandboxEntry supported stored)) := by
  obtain ⟨⟨y, hy, hyid, hyname, hypath⟩, hidOnce, hnameOnce⟩ := h
  obtain ⟨keyDb, hkeyDb, hkeyName⟩ := List.countP_pos_iff.mp (Nat.lt_of_lt_of_eq one_pos honce.symm)
  rw [decide_eq_true_eq] at hkeyName
  have hdb : storedByName stored keyDb.name = some y := by
    rw [hkeyName, ← hyname]
    exact storedByName_of_once hy (by rw [hyname]; exact hx.nameNonempty)
      (by rw [hyname]; exact hnameOnce)
  -- any entry with the id, or the name, comes from the one folder of that name
  have hcount : ∀ p : KeyDatabaseItemSO → Bool, p (sandboxDefault supported stored defaultDb) =
      false → (∀ k ∈ discovered, ∀ e, sandboxEntry supported stored k = some e → p e = true →
        k.name = x.name) →
      (sandboxDefault supported stored defaultDb ::
        discovered.filterMap (sandboxEntry supported stored)).countP p ≤ 1 := by
    intro p hdefault himp
    rw [List.countP_cons_of_neg (by rw [hdefault]; exact Bool.false_ne_true), List.countP_filterMap,
      ← honce]
    refine List.countP_mono_left fun k hk hsome => ?_
    cases he : sandboxEntry supported stored k with
    | none =>
      rw [he] at hsome
      cases hsome
    | some e =>
      rw [he] at hsome
      exact decide_eq_true (himp k hk e he hsome)
  refine ⟨?_, ?_, ?_⟩
  · have hentry : ∃ e, sandboxEntry supported stored keyDb = some e := by
      unfold sandboxEntry
      rw [hdb, hkeyName, hx.nameOther, List.isEmpty_eq_false_iff.mpr hx.nameNonempty, Bool.or_self,
        if_neg Bool.false_ne_true]
      exact ⟨_, rfl⟩
    obtain ⟨e, he⟩ := hentry
    obtain ⟨-, hename, hepath, -, db, -, -, -⟩ := sandboxEntry_spec he
    refine ⟨e, List.mem_cons_of_mem _ (List.mem_filterMap.mpr ⟨keyDb, hkeyDb, he⟩), ?_,
      hename.trans hkeyName, by rw [hepath]; exact hpath keyDb hkeyDb hkeyName⟩
    unfold sandboxEntry at he
    rw [hdb] at he
    split at he
    · cases he
    · rw [← Option.some.inj he]
      exact hyid
  · refine hcount _ ?_ fun k hk e he hp => ?_
    · show decide (defaultDb.id.trimmed = x.id) = false
      rw [hid]
      exact decide_eq_false hx.idNonempty.symm
    · obtain ⟨-, -, -, -, db, hmem, hdbname, hdbid⟩ := sandboxEntry_spec he
      rw [decide_eq_true_eq, hdbid] at hp
      have hsame : db = y := eq_of_countP_le_one hidOnce hmem (by simpa using hp) hy
        (by rw [hyid, hx.trimmed]; simp)
      rw [← hdbname, hsame, hyname]
  · refine hcount _ ?_ fun k hk e he hp => ?_
    · show decide (defaultDb.name = x.name) = false
      refine decide_eq_false fun heq => ?_
      have hreserved := hx.nameOther
      rw [← heq, hname] at hreserved
      cases hreserved
    · rw [decide_eq_true_eq, (sandboxEntry_spec he).2.1] at hp
      exact hp

end Sandbox

/-! ## What a read keeps -/

theorem makeDefault_id (fs : ProfileFs) (engine : EngineState) (appDataPath : QString) :
    (makeDefaultKeyDatabaseItem fs engine appDataPath).id = [] := by
  unfold makeDefaultKeyDatabaseItem
  dsimp only
  split <;> rfl

theorem makeDefault_name (fs : ProfileFs) (engine : EngineState) (appDataPath : QString) :
    (makeDefaultKeyDatabaseItem fs engine appDataPath).name = defaultKeyDatabaseName := by
  unfold makeDefaultKeyDatabaseItem
  dsimp only
  split <;> rfl

variable {r : KeyDatabaseReader}

/-- A database stays in the list, with its id and its name. -/
theorem HoldsEntry.reconcile {items : List KeyDatabaseItemSO} {x : KeyDatabaseItemSO}
    (h : HoldsEntry x items) (hx : HasOwnIdentity x) (hfinds : r.Finds x.name)
    (hminted : r.MintsOther x.id) : HoldsEntry x (r.reconcile items) := by
  cases r with
  | desktop fs engine profileRoot appDataPath minted =>
    have hseed := makeDefault_seeds fs engine profileRoot appDataPath
    refine (h.seeded hx hseed (makeDefault_id fs engine appDataPath)).numbered hx ?_ hminted
    intro y hy hname hkind
    have hsettled := (ReconcileInputs.seeded_settled hseed hy).1.2.mp hkind
    rw [hname, hx.nameOther] at hsettled
    cases hsettled
  | sandbox fs engine appDataPath discovered supported minted =>
    obtain ⟨honce, hpath⟩ := hfinds
    have hreserved : isReservedKeyDatabaseName
        (makeDefaultKeyDatabaseItem fs engine appDataPath).name = true := by
      rw [makeDefault_name]
      exact ReconcileInputs.reserved_defaultName
    refine (h.sandbox hx (makeDefault_id fs engine appDataPath) hreserved honce hpath).numbered hx
      ?_ hminted
    intro y hy hname hkind
    rcases List.mem_cons.mp hy with rfl | hy
    · have hdefault : isReservedKeyDatabaseName x.name = true := hname ▸ hreserved
      rw [hx.nameOther] at hdefault
      cases hdefault
    · obtain ⟨k, -, he⟩ := List.mem_filterMap.mp hy
      rw [(sandboxEntry_spec he).2.2.2.1] at hkind
      cases hkind

/-- No id comes into the list but DEFAULT's and those that the read mints. -/
theorem idCount_reconcile_le {id : QString} (hne : id ≠ []) (hdefault : id ≠ defaultKeyDatabaseId)
    (hminted : r.MintsOther id) (items : List KeyDatabaseItemSO) :
    idCount id (r.reconcile items) ≤ idCount id items := by
  have hnumbered : ∀ l : List KeyDatabaseItemSO,
      idCount id (assignKeyDatabaseIds r.minted 0 (normalizeKeyDatabaseChannels l)).1 ≤
        min 1 (idCount id l) := by
    intro l
    refine Nat.le_trans (idCount_assign hdefault hminted).1 ?_
    exact Nat.le_of_eq (congrArg (min 1) (countP_normalize (fun _ _ => rfl) l))
  cases r with
  | desktop fs engine profileRoot appDataPath minted =>
    refine Nat.le_trans (hnumbered _) (Nat.le_trans (Nat.min_le_right _ _) ?_)
    refine Nat.le_trans (ReconcileInputs.countP_seeded_le ?_ ?_)
      (ReconcileInputs.idCount_candidates_le hne)
    · intro y
      rw [(ReconcileInputs.settle_fields y).1]
    · rw [makeDefault_id]
      exact decide_eq_false hne.symm
  | sandbox fs engine appDataPath discovered supported minted =>
    refine Nat.le_trans (hnumbered _) ?_
    by_cases hzero : idCount id items = 0
    · refine Nat.le_trans (Nat.min_le_right _ _) (Nat.le_of_eq ?_)
      rw [hzero]
      refine List.countP_eq_zero.mpr fun y hy => ?_
      rcases List.mem_cons.mp hy with rfl | hy
      · show ¬ decide ((makeDefaultKeyDatabaseItem fs engine appDataPath).id.trimmed = id) = true
        rw [makeDefault_id, decide_eq_true_eq]
        exact hne.symm
      · obtain ⟨k, -, he⟩ := List.mem_filterMap.mp hy
        obtain ⟨-, -, -, -, db, hmem, -, hid⟩ := sandboxEntry_spec he
        rw [hid]
        exact List.countP_eq_zero.mp hzero db hmem
    · exact Nat.le_trans (Nat.min_le_left _ _) (Nat.one_le_iff_ne_zero.mpr hzero)

/-! ### DEFAULT -/

/-- DEFAULT is in the list, once. -/
structure HasBuiltIn (items : List KeyDatabaseItemSO) : Prop where
  found : ∃ x ∈ items, isReservedKeyDatabaseName x.name = true ∧ x.path ≠ []
  once : defaultCount items ≤ 1

/-- It is not, and something else is. -/
structure LacksBuiltIn (items : List KeyDatabaseItemSO) : Prop where
  found : ∃ x ∈ items, x.name ≠ [] ∧ x.path ≠ []
  none : ∀ x ∈ items, isReservedKeyDatabaseName x.name = false

section Desktop

variable {c : ReconcileInputs} {fresh : Nat → QString} {n : Nat} {items : List KeyDatabaseItemSO}

theorem HasBuiltIn.desktop (h : HasBuiltIn items) :
    HasBuiltIn (c.reconcileKeyDatabaseList fresh n items).1 := by
  obtain ⟨⟨x, hx, hname, hpath⟩, honce⟩ := h
  have hne : x.name ≠ [] := by
    intro hnil
    rw [hnil] at hname
    exact absurd hname (by decide)
  have hcandidate : ∃ e ∈ c.candidates items, e.name = x.name ∧ e.path ≠ [] := by
    have hkept : x ∈ dropDuplicateDefaultKeyDatabases items := by
      rw [drop_of_defaultCount honce]
      exact hx
    by_cases hlocal : c.localDefault.path = []
    · refine ⟨x, List.mem_filter.mpr ⟨?_, by simp [hne, hpath]⟩, rfl, hpath⟩
      unfold ReconcileInputs.adopted adoptLocalDefaultKeyDatabase
      rw [if_pos hlocal]
      exact hkept
    · have hadopted : (adoptItem c.localDefault.path c.localDefault.backendType x).path ≠ [] := by
        rw [adoptItem_path hname]
        exact hlocal
      refine ⟨_, List.mem_filter.mpr ⟨?_, by simp [adoptItem_name, hne, hadopted]⟩,
        adoptItem_name _ _ x, hadopted⟩
      unfold ReconcileInputs.adopted
      rcases adopt_spec c.fs (dropDuplicateDefaultKeyDatabases items) c.localDefault.backendType
          c.profileRoot hlocal with ⟨-, heq⟩ | ⟨-, carried, -, -, -, -, heq⟩
      · rw [heq]
        exact List.mem_map_of_mem hkept
      · rw [heq]
        exact List.mem_append_left _ (List.mem_map_of_mem hkept)
  obtain ⟨e, he, hename, hepath⟩ := hcandidate
  obtain ⟨y, hy, hyname, hypath, -⟩ := @ReconcileInputs.exists_mem_settled c fresh items n e he
  refine ⟨⟨y, hy, by rw [hyname, hename]; exact hname, by rw [hypath]; exact reanchor_ne_nil hepath⟩,
    ?_⟩
  rw [defaultCount_eq_of_face (ReconcileInputs.reconcile_faces n)]
  unfold defaultCount
  rw [(sortByChannel_perm _).countP_eq]
  exact ReconcileInputs.defaultCount_seeded

theorem LacksBuiltIn.desktop (h : LacksBuiltIn items) :
    LacksBuiltIn (c.reconcileKeyDatabaseList fresh n items).1 := by
  obtain ⟨⟨x, hx, hname, hpath⟩, hnone⟩ := h
  have hmem : x ∈ c.candidates items := c.mem_candidates hx (hnone x hx) hname hpath
  refine ⟨?_, fun y hy => ?_⟩
  · obtain ⟨y, hy, hyname, hypath, -⟩ := @ReconcileInputs.exists_mem_settled c fresh items n x hmem
    exact ⟨y, hy, by rw [hyname]; exact hname, by rw [hypath]; exact reanchor_ne_nil hpath⟩
  · obtain ⟨e, he, hename, -⟩ := ReconcileInputs.mem_settled (List.ne_nil_of_mem hmem) hy
    rw [hename]
    have hsub : dropDuplicateDefaultKeyDatabases items ⊆ items :=
      (dropDefaultsAfter_sublist false items).subset
    have hadopted := (List.mem_filter.mp he).1
    unfold ReconcileInputs.adopted at hadopted
    rcases adopt_cases c.fs (dropDuplicateDefaultKeyDatabases items) c.localDefault.path
        c.localDefault.backendType c.profileRoot with heq | ⟨added, -, hadded, heq⟩
    · rw [heq] at hadopted
      exact hnone e (hsub hadopted)
    · rw [heq] at hadopted
      rcases List.mem_append.mp hadopted with hold | hnew
      · obtain ⟨z, hz, rfl⟩ := List.mem_map.mp hold
        rw [adoptItem_name]
        exact hnone z (hsub hz)
      · exact (hadded e hnew).2.1

end Desktop

theorem HasBuiltIn.reconcile {items : List KeyDatabaseItemSO} (h : HasBuiltIn items)
    (r : KeyDatabaseReader) : HasBuiltIn (r.reconcile items) := by
  cases r with
  | desktop fs engine profileRoot appDataPath minted => exact h.desktop
  | sandbox fs engine appDataPath discovered supported minted =>
    have hname : isReservedKeyDatabaseName
        (makeDefaultKeyDatabaseItem fs engine appDataPath).name = true := by
      rw [makeDefault_name]
      exact ReconcileInputs.reserved_defaultName
    have hpath := (makeDefault_seeds fs engine [] appDataPath).path
    have hcount : ∀ p : KeyDatabaseItemSO → Bool, (∀ x c, p { x with channel := c } = p x) →
        (∀ x id, p { x with id := id } = p x) →
        (KeyDatabaseReader.reconcile (.sandbox fs engine appDataPath discovered supported minted)
          items).countP p = (sandboxDefault supported items
            (makeDefaultKeyDatabaseItem fs engine appDataPath) ::
            discovered.filterMap (sandboxEntry supported items)).countP p :=
      fun _ hchannel hid => countP_numbered hchannel hid _
    refine ⟨?_, ?_⟩
    · have hpos : 0 < (KeyDatabaseReader.reconcile
          (.sandbox fs engine appDataPath discovered supported minted) items).countP
            (fun y => isReservedKeyDatabaseName y.name && !y.path.isEmpty) := by
        rw [hcount _ (fun _ _ => rfl) (fun _ _ => rfl), List.countP_pos_iff]
        refine ⟨_, List.mem_cons_self, ?_⟩
        rw [Bool.and_eq_true, Bool.not_eq_true', List.isEmpty_eq_false_iff]
        exact ⟨hname, hpath⟩
      obtain ⟨y, hy, hp⟩ := List.countP_pos_iff.mp hpos
      rw [Bool.and_eq_true, Bool.not_eq_true', List.isEmpty_eq_false_iff] at hp
      exact ⟨y, hy, hp⟩
    · unfold defaultCount
      rw [hcount _ (fun _ _ => rfl) (fun _ _ => rfl), List.countP_cons]
      have hzero : (discovered.filterMap (sandboxEntry supported items)).countP
          (fun y => isReservedKeyDatabaseName y.name) = 0 := by
        refine List.countP_eq_zero.mpr fun y hy => ?_
        obtain ⟨k, -, he⟩ := List.mem_filterMap.mp hy
        obtain ⟨hfree, hyname, -⟩ := sandboxEntry_spec he
        rw [hyname, hfree]
        exact Bool.false_ne_true
      rw [hzero]
      split <;> omega

theorem LacksBuiltIn.reconcile {items : List KeyDatabaseItemSO} (h : LacksBuiltIn items)
    (hdesktop : r.IsDesktop) : LacksBuiltIn (r.reconcile items) := by
  cases r with
  | desktop fs engine profileRoot appDataPath minted => exact h.desktop
  | sandbox fs engine appDataPath discovered supported minted => exact hdesktop.elim

end GpgFrontend
