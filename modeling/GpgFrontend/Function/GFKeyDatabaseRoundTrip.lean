import Mathlib.Data.Set.Finite.List
import Mathlib.Dynamics.PeriodicPts.Lemmas
import GpgFrontend.Function.GFKeyDatabaseSave

/-!
# A key that is saved, listed

`SaveKey` against `GetMetadataList`: all tables as before, or the record back in its normal
form and every other key untouched.

- `exists_listed_iff`: the listing of one save.
- `save_sound_iff`: **when a save is all or nothing, and its record comes back.**
-/

namespace GpgFrontend

namespace GFKeyDatabase

variable {qt : KeyTexts} {env : SaveOutcomes} {db : GFKeyDatabase} {key : GFKeyMetadata}
  {blocks : GFKeyBlocks} {updateTs : Bool} {now : Int} {o : RowOrders}

/-! ## Every state keeps to the schema -/

theorem SchemaOk.empty : SchemaOk {} := by
  constructor
  all_goals simp

theorem mem_keys_savedTables {fpr : QString} (h : fpr ∈ db.keys.map KeyRow.fpr) :
    fpr ∈ (db.savedTables qt key blocks updateTs now).keys.map KeyRow.fpr := by
  obtain ⟨row, hrow, rfl⟩ := List.mem_map.mp h
  by_cases hsame : row.fpr = key.fpr.toUpper
  · rw [hsame]
    exact mem_keyTables
  · exact List.mem_map.mpr ⟨row, mem_replaceRow.mpr (.inl ⟨hrow, hsame⟩), rfl⟩

theorem SchemaOk.savedTables (h : SchemaOk db)
    (huserIds : ((userIdRows key).map UserIdRow.userId).Nodup)
    (hsubkeys : ((subkeyRows key).map SubkeyRow.fpr).Nodup) :
    SchemaOk (db.savedTables qt key blocks updateTs now) where
  keysOnce := nodup_replaceRow h.keysOnce
  userIdsOnce := nodup_replaceParts h.userIdsOnce huserIds fpr_of_userIdRows
  subkeysOnce := nodup_replaceParts h.subkeysOnce hsubkeys parentFpr_of_subkeyRows
  blocksOnce := nodup_replaceRow h.blocksOnce
  userIdsKey row hrow := by
    rcases List.mem_append.mp hrow with hold | hnew
    · exact mem_keys_savedTables (h.userIdsKey row (List.mem_filter.mp hold).1)
    · rw [fpr_of_userIdRows row hnew]
      exact mem_keyTables
  subkeysKey row hrow := by
    rcases List.mem_append.mp hrow with hold | hnew
    · exact mem_keys_savedTables (h.subkeysKey row (List.mem_filter.mp hold).1)
    · rw [parentFpr_of_subkeyRows row hnew]
      exact mem_keyTables
  blocksKey row hrow := by
    rcases mem_replaceRow.mp hrow with ⟨hold, -⟩ | rfl
    · exact mem_keys_savedTables (h.blocksKey row hold)
    · exact mem_keyTables

theorem SchemaOk.deleteKey (h : SchemaOk db) (fpr : QString) : SchemaOk (db.deleteKey fpr) := by
  unfold GFKeyDatabase.deleteKey
  dsimp only
  split
  · exact h
  · have hkeys : ∀ {f : QString}, f ≠ db.resolvePrimaryFpr fpr → f ∈ db.keys.map KeyRow.fpr →
        f ∈ (db.keys.filter fun row => row.fpr ≠ db.resolvePrimaryFpr fpr).map KeyRow.fpr := by
      intro f hne hf
      obtain ⟨row, hrow, rfl⟩ := List.mem_map.mp hf
      exact List.mem_map.mpr ⟨row, List.mem_filter.mpr ⟨hrow, decide_eq_true hne⟩, rfl⟩
    constructor
    · exact h.keysOnce.sublist (List.filter_sublist.map _)
    · exact h.userIdsOnce.sublist (List.filter_sublist.map _)
    · exact h.subkeysOnce.sublist (List.filter_sublist.map _)
    · exact h.blocksOnce.sublist (List.filter_sublist.map _)
    · intro row hrow
      obtain ⟨hmem, hne⟩ := List.mem_filter.mp hrow
      exact hkeys (of_decide_eq_true hne) (h.userIdsKey row hmem)
    · intro row hrow
      obtain ⟨hmem, hne⟩ := List.mem_filter.mp hrow
      exact hkeys (of_decide_eq_true hne) (h.subkeysKey row hmem)
    · intro row hrow
      obtain ⟨hmem, hne⟩ := List.mem_filter.mp hrow
      exact hkeys (of_decide_eq_true hne) (h.blocksKey row hmem)

theorem SchemaOk.disableKey (h : SchemaOk db) (fpr : QString) : SchemaOk (db.disableKey fpr) := by
  unfold GFKeyDatabase.disableKey
  dsimp only
  split
  · exact h
  · have hkeys : (db.keys.map fun row =>
        if row.fpr = db.resolvePrimaryFpr fpr then { row with isDisabled := true } else row).map
          KeyRow.fpr = db.keys.map KeyRow.fpr := by
      rw [List.map_map]
      refine List.map_congr_left fun row _ => ?_
      show KeyRow.fpr (if _ then _ else row) = row.fpr
      split
      · rfl
      · rfl
    constructor
    · exact hkeys ▸ h.keysOnce
    · exact h.userIdsOnce
    · exact h.subkeysOnce
    · exact h.blocksOnce
    · exact fun row hrow => hkeys ▸ h.userIdsKey row hrow
    · exact fun row hrow => hkeys ▸ h.subkeysKey row hrow
    · exact fun row hrow => hkeys ▸ h.blocksKey row hrow

/-- Every stored fingerprint is in upper case, so that the columns that compare letters of
either case tell apart no more than what is written in them. -/
structure FingerprintsUpper (db : GFKeyDatabase) : Prop where
  keys : ∀ row ∈ db.keys, row.fpr.toUpper = row.fpr
  subkeys : ∀ row ∈ db.subkeys, row.fpr.toUpper = row.fpr

theorem FingerprintsUpper.step (h : FingerprintsUpper db) (change : KeyDatabaseChange) :
    FingerprintsUpper (db.step qt change) := by
  cases change with
  | saveKey key blocks updateTs now succeeds =>
    rw [GFKeyDatabase.step]
    cases succeeds with
    | false => exact h
    | true =>
      rw [if_pos rfl, GFKeyDatabase.saveKey]
      split
      · refine ⟨fun row hrow => ?_, fun row hrow => ?_⟩
        · rcases mem_replaceRow.mp hrow with ⟨hold, -⟩ | rfl
          · exact h.keys row hold
          · exact toUpper_toUpper key.fpr
        · rcases List.mem_append.mp hrow with hold | hnew
          · exact h.subkeys row (List.mem_filter.mp hold).1
          · obtain ⟨sub, -, rfl⟩ := List.mem_map.mp hnew
            exact toUpper_toUpper sub.fpr
      · exact h
  | deleteKey fpr succeeds =>
    cases succeeds with
    | false => exact h
    | true =>
      show FingerprintsUpper (db.deleteKey fpr)
      unfold GFKeyDatabase.deleteKey
      dsimp only
      split
      · exact h
      · exact ⟨fun row hrow => h.keys row (List.mem_filter.mp hrow).1,
          fun row hrow => h.subkeys row (List.mem_filter.mp hrow).1⟩
  | disableKey fpr succeeds =>
    cases succeeds with
    | false => exact h
    | true =>
      show FingerprintsUpper (db.disableKey fpr)
      unfold GFKeyDatabase.disableKey
      dsimp only
      split
      · exact h
      · refine ⟨fun row hrow => ?_, h.subkeys⟩
        obtain ⟨old, hold, rfl⟩ := List.mem_map.mp hrow
        split
        · exact h.keys old hold
        · exact h.keys old hold

theorem SchemaOk.step (h : SchemaOk db) (change : KeyDatabaseChange) :
    SchemaOk (db.step qt change) := by
  cases change with
  | saveKey key blocks updateTs now succeeds =>
    rw [GFKeyDatabase.step]
    cases succeeds with
    | false => exact h
    | true =>
      rw [if_pos rfl, GFKeyDatabase.saveKey]
      split
      · next honce => exact h.savedTables honce.1 honce.2
      · exact h
  | deleteKey fpr succeeds =>
    cases succeeds with
    | false => exact h
    | true => exact h.deleteKey fpr
  | disableKey fpr succeeds =>
    cases succeeds with
    | false => exact h
    | true => exact h.disableKey fpr

/-- **Every state keeps to the schema**, whatever is saved, deleted and disabled. -/
theorem schemaOk_reachable (h : ReachableUnder (step qt) (fun _ _ => True) {} db) :
    SchemaOk db ∧ FingerprintsUpper db :=
  ⟨h.inv .empty fun _ change hs _ => hs.step change,
    h.inv ⟨List.forall_mem_nil _, List.forall_mem_nil _⟩ fun _ change hs _ => hs.step change⟩

theorem schemaOk_reachable_saved : SchemaOk (step sampleTexts {} sampleSave) ∧
    FingerprintsUpper (step sampleTexts {} sampleSave) :=
  schemaOk_reachable (.next sampleSave .start trivial)

/-! ## The normal form -/

/-- A subkey with its IDs in upper case. -/
def upperSubkey (sub : GFSubKeyMetadata) : GFSubKeyMetadata :=
  { sub with fpr := sub.fpr.toUpper, keyId := sub.keyId.toUpper }

/-- The primary user ID first, the others in order. -/
def normalUserIds (key : GFKeyMetadata) : List GFUserId :=
  (key.userIds.filter fun uid => uid.isPrimary) ++ key.userIds.filter fun uid => !uid.isPrimary

/-- IDs in upper case, the primary user ID first, and the key itself among its subkeys. -/
def normalForm (key : GFKeyMetadata) (updateTime : Int) : GFKeyMetadata :=
  let key' := { key with
    fpr := key.fpr.toUpper
    keyId := key.keyId.toUpper
    userIds := normalUserIds key
    updateTime }
  { key' with
    subkeys := primaryKeyAsSubKey key' ::
      (key.subkeys.filter fun sub => sub.fpr.toUpper ≠ key.fpr.toUpper).map upperSubkey }

/-- The record as it should be listed, with each user ID and each subkey once. The order of
the subkeys is no content. -/
structure InNormalForm (listed normal : GFKeyMetadata) : Prop where
  record : { listed with subkeys := normal.subkeys } = normal
  subkeys : listed.subkeys.Perm normal.subkeys
  userIdsOnce : (listed.userIds.map GFUserId.toText).Nodup
  subkeysOnce : (listed.subkeys.map GFSubKeyMetadata.fpr).Nodup

/-- The rows of the other keys. -/
structure OtherRowsKept (db db' : GFKeyDatabase) (fpr : QString) : Prop where
  keys : (db'.keys.filter fun row => row.fpr ≠ fpr) = db.keys.filter fun row => row.fpr ≠ fpr
  userIds : (db'.userIds.filter fun row => row.fpr ≠ fpr) =
    db.userIds.filter fun row => row.fpr ≠ fpr
  subkeys : (db'.subkeys.filter fun row => row.parentFpr ≠ fpr) =
    db.subkeys.filter fun row => row.parentFpr ≠ fpr
  blocks : (db'.blocks.filter fun row => row.fpr ≠ fpr) =
    db.blocks.filter fun row => row.fpr ≠ fpr

/-- A user ID as it is written and read back. -/
def reread (qt : KeyTexts) (key : GFKeyMetadata) (uid : GFUserId) : GFUserId :=
  readUserId qt (userIdRow key uid)

/-- A record as the engines make one: a fingerprint without blanks that is no key's ID, and
one user ID the primary one at most. The parser does not go in circles: what is read back
several times is itself again only where it is so at once. -/
structure EngineRecord (qt : KeyTexts) (db : GFKeyDatabase) (key : GFKeyMetadata) : Prop where
  fprSolid : ∀ c ∈ key.fpr, isSpaceUnit c = false
  fprSome : key.fpr ≠ []
  notKeyId : ∀ row ∈ db.keys, row.keyId ≠ key.fpr.toUpper
  settles : ∀ uid ∈ key.userIds, ∀ n, (reread qt key)^[n + 1] uid = uid → reread qt key uid = uid
  onePrimary : (key.userIds.filter fun uid => uid.isPrimary).length ≤ 1

/-- The user IDs read back as they are written: none is like `Alice <a@b> ` with its blank,
or like `X <e> ()`. -/
def ReadsBack (qt : KeyTexts) (key : GFKeyMetadata) : Prop :=
  ∀ uid ∈ key.userIds, reread qt key uid = uid

/-- The rows of the user IDs come in the order in which they were inserted, but for the
primary one, which goes to the front. -/
def InsertedOrder (o : RowOrders) (key : GFKeyMetadata) : Prop :=
  ((o.userIds (userIdRows key)).filter fun row => !row.isPrimary) =
    (userIdRows key).filter fun row => !row.isPrimary

/-! ## What is listed after a save -/

theorem cleanId_of_solid {fpr : QString} (h : ∀ c ∈ fpr, isSpaceUnit c = false) :
    cleanId fpr.toUpper = fpr.toUpper := by
  have hkeep : (fpr.toUpper.filter fun c => !isSpaceUnit c) = fpr.toUpper := by
    rw [List.filter_eq_self]
    intro c hc
    rw [solid_toUpper h c hc]
    rfl
  rw [cleanId, hkeep, toUpper_toUpper]

/-- The fingerprint that was saved names its key. -/
theorem resolve_saved (hkey : EngineRecord qt db key) :
    (db.savedTables qt key blocks updateTs now).resolvePrimaryFpr key.fpr.toUpper =
      key.fpr.toUpper := by
  have hsome : key.fpr.toUpper.isEmpty = false := by
    rw [List.isEmpty_eq_false_iff]
    exact fun h => hkey.fprSome (List.map_eq_nil_iff.mp h)
  have hothers : ((db.keys.filter fun row => row.fpr ≠ key.fpr.toUpper).find? fun row =>
      row.fpr = key.fpr.toUpper || row.keyId = key.fpr.toUpper) = none := by
    rw [List.find?_eq_none]
    intro row hrow
    obtain ⟨hmem, hne⟩ := List.mem_filter.mp hrow
    have hid := hkey.notKeyId row hmem
    simpa [hid] using hne
  have hfind : ((db.savedTables qt key blocks updateTs now).keys.find? fun row =>
      row.fpr = key.fpr.toUpper || row.keyId = key.fpr.toUpper) =
      some (keyRow key (savedTime qt key updateTs now)) := by
    show List.find? _ (List.filter _ db.keys ++ _) = _
    rw [List.find?_append]
    show Option.or (List.find? _ (db.keys.filter fun row => row.fpr ≠ key.fpr.toUpper)) _ = _
    rw [hothers]
    simp [keyRow]
  unfold resolvePrimaryFpr
  dsimp only
  rw [cleanId_of_solid hkey.fprSolid, hsome, if_neg Bool.false_ne_true, hfind]
  rfl

variable {α : Type} {rows new : List α} {owner : α → QString}

theorem filter_part {k : QString} (hnew : ∀ row ∈ new, owner row = k) :
    (((rows.filter fun row => owner row ≠ k) ++ new).filter fun row => owner row = k) = new := by
  have hold : ((rows.filter fun row => owner row ≠ k).filter fun row => owner row = k) = [] := by
    rw [List.filter_filter, List.filter_eq_nil_iff]
    intro row _
    simp
  have hkeep : (new.filter fun row => owner row = k) = new := by
    rw [List.filter_eq_self]
    exact fun row hrow => decide_eq_true (hnew row hrow)
  rw [List.filter_append, hold, hkeep, List.nil_append]

theorem filter_others {k : QString} (hnew : ∀ row ∈ new, owner row = k) :
    (((rows.filter fun row => owner row ≠ k) ++ new).filter fun row => owner row ≠ k) =
      rows.filter fun row => owner row ≠ k := by
  have hnone : (new.filter fun row => owner row ≠ k) = [] := by
    rw [List.filter_eq_nil_iff]
    intro row hrow
    simp [hnew row hrow]
  rw [List.filter_append, hnone, List.append_nil, List.filter_filter]
  simp

theorem otherRowsKept_savedTables :
    OtherRowsKept db (db.savedTables qt key blocks updateTs now) key.fpr.toUpper where
  keys := filter_others (List.forall_mem_singleton.mpr rfl)
  userIds := filter_others fpr_of_userIdRows
  subkeys := filter_others parentFpr_of_subkeyRows
  blocks := filter_others (List.forall_mem_singleton.mpr rfl)

/-- A user ID marked as primary goes to the front, in front of those before it. -/
theorem primaryFirst_eq (rows : List UserIdRow) :
    primaryFirst qt rows =
      ((rows.filter fun row => row.isPrimary).map (readUserId qt)).reverse ++
        (rows.filter fun row => !row.isPrimary).map (readUserId qt) := by
  have hfold : ∀ (rows : List UserIdRow) (front back : List GFUserId),
      rows.foldl (fun uids row => if row.isPrimary then readUserId qt row :: uids
        else uids ++ [readUserId qt row]) (front ++ back) =
      ((rows.filter fun row => row.isPrimary).map (readUserId qt)).reverse ++ front ++
        (back ++ (rows.filter fun row => !row.isPrimary).map (readUserId qt)) := by
    intro rows
    induction rows with
    | nil => simp
    | cons row rows ih =>
      intro front back
      rw [List.foldl_cons]
      cases hprimary : row.isPrimary with
      | true =>
        rw [if_pos rfl, ← List.cons_append, ih]
        simp [hprimary]
      | false =>
        rw [if_neg Bool.false_ne_true, List.append_assoc, ih]
        simp [hprimary]
  have hrows := hfold rows [] []
  rw [List.append_nil, List.append_nil, List.nil_append] at hrows
  exact hrows

theorem map_readUserId (uids : List GFUserId) :
    (uids.map (userIdRow key)).map (readUserId qt) = uids.map (reread qt key) := by
  rw [List.map_map]
  rfl

theorem ReadsBack.map (h : ReadsBack qt key) {uids : List GFUserId} (huids : uids ⊆ key.userIds) :
    uids.map (reread qt key) = uids := by
  conv => rhs; rw [← List.map_id uids]
  exact List.map_congr_left fun uid huid => h uid (huids huid)

theorem filter_userIdRows (p : Bool → Bool) :
    ((userIdRows key).filter fun row => p row.isPrimary) =
      (key.userIds.filter fun uid => p uid.isPrimary).map (userIdRow key) := by
  rw [userIdRows, List.filter_map]
  rfl

/-- Two orders of no more than one are the same. -/
theorem eq_of_perm_of_length_le_one {xs ys : List α} (h : xs.Perm ys) (hlen : ys.length ≤ 1) :
    xs = ys := by
  cases ys with
  | nil => exact h.eq_nil
  | cons y ys =>
    obtain rfl : ys = [] := List.eq_nil_of_length_eq_zero (by simpa using hlen)
    exact List.perm_singleton.mp h

theorem reverse_of_length_le_one {xs : List α} (h : xs.length ≤ 1) : xs.reverse = xs :=
  eq_of_perm_of_length_le_one (List.reverse_perm xs) h

/-- What permutes a list, and leads back to an element only where it keeps it, keeps all. -/
theorem eq_self_of_map_perm {f : α → α} {xs : List α} (h : (xs.map f).Perm xs)
    (hsettles : ∀ x ∈ xs, ∀ n, f^[n + 1] x = x → f x = x) : ∀ x ∈ xs, f x = x := by
  have hstays : ∀ x ∈ xs, f x ∈ xs := fun x hx => h.mem_iff.mp (List.mem_map_of_mem hx)
  let g : { x // x ∈ xs } → { x // x ∈ xs } := fun x => ⟨f x, hstays x x.2⟩
  have hsurjective : Function.Surjective g := by
    rintro ⟨y, hy⟩
    obtain ⟨x, hx, rfl⟩ := List.mem_map.mp (h.mem_iff.mpr hy)
    exact ⟨⟨x, hx⟩, rfl⟩
  have : Finite { x // x ∈ xs } := List.finite_toSet xs
  intro x hx
  obtain ⟨n, hpos, hback⟩ :=
    (Finite.injective_iff_surjective.mpr hsurjective).mem_periodicPts ⟨x, hx⟩
  have hiterate : (g^[n] ⟨x, hx⟩).1 = f^[n] x :=
    Function.Semiconj.iterate_right (f := Subtype.val) (fun _ => rfl) n ⟨x, hx⟩
  obtain ⟨n, rfl⟩ := Nat.exists_eq_succ_of_ne_zero hpos.ne'
  exact hsettles x hx n (hiterate.symm.trans (congrArg Subtype.val hback))

/-- The record's user IDs come back exactly when each of them does, the others in the order
of the rows. -/
theorem primaryFirst_eq_normal_iff (hkey : EngineRecord qt db key) :
    primaryFirst qt (o.userIds (userIdRows key)) = normalUserIds key ↔
      ReadsBack qt key ∧ InsertedOrder o key := by
  have hperm := o.userIds_perm (userIdRows key)
  have hrowsPrimary : ((userIdRows key).filter fun row => row.isPrimary) =
      (key.userIds.filter fun uid => uid.isPrimary).map (userIdRow key) := filter_userIdRows id
  have hprimary : ((o.userIds (userIdRows key)).filter fun row => row.isPrimary) =
      (userIdRows key).filter fun row => row.isPrimary := by
    refine eq_of_perm_of_length_le_one (hperm.filter _) ?_
    rw [hrowsPrimary, List.length_map]
    exact hkey.onePrimary
  have hfront : (((o.userIds (userIdRows key)).filter fun row => row.isPrimary).map
      (readUserId qt)).reverse =
        (key.userIds.filter fun uid => uid.isPrimary).map (reread qt key) := by
    rw [hprimary, hrowsPrimary, map_readUserId]
    refine reverse_of_length_le_one ?_
    rw [List.length_map]
    exact hkey.onePrimary
  have hback : (((userIdRows key).filter fun row => !row.isPrimary).map (readUserId qt)) =
      (key.userIds.filter fun uid => !uid.isPrimary).map (reread qt key) := by
    rw [filter_userIdRows not, map_readUserId]
  rw [primaryFirst_eq, hfront, normalUserIds, InsertedOrder]
  constructor
  · intro h
    obtain ⟨hfirst, hothers⟩ := List.append_inj h (List.length_map _)
    have hpermuted : ((key.userIds.filter fun uid => !uid.isPrimary).map (reread qt key)).Perm
        (key.userIds.filter fun uid => !uid.isPrimary) :=
      hback ▸ hothers ▸ ((hperm.filter _).map _).symm
    have hread : ReadsBack qt key := by
      intro uid huid
      cases hflag : uid.isPrimary with
      | true =>
        exact eq_self_of_map_perm (.of_eq hfirst)
          (fun uid h => hkey.settles uid (List.mem_filter.mp h).1) uid
          (List.mem_filter.mpr ⟨huid, hflag⟩)
      | false =>
        exact eq_self_of_map_perm hpermuted
          (fun uid h => hkey.settles uid (List.mem_filter.mp h).1) uid
          (List.mem_filter.mpr ⟨huid, by rw [hflag]; rfl⟩)
    -- what was read is written back as the row it was read from
    have hwritten : ∀ rows : List UserIdRow, (∀ row ∈ rows, row ∈ userIdRows key) →
        (rows.map (readUserId qt)).map (userIdRow key) = rows := by
      intro rows hrows
      rw [List.map_map]
      conv => rhs; rw [← List.map_id rows]
      refine List.map_congr_left fun row hrow => ?_
      obtain ⟨uid, huid, rfl⟩ := List.mem_map.mp (hrows row hrow)
      exact congrArg (userIdRow key) (hread uid huid)
    have hrows := congrArg (List.map (userIdRow key)) hothers
    rw [hwritten _ fun row hrow => hperm.mem_iff.mp (List.mem_filter.mp hrow).1,
      ← filter_userIdRows not] at hrows
    exact ⟨hread, hrows⟩
  · rintro ⟨hread, horder⟩
    rw [horder, hback, hread.map List.filter_sublist.subset, hread.map List.filter_sublist.subset]

theorem primaryFirst_perm_userIds (hread : ReadsBack qt key) :
    (primaryFirst qt (o.userIds (userIdRows key))).Perm key.userIds := by
  refine (primaryFirst_perm _).trans (((o.userIds_perm (userIdRows key)).map _).trans ?_)
  rw [userIdRows, map_readUserId, hread.map (List.Subset.refl _)]

/-- The entry of the key that was saved. -/
def savedEntry (qt : KeyTexts) (o : RowOrders) (key : GFKeyMetadata) (updateTime : Int) :
    GFKeyMetadata :=
  let key' := { readListed (keyRow key updateTime) with
    userIds := primaryFirst qt (o.userIds (userIdRows key)) }
  { key' with
    subkeys := primaryKeyAsSubKey key' :: (o.subkeys (subkeyRows key)).map readSubkey }

theorem loadPartsIn_saved (hkey : EngineRecord qt db key) (updateTime : Int) :
    loadPartsIn qt o (db.savedTables qt key blocks updateTs now)
        (readListed (keyRow key updateTime)) = savedEntry qt o key updateTime := by
  have huserIds : loadUserIdsIn qt o (db.savedTables qt key blocks updateTs now)
      key.fpr.toUpper = primaryFirst qt (o.userIds (userIdRows key)) := by
    have hsome : key.fpr.toUpper.isEmpty = false := by
      rw [List.isEmpty_eq_false_iff]
      exact fun h => hkey.fprSome (List.map_eq_nil_iff.mp h)
    unfold loadUserIdsIn
    dsimp only
    rw [resolve_saved hkey, hsome, if_neg Bool.false_ne_true]
    exact congrArg (fun rows => primaryFirst qt (o.userIds rows)) (filter_part fpr_of_userIdRows)
  have hsubkeys : loadSubkeysIn o (db.savedTables qt key blocks updateTs now)
      key.fpr.toUpper = (o.subkeys (subkeyRows key)).map readSubkey :=
    congrArg (fun rows => (o.subkeys rows).map readSubkey) (filter_part parentFpr_of_subkeyRows)
  have hfpr : (readListed (keyRow key updateTime)).fpr = key.fpr.toUpper := rfl
  unfold loadPartsIn savedEntry
  dsimp only
  rw [hfpr, huserIds, hsubkeys]
  rfl

/-- The listing has one entry under the fingerprint, and that is the key that was saved. -/
theorem exists_listed_iff (hdb : SchemaOk db) (hkey : EngineRecord qt db key)
    {P : GFKeyMetadata → Prop} :
    (∃ m ∈ getMetadataListIn qt o (db.savedTables qt key blocks updateTs now),
      m.fpr = key.fpr.toUpper ∧ P m) ↔
      P (savedEntry qt o key (savedTime qt key updateTs now)) := by
  have hmem : keyRow key (savedTime qt key updateTs now) ∈
      (db.savedTables qt key blocks updateTs now).keys := mem_replaceRow.mpr (.inr rfl)
  constructor
  · rintro ⟨m, hm, hfpr, hP⟩
    obtain ⟨row, hrow, rfl⟩ := List.mem_map.mp hm
    have hsame : row = keyRow key (savedTime qt key updateTs now) :=
      eq_of_key_eq (nodup_replaceRow hdb.keysOnce) hrow hmem hfpr
    rw [hsame, loadPartsIn_saved hkey] at hP
    exact hP
  · intro hP
    refine ⟨_, List.mem_map.mpr ⟨_, hmem, rfl⟩, rfl, ?_⟩
    rw [loadPartsIn_saved hkey]
    exact hP

/-! ## When a save keeps to its word -/

/-- The tables hold the record as it is already. -/
structure AlreadyStored (qt : KeyTexts) (db : GFKeyDatabase) (key : GFKeyMetadata)
    (blocks : GFKeyBlocks) (updateTs : Bool) (now : Int) : Prop where
  keys : [keyRow key (savedTime qt key updateTs now)].Perm
    (db.keys.filter fun row => row.fpr = key.fpr.toUpper)
  userIds : (userIdRows key).Perm (db.userIds.filter fun row => row.fpr = key.fpr.toUpper)
  subkeys : (subkeyRows key).Perm
    (db.subkeys.filter fun row => row.parentFpr = key.fpr.toUpper)
  blocks : [⟨key.fpr.toUpper, blocks⟩].Perm
    (db.blocks.filter fun row => row.fpr = key.fpr.toUpper)

/-- A subkey under the fingerprint of the key is spelled as that is. -/
def SpelledAlike (key : GFKeyMetadata) : Prop :=
  ∀ sub ∈ key.subkeys, sub.fpr.toUpper = key.fpr.toUpper → sub.fpr = key.fpr

/-- The condition on a call: once all that is looked at goes well, the deletes ran too, or
nothing was to be changed; and the record is one that comes back. -/
structure SavesWell (qt : KeyTexts) (o : RowOrders) (env : SaveOutcomes) (db : GFKeyDatabase)
    (key : GFKeyMetadata) (blocks : GFKeyBlocks) (updateTs : Bool) (now : Int) : Prop where
  deletes : (env.deleteUserIds = true ∧ env.deleteSubkeys = true) ∨
    AlreadyStored qt db key blocks updateTs now
  time : updateTs = true ∨ qt.readLocalDate key.updateTime = key.updateTime
  userIds : ReadsBack qt key
  subkeys : SpelledAlike key
  order : InsertedOrder o key

/-- What `SaveKey` promises: all or nothing, and the record back in the listing. -/
structure SaveSound (qt : KeyTexts) (o : RowOrders) (db : GFKeyDatabase) (key : GFKeyMetadata)
    (updateTs : Bool) (now : Int) (result : SaveResult) : Prop where
  atomic : result.failed = true → SameRows db result.stored
  listed : result.returned = true → ∃ m ∈ getMetadataListIn qt o result.stored,
    m.fpr = key.fpr.toUpper ∧
      InNormalForm m (normalForm key (if updateTs then now else key.updateTime))
  others : result.returned = true → OtherRowsKept db result.stored key.fpr.toUpper

theorem SameRows.refl : SameRows db db := ⟨.refl _, .refl _, .refl _, .refl _⟩

/-- One owner's rows, replaced, are the same rows exactly when they were those before. -/
theorem replaceGroup_perm_iff {k : QString} :
    ((rows.filter fun row => owner row ≠ k) ++ new).Perm rows ↔
      new.Perm (rows.filter fun row => owner row = k) := by
  constructor
  · intro h
    have hsplit : ((rows.filter fun row => owner row ≠ k) ++
        rows.filter fun row => owner row = k).Perm rows := replaceGroup_perm k (.refl _)
    exact (List.perm_append_left_iff _).mp (h.trans hsplit.symm)
  · exact replaceGroup_perm k

theorem sameRows_savedTables_iff :
    SameRows db (db.savedTables qt key blocks updateTs now) ↔
      AlreadyStored qt db key blocks updateTs now := by
  constructor
  · intro h
    exact ⟨replaceGroup_perm_iff.mp h.keys, replaceGroup_perm_iff.mp h.userIds,
      replaceGroup_perm_iff.mp h.subkeys, replaceGroup_perm_iff.mp h.blocks⟩
  · intro h
    exact ⟨replaceGroup_perm_iff.mpr h.keys, replaceGroup_perm_iff.mpr h.userIds,
      replaceGroup_perm_iff.mpr h.subkeys, replaceGroup_perm_iff.mpr h.blocks⟩

/-- The columns of the key, and its user IDs. -/
theorem savedEntry_record_iff {updateTime expected : Int} (hkey : EngineRecord qt db key) :
    { savedEntry qt o key updateTime with subkeys := (normalForm key expected).subkeys } =
        normalForm key expected ↔
      updateTime = expected ∧ ReadsBack qt key ∧ InsertedOrder o key := by
  rw [← primaryFirst_eq_normal_iff hkey]
  constructor
  · intro h
    exact ⟨congrArg GFKeyMetadata.updateTime h, congrArg GFKeyMetadata.userIds h⟩
  · rintro ⟨rfl, huserIds⟩
    unfold savedEntry
    dsimp only
    rw [huserIds]
    rfl

theorem savedTime_eq_iff :
    savedTime qt key updateTs now = (if updateTs then now else key.updateTime) ↔
      updateTs = true ∨ qt.readLocalDate key.updateTime = key.updateTime := by
  cases updateTs with
  | true => simp [savedTime]
  | false => simp [savedTime]

theorem subkeyRows_of_spelledAlike (h : SpelledAlike key) :
    (subkeyRows key).map readSubkey =
      (key.subkeys.filter fun sub => sub.fpr.toUpper ≠ key.fpr.toUpper).map upperSubkey := by
  have hfilter : (key.subkeys.filter fun sub => sub.fpr ≠ key.fpr) =
      key.subkeys.filter fun sub => sub.fpr.toUpper ≠ key.fpr.toUpper := by
    refine List.filter_congr fun sub hsub => decide_eq_decide.mpr (not_congr ⟨?_, h sub hsub⟩)
    intro heq
    rw [heq]
  rw [subkeyRows, hfilter, List.map_map]
  rfl

/-- The fingerprint of the key is not among its stored subkeys. -/
theorem spelledAlike_iff :
    SpelledAlike key ↔ key.fpr.toUpper ∉ (subkeyRows key).map SubkeyRow.fpr := by
  constructor
  · intro h hmem
    obtain ⟨row, hrow, hfpr⟩ := List.mem_map.mp hmem
    obtain ⟨sub, hsub, rfl⟩ := List.mem_map.mp hrow
    obtain ⟨hin, hne⟩ := List.mem_filter.mp hsub
    exact of_decide_eq_true hne (h sub hin hfpr)
  · intro h sub hsub hupper
    by_contra hne
    refine h (List.mem_map.mpr ⟨subkeyRow key sub, List.mem_map.mpr ⟨sub, ?_, rfl⟩, hupper⟩)
    exact List.mem_filter.mpr ⟨hsub, decide_eq_true hne⟩

theorem savedEntry_subkeys_perm (updateTime : Int) :
    (savedEntry qt o key updateTime).subkeys.Perm
      (primaryKeyAsSubKey (savedEntry qt o key updateTime) ::
        (subkeyRows key).map readSubkey) :=
  ((o.subkeys_perm (subkeyRows key)).map readSubkey).cons _

theorem subkeysOnce_iff (hcompletes : Completes env key) (updateTime : Int) :
    ((savedEntry qt o key updateTime).subkeys.map GFSubKeyMetadata.fpr).Nodup ↔
      SpelledAlike key := by
  have hfprs : (((subkeyRows key).map readSubkey).map GFSubKeyMetadata.fpr) =
      (subkeyRows key).map SubkeyRow.fpr := by
    rw [List.map_map]
    rfl
  rw [((savedEntry_subkeys_perm updateTime).map _).nodup_iff, List.map_cons, hfprs,
    List.nodup_cons, spelledAlike_iff]
  exact and_iff_left hcompletes.subkeysOnce

/-- The entry of a saved key is the record in its normal form exactly when its time and its
user IDs read back, its subkeys are spelled alike and its rows come in order. -/
theorem inNormalForm_iff (hkey : EngineRecord qt db key) (hcompletes : Completes env key) :
    InNormalForm (savedEntry qt o key (savedTime qt key updateTs now))
        (normalForm key (if updateTs then now else key.updateTime)) ↔
      (updateTs = true ∨ qt.readLocalDate key.updateTime = key.updateTime) ∧
        ReadsBack qt key ∧ SpelledAlike key ∧ InsertedOrder o key := by
  constructor
  · intro h
    obtain ⟨htime, hread, horder⟩ := (savedEntry_record_iff hkey).mp h.record
    exact ⟨savedTime_eq_iff.mp htime, hread, (subkeysOnce_iff hcompletes _).mp h.subkeysOnce,
      horder⟩
  · rintro ⟨htime, hread, halike, horder⟩
    refine ⟨(savedEntry_record_iff hkey).mpr ⟨savedTime_eq_iff.mpr htime, hread, horder⟩, ?_, ?_,
      (subkeysOnce_iff hcompletes _).mpr halike⟩
    · refine (savedEntry_subkeys_perm _).trans ?_
      rw [subkeyRows_of_spelledAlike halike]
      exact .refl _
    · refine (((primaryFirst_perm_userIds hread).map GFUserId.toText).nodup_iff).mpr ?_
      have htexts : (userIdRows key).map UserIdRow.userId = key.userIds.map GFUserId.toText := by
        rw [userIdRows, List.map_map]
        rfl
      exact htexts ▸ hcompletes.userIdsOnce

/-- A call is all or nothing and its record comes back exactly when, once all that is looked
at goes well, the condition holds. -/
theorem save_sound_iff (qt : KeyTexts) (o : RowOrders) (env : SaveOutcomes) (db : GFKeyDatabase)
    (key : GFKeyMetadata) (blocks : GFKeyBlocks) (updateTs : Bool) (now : Int)
    (hdb : SchemaOk db) (hkey : EngineRecord qt db key) :
    SaveSound qt o db key updateTs now (saveStatements qt env db key blocks updateTs now) ↔
      (Completes env key → SavesWell qt o env db key blocks updateTs now) := by
  have hcases : _ ∨ (¬ Completes env key ∧
      saveStatements qt env db key blocks updateTs now = ⟨false, db, true⟩) := saveStatements_eq hdb
  rcases hcases with ⟨hcompletes, hresult⟩ | ⟨hnot, hresult⟩
  · rw [hresult]
    constructor
    · intro hsound _
      obtain ⟨htime, hread, halike, horder⟩ := (inNormalForm_iff hkey hcompletes).mp
        ((exists_listed_iff hdb hkey).mp (hsound.listed rfl))
      refine ⟨?_, htime, hread, halike, horder⟩
      by_cases hdeletes : env.deleteUserIds = true ∧ env.deleteSubkeys = true
      · exact .inl hdeletes
      · refine .inr (sameRows_savedTables_iff.mp (hsound.atomic ?_))
        show (!env.deleteUserIds || !env.deleteSubkeys) = true
        simpa [Classical.or_iff_not_imp_left] using hdeletes
    · intro hwell
      have h := hwell hcompletes
      refine ⟨fun hfailed => ?_, fun _ => ?_, fun _ => otherRowsKept_savedTables⟩
      · rcases h.deletes with ⟨huserIds, hsubkeys⟩ | hstored
        · have hgood : (!env.deleteUserIds || !env.deleteSubkeys) = false := by
            rw [huserIds, hsubkeys]
            rfl
          exact absurd (hfailed.symm.trans hgood) (by simp)
        · exact sameRows_savedTables_iff.mpr hstored
      · exact (exists_listed_iff hdb hkey).mpr
          ((inNormalForm_iff hkey hcompletes).mpr ⟨h.time, h.userIds, h.subkeys, h.order⟩)
  · rw [hresult]
    constructor
    · intro _ hcompletes
      exact absurd hcompletes hnot
    · intro _
      refine ⟨fun _ => .refl, fun hreturned => ?_, fun hreturned => ?_⟩
      · cases hreturned
      · cases hreturned

/-- Everything runs. -/
def SaveOutcomes.good : SaveOutcomes :=
  ⟨true, true, true, fun _ => true, true, fun _ => true, true, true⟩

theorem save_sound_iff_sample :
    SaveSound sampleTexts RowOrders.inserted {} sampleKey true 7
      (saveStatements sampleTexts .good {} sampleKey ⟨[1], []⟩ true 7) := by
  have hread : ReadsBack sampleTexts sampleKey := List.forall_mem_singleton.mpr rfl
  have hkey : EngineRecord sampleTexts {} sampleKey :=
    ⟨sampleKey_wellFormed.fprSolid, List.cons_ne_nil _ _, List.forall_mem_nil _,
      fun uid huid _ _ => hread uid huid, le_rfl⟩
  have halike : SpelledAlike sampleKey := by
    unfold SpelledAlike
    decide
  exact (save_sound_iff sampleTexts RowOrders.inserted .good {} sampleKey ⟨[1], []⟩ true 7 .empty
    hkey).mpr fun _ => ⟨.inl ⟨rfl, rfl⟩, .inl rfl, hread, halike, rfl⟩

/-! ## Where it does not -/

/-- The order of the index of `UNIQUE(fpr, user_id)`. -/
def RowOrders.byUserId : RowOrders where
  userIds rows := rows.insertionSort fun row row' => row.userId ≤ row'.userId
  subkeys rows := rows
  userIds_perm _ := List.perm_insertionSort _ _
  subkeys_perm _ := .refl _

/-- A primary user ID and two others, the later one first by its letters. -/
def threeUserIds : GFKeyMetadata :=
  { sampleKey with
    userIds := [{ name := [0x70], isPrimary := true }, { name := [0x62] }, { name := [0x61] }] }

/-- The delete of the old user IDs fails, and the key is saved all the same; and with every
statement running, the user IDs come back in another order. -/
theorem failed_delete_commits :
    ¬ SaveSound sampleTexts RowOrders.inserted {} sampleKey true 7
        (saveStatements sampleTexts { SaveOutcomes.good with deleteUserIds := false } {} sampleKey
          ⟨[1], []⟩ true 7) ∧
      ¬ SaveSound sampleTexts RowOrders.byUserId {} threeUserIds true 7
        (saveStatements sampleTexts .good {} threeUserIds ⟨[1], []⟩ true 7) := by
  constructor
  · intro h
    have hsame := (h.atomic (by decide +kernel)).keys.length_eq
    exact absurd hsame (by decide +kernel)
  · intro h
    obtain ⟨m, hm, -, hform⟩ := h.listed (by decide +kernel)
    have huserIds : ∀ m ∈ getMetadataListIn sampleTexts RowOrders.byUserId
        (saveStatements sampleTexts .good {} threeUserIds ⟨[1], []⟩ true 7).stored,
        m.userIds ≠ (normalForm threeUserIds 7).userIds := by decide +kernel
    have hrecord := congrArg GFKeyMetadata.userIds hform.record
    exact huserIds m hm hrecord

end GFKeyDatabase

end GpgFrontend
