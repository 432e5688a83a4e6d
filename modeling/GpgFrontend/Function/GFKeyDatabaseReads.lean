import Mathlib.Tactic.IntervalCases
import GpgFrontend.Function.GFKeyDatabase

/-!
# The two reads of the database of keys

`GetMetadataList` lists every key, `GetKeyMetadata` reads one; both load the user IDs and the
subkeys through the same functions, and select the columns of the key on their own.

- `getKeyMetadata_eq_iff`: **the reads agree about a key exactly when it is not disabled**.
-/

namespace GpgFrontend

/-! ## Upper case -/

theorem upperCaseUnit_cases (c : UInt16) : upperCaseUnit c = c ∨
    (isSpaceUnit (upperCaseUnit c) = false ∧
      upperCaseUnit (upperCaseUnit c) = upperCaseUnit c) := by
  by_cases hlower : 97 ≤ c ∧ c ≤ 122
  · right
    have hlow := UInt16.le_iff_toNat_le.mp hlower.1
    have hhigh := UInt16.le_iff_toNat_le.mp hlower.2
    replace hlow : 97 ≤ c.toNat := hlow
    replace hhigh : c.toNat ≤ 122 := hhigh
    rw [← @UInt16.ofNat_toNat c]
    generalize c.toNat = n at hlow hhigh
    interval_cases n <;> exact ⟨rfl, rfl⟩
  · left
    unfold upperCaseUnit
    rw [if_neg hlower]

theorem toUpper_toUpper (s : QString) : s.toUpper.toUpper = s.toUpper := by
  unfold QString.toUpper
  rw [List.map_map]
  refine List.map_congr_left fun c _ => ?_
  show upperCaseUnit (upperCaseUnit c) = upperCaseUnit c
  rcases upperCaseUnit_cases c with h | ⟨-, h⟩
  · rw [h, h]
  · exact h

theorem length_toUpper (s : QString) : s.toUpper.length = s.length := List.length_map _

theorem solid_toUpper {s : QString} (h : ∀ c ∈ s, isSpaceUnit c = false) :
    ∀ c ∈ s.toUpper, isSpaceUnit c = false := by
  intro c hc
  obtain ⟨d, hd, rfl⟩ := List.mem_map.mp hc
  rcases upperCaseUnit_cases d with heq | ⟨hsolid, -⟩
  · rw [heq]
    exact h d hd
  · exact hsolid

namespace GFKeyDatabase

variable {qt : KeyTexts} {db : GFKeyDatabase}

/-! ## Every state -/

/-- A key as the engines spell one: a fingerprint longer than a key ID and without blanks, no
subkey under the fingerprint of the key in other letters, and user IDs and a time that read
back as they are written. -/
structure WellFormedSave (qt : KeyTexts) (key : GFKeyMetadata) (updateTs : Bool) (now : Int) :
    Prop where
  fprLong : 16 < key.fpr.length
  fprSolid : ∀ c ∈ key.fpr, isSpaceUnit c = false
  keyIdShort : key.keyId.length = 16
  userIds : ∀ uid ∈ key.userIds, qt.respell uid.toText = uid.toText
  subkeys : ∀ sub ∈ key.subkeys, sub.fpr ≠ key.fpr → sub.fpr.toUpper ≠ key.fpr.toUpper
  time : qt.readLocalDate (savedTime qt key updateTs now) = savedTime qt key updateTs now

def SavesWellFormed (qt : KeyTexts) (_ : GFKeyDatabase) : KeyDatabaseChange → Prop
  | .saveKey key _ updateTs now _ => WellFormedSave qt key updateTs now
  | _ => True

/-- A row of a key: its fingerprint is no key ID, and is found as it is spelled. -/
structure KeyRowOk (qt : KeyTexts) (row : KeyRow) : Prop where
  fprUpper : row.fpr.toUpper = row.fpr
  fprLong : 16 < row.fpr.length
  fprSolid : ∀ c ∈ row.fpr, isSpaceUnit c = false
  keyIdUpper : row.keyId.toUpper = row.keyId
  keyIdShort : row.keyId.length = 16
  time : qt.readLocalDate row.updateTime = row.updateTime

structure SubkeyRowOk (row : SubkeyRow) : Prop where
  fprUpper : row.fpr.toUpper = row.fpr
  keyIdUpper : row.keyId.toUpper = row.keyId
  notParent : row.fpr ≠ row.parentFpr

/-- The keys of the tables, and what is in their rows. -/
structure KeyDatabaseOk (qt : KeyTexts) (db : GFKeyDatabase) : Prop where
  keysOnce : (db.keys.map KeyRow.fpr).Nodup
  userIdsOnce : (db.userIds.map fun row => (row.fpr, row.userId)).Nodup
  subkeysOnce : (db.subkeys.map fun row => (row.parentFpr, row.fpr)).Nodup
  blocksOnce : (db.blocks.map KeyBlocksRow.fpr).Nodup
  keys : ∀ row ∈ db.keys, KeyRowOk qt row
  userIds : ∀ row ∈ db.userIds, qt.respell row.userId = row.userId
  subkeys : ∀ row ∈ db.subkeys, SubkeyRowOk row
  blocks : ∀ row ∈ db.keys, row.fpr ∈ db.blocks.map KeyBlocksRow.fpr

variable {key : GFKeyMetadata}

theorem keyRow_ok {updateTs : Bool} {now : Int} (h : WellFormedSave qt key updateTs now) :
    KeyRowOk qt (keyRow key (savedTime qt key updateTs now)) where
  fprUpper := toUpper_toUpper key.fpr
  fprLong := (length_toUpper key.fpr).symm ▸ h.fprLong
  fprSolid := solid_toUpper h.fprSolid
  keyIdUpper := toUpper_toUpper key.keyId
  keyIdShort := (length_toUpper key.keyId).trans h.keyIdShort
  time := h.time

theorem KeyDatabaseOk.saveKey (h : KeyDatabaseOk qt db) {blocks : GFKeyBlocks} {updateTs : Bool}
    {now : Int} (hkey : WellFormedSave qt key updateTs now) {db' : GFKeyDatabase}
    (hsave : db.saveKey qt key blocks updateTs now = some db') : KeyDatabaseOk qt db' := by
  unfold GFKeyDatabase.saveKey at hsave
  split at hsave
  · next honce =>
    obtain rfl := Option.some.inj hsave
    have huser : ∀ row ∈ userIdRows key, row.fpr = key.fpr.toUpper := by
      intro row hrow
      obtain ⟨uid, -, rfl⟩ := List.mem_map.mp hrow
      rfl
    have hsub : ∀ row ∈ subkeyRows key, row.parentFpr = key.fpr.toUpper := by
      intro row hrow
      obtain ⟨sub, -, rfl⟩ := List.mem_map.mp hrow
      rfl
    refine ⟨nodup_replaceRow h.keysOnce, nodup_replaceParts h.userIdsOnce honce.1 huser,
      nodup_replaceParts h.subkeysOnce honce.2 hsub, nodup_replaceRow h.blocksOnce, ?_, ?_, ?_, ?_⟩
    · intro row hrow
      rcases mem_replaceRow.mp hrow with ⟨hold, -⟩ | rfl
      · exact h.keys row hold
      · exact keyRow_ok hkey
    · intro row hrow
      rcases List.mem_append.mp hrow with hold | hnew
      · exact h.userIds row (List.mem_filter.mp hold).1
      · obtain ⟨uid, huid, rfl⟩ := List.mem_map.mp hnew
        exact hkey.userIds uid huid
    · intro row hrow
      rcases List.mem_append.mp hrow with hold | hnew
      · exact h.subkeys row (List.mem_filter.mp hold).1
      · obtain ⟨sub, hmem, rfl⟩ := List.mem_map.mp hnew
        obtain ⟨hin, hne⟩ := List.mem_filter.mp hmem
        exact ⟨toUpper_toUpper sub.fpr, toUpper_toUpper sub.keyId,
          hkey.subkeys sub hin (by simpa using hne)⟩
    · intro row hrow
      have hmem : ∀ fpr, fpr ∈ db.blocks.map KeyBlocksRow.fpr ∨ fpr = key.fpr.toUpper →
          fpr ∈ (replaceRow (·.fpr) db.blocks ⟨key.fpr.toUpper, blocks⟩).map KeyBlocksRow.fpr := by
        intro fpr hfpr
        by_cases heq : fpr = key.fpr.toUpper
        · exact List.mem_map.mpr ⟨_, mem_replaceRow.mpr (Or.inr rfl), heq.symm⟩
        · obtain ⟨b, hb, rfl⟩ := List.mem_map.mp (hfpr.resolve_right heq)
          exact List.mem_map.mpr ⟨b, mem_replaceRow.mpr (Or.inl ⟨hb, heq⟩), rfl⟩
      rcases mem_replaceRow.mp hrow with ⟨hold, -⟩ | rfl
      · exact hmem _ (Or.inl (h.blocks row hold))
      · exact hmem _ (Or.inr rfl)
  · cases hsave

theorem KeyDatabaseOk.deleteKey (h : KeyDatabaseOk qt db) (fpr : QString) :
    KeyDatabaseOk qt (db.deleteKey fpr) := by
  unfold GFKeyDatabase.deleteKey
  dsimp only
  split
  · exact h
  · refine ⟨h.keysOnce.sublist (List.filter_sublist.map _),
      h.userIdsOnce.sublist (List.filter_sublist.map _),
      h.subkeysOnce.sublist (List.filter_sublist.map _),
      h.blocksOnce.sublist (List.filter_sublist.map _),
      fun row hrow => h.keys row (List.mem_filter.mp hrow).1,
      fun row hrow => h.userIds row (List.mem_filter.mp hrow).1,
      fun row hrow => h.subkeys row (List.mem_filter.mp hrow).1, fun row hrow => ?_⟩
    obtain ⟨hold, hne⟩ := List.mem_filter.mp hrow
    obtain ⟨b, hb, hfpr⟩ := List.mem_map.mp (h.blocks row hold)
    exact List.mem_map.mpr ⟨b, List.mem_filter.mpr ⟨hb, by rw [hfpr]; exact hne⟩, hfpr⟩

theorem KeyDatabaseOk.disableKey (h : KeyDatabaseOk qt db) (fpr : QString) :
    KeyDatabaseOk qt (db.disableKey fpr) := by
  unfold GFKeyDatabase.disableKey
  dsimp only
  split
  · exact h
  · have hfprs : ∀ real : QString, (db.keys.map fun row =>
        if row.fpr = real then { row with isDisabled := true } else row).map KeyRow.fpr =
        db.keys.map KeyRow.fpr := by
      intro real
      rw [List.map_map]
      refine List.map_congr_left fun row _ => ?_
      show (if row.fpr = real then { row with isDisabled := true } else row).fpr = row.fpr
      split <;> rfl
    refine ⟨by rw [hfprs]; exact h.keysOnce, h.userIdsOnce, h.subkeysOnce, h.blocksOnce, ?_,
      h.userIds, h.subkeys, ?_⟩
    · intro row hrow
      obtain ⟨old, hold, rfl⟩ := List.mem_map.mp hrow
      have hok := h.keys old hold
      split
      · exact ⟨hok.fprUpper, hok.fprLong, hok.fprSolid, hok.keyIdUpper, hok.keyIdShort, hok.time⟩
      · exact hok
    · intro row hrow
      have hmem := List.mem_map_of_mem (f := KeyRow.fpr) hrow
      rw [hfprs] at hmem
      obtain ⟨old, hold, hfpr⟩ := List.mem_map.mp hmem
      rw [← hfpr]
      exact h.blocks old hold

theorem KeyDatabaseOk.step (h : KeyDatabaseOk qt db) (a : KeyDatabaseChange)
    (hwell : SavesWellFormed qt db a) : KeyDatabaseOk qt (db.step qt a) := by
  cases a with
  | saveKey key blocks updateTs now succeeds =>
    cases succeeds with
    | false => exact h
    | true =>
      show KeyDatabaseOk qt ((db.saveKey qt key blocks updateTs now).getD db)
      cases hsave : db.saveKey qt key blocks updateTs now with
      | none => exact h
      | some db' => exact h.saveKey hwell hsave
  | deleteKey fpr succeeds =>
    cases succeeds with
    | false => exact h
    | true => exact h.deleteKey fpr
  | disableKey fpr succeeds =>
    cases succeeds with
    | false => exact h
    | true => exact h.disableKey fpr

theorem KeyDatabaseOk.empty : KeyDatabaseOk qt {} :=
  ⟨List.nodup_nil, List.nodup_nil, List.nodup_nil, List.nodup_nil, fun _ h => (by cases h),
    fun _ h => (by cases h), fun _ h => (by cases h), fun _ h => (by cases h)⟩

/-! ## One key -/

variable {row : KeyRow}

/-- A fingerprint that is stored names its own key, as key IDs are shorter. -/
theorem resolve_self (h : KeyDatabaseOk qt db) (hrow : row ∈ db.keys) :
    db.resolvePrimaryFpr row.fpr = row.fpr := by
  have hok := h.keys row hrow
  have hclean : cleanId row.fpr = row.fpr := by
    unfold cleanId
    rw [List.filter_eq_self.mpr fun c hc => by rw [hok.fprSolid c hc]; rfl, hok.fprUpper]
  have hne : row.fpr.isEmpty = false := by
    rw [List.isEmpty_eq_false_iff, ← List.length_pos_iff]
    exact Nat.lt_trans (by omega) hok.fprLong
  unfold resolvePrimaryFpr
  dsimp only
  rw [hclean, hne, if_neg Bool.false_ne_true]
  cases hfind : db.keys.find? fun k => decide (k.fpr = row.fpr) || decide (k.keyId = row.fpr) with
  | none =>
    have hnone := List.find?_eq_none.mp hfind row hrow
    exact absurd (by simp) hnone
  | some k =>
    have hk := List.find?_some hfind
    rw [Bool.or_eq_true, decide_eq_true_eq, decide_eq_true_eq] at hk
    refine hk.resolve_right fun hid => ?_
    have hshort := (h.keys k (List.mem_of_find?_eq_some hfind)).keyIdShort
    have hlong := hok.fprLong
    rw [hid] at hshort
    omega

theorem fpr_isEmpty (h : KeyDatabaseOk qt db) (hrow : row ∈ db.keys) : row.fpr.isEmpty = false := by
  rw [List.isEmpty_eq_false_iff, ← List.length_pos_iff]
  exact Nat.lt_trans (by omega) (h.keys row hrow).fprLong

theorem getKeyMetadata_eq (h : KeyDatabaseOk qt db) (hrow : row ∈ db.keys) :
    db.getKeyMetadata qt row.fpr = some (db.loadParts qt (readSingle row)) := by
  unfold getKeyMetadata
  dsimp only
  rw [resolve_self h hrow, fpr_isEmpty h hrow, if_neg Bool.false_ne_true,
    find?_of_nodup h.keysOnce hrow]
  rfl

/-- The entry of the list that has the fingerprint. -/
def listed (qt : KeyTexts) (db : GFKeyDatabase) (fpr : QString) : Option GFKeyMetadata :=
  (db.getMetadataList qt).find? fun key => key.fpr = fpr

theorem listed_eq (h : KeyDatabaseOk qt db) (hrow : row ∈ db.keys) :
    db.listed qt row.fpr = some (db.loadParts qt (readListed row)) := by
  have hfind := find?_of_nodup h.keysOnce hrow
  unfold listed getMetadataList
  rw [List.find?_map]
  show (db.keys.find? fun r => decide (r.fpr = row.fpr)).map _ = _
  rw [hfind]
  rfl

/-- The columns that the two reads select differ in one. -/
theorem readSingle_eq (row : KeyRow) :
    readSingle row = { readListed row with isDisabled := false } := rfl

theorem isDisabled_loadParts (key : GFKeyMetadata) :
    (db.loadParts qt key).isDisabled = key.isDisabled := rfl

theorem readSingle_of_enabled (h : row.isDisabled = false) : readSingle row = readListed row := by
  rw [readSingle_eq, ← h]
  rfl

/-- **The two reads agree about a key exactly when it is not disabled.** -/
theorem getKeyMetadata_eq_iff (h : KeyDatabaseOk qt db) (hrow : row ∈ db.keys) :
    db.getKeyMetadata qt row.fpr = db.listed qt row.fpr ↔ row.isDisabled = false := by
  rw [getKeyMetadata_eq h hrow, listed_eq h hrow]
  constructor
  · intro heq
    have hdisabled := congrArg GFKeyMetadata.isDisabled (Option.some.inj heq)
    rw [isDisabled_loadParts, isDisabled_loadParts] at hdisabled
    exact hdisabled.symm
  · intro henabled
    rw [readSingle_of_enabled henabled]

/-! ## Saving back -/

/-- The same rows in every table. -/
structure SameRows (db db' : GFKeyDatabase) : Prop where
  keys : db'.keys.Perm db.keys
  userIds : db'.userIds.Perm db.userIds
  subkeys : db'.subkeys.Perm db.subkeys
  blocks : db'.blocks.Perm db.blocks

/-- What `GetKeyMetadata` and `GetKeyBlocks` returned, saved with the time that it has. -/
def saveBack (qt : KeyTexts) (db : GFKeyDatabase) (fpr : QString) (now : Int) :
    Option GFKeyDatabase :=
  (db.getKeyMetadata qt fpr).bind fun key =>
    (db.getKeyBlocks fpr).bind fun blocks => db.saveKey qt key blocks false now

def readUserId (qt : KeyTexts) (row : UserIdRow) : GFUserId :=
  { qt.parseUserId row.userId with isPrimary := row.isPrimary, isRevoked := row.isRevoked }

/-- Putting the primary ones first reorders. -/
theorem primaryFirst_perm (rows : List UserIdRow) :
    (primaryFirst qt rows).Perm (rows.map (readUserId qt)) := by
  have hfold : ∀ (rows : List UserIdRow) (uids : List GFUserId),
      (rows.foldl (fun uids row => if row.isPrimary then readUserId qt row :: uids
        else uids ++ [readUserId qt row]) uids).Perm (uids ++ rows.map (readUserId qt)) := by
    intro rows
    induction rows with
    | nil =>
      intro uids
      rw [List.map_nil, List.append_nil]
      exact List.Perm.refl _
    | cons row rest ih =>
      intro uids
      rw [List.foldl_cons, List.map_cons]
      refine (ih _).trans ?_
      split
      · exact List.perm_middle.symm
      · rw [List.append_assoc]
        exact List.Perm.refl _
  exact hfold rows []

theorem userIdRows_perm (h : KeyDatabaseOk qt db) (hrow : row ∈ db.keys) (hfpr : key.fpr = row.fpr)
    (huser : key.userIds = db.loadUserIdsForParent qt row.fpr) :
    (userIdRows key).Perm (db.userIds.filter fun r => r.fpr = row.fpr) := by
  have hload : db.loadUserIdsForParent qt row.fpr =
      primaryFirst qt (db.userIds.filter fun r => r.fpr = row.fpr) := by
    unfold loadUserIdsForParent
    dsimp only
    rw [resolve_self h hrow, fpr_isEmpty h hrow, if_neg Bool.false_ne_true]
  unfold userIdRows
  rw [huser, hload]
  refine ((primaryFirst_perm _).map (userIdRow key)).trans ?_
  rw [List.map_map]
  refine List.Perm.of_eq ?_
  conv => rhs; rw [← List.map_id (db.userIds.filter fun r => r.fpr = row.fpr)]
  refine List.map_congr_left fun r hr => ?_
  rw [List.mem_filter, decide_eq_true_eq] at hr
  show UserIdRow.mk key.fpr.toUpper (qt.respell r.userId) r.isPrimary r.isRevoked = r
  rw [hfpr, (h.keys row hrow).fprUpper, h.userIds r hr.1, ← hr.2]

theorem subkeyRows_eq (h : KeyDatabaseOk qt db) (hrow : row ∈ db.keys) {self : GFSubKeyMetadata}
    (hself : self.fpr = key.fpr) (hfpr : key.fpr = row.fpr)
    (hsub : key.subkeys = self :: db.loadSubkeysForParent row.fpr) :
    subkeyRows key = db.subkeys.filter fun r => r.parentFpr = row.fpr := by
  unfold subkeyRows loadSubkeysForParent at *
  rw [hsub, List.filter_cons_of_neg (by simpa using hself)]
  have hkept : ((db.subkeys.filter fun r => r.parentFpr = row.fpr).map readSubkey).filter
      (fun sub => sub.fpr ≠ key.fpr) =
      (db.subkeys.filter fun r => r.parentFpr = row.fpr).map readSubkey := by
    refine List.filter_eq_self.mpr fun sub hmem => ?_
    obtain ⟨r, hr, rfl⟩ := List.mem_map.mp hmem
    rw [List.mem_filter, decide_eq_true_eq] at hr
    have hne := (h.subkeys r hr.1).notParent
    rw [decide_eq_true_eq, hfpr, ← hr.2]
    exact hne
  rw [hkept, List.map_map]
  conv => rhs; rw [← List.map_id (db.subkeys.filter fun r => r.parentFpr = row.fpr)]
  refine List.map_congr_left fun r hr => ?_
  rw [List.mem_filter, decide_eq_true_eq] at hr
  have hok := h.subkeys r hr.1
  show subkeyRow key (readSubkey r) = r
  unfold subkeyRow readSubkey
  dsimp only
  rw [hfpr, (h.keys row hrow).fprUpper, hok.fprUpper, hok.keyIdUpper, ← hr.2]

theorem keyRow_eq (h : KeyDatabaseOk qt db) (hrow : row ∈ db.keys)
    (henabled : row.isDisabled = false) :
    keyRow (db.loadParts qt (readSingle row))
      (savedTime qt (db.loadParts qt (readSingle row)) false now) = row := by
  have hok := h.keys row hrow
  show KeyRow.mk row.fpr.toUpper row.keyId.toUpper row.algo row.keyVer row.keyLength row.createdAt
    row.expiresAt row.hasSecret row.isRevoked false row.canSign row.canEncrypt row.canAuth
    row.canCertify (qt.readLocalDate row.updateTime) = row
  rw [hok.fprUpper, hok.keyIdUpper, hok.time, ← henabled]

/-- A key that is not disabled, saved back as it was read, leaves the same rows. -/
theorem saveBack_same (h : KeyDatabaseOk qt db) (hrow : row ∈ db.keys)
    (henabled : row.isDisabled = false) (now : Int) :
    ∃ db', db.saveBack qt row.fpr now = some db' ∧ SameRows db db' := by
  obtain ⟨b, hb, hbfpr⟩ := List.mem_map.mp (h.blocks row hrow)
  have hblocks : db.getKeyBlocks row.fpr = some b.blocks := by
    unfold getKeyBlocks
    dsimp only
    rw [resolve_self h hrow, fpr_isEmpty h hrow, if_neg Bool.false_ne_true, ← hbfpr,
      find?_of_nodup h.blocksOnce hb]
    rfl
  have hupper := (h.keys row hrow).fprUpper
  have huser : (userIdRows (db.loadParts qt (readSingle row))).Perm
      (db.userIds.filter fun r => r.fpr = row.fpr) := userIdRows_perm h hrow rfl rfl
  have hsub : subkeyRows (db.loadParts qt (readSingle row)) =
      db.subkeys.filter fun r => r.parentFpr = row.fpr := subkeyRows_eq h hrow rfl rfl rfl
  have honce : ((userIdRows (db.loadParts qt (readSingle row))).map UserIdRow.userId).Nodup ∧
      ((subkeyRows (db.loadParts qt (readSingle row))).map SubkeyRow.fpr).Nodup := by
    constructor
    · exact (huser.map _).nodup_iff.mpr (nodup_part h.userIdsOnce row.fpr)
    · rw [hsub]
      exact nodup_part h.subkeysOnce row.fpr
  unfold saveBack
  rw [getKeyMetadata_eq h hrow, hblocks, Option.bind_some, Option.bind_some, saveKey,
    if_pos honce]
  refine ⟨_, rfl, ?_, ?_, ?_, ?_⟩
  · dsimp only
    rw [keyRow_eq h hrow henabled]
    exact replaceRow_perm h.keysOnce hrow
  · show ((db.userIds.filter fun r => r.fpr ≠ row.fpr.toUpper) ++ _).Perm db.userIds
    rw [hupper]
    exact replaceGroup_perm row.fpr huser
  · show ((db.subkeys.filter fun r => r.parentFpr ≠ row.fpr.toUpper) ++ _).Perm db.subkeys
    rw [hupper, hsub]
    exact replaceGroup_perm row.fpr (List.Perm.refl _)
  · show (replaceRow (·.fpr) db.blocks ⟨row.fpr.toUpper, b.blocks⟩).Perm db.blocks
    rw [hupper, ← hbfpr]
    exact replaceRow_perm h.blocksOnce hb

/-- **The reads agree, and saving back changes nothing, exactly for a key that is not
disabled**, in every state that changes reach from an empty database. -/
theorem reads_agree_iff (hrun : ReachableUnder (step qt) (SavesWellFormed qt) {} db)
    {row : KeyRow} (hrow : row ∈ db.keys) (now : Int) :
    (db.getKeyMetadata qt row.fpr = db.listed qt row.fpr ∧
      ∃ db', db.saveBack qt row.fpr now = some db' ∧ SameRows db db') ↔
    row.isDisabled = false := by
  have hok : KeyDatabaseOk qt db := hrun.inv KeyDatabaseOk.empty fun _ a h hwell => h.step a hwell
  constructor
  · rintro ⟨hagree, -⟩
    exact (getKeyMetadata_eq_iff hok hrow).mp hagree
  · intro henabled
    exact ⟨(getKeyMetadata_eq_iff hok hrow).mpr henabled, saveBack_same hok hrow henabled now⟩

/-! ## A disabled key -/

/-- Texts without a comment or an address, and no clock change. -/
def sampleTexts : KeyTexts := ⟨fun raw => some (raw, [], []), fun time => time⟩

/-- A key with a user ID and a subkey, listed after the key itself. -/
def sampleKey : GFKeyMetadata where
  fpr := List.replicate 40 65
  keyId := List.replicate 16 65
  algo := 22
  userIds := [{ name := [97], isPrimary := true }]
  subkeys := [{ fpr := List.replicate 40 65 }, { fpr := List.replicate 40 66 }]

def sampleSave : KeyDatabaseChange := .saveKey sampleKey ⟨[1], []⟩ true 7 true

theorem sampleKey_wellFormed : WellFormedSave sampleTexts sampleKey true 7 := by
  refine ⟨by decide, fun c hc => ?_, rfl, by decide, by decide, rfl⟩
  rw [List.eq_of_mem_replicate hc]
  rfl

theorem reads_agree_iff_sample :
    ∃ db, db = step sampleTexts {} sampleSave ∧
      db.getKeyMetadata sampleTexts sampleKey.fpr = db.listed sampleTexts sampleKey.fpr := by
  have hrun : ReachableUnder (step sampleTexts) (SavesWellFormed sampleTexts) {}
      (step sampleTexts {} sampleSave) := .next sampleSave .start sampleKey_wellFormed
  have hrow : keyRow sampleKey 7 ∈ (step sampleTexts {} sampleSave).keys := by decide
  exact ⟨_, rfl, ((reads_agree_iff hrun hrow 8).mpr rfl).1⟩

/-- The key is saved and disabled: the list says so, the single read does not, and saving
back what it returned enables the key. -/
theorem disabled_key_saved_back :
    let db := step sampleTexts (step sampleTexts {} sampleSave) (.disableKey sampleKey.fpr true)
    (db.listed sampleTexts sampleKey.fpr).map GFKeyMetadata.isDisabled = some true ∧
      (db.getKeyMetadata sampleTexts sampleKey.fpr).map GFKeyMetadata.isDisabled = some false ∧
      (db.saveBack sampleTexts sampleKey.fpr 8).map (fun db' => db'.keys.map KeyRow.isDisabled) =
        some [false] := by
  decide

end GFKeyDatabase

end GpgFrontend
