import GpgFrontend.Base.Transaction
import GpgFrontend.Function.GFKeyDatabaseReads

/-!
# Saving a key, statement by statement (`GFKeyDatabase::SaveKey`)

One transaction over four tables. The engine may fail any statement; the inserts and the
commit are looked at, the two deletes are not.
-/

namespace GpgFrontend

namespace GFKeyDatabase

/-! ## The statements -/

/-- `ON DELETE CASCADE`: what refers to a key. -/
def dropParts (fpr : QString) (db : GFKeyDatabase) : GFKeyDatabase :=
  { db with
    userIds := db.userIds.filter fun row => row.fpr ≠ fpr
    subkeys := db.subkeys.filter fun row => row.parentFpr ≠ fpr
    blocks := db.blocks.filter fun row => row.fpr ≠ fpr }

/-- `INSERT OR REPLACE INTO key_metadata`: a row that is replaced is deleted first. -/
def insertKey (row : KeyRow) (db : GFKeyDatabase) : Option GFKeyDatabase :=
  let replaced := row.fpr ∈ db.keys.map KeyRow.fpr
  let db := if replaced then db.dropParts row.fpr else db
  some { db with keys := replaceRow (·.fpr) db.keys row }

/-- `DELETE FROM user_ids WHERE fpr = :fpr`. -/
def deleteUserIds (fpr : QString) (db : GFKeyDatabase) : Option GFKeyDatabase :=
  some { db with userIds := db.userIds.filter fun row => row.fpr ≠ fpr }

/-- `INSERT INTO user_ids`, under `UNIQUE(fpr, user_id)` and the reference to the key. -/
def insertUserId (row : UserIdRow) (db : GFKeyDatabase) : Option GFKeyDatabase :=
  if row.fpr ∈ db.keys.map KeyRow.fpr then
    (insertUnique (fun r => (r.fpr, r.userId)) db.userIds row).map fun userIds =>
      { db with userIds }
  else none

/-- `DELETE FROM subkey_metadata WHERE parent_fpr = :parent_fpr`. -/
def deleteSubkeys (fpr : QString) (db : GFKeyDatabase) : Option GFKeyDatabase :=
  some { db with subkeys := db.subkeys.filter fun row => row.parentFpr ≠ fpr }

/-- `INSERT INTO subkey_metadata`, under `PRIMARY KEY(parent_fpr, fpr)` and the reference to
the key. -/
def insertSubkey (row : SubkeyRow) (db : GFKeyDatabase) : Option GFKeyDatabase :=
  if row.parentFpr ∈ db.keys.map KeyRow.fpr then
    (insertUnique (fun r => (r.parentFpr, r.fpr)) db.subkeys row).map fun subkeys =>
      { db with subkeys }
  else none

/-- `INSERT OR REPLACE INTO key_blocks`. -/
def insertBlocks (row : KeyBlocksRow) (db : GFKeyDatabase) : Option GFKeyDatabase :=
  if row.fpr ∈ db.keys.map KeyRow.fpr then
    some { db with blocks := replaceRow (·.fpr) db.blocks row }
  else none

/-! ## The call -/

/-- What the engine does at each statement of one call, where no constraint is in the way. -/
structure SaveOutcomes where
  begins : Bool
  insertKey : Bool
  deleteUserIds : Bool
  insertUserId : Nat → Bool
  deleteSubkeys : Bool
  insertSubkey : Nat → Bool
  insertBlocks : Bool
  commits : Bool

/-- What a call leaves: its answer, the tables as they are stored, and whether a statement
failed on the way. -/
structure SaveResult where
  returned : Bool
  stored : GFKeyDatabase
  failed : Bool
  deriving DecidableEq

variable (qt : KeyTexts) (env : SaveOutcomes) (db : GFKeyDatabase) (key : GFKeyMetadata)
  (blocks : GFKeyBlocks) (updateTs : Bool) (now : Int)

/-- `db_.rollback()`, and `return false`. -/
def rolledBack (t : Transaction GFKeyDatabase) : SaveResult := ⟨false, db, t.failed⟩

/-- `SaveKey`. -/
def saveStatements : SaveResult :=
  let fpr := key.fpr.toUpper
  if !env.begins then ⟨false, db, true⟩
  else
    match Transaction.exec env.insertKey
        (insertKey (keyRow key (savedTime qt key updateTs now))) ⟨db, false⟩ with
    | (false, t) => db.rolledBack t
    | (true, t) =>
      -- Nothing looks at how the two deletes went.
      let (_, t) := t.exec env.deleteUserIds (deleteUserIds fpr)
      match t.execEach env.insertUserId insertUserId (userIdRows key) 0 with
      | (false, t) => db.rolledBack t
      | (true, t) =>
        let (_, t) := t.exec env.deleteSubkeys (deleteSubkeys fpr)
        match t.execEach env.insertSubkey insertSubkey (subkeyRows key) 0 with
        | (false, t) => db.rolledBack t
        | (true, t) =>
          match t.exec env.insertBlocks (insertBlocks ⟨fpr, blocks⟩) with
          | (false, t) => db.rolledBack t
          | (true, t) => if env.commits then ⟨true, t.tables, t.failed⟩ else ⟨false, db, true⟩

/-- What is looked at goes well: the inserts of the engine, the constraints among the
record's own rows, and the commit. -/
structure Completes : Prop where
  begins : env.begins = true
  insertKey : env.insertKey = true
  insertUserIds : Transaction.Runs env.insertUserId 0 (userIdRows key).length
  insertSubkeys : Transaction.Runs env.insertSubkey 0 (subkeyRows key).length
  insertBlocks : env.insertBlocks = true
  commits : env.commits = true
  userIdsOnce : ((userIdRows key).map UserIdRow.userId).Nodup
  subkeysOnce : ((subkeyRows key).map SubkeyRow.fpr).Nodup

/-- The tables with the key saved. -/
def savedTables : GFKeyDatabase where
  keys := replaceRow (·.fpr) db.keys (keyRow key (savedTime qt key updateTs now))
  userIds := (db.userIds.filter fun row => row.fpr ≠ key.fpr.toUpper) ++ userIdRows key
  subkeys := (db.subkeys.filter fun row => row.parentFpr ≠ key.fpr.toUpper) ++ subkeyRows key
  blocks := replaceRow (·.fpr) db.blocks ⟨key.fpr.toUpper, blocks⟩

/-- What the schema holds the tables to: its keys, its uniqueness and its references. -/
structure SchemaOk : Prop where
  keysOnce : (db.keys.map KeyRow.fpr).Nodup
  userIdsOnce : (db.userIds.map fun row => (row.fpr, row.userId)).Nodup
  subkeysOnce : (db.subkeys.map fun row => (row.parentFpr, row.fpr)).Nodup
  blocksOnce : (db.blocks.map KeyBlocksRow.fpr).Nodup
  userIdsKey : ∀ row ∈ db.userIds, row.fpr ∈ db.keys.map KeyRow.fpr
  subkeysKey : ∀ row ∈ db.subkeys, row.parentFpr ∈ db.keys.map KeyRow.fpr
  blocksKey : ∀ row ∈ db.blocks, row.fpr ∈ db.keys.map KeyRow.fpr

variable {qt env db key blocks updateTs now}

theorem fpr_of_userIdRows : ∀ row ∈ userIdRows key, row.fpr = key.fpr.toUpper := by
  intro row hrow
  obtain ⟨uid, -, rfl⟩ := List.mem_map.mp hrow
  rfl

theorem parentFpr_of_subkeyRows : ∀ row ∈ subkeyRows key, row.parentFpr = key.fpr.toUpper := by
  intro row hrow
  obtain ⟨sub, -, rfl⟩ := List.mem_map.mp hrow
  rfl

/-! ## One statement after the other -/

/-- Rows that refer to a key that is not there are not there. -/
theorem filter_ne_of_no_key {α : Type} {rows : List α} {owner : α → QString} {fpr : QString}
    (hkey : ∀ row ∈ rows, owner row ∈ db.keys.map KeyRow.fpr)
    (h : fpr ∉ db.keys.map KeyRow.fpr) :
    (rows.filter fun row => owner row ≠ fpr) = rows := by
  rw [List.filter_eq_self]
  intro row hrow
  rw [decide_eq_true_eq]
  rintro rfl
  exact h (hkey row hrow)

/-- With the references in force, replacing a key takes all its rows along. -/
theorem insertKey_eq (hdb : SchemaOk db) (row : KeyRow) :
    insertKey row db =
      some { db.dropParts row.fpr with keys := replaceRow (·.fpr) db.keys row } := by
  unfold insertKey
  dsimp only
  split
  · rfl
  · next hkey =>
    have huserIds := filter_ne_of_no_key hdb.userIdsKey hkey
    have hsubkeys := filter_ne_of_no_key hdb.subkeysKey hkey
    have hblocks := filter_ne_of_no_key hdb.blocksKey hkey
    rw [dropParts, huserIds, hsubkeys, hblocks]

/-- Deleting rows that are gone: whether it fails is all that is left of it. -/
theorem exec_gone {t : Transaction GFKeyDatabase} {run : Bool}
    {op : GFKeyDatabase → Option GFKeyDatabase} (h : op t.tables = some t.tables) :
    t.exec run op = (run, { t with failed := t.failed || !run }) := by
  cases run with
  | true =>
    rw [Transaction.exec_of_some h]
    simp
  | false => simp

theorem changeEach_insertUserId {rows : List UserIdRow}
    (hkey : ∀ row ∈ rows, row.fpr ∈ db.keys.map KeyRow.fpr) :
    Transaction.changeEach insertUserId rows db =
      (rows.foldlM (insertUnique fun r => (r.fpr, r.userId)) db.userIds).map fun userIds =>
        { db with userIds } := by
  induction rows generalizing db with
  | nil => rfl
  | cons row rows ih =>
    rw [Transaction.changeEach_cons, insertUserId, if_pos (hkey row List.mem_cons_self),
      List.foldlM_cons]
    cases insertUnique (fun r : UserIdRow => (r.fpr, r.userId)) db.userIds row with
    | none => rfl
    | some userIds =>
      exact @ih { db with userIds } fun r hr => hkey r (List.mem_cons_of_mem _ hr)

theorem changeEach_insertSubkey {rows : List SubkeyRow}
    (hkey : ∀ row ∈ rows, row.parentFpr ∈ db.keys.map KeyRow.fpr) :
    Transaction.changeEach insertSubkey rows db =
      (rows.foldlM (insertUnique fun r => (r.parentFpr, r.fpr)) db.subkeys).map fun subkeys =>
        { db with subkeys } := by
  induction rows generalizing db with
  | nil => rfl
  | cons row rows ih =>
    rw [Transaction.changeEach_cons, insertSubkey, if_pos (hkey row List.mem_cons_self),
      List.foldlM_cons]
    cases insertUnique (fun r : SubkeyRow => (r.parentFpr, r.fpr)) db.subkeys row with
    | none => rfl
    | some subkeys =>
      exact @ih { db with subkeys } fun r hr => hkey r (List.mem_cons_of_mem _ hr)

/-! The tables along the way: the key is in, then its user IDs, then its subkeys. -/

variable (qt db key updateTs now) in
def keyTables : GFKeyDatabase :=
  { db.dropParts key.fpr.toUpper with
    keys := replaceRow (·.fpr) db.keys (keyRow key (savedTime qt key updateTs now)) }

variable (qt db key updateTs now) in
def userIdTables : GFKeyDatabase :=
  { db.keyTables qt key updateTs now with
    userIds := (db.userIds.filter fun row => row.fpr ≠ key.fpr.toUpper) ++ userIdRows key }

variable (qt db key updateTs now) in
def subkeyTables : GFKeyDatabase :=
  { db.userIdTables qt key updateTs now with
    subkeys := (db.subkeys.filter fun row => row.parentFpr ≠ key.fpr.toUpper) ++ subkeyRows key }

theorem mem_keyTables :
    key.fpr.toUpper ∈ (db.keyTables qt key updateTs now).keys.map KeyRow.fpr :=
  List.mem_map.mpr ⟨keyRow key (savedTime qt key updateTs now),
    mem_replaceRow.mpr (.inr rfl), rfl⟩

theorem insertUserIds_eq (hdb : SchemaOk db) :
    Transaction.changeEach insertUserId (userIdRows key) (db.keyTables qt key updateTs now) =
      if ((userIdRows key).map UserIdRow.userId).Nodup then
        some (db.userIdTables qt key updateTs now) else none := by
  rw [changeEach_insertUserId]
  · refine (congrArg (Option.map _)
      (foldlM_insertParts hdb.userIdsOnce fpr_of_userIdRows)).trans ?_
    split
    · rfl
    · rfl
  · intro row hrow
    rw [fpr_of_userIdRows row hrow]
    exact mem_keyTables

theorem insertSubkeys_eq (hdb : SchemaOk db) :
    Transaction.changeEach insertSubkey (subkeyRows key) (db.userIdTables qt key updateTs now) =
      if ((subkeyRows key).map SubkeyRow.fpr).Nodup then
        some (db.subkeyTables qt key updateTs now) else none := by
  rw [changeEach_insertSubkey]
  · refine (congrArg (Option.map _)
      (foldlM_insertParts hdb.subkeysOnce parentFpr_of_subkeyRows)).trans ?_
    split
    · rfl
    · rfl
  · intro row hrow
    rw [parentFpr_of_subkeyRows row hrow]
    exact mem_keyTables

theorem insertBlocks_eq :
    insertBlocks ⟨key.fpr.toUpper, blocks⟩ (db.subkeyTables qt key updateTs now) =
      some (db.savedTables qt key blocks updateTs now) := by
  have hkey : key.fpr.toUpper ∈ (db.subkeyTables qt key updateTs now).keys.map KeyRow.fpr :=
    mem_keyTables
  have hblocks : replaceRow (·.fpr) (db.subkeyTables qt key updateTs now).blocks
      ⟨key.fpr.toUpper, blocks⟩ =
      replaceRow (·.fpr) db.blocks (⟨key.fpr.toUpper, blocks⟩ : KeyBlocksRow) := by
    show (List.filter _ (List.filter _ db.blocks)) ++ _ = _
    rw [List.filter_filter, replaceRow]
    simp
  show (if _ then some _ else none) = _
  rw [if_pos hkey, hblocks]
  rfl

theorem deleteUserIds_gone :
    deleteUserIds key.fpr.toUpper (db.keyTables qt key updateTs now) =
      some (db.keyTables qt key updateTs now) := by
  have hgone : (db.keyTables qt key updateTs now).userIds.filter
      (fun row => row.fpr ≠ key.fpr.toUpper) = (db.keyTables qt key updateTs now).userIds := by
    show List.filter _ (List.filter _ db.userIds) = List.filter _ db.userIds
    simp [List.filter_filter]
  rw [deleteUserIds, hgone]

theorem deleteSubkeys_gone :
    deleteSubkeys key.fpr.toUpper (db.userIdTables qt key updateTs now) =
      some (db.userIdTables qt key updateTs now) := by
  have hgone : (db.userIdTables qt key updateTs now).subkeys.filter
      (fun row => row.parentFpr ≠ key.fpr.toUpper) =
      (db.userIdTables qt key updateTs now).subkeys := by
    show List.filter _ (List.filter _ db.subkeys) = List.filter _ db.subkeys
    simp [List.filter_filter]
  rw [deleteSubkeys, hgone]

theorem isSome_ite {α : Type} {p : Prop} [Decidable p] {a : α} :
    (if p then some a else none).isSome = true ↔ p := by
  by_cases hp : p
  · simp [hp]
  · simp [hp]

/-- Inserts that fail, or whose rows are not all different, end the transaction. -/
theorem execEach_aborts {α : Type} {runs : Nat → Bool}
    {change : α → GFKeyDatabase → Option GFKeyDatabase} {rows : List α}
    {start tables : GFKeyDatabase} {failed : Bool} {once : Prop} [Decidable once]
    (hchange : Transaction.changeEach change rows start = if once then some tables else none)
    (hnot : ¬ (Transaction.Runs runs 0 rows.length ∧ once)) :
    ∃ t', Transaction.execEach runs change rows 0 ⟨start, failed⟩ = (false, t') ∧
      t'.failed = true := by
  refine Transaction.execEach_of_not_runs _ _ _ _ ⟨start, failed⟩ ?_
  rwa [hchange, isSome_ite]

/-- The call either saves the key as `saveKey` does or leaves the tables alone, and in the
first case a delete may have failed. -/
theorem saveStatements_eq (hdb : SchemaOk db) :
    (Completes env key ∧ saveStatements qt env db key blocks updateTs now =
      ⟨true, db.savedTables qt key blocks updateTs now,
        !env.deleteUserIds || !env.deleteSubkeys⟩) ∨
    (¬ Completes env key ∧
      saveStatements qt env db key blocks updateTs now = ⟨false, db, true⟩) := by
  have hkey : insertKey (keyRow key (savedTime qt key updateTs now)) db =
      some (db.keyTables qt key updateTs now) := insertKey_eq hdb _
  have huserIds : Transaction.changeEach insertUserId (userIdRows key)
      (db.keyTables qt key updateTs now) = _ := insertUserIds_eq hdb
  have hsubkeys : Transaction.changeEach insertSubkey (subkeyRows key)
      (db.userIdTables qt key updateTs now) = _ := insertSubkeys_eq hdb
  unfold saveStatements
  dsimp only
  cases hbegins : env.begins with
  | false => exact .inr ⟨fun h => by simpa [hbegins] using h.begins, rfl⟩
  | true =>
    rw [if_neg (by simp)]
    cases hrunsKey : env.insertKey with
    | false => exact .inr ⟨fun h => by simpa [hrunsKey] using h.insertKey, rfl⟩
    | true =>
      rw [Transaction.exec_of_some hkey]
      dsimp only
      rw [exec_gone deleteUserIds_gone]
      dsimp only
      by_cases hu : Transaction.Runs env.insertUserId 0 (userIdRows key).length ∧
          ((userIdRows key).map UserIdRow.userId).Nodup
      · rw [Transaction.execEach_of_runs hu.1 (huserIds.trans (if_pos hu.2))]
        dsimp only
        rw [exec_gone deleteSubkeys_gone]
        dsimp only
        by_cases hs : Transaction.Runs env.insertSubkey 0 (subkeyRows key).length ∧
            ((subkeyRows key).map SubkeyRow.fpr).Nodup
        · rw [Transaction.execEach_of_runs hs.1 (hsubkeys.trans (if_pos hs.2))]
          dsimp only
          cases hrunsBlocks : env.insertBlocks with
          | false => exact .inr ⟨fun h => by simpa [hrunsBlocks] using h.insertBlocks, rfl⟩
          | true =>
            rw [Transaction.exec_of_some insertBlocks_eq]
            dsimp only
            cases hcommits : env.commits with
            | false => exact .inr ⟨fun h => by simpa [hcommits] using h.commits, rfl⟩
            | true =>
              exact .inl ⟨⟨hbegins, hrunsKey, hu.1, hs.1, hrunsBlocks, hcommits, hu.2, hs.2⟩, rfl⟩
        · obtain ⟨t', heach, hfailed⟩ := execEach_aborts hsubkeys hs
          refine .inr ⟨fun h => hs ⟨h.insertSubkeys, h.subkeysOnce⟩, ?_⟩
          rw [heach]
          exact congrArg (SaveResult.mk false db) hfailed
      · obtain ⟨t', heach, hfailed⟩ := execEach_aborts huserIds hu
        refine .inr ⟨fun h => hu ⟨h.insertUserIds, h.userIdsOnce⟩, ?_⟩
        rw [heach]
        exact congrArg (SaveResult.mk false db) hfailed

/-! ## The listing -/

/-- The order in which the rows of a `SELECT` come, which none of the two asks for. -/
structure RowOrders where
  userIds : List UserIdRow → List UserIdRow
  subkeys : List SubkeyRow → List SubkeyRow
  userIds_perm : ∀ rows, (userIds rows).Perm rows
  subkeys_perm : ∀ rows, (subkeys rows).Perm rows

/-- As the rows lie in their tables. -/
def RowOrders.inserted : RowOrders where
  userIds rows := rows
  subkeys rows := rows
  userIds_perm _ := .refl _
  subkeys_perm _ := .refl _

variable (qt) in
/-- `load_user_ids_for_parent`. -/
def loadUserIdsIn (o : RowOrders) (db : GFKeyDatabase) (fpr : QString) : List GFUserId :=
  let realPrimaryFpr := db.resolvePrimaryFpr fpr
  if realPrimaryFpr.isEmpty then []
  else primaryFirst qt (o.userIds (db.userIds.filter fun row => row.fpr = realPrimaryFpr))

/-- `load_subkeys_for_parent`. -/
def loadSubkeysIn (o : RowOrders) (db : GFKeyDatabase) (parentFpr : QString) :
    List GFSubKeyMetadata :=
  (o.subkeys (db.subkeys.filter fun row => row.parentFpr = parentFpr)).map readSubkey

variable (qt) in
def loadPartsIn (o : RowOrders) (db : GFKeyDatabase) (key : GFKeyMetadata) : GFKeyMetadata :=
  let key := { key with userIds := loadUserIdsIn qt o db key.fpr }
  let key := { key with subkeys := loadSubkeysIn o db key.fpr }
  { key with subkeys := primaryKeyAsSubKey key :: key.subkeys }

variable (qt) in
/-- `GetMetadataList`. -/
def getMetadataListIn (o : RowOrders) (db : GFKeyDatabase) : List GFKeyMetadata :=
  db.keys.map fun row => loadPartsIn qt o db (readListed row)

end GFKeyDatabase

end GpgFrontend
