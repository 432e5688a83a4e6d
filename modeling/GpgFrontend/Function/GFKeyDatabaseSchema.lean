import GpgFrontend.Base.SqlTables

/-!
# The schema of the database of keys (`GFKeyDatabase.cpp`)

The tables as SQL has them, and the ladder from an older schema to the latest: two columns
that came later, and the table of subkeys rebuilt so that several certificates may carry one
subkey.

- `ensureSchema` and the migrations.
-/

namespace GpgFrontend

namespace SqlDatabase

/-! ## The latest schema -/

def keyVerColumn : SqlColumn := { name := "key_ver", notNull := true, default := .integer 0 }

def expiresAtColumn : SqlColumn := { name := "expires_at", default := .integer 0 }

/-- A column of the type INTEGER that is 0 by default. -/
def flagColumn (name : String) : SqlColumn := { name, default := .integer 0 }

/-- `key_metadata`; the default of `update_time` is the time of the insertion. -/
def keyMetadataTable : SqlTable where
  columns := [
    { name := "fpr", noCase := true },
    { name := "key_id", notNull := true, noCase := true },
    { name := "algo" },
    keyVerColumn,
    flagColumn "key_length",
    { name := "created_at" },
    expiresAtColumn,
    flagColumn "has_secret",
    flagColumn "is_revoked",
    flagColumn "is_disabled",
    flagColumn "can_sign",
    flagColumn "can_encrypt",
    flagColumn "can_auth",
    flagColumn "can_certify",
    { name := "update_time" }]
  primaryKey := ["fpr"]

/-- `subkey_metadata`, and `subkey_metadata_v4` while it is made. -/
def subkeyMetadataTable : SqlTable where
  columns := [
    { name := "fpr", notNull := true, noCase := true },
    { name := "parent_fpr", notNull := true, noCase := true },
    { name := "key_id", notNull := true, noCase := true },
    { name := "algo" },
    keyVerColumn,
    { name := "created_at" },
    expiresAtColumn,
    flagColumn "key_length",
    flagColumn "has_secret",
    flagColumn "is_revoked",
    flagColumn "can_sign",
    flagColumn "can_encrypt",
    flagColumn "can_auth",
    flagColumn "can_certify"]
  primaryKey := ["parent_fpr", "fpr"]
  references := some ("parent_fpr", "key_metadata", "fpr")

def keyBlocksTable : SqlTable where
  columns := [
    { name := "fpr", noCase := true },
    { name := "public_key", notNull := true },
    { name := "secret_key" }]
  primaryKey := ["fpr"]
  references := some ("fpr", "key_metadata", "fpr")

def userIdsTable : SqlTable where
  columns := [
    { name := "fpr", notNull := true, noCase := true },
    { name := "user_id", notNull := true },
    flagColumn "is_primary",
    flagColumn "is_revoked"]
  primaryKey := []
  unique := [["fpr", "user_id"]]
  references := some ("fpr", "key_metadata", "fpr")

/-- The columns that the table of subkeys is rebuilt with. -/
def subkeyColumns : List String :=
  ["fpr", "parent_fpr", "key_id", "algo", "key_ver", "created_at", "expires_at", "key_length",
    "has_secret", "is_revoked", "can_sign", "can_encrypt", "can_auth", "can_certify"]

variable (db : SqlDatabase)

/-- `CREATE TABLE IF NOT EXISTS`. -/
def createTableIfNotExists (name : String) (t : SqlTable) : SqlDatabase :=
  if (db.table name).isSome then db else db.setTable name t

def createSchemaLatest : SqlDatabase :=
  (((db.createTableIfNotExists "key_metadata" keyMetadataTable).createTableIfNotExists
    "subkey_metadata" subkeyMetadataTable).createTableIfNotExists
    "key_blocks" keyBlocksTable).createTableIfNotExists "user_ids" userIdsTable

def isDatabaseEmpty : Bool :=
  db.tables.keys.all fun name => "sqlite_".toList.isPrefixOf (name.toList.map Char.toLower)

def setSchemaVersion (version : Int) : SqlDatabase := { db with userVersion := version }

/-! ## The migrations -/

def columnExists (table column : String) : Bool :=
  (db.table table).any fun t => column ∈ t.names

/-- A column, unless it is there; and whether it is. -/
def addMissingColumn (table : String) (column : SqlColumn) : Bool × SqlDatabase :=
  if db.columnExists table column.name then (true, db)
  else
    match db.addColumn table column with
    | none => (false, db)
    | some db => (true, db)

/-- A column of both tables of keys. -/
def addKeyColumn (column : SqlColumn) : Bool × SqlDatabase :=
  match db.addMissingColumn "key_metadata" column with
  | (false, db) => (false, db)
  | (true, db) => db.addMissingColumn "subkey_metadata" column

def migrateV1ToV2 : Bool × SqlDatabase := db.addKeyColumn keyVerColumn

def migrateV2ToV3 : Bool × SqlDatabase := db.addKeyColumn expiresAtColumn

/-- Only a table with a key of one column is rebuilt, in a transaction. -/
def rebuildSubkeys : Option SqlDatabase :=
  if ((db.table "subkey_metadata").map fun t => t.primaryKey.length).getD 0 < 2 then
    db.rebuild "subkey_metadata" "subkey_metadata_v4" subkeyMetadataTable subkeyColumns
  else some db

def migrateV3ToV4 : Bool × SqlDatabase :=
  match db.rebuildSubkeys with
  | none => (false, db)
  | some db =>
    match db.createIndex "subkey_metadata_by_fpr" "subkey_metadata" "fpr" with
    | none => (false, db)
    | some db =>
      match db.createIndex "subkey_metadata_by_key_id" "subkey_metadata" "key_id" with
      | none => (false, db)
      | some db => (true, db)

/-- One round of the loop of `ensure_schema`. -/
def migrate (version : Int) : Bool × SqlDatabase :=
  if version = 1 then db.migrateV1ToV2
  else if version = 2 then db.migrateV2ToV3
  else if version = 3 then db.migrateV3ToV4
  else (false, db)

/-- `kCurrentSchemaVersion`. -/
def currentSchemaVersion : Int := 4

/-- The loop of `ensure_schema`: so many rounds at most, one for each version to come. -/
def migrateLoop : Nat → Int → SqlDatabase → Bool × SqlDatabase
  | 0, version, db => (version ≤ currentSchemaVersion, db)
  | rounds + 1, version, db =>
    if version < currentSchemaVersion then
      match db.migrate version with
      | (false, db) => (false, db)
      | (true, db) => migrateLoop rounds (version + 1) (db.setSchemaVersion (version + 1))
    else (version ≤ currentSchemaVersion, db)

def ensureSchema : Bool × SqlDatabase :=
  if db.userVersion < 0 then (false, db)
  else if db.userVersion = 0 ∧ db.isDatabaseEmpty = true then
    migrateLoop 3 1 (db.createSchemaLatest.setSchemaVersion 1)
  else migrateLoop (currentSchemaVersion - db.userVersion).toNat db.userVersion db

/-! ## What was there is read as it was -/

/-- Whatever could be selected before is selected as it was, of the subkeys the columns that
they have now. What reads neither of the two later columns reads alike, found or not. -/
structure Kept (db db' : SqlDatabase) : Prop where
  rows : ∀ name chosen, (name = "subkey_metadata" → chosen ⊆ subkeyColumns) →
    (db.select name chosen).isSome → db'.select name chosen = db.select name chosen
  alike : ∀ name chosen, chosen ⊆ subkeyColumns → keyVerColumn.name ∉ chosen →
    expiresAtColumn.name ∉ chosen → db'.select name chosen = db.select name chosen

section Kept

variable {db} {db' db'' : SqlDatabase} {table name : String} {column : SqlColumn}

theorem Kept.of_tables (h : db'.tables = db.tables) : Kept db db' := by
  have hselect : ∀ name chosen, db'.select name chosen = db.select name chosen := by
    intro name chosen
    exact select_of_table (congrArg (AList.lookup name) h)
  exact ⟨fun name chosen _ _ => hselect name chosen, fun name chosen _ _ _ => hselect name chosen⟩

theorem Kept.refl (db : SqlDatabase) : Kept db db := .of_tables rfl

theorem Kept.trans (h : Kept db db') (h' : Kept db' db'') : Kept db db'' where
  rows name chosen hsub hsome := by
    have hfirst := h.rows name chosen hsub hsome
    rw [h'.rows name chosen hsub (hfirst ▸ hsome), hfirst]
  alike name chosen hsub hver hexpires := by
    rw [h'.alike name chosen hsub hver hexpires, h.alike name chosen hsub hver hexpires]

theorem kept_addColumn (hcolumn : column = keyVerColumn ∨ column = expiresAtColumn)
    (h : db.addColumn table column = some db') : Kept db db' where
  rows name chosen _ hsome := by
    obtain ⟨t, ht, hnew, rfl⟩ := addColumn_cases h
    by_cases hname : name = table
    · subst hname
      refine select_addColumn h fun hchosen => hnew ?_
      rw [select, ht, Option.bind_some] at hsome
      obtain ⟨selected, hselected⟩ := Option.isSome_iff_exists.1 hsome
      exact (SqlTable.select_eq_some hselected).1 hchosen
    · exact select_of_table (table_setTable_ne hname)
  alike name chosen _ hver hexpires := by
    refine select_addColumn h ?_
    rcases hcolumn with rfl | rfl
    · exact hver
    · exact hexpires

theorem kept_addMissingColumn (hcolumn : column = keyVerColumn ∨ column = expiresAtColumn) :
    Kept db (db.addMissingColumn table column).2 := by
  unfold addMissingColumn
  split
  · exact .refl db
  · cases hadd : db.addColumn table column with
    | none => exact .refl db
    | some db' => exact kept_addColumn hcolumn hadd

theorem kept_addKeyColumn (hcolumn : column = keyVerColumn ∨ column = expiresAtColumn) :
    Kept db (db.addKeyColumn column).2 := by
  have hkeys : Kept db (db.addMissingColumn "key_metadata" column).2 :=
    kept_addMissingColumn hcolumn
  unfold addKeyColumn
  split
  · next db' heq => rw [heq] at hkeys; exact hkeys
  · next db' heq => rw [heq] at hkeys; exact hkeys.trans (kept_addMissingColumn hcolumn)

theorem kept_rebuildSubkeys (h : db.rebuildSubkeys = some db') : Kept db db' := by
  unfold rebuildSubkeys at h
  split at h
  · have hne : "subkey_metadata" ≠ "subkey_metadata_v4" := by decide
    obtain ⟨t, ht, -, -, hnew, hother, -⟩ := rebuild_cases hne h
    have hselect : ∀ name chosen, (name = "subkey_metadata" → chosen ⊆ subkeyColumns) →
        db'.select name chosen = db.select name chosen := by
      intro name chosen hsub
      by_cases hname : name = "subkey_metadata"
      · rw [hname]
        exact select_rebuild hne rfl h (hsub hname)
      · exact select_of_table (hother name hname)
    exact ⟨fun name chosen hsub _ => hselect name chosen hsub,
      fun name chosen hsub _ _ => hselect name chosen fun _ => hsub⟩
  · obtain rfl := Option.some.inj h
    exact .refl db

theorem createIndex_tables {index : String} {c : String}
    (h : db.createIndex index name c = some db') : db'.tables = db.tables := by
  unfold createIndex at h
  split at h
  · rw [Option.some.inj h]
  · obtain ⟨t, -, hadd⟩ := Option.bind_eq_some_iff.1 h
    split at hadd
    · rw [← Option.some.inj hadd]
    · cases hadd

theorem kept_migrateV3ToV4 : Kept db db.migrateV3ToV4.2 := by
  unfold migrateV3ToV4
  split
  · exact .refl db
  next rebuilt hrebuilt =>
  have hkept := kept_rebuildSubkeys hrebuilt
  split
  · exact hkept
  next first hfirst =>
  have hindexed := hkept.trans (.of_tables (createIndex_tables hfirst))
  split
  · exact hindexed
  · next second hsecond => exact hindexed.trans (.of_tables (createIndex_tables hsecond))

theorem kept_migrate (version : Int) : Kept db (db.migrate version).2 := by
  unfold migrate
  split
  · exact kept_addKeyColumn (.inl rfl)
  split
  · exact kept_addKeyColumn (.inr rfl)
  split
  · exact kept_migrateV3ToV4
  · exact .refl db

/-- By induction on the rounds. -/
theorem kept_migrateLoop (rounds : Nat) (version : Int) :
    Kept db (migrateLoop rounds version db).2 := by
  induction rounds generalizing version db with
  | zero => exact .refl db
  | succ rounds ih =>
    have hround : Kept db (db.migrate version).2 := kept_migrate version
    rw [migrateLoop]
    split
    · split
      · next db' heq => rw [heq] at hround; exact hround
      · next db' heq =>
        rw [heq] at hround
        have hset : Kept db' (db'.setSchemaVersion (version + 1)) := .of_tables rfl
        exact (hround.trans hset).trans (ih _)
    · exact .refl db

/-- However far the ladder is climbed, what was there is read as it was. -/
theorem ensureSchema_keeps (hversion : db.userVersion ≠ 0) : Kept db db.ensureSchema.2 := by
  rw [ensureSchema]
  split
  · exact .refl db
  · rw [if_neg fun h => hversion h.1]
    exact kept_migrateLoop _ _

end Kept

/-! ## An older version comes out as the latest -/

/-- The tables of keys of an older version, all but the columns that are pending: a subkey's
row has a key of its own, or one with its certificate, and a certificate. -/
structure OldKeyTables (keys subkeys : SqlTable) (pending : List String) : Prop where
  noCase : (keys.columns.any fun c => c.name = "fpr" && c.noCase) = true
  columns : ∀ c ∈ subkeyColumns, c ∈ subkeys.names ∨ c ∈ pending
  shaped : ∀ row ∈ subkeys.rows, ∀ c, c ∉ subkeys.names → row.lookup c = none
  notNull : ∀ row ∈ subkeys.rows, ∀ c ∈ ["fpr", "parent_fpr", "key_id"], row.cell c ≠ .null
  version : "key_ver" ∈ subkeys.names → ∀ row ∈ subkeys.rows, row.cell "key_ver" ≠ .null
  primaryKey : subkeys.primaryKey = ["fpr"] ∨ subkeys.primaryKey = ["parent_fpr", "fpr"]
  once : (subkeys.rows.map fun row =>
    subkeys.primaryKey.map fun c => (row.cell c).folded).Nodup
  parents : ∀ row ∈ subkeys.rows, ∃ k ∈ keys.rows,
    (k.cell "fpr").folded = (row.cell "parent_fpr").folded

/-- A database with these tables, and no table in the place of the one to be made. -/
structure OldKeyDatabase (db : SqlDatabase) (keys subkeys : SqlTable) (pending : List String) :
    Prop extends OldKeyTables keys subkeys pending where
  keysThere : db.table "key_metadata" = some keys
  subkeysThere : db.table "subkey_metadata" = some subkeys
  notStaged : db.table "subkey_metadata_v4" = none

section Climb

variable {db} {db' : SqlDatabase} {keys subkeys : SqlTable} {pending : List String}
  {column : SqlColumn}

theorem cell_append_ne {row : SqlRow} {c name : String} {v : SqlValue} (h : c ≠ name) :
    SqlRow.cell (row ++ [(name, v)]) c = row.cell c := by
  rw [SqlRow.cell, SqlRow.cell, List.lookup_append, List.lookup_cons, beq_false_of_ne h,
    List.lookup_nil, Option.or_none]

theorem cell_append_self {row : SqlRow} {name : String} {v : SqlValue}
    (h : row.lookup name = none) : SqlRow.cell (row ++ [(name, v)]) name = v := by
  rw [SqlRow.cell, List.lookup_append, h, Option.none_or, List.lookup_cons, beq_self_eq_true]
  rfl

/-- A column more of the keys that is not their fingerprint. -/
theorem OldKeyTables.withKeyColumn (h : OldKeyTables keys subkeys pending)
    (hcolumn : column.name ≠ "fpr") : OldKeyTables (keys.withColumn column) subkeys pending where
  noCase := by
    rw [SqlTable.withColumn, List.any_append, h.noCase, Bool.true_or]
  columns := h.columns
  shaped := h.shaped
  notNull := h.notNull
  version := h.version
  primaryKey := h.primaryKey
  once := h.once
  parents row hrow := by
    obtain ⟨k, hk, heq⟩ := h.parents row hrow
    refine ⟨k ++ [(column.name, column.default)], List.mem_map_of_mem hk, ?_⟩
    rw [cell_append_ne (Ne.symm hcolumn), heq]

/-- A pending column of the subkeys, added with a default that is not NULL. -/
theorem OldKeyTables.withSubkeyColumn (h : OldKeyTables keys subkeys (column.name :: pending))
    (hcolumn : column = keyVerColumn ∨ column = expiresAtColumn)
    (hnew : column.name ∉ subkeys.names) :
    OldKeyTables keys (subkeys.withColumn column) pending := by
  have hother : ∀ c ∈ ["fpr", "parent_fpr", "key_id"], c ≠ column.name := by
    rcases hcolumn with rfl | rfl <;> decide
  have hcell : ∀ c ∈ ["fpr", "parent_fpr", "key_id"], ∀ row : SqlRow,
      SqlRow.cell (row ++ [(column.name, column.default)]) c = row.cell c :=
    fun c hc row => cell_append_ne (hother c hc)
  have hkey : ∀ c ∈ subkeys.primaryKey, c ∈ ["fpr", "parent_fpr", "key_id"] := by
    rcases h.primaryKey with hpk | hpk <;> rw [hpk] <;> decide
  refine ⟨h.noCase, fun c hc => ?_, ?_, ?_, ?_, h.primaryKey, ?_, ?_⟩
  · rw [SqlTable.names_withColumn, List.mem_append, List.mem_singleton]
    rcases h.columns c hc with hold | hpending
    · exact .inl (.inl hold)
    · exact (List.mem_cons.1 hpending).imp_left .inr
  · intro row hrow c hc
    obtain ⟨old, hold, rfl⟩ := List.mem_map.1 hrow
    rw [SqlTable.names_withColumn, List.mem_append, List.mem_singleton, not_or] at hc
    rw [List.lookup_append, h.shaped old hold c hc.1, List.lookup_cons, beq_false_of_ne hc.2]
    rfl
  · intro row hrow c hc
    obtain ⟨old, hold, rfl⟩ := List.mem_map.1 hrow
    rw [hcell c hc]
    exact h.notNull old hold c hc
  · intro hver row hrow
    obtain ⟨old, hold, rfl⟩ := List.mem_map.1 hrow
    by_cases hname : column.name = "key_ver"
    · rw [← hname, cell_append_self (h.shaped old hold _ hnew)]
      rcases hcolumn with rfl | rfl <;> decide
    · rw [cell_append_ne (Ne.symm hname)]
      rw [SqlTable.names_withColumn, List.mem_append, List.mem_singleton] at hver
      exact h.version (hver.resolve_right (Ne.symm hname)) old hold
  · have hsame : (subkeys.withColumn column).rows.map
        (fun row => subkeys.primaryKey.map fun c => (row.cell c).folded)
          = subkeys.rows.map fun row => subkeys.primaryKey.map fun c => (row.cell c).folded := by
      rw [SqlTable.withColumn, List.map_map]
      refine List.map_congr_left fun row _ => List.map_congr_left fun c hc => ?_
      show (SqlRow.cell (row ++ [(column.name, column.default)]) c).folded = _
      rw [hcell c (hkey c hc)]
    exact hsame ▸ h.once
  · intro row hrow
    obtain ⟨old, hold, rfl⟩ := List.mem_map.1 hrow
    rw [hcell _ (by decide)]
    exact h.parents old hold

/-- A column that the table has, or that it gets. -/
theorem addMissingColumn_cases {table : String} {t : SqlTable} (ht : db.table table = some t)
    (hcolumn : column = keyVerColumn ∨ column = expiresAtColumn) :
    (column.name ∈ t.names ∧ db.addMissingColumn table column = (true, db)) ∨
    (column.name ∉ t.names ∧
      db.addMissingColumn table column = (true, db.setTable table (t.withColumn column))) := by
  have hexists : db.columnExists table column.name = decide (column.name ∈ t.names) := by
    rw [columnExists, ht, Option.any_some]
  by_cases hname : column.name ∈ t.names
  · refine .inl ⟨hname, ?_⟩
    rw [addMissingColumn, hexists, if_pos (decide_eq_true hname)]
  · refine .inr ⟨hname, ?_⟩
    have hdefault : ¬ (column.name ∈ t.names ∨
        (column.notNull = true ∧ column.default = .null)) := by
      rintro (hmem | ⟨-, hnull⟩)
      · exact hname hmem
      · rcases hcolumn with rfl | rfl <;> cases hnull
    have hadd : db.addColumn table column = some (db.setTable table (t.withColumn column)) := by
      rw [addColumn, ht, Option.bind_some, if_neg hdefault]
    rw [addMissingColumn, hexists, if_neg (by simpa using hname), hadd]

/-- Both tables have a pending column after its migration. -/
theorem OldKeyDatabase.addKeyColumn (h : OldKeyDatabase db keys subkeys (column.name :: pending))
    (hcolumn : column = keyVerColumn ∨ column = expiresAtColumn) :
    ∃ db' keys' subkeys', db.addKeyColumn column = (true, db') ∧
      OldKeyDatabase db' keys' subkeys' pending := by
  have hfpr : column.name ≠ "fpr" := by rcases hcolumn with rfl | rfl <;> decide
  -- the keys first
  obtain ⟨db₁, keys₁, hkeys, h₁⟩ : ∃ db₁ keys₁,
      db.addMissingColumn "key_metadata" column = (true, db₁) ∧
        OldKeyDatabase db₁ keys₁ subkeys (column.name :: pending) := by
    rcases addMissingColumn_cases h.keysThere hcolumn with ⟨-, heq⟩ | ⟨-, heq⟩
    · exact ⟨db, keys, heq, h⟩
    · exact ⟨_, keys.withColumn column, heq, h.toOldKeyTables.withKeyColumn hfpr,
        table_setTable_self, (table_setTable_ne (by decide)).trans h.subkeysThere,
        (table_setTable_ne (by decide)).trans h.notStaged⟩
  -- then the subkeys
  obtain ⟨db₂, subkeys₂, hsubkeys, h₂⟩ : ∃ db₂ subkeys₂,
      db₁.addMissingColumn "subkey_metadata" column = (true, db₂) ∧
        OldKeyDatabase db₂ keys₁ subkeys₂ pending := by
    rcases addMissingColumn_cases h₁.subkeysThere hcolumn with ⟨hmem, heq⟩ | ⟨hnew, heq⟩
    · refine ⟨db₁, subkeys, heq, { h₁ with columns := fun c hc => ?_ }⟩
      rcases h₁.columns c hc with hold | hpending
      · exact .inl hold
      · rcases List.mem_cons.1 hpending with rfl | hlater
        · exact .inl hmem
        · exact .inr hlater
    · exact ⟨_, subkeys.withColumn column, heq, h₁.toOldKeyTables.withSubkeyColumn hcolumn hnew,
        (table_setTable_ne (by decide)).trans h₁.keysThere, table_setTable_self,
        (table_setTable_ne (by decide)).trans h₁.notStaged⟩
  refine ⟨db₂, keys₁, subkeys₂, ?_, h₂⟩
  rw [SqlDatabase.addKeyColumn, hkeys]
  exact hsubkeys

/-- The rows of the old table are rows of the new one. -/
theorem OldKeyDatabase.fits (h : OldKeyDatabase db keys subkeys []) :
    db.Fits subkeys subkeyMetadataTable subkeyColumns := by
  have hnames : subkeyColumns ⊆ subkeys.names := fun c hc =>
    (h.columns c hc).resolve_right List.not_mem_nil
  refine ⟨hnames, by decide, fun c hc hnull => ?_, fun key hkey => ?_, ?_, fun row hrow => ?_⟩
  · have hcases : c.name ∈ subkeyColumns ∧
        (c.name ∈ ["fpr", "parent_fpr", "key_id"] ∨ c.name = "key_ver") := by
      revert c
      decide
    refine ⟨hcases.1, fun row hrow => ?_⟩
    rcases hcases.2 with hcolumn | hver
    · exact h.notNull row hrow c.name hcolumn
    · rw [hver]
      exact h.version (hnames (by decide)) row hrow
  · -- a fingerprint that is there once is there once with its certificate
    have hkey' : key = ["parent_fpr", "fpr"] := by simpa [subkeyMetadataTable] using hkey
    refine ⟨hkey' ▸ (by decide), ?_⟩
    have hfolded : subkeys.rows.map (subkeyMetadataTable.keyOf key)
        = subkeys.rows.map fun row =>
            [(row.cell "parent_fpr").folded, (row.cell "fpr").folded] := by
      rw [hkey']
      rfl
    rw [hfolded]
    have honce := h.once
    rcases h.primaryKey with hpk | hpk
    · rw [hpk] at honce
      refine List.Nodup.of_map (fun key => key.drop 1) ?_
      rw [List.map_map]
      exact honce
    · rw [hpk] at honce
      exact honce
  · rintro reference ⟨⟩
    decide
  · obtain ⟨k, hk, heq⟩ := h.parents row hrow
    show (decide (row.cell "parent_fpr" = .null) || (db.table "key_metadata").any fun p =>
      p.rows.any fun other => p.compared "fpr" (other.cell "fpr") =
        p.compared "fpr" (row.cell "parent_fpr")) = true
    have hcompared : ∀ v, keys.compared "fpr" v = v.folded := fun v => if_pos h.noCase
    rw [h.keysThere, Option.any_some, Bool.or_eq_true]
    refine .inr (List.any_eq_true.2 ⟨k, hk, decide_eq_true ?_⟩)
    rw [hcompared, hcompared, heq]

/-- The table of the latest schema is there: a subkey's key is its certificate and its
fingerprint. -/
def HasLatestSubkeys (db : SqlDatabase) : Prop :=
  ∃ t, db.table "subkey_metadata" = some t ∧ t.primaryKey = ["parent_fpr", "fpr"] ∧
    subkeyColumns ⊆ t.names

theorem createIndex_isSome {index name c : String} {t : SqlTable} (ht : db.table name = some t)
    (hc : c ∈ t.names) : ∃ db', db.createIndex index name c = some db' := by
  unfold createIndex
  split
  · exact ⟨db, rfl⟩
  · rw [ht, Option.bind_some, if_pos hc]
    exact ⟨_, rfl⟩

theorem OldKeyDatabase.rebuildSubkeys (h : OldKeyDatabase db keys subkeys []) :
    ∃ db', db.rebuildSubkeys = some db' ∧ HasLatestSubkeys db' := by
  have hne : "subkey_metadata" ≠ "subkey_metadata_v4" := by decide
  unfold SqlDatabase.rebuildSubkeys
  rw [h.subkeysThere]
  split
  · have hsome := rebuild_isSome hne h.subkeysThere h.notStaged rfl
      (by rintro reference ⟨⟩; decide) h.fits
    obtain ⟨db', hdb'⟩ := Option.isSome_iff_exists.1 hsome
    obtain ⟨t, -, -, hnew, htable, -, -⟩ := rebuild_cases hne hdb'
    exact ⟨db', hdb', _, htable, rfl, hnew⟩
  · next hkey =>
    refine ⟨db, rfl, subkeys, h.subkeysThere, h.primaryKey.resolve_left fun hpk => ?_, fun c hc =>
      (h.columns c hc).resolve_right List.not_mem_nil⟩
    rw [Option.map_some, hpk] at hkey
    exact hkey (by decide)

theorem OldKeyDatabase.migrateV3ToV4 (h : OldKeyDatabase db keys subkeys []) :
    ∃ db', db.migrateV3ToV4 = (true, db') ∧ HasLatestSubkeys db' := by
  obtain ⟨db₁, hrebuilt, t, ht, hpk, hcolumns⟩ := h.rebuildSubkeys
  obtain ⟨db₂, hfirst⟩ : ∃ db₂,
      db₁.createIndex "subkey_metadata_by_fpr" "subkey_metadata" "fpr" = some db₂ :=
    createIndex_isSome ht (hcolumns (by decide))
  have ht₂ : db₂.table "subkey_metadata" = some t := by
    rw [table, createIndex_tables hfirst]
    exact ht
  obtain ⟨db₃, hsecond⟩ : ∃ db₃,
      db₂.createIndex "subkey_metadata_by_key_id" "subkey_metadata" "key_id" = some db₃ :=
    createIndex_isSome ht₂ (hcolumns (by decide))
  refine ⟨db₃, ?_, t, ?_, hpk, hcolumns⟩
  · rw [SqlDatabase.migrateV3ToV4, hrebuilt]
    dsimp only
    rw [hfirst]
    dsimp only
    rw [hsecond]
  · rw [table, createIndex_tables hsecond]
    exact ht₂

theorem OldKeyDatabase.setSchemaVersion (h : OldKeyDatabase db keys subkeys pending)
    (version : Int) : OldKeyDatabase (db.setSchemaVersion version) keys subkeys pending :=
  ⟨h.toOldKeyTables, h.keysThere, h.subkeysThere, h.notStaged⟩

/-! The ladder from each of its rungs. -/

theorem climb_from_three (h : OldKeyDatabase db keys subkeys []) :
    ∃ db', migrateLoop 1 3 db = (true, db') ∧ db'.userVersion = 4 ∧ HasLatestSubkeys db' := by
  obtain ⟨db', hmigrate, hlatest⟩ := h.migrateV3ToV4
  refine ⟨db'.setSchemaVersion 4, ?_, rfl, hlatest⟩
  show (match db.migrateV3ToV4 with
    | (false, db) => (false, db)
    | (true, db) => migrateLoop 0 4 (db.setSchemaVersion 4)) = _
  rw [hmigrate]
  rfl

theorem climb_from_two (h : OldKeyDatabase db keys subkeys ["expires_at"]) :
    ∃ db', migrateLoop 2 2 db = (true, db') ∧ db'.userVersion = 4 ∧ HasLatestSubkeys db' := by
  have hpending : OldKeyDatabase db keys subkeys (expiresAtColumn.name :: []) := h
  obtain ⟨db₁, keys₁, subkeys₁, hmigrate, h₁⟩ := hpending.addKeyColumn (.inr rfl)
  obtain ⟨db', hclimb, hlatest⟩ := climb_from_three (h₁.setSchemaVersion 3)
  refine ⟨db', ?_, hlatest⟩
  show (match db.addKeyColumn expiresAtColumn with
    | (false, db) => (false, db)
    | (true, db) => migrateLoop 1 3 (db.setSchemaVersion 3)) = _
  rw [hmigrate]
  exact hclimb

theorem climb_from_one (h : OldKeyDatabase db keys subkeys ["key_ver", "expires_at"]) :
    ∃ db', migrateLoop 3 1 db = (true, db') ∧ db'.userVersion = 4 ∧ HasLatestSubkeys db' := by
  have hpending : OldKeyDatabase db keys subkeys (keyVerColumn.name :: ["expires_at"]) := h
  obtain ⟨db₁, keys₁, subkeys₁, hmigrate, h₁⟩ := hpending.addKeyColumn (.inl rfl)
  obtain ⟨db', hclimb, hlatest⟩ := climb_from_two (h₁.setSchemaVersion 2)
  refine ⟨db', ?_, hlatest⟩
  show (match db.addKeyColumn keyVerColumn with
    | (false, db) => (false, db)
    | (true, db) => migrateLoop 2 2 (db.setSchemaVersion 2)) = _
  rw [hmigrate]
  exact hclimb

/-- The columns that a version does not have yet. -/
def pendingColumns (version : Int) : List String :=
  if version = 1 then ["key_ver", "expires_at"] else if version = 2 then ["expires_at"] else []

/-- A database of an older version comes out as one of the latest. -/
theorem ensureSchema_succeeds (hversion : 1 ≤ db.userVersion ∧ db.userVersion ≤ 3)
    (h : OldKeyDatabase db keys subkeys (pendingColumns db.userVersion)) :
    ∃ db', db.ensureSchema = (true, db') ∧ db'.userVersion = 4 ∧ HasLatestSubkeys db' := by
  have hcases : db.userVersion = 1 ∨ db.userVersion = 2 ∨ db.userVersion = 3 := by omega
  have hnegative : ¬ db.userVersion < 0 := by omega
  have hzero : ¬ (db.userVersion = 0 ∧ db.isDatabaseEmpty = true) := fun h0 => by omega
  rw [ensureSchema, if_neg hnegative, if_neg hzero]
  rcases hcases with hv | hv | hv <;> rw [hv] at h ⊢
  · exact climb_from_one h
  · exact climb_from_two h
  · exact climb_from_three h

end Climb

end SqlDatabase

end GpgFrontend
