import Mathlib.Data.List.AList
import Mathlib.Data.List.Lex
import Mathlib.Data.List.Sort
import Mathlib.Data.Prod.Lex

/-!
# Tables of an SQL database

A part of SQL as SQLite has it: tables of columns and rows, known by name, and the statements
that change what tables and columns there are.
-/

namespace GpgFrontend

/-! ## Values -/

inductive SqlValue where
  | null
  | integer (n : Int)
  | text (s : List UInt16)
  deriving Repr, DecidableEq

namespace SqlValue

/-- An ASCII letter in lower case. -/
def lowerUnit (c : UInt16) : UInt16 := if 65 ≤ c ∧ c ≤ 90 then c + 32 else c

/-- What `COLLATE NOCASE` compares. -/
def folded : SqlValue → SqlValue
  | text s => text (s.map lowerUnit)
  | v => v

/-- `=` under `COLLATE NOCASE`: nothing equals NULL. -/
def sameText (v w : SqlValue) : Bool := v ≠ null && v.folded = w.folded

/-- The order of values: NULL, numbers, texts. -/
def orderKey : SqlValue → ℕ ×ₗ ℤ ×ₗ List ℕ
  | null => toLex (0, toLex (0, []))
  | integer n => toLex (1, toLex (n, []))
  | text s => toLex (2, toLex (0, s.map UInt16.toNat))

/-- `QVariant::toString`. -/
def toText : SqlValue → List UInt16
  | null => []
  | integer n => (toString n).toList.map fun c => UInt16.ofNat c.toNat
  | text s => s

theorem sameText_iff {v w : SqlValue} : v.sameText w = true ↔ v ≠ null ∧ v.folded = w.folded := by
  rw [sameText, Bool.and_eq_true, decide_eq_true_eq, decide_eq_true_eq]

end SqlValue

/-! ## Order -/

section OrderBy

variable {α β : Type} [LinearOrder β] {key : α → β} {rows : List α}

/-- `ORDER BY`. -/
def orderBy (key : α → β) (rows : List α) : List α := rows.insertionSort fun a b => key a ≤ key b

/-- The first row comes before every other. -/
theorem head_orderBy (key : α → β) (h : rows ≠ []) :
    ∃ first ∈ rows, (orderBy key rows).head? = some first ∧ ∀ row ∈ rows, key first ≤ key row := by
  have htotal : Std.Total fun a b : α => key a ≤ key b := ⟨fun a b => le_total (key a) (key b)⟩
  have htrans : IsTrans α fun a b => key a ≤ key b := ⟨fun _ _ _ hab hbc => hab.trans hbc⟩
  have hsorted : (orderBy key rows).Pairwise fun a b => key a ≤ key b :=
    List.pairwise_insertionSort _ rows
  have hmem : ∀ row, row ∈ orderBy key rows ↔ row ∈ rows := fun row => List.mem_insertionSort _
  cases heq : orderBy key rows with
  | nil =>
    obtain ⟨row, hrow⟩ := List.exists_mem_of_ne_nil rows h
    have := (hmem row).2 hrow
    rw [heq] at this
    cases this
  | cons first rest =>
    rw [heq] at hsorted
    refine ⟨first, (hmem first).1 (heq ▸ List.mem_cons_self), rfl, fun row hrow => ?_⟩
    rcases List.mem_cons.1 (heq ▸ (hmem row).2 hrow) with rfl | hrest
    · exact le_rfl
    · exact (List.pairwise_cons.1 hsorted).1 row hrest

end OrderBy

/-! ## Tables -/

/-- A row, by the names of its columns. -/
abbrev SqlRow : Type := List (String × SqlValue)

/-- A column of a row, and NULL for none. -/
def SqlRow.cell (row : SqlRow) (column : String) : SqlValue := (row.lookup column).getD .null

/-- `SELECT` of some columns of a row. -/
def SqlRow.project (row : SqlRow) (columns : List String) : SqlRow :=
  columns.map fun column => (column, row.cell column)

theorem SqlRow.lookup_project {row : SqlRow} {columns : List String} {column : String}
    (h : column ∈ columns) : (row.project columns).lookup column = some (row.cell column) := by
  induction columns with
  | nil => cases h
  | cons first rest ih =>
    rw [SqlRow.project, List.map_cons, List.lookup_cons]
    by_cases hfirst : column = first
    · subst hfirst
      rw [beq_self_eq_true]
    · rw [beq_false_of_ne hfirst]
      exact ih ((List.mem_cons.1 h).resolve_left hfirst)

@[simp] theorem SqlRow.cell_project {row : SqlRow} {columns : List String} {column : String}
    (h : column ∈ columns) : (row.project columns).cell column = row.cell column := by
  rw [SqlRow.cell, lookup_project h, Option.getD_some]

structure SqlColumn where
  name : String
  notNull : Bool := false
  noCase : Bool := false
  default : SqlValue := .null
  deriving Repr, DecidableEq

structure SqlTable where
  columns : List SqlColumn
  primaryKey : List String
  unique : List (List String) := []
  /-- `FOREIGN KEY(column) REFERENCES table(column)`. -/
  references : Option (String × String × String) := none
  rows : List SqlRow := []
  deriving Repr, DecidableEq

namespace SqlTable

def names (t : SqlTable) : List String := t.columns.map (·.name)

/-- A value as the column compares it. -/
def compared (t : SqlTable) (column : String) (v : SqlValue) : SqlValue :=
  if t.columns.any fun c => c.name = column && c.noCase then v.folded else v

def keyOf (t : SqlTable) (key : List String) (row : SqlRow) : List SqlValue :=
  key.map fun column => t.compared column (row.cell column)

/-- A row with the defaults of the columns it leaves out. -/
def fullRow (t : SqlTable) (row : SqlRow) : SqlRow :=
  t.columns.map fun c => (c.name, (row.lookup c.name).getD c.default)

/-- `SELECT columns`: nothing where there is no such column. -/
def select (t : SqlTable) (columns : List String) : Option (List SqlRow) :=
  if columns ⊆ t.names then some (t.rows.map fun row => row.project columns) else none

/-- With a column more, which holds its default in every row. -/
def withColumn (t : SqlTable) (column : SqlColumn) : SqlTable :=
  { t with
    columns := t.columns ++ [column]
    rows := t.rows.map fun row => row ++ [(column.name, column.default)] }

/-- With rows more, which may leave columns out. -/
def withRows (t : SqlTable) (rows : List SqlRow) : SqlTable :=
  { t with rows := t.rows ++ rows.map t.fullRow }

section Shape

variable {t : SqlTable} {column : SqlColumn} {chosen : List String} {rows later : List SqlRow}

@[simp] theorem names_withColumn : (t.withColumn column).names = t.names ++ [column.name] :=
  List.map_append

@[simp] theorem names_withRows : (t.withRows rows).names = t.names := rfl

@[simp] theorem fullRow_withRows : (t.withRows rows).fullRow = t.fullRow := rfl

theorem withRows_nil : t.withRows [] = t := by
  rw [withRows, List.map_nil, List.append_nil]

theorem withRows_withRows : (t.withRows rows).withRows later = t.withRows (rows ++ later) := by
  rw [withRows, fullRow_withRows, withRows, withRows, List.map_append, ← List.append_assoc]

theorem subset_names_withColumn (h : column.name ∉ chosen) :
    chosen ⊆ (t.withColumn column).names ↔ chosen ⊆ t.names := by
  rw [names_withColumn]
  constructor
  · intro hchosen c hc
    refine (List.mem_append.1 (hchosen hc)).resolve_right fun hlast => ?_
    exact h (List.mem_singleton.1 hlast ▸ hc)
  · exact fun hchosen c hc => List.mem_append_left _ (hchosen hc)

variable {row : SqlRow}

theorem project_append {v : SqlValue} (h : column.name ∉ chosen) :
    SqlRow.project (row ++ [(column.name, v)]) chosen = row.project chosen := by
  refine List.map_congr_left fun c hc => ?_
  have hne : (c == column.name) = false := beq_false_of_ne fun heq => h (heq ▸ hc)
  have hlookup : (row ++ [(column.name, v)]).lookup c = row.lookup c := by
    rw [List.lookup_append, List.lookup_cons, hne, List.lookup_nil, Option.or_none]
  rw [SqlRow.cell, SqlRow.cell, hlookup]

/-- What is selected of other columns is what it was. -/
theorem select_withColumn (h : column.name ∉ chosen) :
    (t.withColumn column).select chosen = t.select chosen := by
  by_cases hchosen : chosen ⊆ t.names
  · rw [select, select, if_pos hchosen, if_pos ((subset_names_withColumn h).2 hchosen), withColumn,
      List.map_map]
    exact congrArg some (List.map_congr_left fun row _ => project_append h)
  · rw [select, select, if_neg hchosen, if_neg (mt (subset_names_withColumn h).1 hchosen)]

theorem select_eq_some {t : SqlTable} {selected : List SqlRow} (h : t.select chosen = some selected) :
    chosen ⊆ t.names ∧ selected = t.rows.map fun row => row.project chosen := by
  unfold select at h
  split at h
  · next hchosen => exact ⟨hchosen, (Option.some.inj h).symm⟩
  · cases h

/-- A column that a row has is no default. -/
theorem lookup_fullRow {c : String} {v : SqlValue} (hc : c ∈ t.names) (hv : row.lookup c = some v) :
    (t.fullRow row).lookup c = some v := by
  unfold names at hc
  unfold fullRow
  generalize t.columns = columns at hc ⊢
  induction columns with
  | nil => cases hc
  | cons first rest ih =>
    rw [List.map_cons, List.lookup_cons]
    by_cases hfirst : c = first.name
    · subst hfirst
      rw [beq_self_eq_true, hv]
      rfl
    · rw [beq_false_of_ne hfirst]
      exact ih ((List.mem_cons.1 hc).resolve_left hfirst)

variable {columns : List String}

theorem cell_fullRow {c : String} (hsub : columns ⊆ t.names) (hc : c ∈ columns) :
    (t.fullRow (row.project columns)).cell c = row.cell c := by
  rw [SqlRow.cell, lookup_fullRow (hsub hc) (SqlRow.lookup_project hc)]
  rfl

theorem keyOf_fullRow {key : List String} (hsub : columns ⊆ t.names) (hkey : key ⊆ columns) :
    t.keyOf key (t.fullRow (row.project columns)) = t.keyOf key row :=
  List.map_congr_left fun _ hc => by rw [cell_fullRow hsub (hkey hc)]

/-- Rows that were selected from another table are selected from this one as they were. -/
theorem select_withRows (hempty : t.rows = []) (hsub : columns ⊆ t.names)
    (hchosen : chosen ⊆ columns) :
    (t.withRows (rows.map fun row => row.project columns)).select chosen
      = some (rows.map fun row => row.project chosen) := by
  have hnames : chosen ⊆ t.names := fun c hc => hsub (hchosen hc)
  rw [select, names_withRows, if_pos hnames, withRows, hempty, List.nil_append, List.map_map,
    List.map_map]
  refine congrArg some (List.map_congr_left fun row _ => List.map_congr_left fun c hc => ?_)
  rw [cell_fullRow hsub (hchosen hc)]

end Shape

end SqlTable

/-! ## Databases -/

structure SqlDatabase where
  tables : AList fun _ : String => SqlTable
  /-- The name of an index, its table and its column. -/
  indexes : List (String × String × String) := []
  /-- `PRAGMA user_version`. -/
  userVersion : Int := 0

namespace SqlDatabase

variable (db : SqlDatabase)

def table (name : String) : Option SqlTable := db.tables.lookup name

def setTable (name : String) (t : SqlTable) : SqlDatabase :=
  { db with tables := db.tables.insert name t }

/-- `SELECT columns FROM name`. -/
def select (name : String) (columns : List String) : Option (List SqlRow) :=
  (db.table name).bind fun t => t.select columns

/-- `CREATE TABLE`. -/
def createTable (name : String) (t : SqlTable) : Option SqlDatabase :=
  if (db.table name).isSome then none else some (db.setTable name t)

/-- `ALTER TABLE name ADD COLUMN`: a column that may not be NULL has another default. -/
def addColumn (name : String) (column : SqlColumn) : Option SqlDatabase :=
  (db.table name).bind fun t =>
    if column.name ∈ t.names ∨ (column.notNull = true ∧ column.default = .null) then none
    else some (db.setTable name (t.withColumn column))

/-- The row that the foreign key of a row names is there. -/
def hasParent (t : SqlTable) (row : SqlRow) : Bool :=
  match t.references with
  | none => true
  | some (column, parent, parentColumn) =>
    row.cell column = .null ||
      (db.table parent).any fun p => p.rows.any fun other =>
        p.compared parentColumn (other.cell parentColumn) =
          p.compared parentColumn (row.cell column)

/-- No other row has the key, or a column of the key is NULL. -/
def keyFree (t : SqlTable) (row : SqlRow) (key : List String) : Bool :=
  .null ∈ t.keyOf key row || t.rows.all fun other => t.keyOf key other ≠ t.keyOf key row

/-- The constraints of a table, for a row more. -/
def accepts (t : SqlTable) (row : SqlRow) : Bool :=
  (t.columns.all fun c => !c.notNull || row.cell c.name ≠ .null) &&
    (t.primaryKey :: t.unique).all (keyFree t row) && db.hasParent t row

def insertRow (t : SqlTable) (row : SqlRow) : Option SqlTable :=
  if db.accepts t (t.fullRow row) then some (t.withRows [row]) else none

/-- `INSERT INTO name (columns) SELECT columns FROM source`. -/
def insertSelect (name : String) (columns : List String) (source : String) : Option SqlDatabase :=
  (db.table name).bind fun t =>
    if columns ⊆ t.names then
      (db.select source columns).bind fun rows =>
        (rows.foldlM db.insertRow t).map (db.setTable name)
    else none

/-- `DROP TABLE`, of a table that no other refers to. -/
def dropTable (name : String) : Option SqlDatabase :=
  if (db.table name).isSome then
    some { db with
      tables := db.tables.erase name
      indexes := db.indexes.filter fun index => index.2.1 ≠ name }
  else none

/-- `ALTER TABLE name RENAME TO other`. -/
def renameTable (name other : String) : Option SqlDatabase :=
  (db.table name).bind fun t =>
    if (db.table other).isSome then none
    else some { db with
      tables := (db.tables.erase name).insert other t
      indexes := db.indexes.map fun index =>
        if index.2.1 = name then (index.1, other, index.2.2) else index }

/-- `CREATE INDEX IF NOT EXISTS index ON name(column)`. -/
def createIndex (index name column : String) : Option SqlDatabase :=
  if db.indexes.any fun i => i.1 = index then some db
  else
    (db.table name).bind fun t =>
      if column ∈ t.names then some { db with indexes := db.indexes ++ [(index, name, column)] }
      else none

/-! ## A column more -/

section Select

variable {db} {db' : SqlDatabase} {name other staged : String} {t shape : SqlTable}
  {column : SqlColumn} {chosen columns : List String}

theorem table_setTable_self : (db.setTable name t).table name = some t :=
  AList.lookup_insert db.tables

theorem table_setTable_ne (h : other ≠ name) : (db.setTable name t).table other = db.table other :=
  AList.lookup_insert_ne h

theorem select_of_table (h : db'.table other = db.table other) :
    db'.select other chosen = db.select other chosen := by
  rw [select, select, h]

theorem addColumn_cases (h : db.addColumn name column = some db') :
    ∃ t, db.table name = some t ∧ column.name ∉ t.names ∧
      db' = db.setTable name (t.withColumn column) := by
  obtain ⟨t, ht, hadd⟩ := Option.bind_eq_some_iff.1 h
  split at hadd
  · cases hadd
  · next hno => exact ⟨t, ht, fun hmem => hno (.inl hmem), (Option.some.inj hadd).symm⟩

/-- What is selected of other columns is what it was. -/
theorem select_addColumn (h : db.addColumn name column = some db') (hnew : column.name ∉ chosen) :
    db'.select other chosen = db.select other chosen := by
  obtain ⟨t, ht, -, rfl⟩ := addColumn_cases h
  by_cases hother : other = name
  · subst hother
    rw [select, select, table_setTable_self, ht]
    exact SqlTable.select_withColumn hnew
  · exact select_of_table (table_setTable_ne hother)

/-! ## Rows from another table -/

theorem insertRow_cases {row : SqlRow} {t' : SqlTable} (h : db.insertRow t row = some t') :
    t' = t.withRows [row] := by
  unfold insertRow at h
  split at h
  · exact (Option.some.inj h).symm
  · cases h

/-- By induction on the rows: they stand, with their defaults, behind those that are there. -/
theorem foldlM_insertRow {rows : List SqlRow} {t' : SqlTable}
    (h : rows.foldlM db.insertRow t = some t') : t' = t.withRows rows := by
  induction rows generalizing t with
  | nil =>
    obtain rfl := Option.some.inj h
    exact SqlTable.withRows_nil.symm
  | cons row rest ih =>
    obtain ⟨first, hfirst, hrest⟩ := Option.bind_eq_some_iff.1 h
    obtain rfl := insertRow_cases hfirst
    rw [ih hrest, SqlTable.withRows_withRows]
    rfl

/-- Rows that meet the constraints, among themselves and with those that are there. -/
theorem foldlM_insertRow_of_accepted {rows : List SqlRow}
    (hnull : ∀ row ∈ rows, ∀ c ∈ t.columns, c.notNull = true →
      (t.fullRow row).cell c.name ≠ .null)
    (hkeys : ∀ key ∈ t.primaryKey :: t.unique,
      ((t.withRows rows).rows.map (t.keyOf key)).Nodup)
    (hparents : ∀ row ∈ rows, db.hasParent t (t.fullRow row) = true) :
    rows.foldlM db.insertRow t = some (t.withRows rows) := by
  induction rows generalizing t with
  | nil => exact congrArg some SqlTable.withRows_nil.symm
  | cons row rest ih =>
    have hfree : ∀ key ∈ t.primaryKey :: t.unique, keyFree t (t.fullRow row) key = true := by
      intro key hkey
      have hnodup := hkeys key hkey
      rw [SqlTable.withRows, List.map_append, List.nodup_append] at hnodup
      refine Bool.or_eq_true_iff.2 (.inr (List.all_eq_true.2 fun old hold => ?_))
      refine decide_eq_true fun heq => ?_
      exact hnodup.2.2 _ (List.mem_map_of_mem hold) _ (List.mem_cons_self ..) heq
    have haccepts : db.accepts t (t.fullRow row) = true := by
      rw [accepts, Bool.and_eq_true, Bool.and_eq_true]
      refine ⟨⟨List.all_eq_true.2 fun c hc => ?_, List.all_eq_true.2 hfree⟩,
        hparents row List.mem_cons_self⟩
      cases hc' : c.notNull with
      | false => rfl
      | true => exact decide_eq_true (hnull row List.mem_cons_self c hc hc')
    have hstep : (row :: rest).foldlM db.insertRow t = rest.foldlM db.insertRow (t.withRows [row]) := by
      rw [List.foldlM_cons, insertRow, if_pos haccepts]
      rfl
    have hall : (t.withRows [row]).withRows rest = t.withRows (row :: rest) :=
      SqlTable.withRows_withRows
    rw [hstep, ← hall]
    refine ih (fun later hlater => hnull later (List.mem_cons_of_mem _ hlater))
      (fun key hkey => ?_) fun later hlater => hparents later (List.mem_cons_of_mem _ hlater)
    rw [hall]
    exact hkeys key hkey

/-! ## A table of another shape -/

/-- A table replaced by one of another shape: made under another name, filled, and put in the
place of the old one. -/
def rebuild (name staged : String) (shape : SqlTable) (columns : List String) :
    Option SqlDatabase := do
  let db ← db.createTable staged shape
  let db ← db.insertSelect staged columns name
  let db ← db.dropTable name
  db.renameTable staged name

theorem createTable_cases (h : db.createTable name t = some db') :
    db.table name = none ∧ db' = db.setTable name t := by
  unfold createTable at h
  split at h
  · cases h
  · next hno => exact ⟨by simpa using hno, (Option.some.inj h).symm⟩

theorem insertSelect_cases (h : db.insertSelect staged columns name = some db') :
    ∃ t rows, db.table staged = some t ∧ columns ⊆ t.names ∧ db.select name columns = some rows ∧
      db' = db.setTable staged (t.withRows rows) := by
  obtain ⟨t, ht, hinsert⟩ := Option.bind_eq_some_iff.1 h
  split at hinsert
  · next hsub =>
    obtain ⟨rows, hrows, hset⟩ := Option.bind_eq_some_iff.1 hinsert
    obtain ⟨t', ht', rfl⟩ := Option.map_eq_some_iff.1 hset
    exact ⟨t, rows, ht, hsub, hrows, by rw [foldlM_insertRow ht']⟩
  · cases hinsert

theorem dropTable_cases (h : db.dropTable name = some db') :
    db'.tables = db.tables.erase name ∧ db'.userVersion = db.userVersion := by
  unfold dropTable at h
  split at h
  · obtain rfl := Option.some.inj h
    exact ⟨rfl, rfl⟩
  · cases h

theorem renameTable_cases (h : db.renameTable staged name = some db') :
    ∃ t, db.table staged = some t ∧ db'.tables = (db.tables.erase staged).insert name t ∧
      db'.userVersion = db.userVersion := by
  obtain ⟨t, ht, hrename⟩ := Option.bind_eq_some_iff.1 h
  split at hrename
  · cases hrename
  · obtain rfl := Option.some.inj hrename
    exact ⟨t, ht, rfl, rfl⟩

/-- The rows of the old table, in the new shape; and no other table is touched. -/
theorem rebuild_cases (hne : name ≠ staged) (h : db.rebuild name staged shape columns = some db') :
    ∃ t, db.table name = some t ∧ columns ⊆ t.names ∧ columns ⊆ shape.names ∧
      db'.table name
        = some (shape.withRows (t.rows.map fun row => row.project columns)) ∧
      (∀ other, other ≠ name → db'.table other = db.table other) ∧
      db'.userVersion = db.userVersion := by
  obtain ⟨db₁, hcreate, h⟩ := Option.bind_eq_some_iff.1 h
  obtain ⟨db₂, hinsert, h⟩ := Option.bind_eq_some_iff.1 h
  obtain ⟨db₃, hdrop, hrename⟩ := Option.bind_eq_some_iff.1 h
  obtain ⟨hfree, rfl⟩ := createTable_cases hcreate
  obtain ⟨t', rows, ht', hsub, hrows, rfl⟩ := insertSelect_cases hinsert
  obtain ⟨htables₃, hversion₃⟩ := dropTable_cases hdrop
  obtain ⟨new, hnew, htables, hversion⟩ := renameTable_cases hrename
  rw [table_setTable_self] at ht'
  obtain rfl := Option.some.inj ht'
  obtain ⟨t, ht, hselect⟩ := Option.bind_eq_some_iff.1 hrows
  rw [table_setTable_ne hne] at ht
  obtain ⟨hcolumns, rfl⟩ := SqlTable.select_eq_some hselect
  have hstaged : new = shape.withRows (t.rows.map fun row => row.project columns) := by
    rw [table, htables₃, AList.lookup_erase_ne (Ne.symm hne)] at hnew
    exact Option.some.inj (hnew.symm.trans table_setTable_self)
  refine ⟨t, ht, hcolumns, hsub, ?_, fun other hother => ?_, ?_⟩
  · rw [table, htables, AList.lookup_insert, hstaged]
  · rw [table, htables, AList.lookup_insert_ne hother]
    by_cases hstage : other = staged
    · subst hstage
      rw [AList.lookup_erase]
      exact hfree.symm
    · rw [AList.lookup_erase_ne hstage, htables₃, AList.lookup_erase_ne hother]
      exact (table_setTable_ne hstage).trans (table_setTable_ne hstage)
  · rw [hversion, hversion₃]
    rfl

/-- What is selected of the columns that were taken over is what it was. -/
theorem select_rebuild (hne : name ≠ staged) (hempty : shape.rows = [])
    (h : db.rebuild name staged shape columns = some db') (hchosen : chosen ⊆ columns) :
    db'.select name chosen = db.select name chosen := by
  obtain ⟨t, ht, hcolumns, hsub, hnew, -, -⟩ := rebuild_cases hne h
  have hnames : chosen ⊆ t.names := fun c hc => hcolumns (hchosen hc)
  rw [select, select, hnew, ht, Option.bind_some, Option.bind_some,
    SqlTable.select_withRows hempty hsub hchosen, SqlTable.select, if_pos hnames]

/-- The rows of a table meet the constraints of another, of which they have these columns. -/
structure Fits (db : SqlDatabase) (t shape : SqlTable) (columns : List String) : Prop where
  old : columns ⊆ t.names
  new : columns ⊆ shape.names
  notNull : ∀ c ∈ shape.columns, c.notNull = true →
    c.name ∈ columns ∧ ∀ row ∈ t.rows, row.cell c.name ≠ .null
  keys : ∀ key ∈ shape.primaryKey :: shape.unique,
    key ⊆ columns ∧ (t.rows.map (shape.keyOf key)).Nodup
  column : ∀ reference, shape.references = some reference → reference.1 ∈ columns
  parents : ∀ row ∈ t.rows, db.hasParent shape row = true

theorem hasParent_eq {row row' : SqlRow}
    (hparent : ∀ reference, t.references = some reference →
      db'.table reference.2.1 = db.table reference.2.1 ∧ row'.cell reference.1 = row.cell reference.1) :
    db'.hasParent t row' = db.hasParent t row := by
  unfold hasParent
  cases hreference : t.references with
  | none => rfl
  | some reference =>
    obtain ⟨htable, hcell⟩ := hparent reference hreference
    dsimp only
    rw [htable, hcell]

/-- A table is replaced when its rows meet the constraints of the new one. -/
theorem rebuild_isSome (hne : name ≠ staged) (ht : db.table name = some t)
    (hstaged : db.table staged = none) (hempty : shape.rows = [])
    (hparent : ∀ reference, shape.references = some reference → reference.2.1 ≠ staged)
    (hfits : db.Fits t shape columns) : (db.rebuild name staged shape columns).isSome := by
  have hcreate : db.createTable staged shape = some (db.setTable staged shape) := by
    rw [createTable, hstaged]
    rfl
  have hselect : (db.setTable staged shape).select name columns
      = some (t.rows.map fun row => row.project columns) := by
    rw [select, table_setTable_ne hne, ht, Option.bind_some, SqlTable.select, if_pos hfits.old]
  have hfold : (t.rows.map fun row => row.project columns).foldlM
      (db.setTable staged shape).insertRow shape
        = some (shape.withRows (t.rows.map fun row => row.project columns)) := by
    refine foldlM_insertRow_of_accepted (fun row' hrow' c hc hnull => ?_) (fun key hkey => ?_)
      fun row' hrow' => ?_
    · obtain ⟨row, hrow, rfl⟩ := List.mem_map.1 hrow'
      obtain ⟨hcolumn, hvalue⟩ := hfits.notNull c hc hnull
      rw [SqlTable.cell_fullRow hfits.new hcolumn]
      exact hvalue row hrow
    · obtain ⟨hcolumns, hnodup⟩ := hfits.keys key hkey
      rw [SqlTable.withRows, hempty, List.nil_append, List.map_map, List.map_map]
      refine (congrArg List.Nodup (List.map_congr_left fun row _ => ?_)).mpr hnodup
      exact SqlTable.keyOf_fullRow hfits.new hcolumns
    · obtain ⟨row, hrow, rfl⟩ := List.mem_map.1 hrow'
      rw [← hfits.parents row hrow]
      refine hasParent_eq fun reference hreference => ⟨?_, ?_⟩
      · exact table_setTable_ne (hparent reference hreference)
      · exact SqlTable.cell_fullRow hfits.new (hfits.column reference hreference)
  let db₂ := (db.setTable staged shape).setTable staged
    (shape.withRows (t.rows.map fun row => row.project columns))
  have hinsert : (db.setTable staged shape).insertSelect staged columns name = some db₂ := by
    rw [insertSelect, table_setTable_self, Option.bind_some, if_pos hfits.new, hselect,
      Option.bind_some, hfold]
    rfl
  have hthere : db₂.table name = some t := by
    rw [table_setTable_ne hne, table_setTable_ne hne, ht]
  let db₃ : SqlDatabase := { db₂ with
    tables := db₂.tables.erase name
    indexes := db₂.indexes.filter fun index => index.2.1 ≠ name }
  have hdrop : db₂.dropTable name = some db₃ := by
    rw [dropTable, hthere]
    rfl
  have hmade : db₃.table staged
      = some (shape.withRows (t.rows.map fun row => row.project columns)) :=
    (AList.lookup_erase_ne (Ne.symm hne)).trans table_setTable_self
  have hgone : db₃.table name = none := AList.lookup_erase _ _
  have hrename : (db₃.renameTable staged name).isSome := by
    rw [renameTable, hmade, hgone]
    rfl
  show (((db.createTable staged shape).bind fun db => (db.insertSelect staged columns name).bind
    fun db => (db.dropTable name).bind fun db => db.renameTable staged name)).isSome
  rw [hcreate, Option.bind_some, hinsert, Option.bind_some, hdrop, Option.bind_some]
  exact hrename

end Select

end SqlDatabase

end GpgFrontend
