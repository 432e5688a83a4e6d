import GpgFrontend.Function.GFKeyDatabaseReads
import GpgFrontend.Function.GFKeyDatabaseSchema

/-!
# Which certificate an identifier names, in the tables as they are stored

`ResolvePrimaryFpr` over tables of any content and of any version of the schema: the two
queries with their comparisons, their join and their order.
-/

namespace GpgFrontend

namespace SqlDatabase

open GFKeyDatabase (cleanId)

variable (db : SqlDatabase)

/-! ## The queries -/

/-- `WHERE fpr = :id OR key_id = :id`. -/
def named (id : QString) (row : SqlRow) : Bool :=
  (row.cell "fpr").sameText (.text id) || (row.cell "key_id").sameText (.text id)

/-- `LEFT JOIN key_metadata k ON k.fpr = s.parent_fpr`: a subkey with `k.has_secret`. -/
def joinParents (keys : List SqlRow) (s : SqlRow) : List (SqlRow × SqlValue) :=
  match keys.filter fun k => (k.cell "fpr").sameText (s.cell "parent_fpr") with
  | [] => [(s, .null)]
  | parents => parents.map fun k => (s, k.cell "has_secret")

/-- `ORDER BY k.has_secret DESC, s.parent_fpr`. -/
def joinedOrder (joined : SqlRow × SqlValue) : (ℕ ×ₗ ℤ ×ₗ List ℕ)ᵒᵈ ×ₗ ℕ ×ₗ ℤ ×ₗ List ℕ :=
  toLex (OrderDual.toDual joined.2.orderKey, (joined.1.cell "parent_fpr").folded.orderKey)

/-- `ResolvePrimaryFpr`: empty for nothing found. -/
def resolvePrimaryFpr (identifier : QString) : QString :=
  let id := cleanId identifier
  if id.isEmpty then []
  else
    -- first, if it is a primary key already
    match (db.select "key_metadata" ["fpr", "key_id"]).bind fun keys => keys.find? (named id) with
    | some k => (k.cell "fpr").toText
    | none =>
      match db.select "subkey_metadata" ["parent_fpr", "fpr", "key_id"],
        db.select "key_metadata" ["fpr", "has_secret"] with
      | some subkeys, some keys =>
        let joined := (subkeys.filter (named id)).flatMap (joinParents keys)
        match (orderBy joinedOrder joined).head? with
        | some first => (first.1.cell "parent_fpr").toText
        | none => []
      | _, _ => []

/-- What is read alike is resolved alike. -/
theorem Kept.resolve {db db' : SqlDatabase} (h : Kept db db') (identifier : QString) :
    db'.resolvePrimaryFpr identifier = db.resolvePrimaryFpr identifier := by
  have hselect : ∀ name chosen, chosen ⊆ ["fpr", "parent_fpr", "key_id", "has_secret"] →
      db'.select name chosen = db.select name chosen := by
    intro name chosen hchosen
    have hsub : ["fpr", "parent_fpr", "key_id", "has_secret"] ⊆ subkeyColumns := by decide
    refine h.alike name chosen (fun c hc => hsub (hchosen hc)) (fun hver => ?_) fun hexpires => ?_
    · exact absurd (hchosen hver) (by decide)
    · exact absurd (hchosen hexpires) (by decide)
  rw [resolvePrimaryFpr, resolvePrimaryFpr, hselect _ _ (by decide), hselect _ _ (by decide),
    hselect _ _ (by decide)]

/-! ## Tables as the application writes them -/

/-- Each fingerprint of a key is there once, is no key ID and has no blanks; a flag is 0 or 1,
or was never set; and a subkey has a certificate. -/
structure KeyTablesOk (db : SqlDatabase) (keys subkeys : SqlTable) : Prop where
  keysThere : db.table "key_metadata" = some keys
  keyColumns : ["fpr", "key_id", "has_secret"] ⊆ keys.names
  subkeysThere : db.table "subkey_metadata" = some subkeys
  subkeyColumns : ["fpr", "parent_fpr", "key_id"] ⊆ subkeys.names
  fprs : ∀ k ∈ keys.rows, ∃ s, k.cell "fpr" = .text s ∧ s ≠ [] ∧ ∀ c ∈ s, isSpaceUnit c = false
  once : (keys.rows.map fun k => (k.cell "fpr").folded).Nodup
  keyIds : ∀ k ∈ keys.rows, ∀ k' ∈ keys.rows,
    (k.cell "key_id").sameText (k'.cell "fpr") = false
  flags : ∀ k ∈ keys.rows, k.cell "has_secret" ∈ [.null, .integer 0, .integer 1]
  parents : ∀ s ∈ subkeys.rows, ∃ k ∈ keys.rows,
    (k.cell "fpr").sameText (s.cell "parent_fpr") = true

section Resolve

variable {db} {keys subkeys : SqlTable} {id identifier : QString}

theorem lowerUnit_upperCaseUnit (c : UInt16) :
    SqlValue.lowerUnit (upperCaseUnit c) = SqlValue.lowerUnit c := by
  by_cases hlower : 97 ≤ c ∧ c ≤ 122
  · have hlow := UInt16.le_iff_toNat_le.mp hlower.1
    have hhigh := UInt16.le_iff_toNat_le.mp hlower.2
    replace hlow : 97 ≤ c.toNat := hlow
    replace hhigh : c.toNat ≤ 122 := hhigh
    rw [← @UInt16.ofNat_toNat c]
    generalize c.toNat = n at hlow hhigh
    interval_cases n <;> rfl
  · rw [upperCaseUnit, if_neg hlower]

/-- A text without blanks is compared as it is when it is cleaned. -/
theorem folded_cleanId {s : QString} (h : ∀ c ∈ s, isSpaceUnit c = false) :
    (SqlValue.text (cleanId s)).folded = (SqlValue.text s).folded := by
  have hclean : cleanId s = s.toUpper := by
    unfold cleanId
    rw [List.filter_eq_self.mpr fun c hc => by rw [h c hc]; rfl]
  rw [hclean, SqlValue.folded, SqlValue.folded, QString.toUpper, List.map_map]
  exact congrArg _ (List.map_congr_left fun c _ => lowerUnit_upperCaseUnit c)

theorem named_project {row : SqlRow} {chosen : List String}
    (h : ["fpr", "key_id"] ⊆ chosen) : named id (row.project chosen) = named id row := by
  rw [named, named, SqlRow.cell_project (h (by decide)), SqlRow.cell_project (h (by decide))]

theorem KeyTablesOk.select_keys (h : KeyTablesOk db keys subkeys) {chosen : List String}
    (hchosen : chosen ⊆ ["fpr", "key_id", "has_secret"]) :
    db.select "key_metadata" chosen = some (keys.rows.map fun row => row.project chosen) := by
  rw [select, h.keysThere, Option.bind_some, SqlTable.select,
    if_pos (show chosen ⊆ keys.names from fun c hc => h.keyColumns (hchosen hc))]

theorem KeyTablesOk.select_subkeys (h : KeyTablesOk db keys subkeys) {chosen : List String}
    (hchosen : chosen ⊆ ["fpr", "parent_fpr", "key_id"]) :
    db.select "subkey_metadata" chosen = some (subkeys.rows.map fun row => row.project chosen) := by
  rw [select, h.subkeysThere, Option.bind_some, SqlTable.select,
    if_pos (show chosen ⊆ subkeys.names from fun c hc => h.subkeyColumns (hchosen hc))]

/-- The first query, over the rows themselves. -/
theorem KeyTablesOk.find_key (h : KeyTablesOk db keys subkeys) :
    ((db.select "key_metadata" ["fpr", "key_id"]).bind fun rows => rows.find? (named id))
      = (keys.rows.find? (named id)).map fun row => row.project ["fpr", "key_id"] := by
  rw [h.select_keys (by decide), Option.bind_some, List.find?_map]
  have hnamed : (named id ∘ fun row : SqlRow => row.project ["fpr", "key_id"]) = named id :=
    funext fun row => named_project (List.Subset.refl _)
  rw [hnamed]

/-- What a key has as its fingerprint or its key ID names a key that has it. -/
theorem resolve_key (h : KeyTablesOk db keys subkeys) (hid : cleanId identifier ≠ [])
    (hkey : ∃ k ∈ keys.rows, named (cleanId identifier) k = true) :
    ∃ k ∈ keys.rows, named (cleanId identifier) k = true ∧
      db.resolvePrimaryFpr identifier = (k.cell "fpr").toText := by
  obtain ⟨k, hk, hnamed⟩ := hkey
  cases hfind : keys.rows.find? (named (cleanId identifier)) with
  | none => exact absurd hnamed (List.find?_eq_none.1 hfind k hk)
  | some first =>
    refine ⟨first, List.mem_of_find?_eq_some hfind, List.find?_some hfind, ?_⟩
    unfold resolvePrimaryFpr
    dsimp only
    rw [if_neg (by simpa using hid), h.find_key, hfind]
    exact congrArg SqlValue.toText (SqlRow.cell_project (by decide))

/-- A stored fingerprint names its own key: no key ID is a fingerprint. -/
theorem resolve_fingerprint (h : KeyTablesOk db keys subkeys) {k : SqlRow} (hk : k ∈ keys.rows) :
    db.resolvePrimaryFpr (k.cell "fpr").toText = (k.cell "fpr").toText := by
  obtain ⟨s, hs, hne, hsolid⟩ := h.fprs k hk
  have hfolded := folded_cleanId hsolid
  have hself : named (cleanId s) k = true := by
    rw [named, hs, SqlValue.sameText_iff.2 ⟨by simp, hfolded.symm⟩, Bool.true_or]
  have hid : cleanId s ≠ [] := by
    intro hnil
    rw [hnil] at hfolded
    cases s with
    | nil => exact hne rfl
    | cons c rest => cases hfolded
  have htext : (k.cell "fpr").toText = s := by rw [hs]; rfl
  rw [htext]
  obtain ⟨first, hfirst, hnamed, hresolve⟩ := resolve_key h hid ⟨k, hk, hself⟩
  have hsame : (first.cell "fpr").folded = (k.cell "fpr").folded := by
    rcases Bool.or_eq_true_iff.1 hnamed with hfpr | hkeyId
    · rw [(SqlValue.sameText_iff.1 hfpr).2, hfolded, hs]
    · have hno := h.keyIds first hfirst k hk
      rw [hs, SqlValue.sameText_iff.2
        ⟨(SqlValue.sameText_iff.1 hkeyId).1, (SqlValue.sameText_iff.1 hkeyId).2.trans hfolded⟩] at hno
      cases hno
  have heq : first = k := List.inj_on_of_nodup_map h.once hfirst hk hsame
  rw [hresolve, heq, htext]

theorem mem_joinParents {rows : List SqlRow} {s : SqlRow} {joined : SqlRow × SqlValue}
    (h : ∃ k ∈ rows, (k.cell "fpr").sameText (s.cell "parent_fpr") = true) :
    joined ∈ joinParents rows s ↔ ∃ k ∈ rows,
      (k.cell "fpr").sameText (s.cell "parent_fpr") = true ∧ joined = (s, k.cell "has_secret") := by
  obtain ⟨k, hk, hsame⟩ := h
  have hmem : k ∈ rows.filter fun k => (k.cell "fpr").sameText (s.cell "parent_fpr") :=
    List.mem_filter.2 ⟨hk, hsame⟩
  unfold joinParents
  split
  · next hnil => rw [hnil] at hmem; cases hmem
  · rw [List.mem_map]
    constructor
    · rintro ⟨p, hp, rfl⟩
      obtain ⟨hrow, hparent⟩ := List.mem_filter.1 hp
      exact ⟨p, hrow, hparent, rfl⟩
    · rintro ⟨p, hrow, hparent, rfl⟩
      exact ⟨p, List.mem_filter.2 ⟨hrow, hparent⟩, rfl⟩

/-- The rows of the second query: subkeys of the identifier, each with its certificate. -/
theorem mem_joined (h : KeyTablesOk db keys subkeys) {joined : SqlRow × SqlValue} :
    joined ∈ ((subkeys.rows.map fun row => row.project ["parent_fpr", "fpr", "key_id"]).filter
        (named id)).flatMap
          (joinParents (keys.rows.map fun row => row.project ["fpr", "has_secret"])) ↔
      ∃ s ∈ subkeys.rows, ∃ k ∈ keys.rows, named id s = true ∧
        (k.cell "fpr").sameText (s.cell "parent_fpr") = true ∧
        joined = (s.project ["parent_fpr", "fpr", "key_id"], k.cell "has_secret") := by
  have hfpr : ∀ row : SqlRow, (row.project ["fpr", "has_secret"]).cell "fpr" = row.cell "fpr" :=
    fun row => SqlRow.cell_project (by decide)
  have hsecret : ∀ row : SqlRow,
      (row.project ["fpr", "has_secret"]).cell "has_secret" = row.cell "has_secret" :=
    fun row => SqlRow.cell_project (by decide)
  have hparent : ∀ row : SqlRow,
      (row.project ["parent_fpr", "fpr", "key_id"]).cell "parent_fpr" = row.cell "parent_fpr" :=
    fun row => SqlRow.cell_project (by decide)
  have hnamed : ∀ row : SqlRow,
      named id (row.project ["parent_fpr", "fpr", "key_id"]) = named id row :=
    fun row => named_project (by decide)
  have hparents : ∀ s ∈ subkeys.rows, ∃ k ∈ keys.rows.map fun row => row.project ["fpr", "has_secret"],
      (k.cell "fpr").sameText
        ((s.project ["parent_fpr", "fpr", "key_id"]).cell "parent_fpr") = true := by
    intro s hs
    obtain ⟨k, hk, hsame⟩ := h.parents s hs
    exact ⟨_, List.mem_map_of_mem hk, by rw [hfpr, hparent]; exact hsame⟩
  rw [List.mem_flatMap]
  constructor
  · rintro ⟨row, hrow, hjoined⟩
    obtain ⟨hmem, hname⟩ := List.mem_filter.1 hrow
    obtain ⟨s, hs, rfl⟩ := List.mem_map.1 hmem
    obtain ⟨p, hp, hsame, rfl⟩ := (mem_joinParents (hparents s hs)).1 hjoined
    obtain ⟨k, hk, rfl⟩ := List.mem_map.1 hp
    rw [hfpr, hparent] at hsame
    exact ⟨s, hs, k, hk, (hnamed s) ▸ hname, hsame, by rw [hsecret]⟩
  · rintro ⟨s, hs, k, hk, hname, hsame, rfl⟩
    refine ⟨_, List.mem_filter.2 ⟨List.mem_map_of_mem hs, (hnamed s).trans hname⟩, ?_⟩
    refine (mem_joinParents (hparents s hs)).2 ⟨_, List.mem_map_of_mem hk, ?_, ?_⟩
    · rw [hfpr, hparent]
      exact hsame
    · rw [hsecret]

/-- What no key has as its fingerprint or its key ID, and a subkey has, names a certificate of
such a subkey: one with a secret key, if there is one. -/
theorem resolve_subkey (h : KeyTablesOk db keys subkeys) (hid : cleanId identifier ≠ [])
    (hkeys : ∀ k ∈ keys.rows, named (cleanId identifier) k = false)
    (hsubkey : ∃ s ∈ subkeys.rows, named (cleanId identifier) s = true) :
    ∃ s ∈ subkeys.rows, ∃ k ∈ keys.rows, named (cleanId identifier) s = true ∧
      (k.cell "fpr").sameText (s.cell "parent_fpr") = true ∧
      db.resolvePrimaryFpr identifier = (s.cell "parent_fpr").toText ∧
      ∀ t ∈ subkeys.rows, ∀ p ∈ keys.rows, named (cleanId identifier) t = true →
        (p.cell "fpr").sameText (t.cell "parent_fpr") = true →
        p.cell "has_secret" = .integer 1 → k.cell "has_secret" = .integer 1 := by
  have hfind : keys.rows.find? (named (cleanId identifier)) = none :=
    List.find?_eq_none.2 fun k hk => by rw [hkeys k hk]; exact Bool.false_ne_true
  obtain ⟨s₀, hs₀, hname₀⟩ := hsubkey
  obtain ⟨k₀, hk₀, hsame₀⟩ := h.parents s₀ hs₀
  have hjoined₀ := (mem_joined h).2 ⟨s₀, hs₀, k₀, hk₀, hname₀, hsame₀, rfl⟩
  obtain ⟨first, hfirst, hhead, hleast⟩ := head_orderBy joinedOrder (List.ne_nil_of_mem hjoined₀)
  obtain ⟨s, hs, k, hk, hname, hsame, rfl⟩ := (mem_joined h).1 hfirst
  refine ⟨s, hs, k, hk, hname, hsame, ?_, fun t ht p hp htname htsame hsecret => ?_⟩
  · unfold resolvePrimaryFpr
    dsimp only
    rw [if_neg (by simpa using hid), h.find_key, hfind, Option.map_none,
      h.select_subkeys (by decide), h.select_keys (by decide)]
    dsimp only
    rw [hhead]
    exact congrArg SqlValue.toText (SqlRow.cell_project (by decide))
  · -- the flag of the first row is the largest one
    have hle := Prod.Lex.monotone_fst _ _
      (hleast _ ((mem_joined h).2 ⟨t, ht, p, hp, htname, htsame, rfl⟩))
    replace hle : (p.cell "has_secret").orderKey ≤ (k.cell "has_secret").orderKey := hle
    rw [hsecret] at hle
    have hflag := h.flags k hk
    simp only [List.mem_cons, List.not_mem_nil, or_false] at hflag
    rcases hflag with hflag | hflag | hflag
    · rw [hflag] at hle
      exact absurd hle (by decide)
    · rw [hflag] at hle
      exact absurd hle (by decide)
    · exact hflag

end Resolve

/-! ## In every state, and through every migration -/

/-- What an identifier names: a fingerprint its own key; what a key has, a key that has it; and
what only subkeys have, a certificate that carries one, with a secret key if one of them has. -/
structure Resolves (db : SqlDatabase) (keys subkeys : SqlTable) : Prop where
  fingerprint : ∀ k ∈ keys.rows,
    db.resolvePrimaryFpr (k.cell "fpr").toText = (k.cell "fpr").toText
  key : ∀ identifier, cleanId identifier ≠ [] →
    (∃ k ∈ keys.rows, named (cleanId identifier) k = true) →
    ∃ k ∈ keys.rows, named (cleanId identifier) k = true ∧
      db.resolvePrimaryFpr identifier = (k.cell "fpr").toText
  subkey : ∀ identifier, cleanId identifier ≠ [] →
    (∀ k ∈ keys.rows, named (cleanId identifier) k = false) →
    (∃ s ∈ subkeys.rows, named (cleanId identifier) s = true) →
    ∃ s ∈ subkeys.rows, ∃ k ∈ keys.rows, named (cleanId identifier) s = true ∧
      (k.cell "fpr").sameText (s.cell "parent_fpr") = true ∧
      db.resolvePrimaryFpr identifier = (s.cell "parent_fpr").toText ∧
      ∀ t ∈ subkeys.rows, ∀ p ∈ keys.rows, named (cleanId identifier) t = true →
        (p.cell "fpr").sameText (t.cell "parent_fpr") = true →
        p.cell "has_secret" = .integer 1 → k.cell "has_secret" = .integer 1

/-- What an identifier names in a database of any version; that a migration, however far it
gets, changes no row and no such answer; and that one of an older schema gets to the latest. -/
theorem resolution_and_migration (db : SqlDatabase) :
    (∀ keys subkeys, KeyTablesOk db keys subkeys → Resolves db keys subkeys) ∧
    (1 ≤ db.userVersion ∧ db.userVersion ≤ 3 →
      Kept db db.ensureSchema.2 ∧
      (∀ identifier, db.ensureSchema.2.resolvePrimaryFpr identifier
        = db.resolvePrimaryFpr identifier) ∧
      ∀ keys subkeys, OldKeyDatabase db keys subkeys (pendingColumns db.userVersion) →
        db.ensureSchema.1 = true ∧ db.ensureSchema.2.userVersion = 4 ∧
          HasLatestSubkeys db.ensureSchema.2) := by
  refine ⟨fun keys subkeys h => ?_, fun hversion => ?_⟩
  · exact ⟨fun k hk => resolve_fingerprint h hk, fun _ hid hkey => resolve_key h hid hkey,
      fun _ hid hkeys hsubkey => resolve_subkey h hid hkeys hsubkey⟩
  · have hkept : Kept db db.ensureSchema.2 := ensureSchema_keeps (by omega)
    refine ⟨hkept, hkept.resolve, fun keys subkeys hold => ?_⟩
    obtain ⟨db', hensure, hlatest⟩ := ensureSchema_succeeds hversion hold
    rw [hensure]
    exact ⟨rfl, hlatest⟩

section Sample

/-- A row of a key, or of a subkey. -/
def sampleKeyRow (fpr keyId : QString) (hasSecret : Int) : SqlRow :=
  [("fpr", .text fpr), ("key_id", .text keyId), ("has_secret", .integer hasSecret)]

def sampleSubkeyRow (fpr parentFpr keyId : QString) : SqlRow :=
  [("fpr", .text fpr), ("parent_fpr", .text parentFpr), ("key_id", .text keyId)]

/-- The columns of the first version. -/
def firstColumns (t : SqlTable) : List SqlColumn :=
  t.columns.filter fun c => c.name ∉ pendingColumns 1

/-- Two keys, the second with a secret. -/
def sampleKeys : SqlTable :=
  { keyMetadataTable with
    columns := firstColumns keyMetadataTable
    rows := [sampleKeyRow [0x41, 0x31] [0x31] 0, sampleKeyRow [0x42, 0x32] [0x32] 1] }

def sampleDatabase (version : Int) (subkeys : SqlTable) : SqlDatabase where
  tables := (AList.singleton "key_metadata" sampleKeys).insert "subkey_metadata" subkeys
  userVersion := version

theorem sampleDatabase_ok (version : Int) {subkeys : SqlTable}
    (hcolumns : ["fpr", "parent_fpr", "key_id"] ⊆ subkeys.names)
    (hparents : ∀ s ∈ subkeys.rows, ∃ k ∈ sampleKeys.rows,
      (k.cell "fpr").sameText (s.cell "parent_fpr") = true) :
    KeyTablesOk (sampleDatabase version subkeys) sampleKeys subkeys where
  keysThere := rfl
  keyColumns := by decide
  subkeysThere := rfl
  subkeyColumns := hcolumns
  fprs k hk := by
    simp only [sampleKeys, List.mem_cons, List.not_mem_nil, or_false] at hk
    rcases hk with rfl | rfl
    · exact ⟨[0x41, 0x31], rfl, by decide,
        List.forall_mem_cons.2 ⟨by decide, List.forall_mem_singleton.2 (by decide)⟩⟩
    · exact ⟨[0x42, 0x32], rfl, by decide,
        List.forall_mem_cons.2 ⟨by decide, List.forall_mem_singleton.2 (by decide)⟩⟩
  once := by decide
  keyIds := by decide
  flags := by decide
  parents := hparents

/-- A subkey of the second key, in the schema of the first version. -/
def firstSubkeys : SqlTable :=
  { subkeyMetadataTable with
    columns := firstColumns subkeyMetadataTable
    primaryKey := ["fpr"]
    rows := [sampleSubkeyRow [0x43, 0x33] [0x42, 0x32] [0x33]] }

theorem firstSubkeys_old :
    OldKeyDatabase (sampleDatabase 1 firstSubkeys) sampleKeys firstSubkeys (pendingColumns 1) where
  noCase := by decide
  columns := by decide
  shaped row hrow c hc := by
    obtain rfl : row = sampleSubkeyRow [0x43, 0x33] [0x42, 0x32] [0x33] := by
      simpa [firstSubkeys] using hrow
    have hnames : "fpr" ∈ firstSubkeys.names ∧ "parent_fpr" ∈ firstSubkeys.names ∧
        "key_id" ∈ firstSubkeys.names := by decide
    have hfpr : (c == "fpr") = false := beq_false_of_ne fun heq => hc (heq ▸ hnames.1)
    have hparent : (c == "parent_fpr") = false := beq_false_of_ne fun heq => hc (heq ▸ hnames.2.1)
    have hkeyId : (c == "key_id") = false := beq_false_of_ne fun heq => hc (heq ▸ hnames.2.2)
    rw [sampleSubkeyRow, List.lookup_cons, hfpr, List.lookup_cons, hparent, List.lookup_cons,
      hkeyId]
    rfl
  notNull := by decide
  version h := absurd h (by decide)
  primaryKey := .inl rfl
  once := by decide
  parents := by decide
  keysThere := rfl
  subkeysThere := rfl
  notStaged := by decide

theorem firstSubkeys_migrated :
    Resolves (sampleDatabase 1 firstSubkeys) sampleKeys firstSubkeys ∧
    (sampleDatabase 1 firstSubkeys).ensureSchema.1 = true ∧
    (sampleDatabase 1 firstSubkeys).ensureSchema.2.userVersion = 4 :=
  have hok := sampleDatabase_ok 1 (by decide) (by decide)
  have hold := ((resolution_and_migration (sampleDatabase 1 firstSubkeys)).2 (by decide)).2.2
    sampleKeys firstSubkeys firstSubkeys_old
  ⟨(resolution_and_migration (sampleDatabase 1 firstSubkeys)).1 sampleKeys firstSubkeys hok,
    hold.1, hold.2.1⟩

/-- The second key claims the first as its subkey. -/
def claimedSubkeys : SqlTable :=
  { subkeyMetadataTable with rows := [sampleSubkeyRow [0x41, 0x31] [0x42, 0x32] [0x31]] }

/-- The identifier of a subkey whose certificate has a secret key names one that has none: the
subkey is a primary key too. -/
theorem claimed_primary_names_itself :
    KeyTablesOk (sampleDatabase 4 claimedSubkeys) sampleKeys claimedSubkeys ∧
    ¬ ∀ s ∈ claimedSubkeys.rows, ∀ k ∈ sampleKeys.rows,
      (k.cell "fpr").sameText (s.cell "parent_fpr") = true → k.cell "has_secret" = .integer 1 →
      ∃ p ∈ sampleKeys.rows,
        (sampleDatabase 4 claimedSubkeys).resolvePrimaryFpr (s.cell "fpr").toText
          = (p.cell "fpr").toText ∧ p.cell "has_secret" = .integer 1 := by
  refine ⟨sampleDatabase_ok 4 (by decide) (by decide), ?_⟩
  decide

end Sample

end SqlDatabase

end GpgFrontend
