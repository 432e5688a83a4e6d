import GpgFrontend.Utils.KeyDatabaseNumbering

/-!
# Reconciling the list of key databases

- `Passes`: what the passes before the numbering do to an entry, each in one lemma
  (`reanchor_cases`, `resolveKind_spec`, `adopt_spec`), and to a list (`kept_eq`).
- `KeyDatabaseListOk`, `listOk_iff`: the result is well formed exactly when the channels fit.
- `reconcile_wellFormed_iff`: **the result is well formed and a second pass leaves it alone
  exactly when** the channels fit, a seeded database is spelled the way a read spells it,
  and DEFAULT agrees with this computer's own (`ReconcilesCleanly`).
-/

namespace GpgFrontend

/-! ## Passes -/

/-- What the last two passes leave of an entry: all but its channel and its id. -/
def KeyDatabaseItemSO.face (x : KeyDatabaseItemSO) :
    QString × QString × QString × Option KeyDatabaseKind :=
  (x.name, x.path, x.backendType, x.kind)

/-- At most one entry has the reserved name. -/
def defaultCount (items : List KeyDatabaseItemSO) : Nat :=
  items.countP fun x => isReservedKeyDatabaseName x.name

theorem defaultCount_eq_of_face {items items' : List KeyDatabaseItemSO}
    (h : items.map (·.face) = items'.map (·.face)) : defaultCount items = defaultCount items' := by
  have hcount : ∀ items : List KeyDatabaseItemSO, defaultCount items =
      (items.map (·.face)).countP fun f => isReservedKeyDatabaseName f.1 := by
    intro items
    rw [List.countP_map]
    rfl
  rw [hcount, hcount, h]

theorem defaultCount_drop (items : List KeyDatabaseItemSO) :
    defaultCount (dropDuplicateDefaultKeyDatabases items) ≤ 1 := by
  have hdrop : ∀ (items : List KeyDatabaseItemSO) (seen : Bool),
      defaultCount (dropDefaultsAfter seen items) ≤ if seen then 0 else 1 := by
    intro items
    induction items with
    | nil => exact fun _ => Nat.zero_le _
    | cons item rest ih =>
      intro seen
      rw [dropDefaultsAfter]
      split
      · next hname =>
        have hcons : defaultCount (item :: dropDefaultsAfter seen rest) =
            defaultCount (dropDefaultsAfter seen rest) :=
          List.countP_cons_of_neg (by simpa using hname)
        rw [hcons]
        exact ih seen
      · next hname =>
        split
        · next hseen =>
          have hzero := ih seen
          rw [if_pos hseen] at hzero
          exact hzero
        · have hcons : defaultCount (item :: dropDefaultsAfter true rest) =
              defaultCount (dropDefaultsAfter true rest) + 1 :=
            List.countP_cons_of_pos (by simpa using hname)
          have hzero := ih true
          rw [if_pos rfl] at hzero
          rw [hcons]
          omega
  exact hdrop items false

theorem drop_of_defaultCount {items : List KeyDatabaseItemSO} (h : defaultCount items ≤ 1) :
    dropDuplicateDefaultKeyDatabases items = items := by
  have hdrop : ∀ (items : List KeyDatabaseItemSO) (seen : Bool),
      defaultCount items ≤ (if seen then 0 else 1) → dropDefaultsAfter seen items = items := by
    intro items
    induction items with
    | nil => exact fun _ _ => rfl
    | cons item rest ih =>
      intro seen hcount
      rw [dropDefaultsAfter]
      split
      · next hname =>
        have hcons : defaultCount (item :: rest) = defaultCount rest :=
          List.countP_cons_of_neg (by simpa using hname)
        rw [ih seen (hcons ▸ hcount)]
      · next hname =>
        have hcons : defaultCount (item :: rest) = defaultCount rest + 1 :=
          List.countP_cons_of_pos (by simpa using hname)
        rw [hcons] at hcount
        cases seen with
        | true =>
          rw [if_pos rfl] at hcount
          omega
        | false =>
          rw [if_neg Bool.false_ne_true] at hcount
          rw [if_neg Bool.false_ne_true, ih true (by rw [if_pos rfl]; omega)]
  exact hdrop items false h

theorem isProfileRelative_parent (tail : QString) :
    isProfileRelativeKeyDatabasePath (profilePathPrefix ++ tail) = true := by
  unfold isProfileRelativeKeyDatabasePath
  rw [Bool.or_eq_true]
  exact Or.inr (List.isPrefixOf_iff_prefix.mpr (List.prefix_append _ _))

section Reanchor

variable {fs : ProfileFs} {path root : QString}

theorem reanchor_of_relative (h : isProfileRelativeKeyDatabasePath path = true) :
    fs.reanchorKeyDatabasePath path root = path := by
  unfold ProfileFs.reanchorKeyDatabasePath
  rw [if_pos h, ite_self]

/-- A path is left as it is or spelled against the profile. -/
theorem reanchor_cases (fs : ProfileFs) (path root : QString) :
    fs.reanchorKeyDatabasePath path root = path ∨
    isProfileRelativeKeyDatabasePath (fs.reanchorKeyDatabasePath path root) = true := by
  unfold ProfileFs.reanchorKeyDatabasePath
  split
  · exact Or.inl rfl
  · split
    · exact Or.inl rfl
    · dsimp only
      split
      · next h => exact Or.inr h
      · split
        · exact Or.inl rfl
        · split
          · exact Or.inl rfl
          · split
            · exact Or.inl rfl
            · exact Or.inr (isProfileRelative_parent _)

theorem reanchor_reanchor (fs : ProfileFs) (path root : QString) :
    fs.reanchorKeyDatabasePath (fs.reanchorKeyDatabasePath path root) root =
      fs.reanchorKeyDatabasePath path root := by
  rcases reanchor_cases fs path root with h | h
  · rw [h, h]
  · exact reanchor_of_relative h

theorem reanchor_ne_nil (h : path ≠ []) : fs.reanchorKeyDatabasePath path root ≠ [] := by
  rcases reanchor_cases fs path root with heq | hrel
  · rw [heq]
    exact h
  · intro hnil
    rw [hnil] at hrel
    cases hrel

end Reanchor

/-- The kind agrees with the name about which entry is DEFAULT. -/
def HasSettledKind (x : KeyDatabaseItemSO) : Prop :=
  x.kind ≠ none ∧ (x.kind = some .default ↔ isReservedKeyDatabaseName x.name = true)

theorem classify_ne_default {fs : ProfileFs} {name path root : QString}
    (h : isReservedKeyDatabaseName name = false) :
    fs.classifyKeyDatabase name path root ≠ .default := by
  unfold ProfileFs.classifyKeyDatabase
  rw [h, if_neg Bool.false_ne_true]
  split
  · simp
  · dsimp only
    split
    · simp
    · split <;> simp

/-- All that `ResolveKeyDatabaseKinds` does to an entry. -/
theorem resolveKind_spec (fs : ProfileFs) (root : QString) (x : KeyDatabaseItemSO) :
    ∃ kind, fs.resolveKind root x = { x with kind := some kind } ∧
      (kind = .default ↔ isReservedKeyDatabaseName x.name = true) := by
  unfold ProfileFs.resolveKind
  cases hname : isReservedKeyDatabaseName x.name with
  | true => exact ⟨.default, by rw [if_pos rfl], by simp⟩
  | false =>
    rw [if_neg Bool.false_ne_true]
    split
    · exact ⟨_, rfl, by simpa using classify_ne_default hname⟩
    · exact ⟨_, rfl, by simpa using classify_ne_default hname⟩
    · next kind hnot hkind =>
      refine ⟨kind, ?_, ?_⟩
      · rw [← hkind]
      · cases kind with
        | default => simp at hnot
        | managed => simp
        | external => simp

theorem resolveKind_settled {fs : ProfileFs} {root : QString} {x : KeyDatabaseItemSO}
    (h : HasSettledKind x) : fs.resolveKind root x = x := by
  obtain ⟨hsome, hdef⟩ := h
  unfold ProfileFs.resolveKind
  split
  · next hname => rw [← hdef.mpr hname]
  · next hname =>
    split
    · next hkind => exact absurd hkind hsome
    · next hkind => exact absurd (hdef.mp hkind) hname
    · rfl

/-! ### The local DEFAULT -/

theorem not_reserved_of_head {a : UInt16} {t : QString} (hspace : isSpaceUnit a = false)
    (hfold : foldCaseUnit a ≠ 100) : isReservedKeyDatabaseName (a :: t) = false := by
  have htrim : QString.trimmed (a :: t) = (a :: t).rdropWhile isSpaceUnit := by
    unfold QString.trimmed List.rdropWhile
    rw [List.dropWhile_cons_of_neg (by simp [hspace])]
  unfold isReservedKeyDatabaseName
  rw [decide_eq_false_iff_not, htrim]
  intro h
  obtain ⟨rest, hrest⟩ := List.rdropWhile_prefix isSpaceUnit (a :: t)
  cases hcut : (a :: t).rdropWhile isSpaceUnit with
  | nil =>
    rw [hcut] at h
    cases h
  | cons b u =>
    rw [hcut] at h hrest
    have hba : b = a := (List.cons.inj hrest).1
    have hb : foldCaseUnit b = 100 := (List.cons.inj h).1
    exact hfold (hba ▸ hb)

theorem carriedName_not_reserved (databases : List KeyDatabaseItemSO) :
    isReservedKeyDatabaseName (carriedName databases) = false ∧ carriedName databases ≠ [] := by
  obtain ⟨j, hj⟩ :=
    (unusedNameFrom_spec databases [114, 80, 71, 80] (databases.length + 1) 0).1
  have hhead : ∃ t, triedName [114, 80, 71, 80] j = 114 :: t := by
    cases j with
    | zero => exact ⟨_, rfl⟩
    | succ j => exact ⟨_, rfl⟩
  obtain ⟨t, ht⟩ := hhead
  have hname : carriedName databases = 114 :: t := hj.trans ht
  rw [hname]
  exact ⟨not_reserved_of_head rfl (by decide), List.cons_ne_nil _ _⟩

theorem adoptItem_name (localPath localBackend : QString) (x : KeyDatabaseItemSO) :
    (adoptItem localPath localBackend x).name = x.name := by
  unfold adoptItem
  split <;> rfl

theorem adoptItem_id (localPath localBackend : QString) (x : KeyDatabaseItemSO) :
    (adoptItem localPath localBackend x).id = x.id := by
  unfold adoptItem
  split <;> rfl

/-- After it, DEFAULT is where this computer's own is. -/
theorem adoptItem_path {localPath localBackend : QString} {x : KeyDatabaseItemSO}
    (h : isReservedKeyDatabaseName x.name = true) :
    (adoptItem localPath localBackend x).path = localPath := by
  unfold adoptItem isForeignDefault
  split
  · rfl
  · next hnot =>
    rw [h, Bool.true_and, decide_eq_true_eq, not_not] at hnot
    exact hnot

/-- All that `AdoptLocalDefaultKeyDatabase` does: entries are adopted in place, and a
keyring that DEFAULT moves away from may be added. -/
theorem adopt_spec (fs : ProfileFs) (databases : List KeyDatabaseItemSO)
    {localPath : QString} (localBackend root : QString) (hlocal : localPath ≠ []) :
    (databases.filter (carriesKeyring fs databases localPath root) = [] ∧
      adoptLocalDefaultKeyDatabase fs databases localPath localBackend root =
        databases.map (adoptItem localPath localBackend)) ∨
    (databases.filter (carriesKeyring fs databases localPath root) ≠ [] ∧
      ∃ carried : KeyDatabaseItemSO, carried.id = [] ∧ carried.name ≠ [] ∧ carried.path ≠ [] ∧
        isReservedKeyDatabaseName carried.name = false ∧
        adoptLocalDefaultKeyDatabase fs databases localPath localBackend root =
          databases.map (adoptItem localPath localBackend) ++ [carried]) := by
  unfold adoptLocalDefaultKeyDatabase
  rw [if_neg hlocal]
  dsimp only
  cases hlast : (databases.filter (carriesKeyring fs databases localPath root)).getLast? with
  | none => exact Or.inl ⟨List.getLast?_eq_none_iff.mp hlast, rfl⟩
  | some item =>
    obtain ⟨hfree, hne⟩ := carriedName_not_reserved databases
    have hmem := List.mem_of_getLast? hlast
    refine Or.inr ⟨List.ne_nil_of_mem hmem, _, rfl, hne, ?_, hfree, rfl⟩
    have hcarries := (List.mem_filter.mp hmem).2
    unfold carriesKeyring at hcarries
    simp only [Bool.and_eq_true] at hcarries
    intro hnil
    replace hnil : item.path = [] := hnil
    rw [hnil] at hcarries
    exact absurd hcarries.1.1.2 (by decide)

namespace ReconcileInputs

variable (c : ReconcileInputs)

/-- The entries that the first two passes leave and that name something. -/
def candidates (stored : List KeyDatabaseItemSO) : List KeyDatabaseItemSO :=
  (c.adopted stored).filter fun item => !item.path.isEmpty && !item.name.isEmpty

/-- What becomes of one of them. -/
def settle (item : KeyDatabaseItemSO) : KeyDatabaseItemSO :=
  c.reanchor (c.fs.resolveKind c.appDataPath item)

theorem settle_spec (item : KeyDatabaseItemSO) :
    ∃ kind, c.settle item = { item with
        kind := some kind
        path := c.fs.reanchorKeyDatabasePath item.path c.profileRoot } ∧
      (kind = .default ↔ isReservedKeyDatabaseName item.name = true) := by
  obtain ⟨kind, heq, hkind⟩ := resolveKind_spec c.fs c.appDataPath item
  refine ⟨kind, ?_, hkind⟩
  unfold settle reanchor
  rw [heq]

theorem kept_eq (stored : List KeyDatabaseItemSO) :
    c.kept stored = (c.candidates stored).map c.settle := by
  unfold kept candidates ProfileFs.resolveKeyDatabaseKinds
  rw [List.filter_map, List.map_map]
  have hfilter : ((fun item : KeyDatabaseItemSO => !item.path.isEmpty && !item.name.isEmpty) ∘
      c.fs.resolveKind c.appDataPath) = fun item => !item.path.isEmpty && !item.name.isEmpty := by
    funext item
    obtain ⟨kind, heq, -⟩ := resolveKind_spec c.fs c.appDataPath item
    show (!(c.fs.resolveKind c.appDataPath item).path.isEmpty &&
      !(c.fs.resolveKind c.appDataPath item).name.isEmpty) = _
    rw [heq]
  rw [hfilter]
  rfl

theorem defaultCount_adopted (stored : List KeyDatabaseItemSO) :
    defaultCount (c.adopted stored) ≤ 1 := by
  have hdrop := defaultCount_drop stored
  unfold adopted
  by_cases hlocal : c.localDefault.path = []
  · unfold adoptLocalDefaultKeyDatabase
    rw [if_pos hlocal]
    exact hdrop
  · have hmap : defaultCount ((dropDuplicateDefaultKeyDatabases stored).map
        (adoptItem c.localDefault.path c.localDefault.backendType)) =
        defaultCount (dropDuplicateDefaultKeyDatabases stored) := by
      unfold defaultCount
      rw [List.countP_map]
      congr 1
      funext x
      show isReservedKeyDatabaseName (adoptItem _ _ x).name = _
      rw [adoptItem_name]
    rcases adopt_spec c.fs (dropDuplicateDefaultKeyDatabases stored)
        c.localDefault.backendType c.profileRoot hlocal with
      ⟨-, heq⟩ | ⟨-, carried, -, -, -, hname, heq⟩
    · rw [heq, hmap]
      exact hdrop
    · rw [heq]
      unfold defaultCount at hmap ⊢
      rw [List.countP_append, hmap, List.countP_singleton, hname]
      exact hdrop

/-- DEFAULT is where this computer's own is, when the engine names one. -/
theorem adopted_path {stored : List KeyDatabaseItemSO} {x : KeyDatabaseItemSO}
    (hx : x ∈ c.adopted stored) (hname : isReservedKeyDatabaseName x.name = true)
    (hlocal : c.localDefault.path ≠ []) : x.path = c.localDefault.path := by
  have hmapped : x ∈ (dropDuplicateDefaultKeyDatabases stored).map
      (adoptItem c.localDefault.path c.localDefault.backendType) → x.path = c.localDefault.path := by
    intro hmem
    obtain ⟨y, -, rfl⟩ := List.mem_map.mp hmem
    rw [adoptItem_name] at hname
    exact adoptItem_path hname
  unfold adopted at hx
  rcases adopt_spec c.fs (dropDuplicateDefaultKeyDatabases stored)
      c.localDefault.backendType c.profileRoot hlocal with
    ⟨-, heq⟩ | ⟨-, carried, -, -, -, hfree, heq⟩
  · rw [heq] at hx
    exact hmapped hx
  · rw [heq] at hx
    rcases List.mem_append.mp hx with hx | hx
    · exact hmapped hx
    · rw [List.mem_singleton.mp hx, hfree] at hname
      cases hname

theorem dropDefaultsAfter_subset (seen : Bool) (items : List KeyDatabaseItemSO) :
    dropDefaultsAfter seen items ⊆ items := by
  induction items generalizing seen with
  | nil => exact fun _ h => h
  | cons item rest ih =>
    rw [dropDefaultsAfter]
    split
    · exact List.cons_subset_cons _ (ih seen)
    · split
      · exact List.subset_cons_of_subset _ (ih seen)
      · exact List.cons_subset_cons _ (ih true)

/-- An id comes from the stored list, or there is none yet. -/
theorem adopted_id {stored : List KeyDatabaseItemSO} {x : KeyDatabaseItemSO}
    (hx : x ∈ c.adopted stored) : x.id = [] ∨ ∃ y ∈ stored, x.id = y.id := by
  have hsub := dropDefaultsAfter_subset false stored
  have hmapped : x ∈ (dropDuplicateDefaultKeyDatabases stored).map
      (adoptItem c.localDefault.path c.localDefault.backendType) →
      ∃ y ∈ stored, x.id = y.id := by
    intro hmem
    obtain ⟨y, hy, rfl⟩ := List.mem_map.mp hmem
    exact ⟨y, hsub hy, adoptItem_id _ _ y⟩
  unfold adopted at hx
  by_cases hlocal : c.localDefault.path = []
  · unfold adoptLocalDefaultKeyDatabase at hx
    rw [if_pos hlocal] at hx
    exact Or.inr ⟨x, hsub hx, rfl⟩
  · rcases adopt_spec c.fs (dropDuplicateDefaultKeyDatabases stored)
        c.localDefault.backendType c.profileRoot hlocal with
      ⟨-, heq⟩ | ⟨-, carried, hid, -, -, -, heq⟩
    · rw [heq] at hx
      exact Or.inr (hmapped hx)
    · rw [heq] at hx
      rcases List.mem_append.mp hx with hx | hx
      · exact Or.inr (hmapped hx)
      · rw [List.mem_singleton.mp hx]
        exact Or.inl hid

end ReconcileInputs

/-! ## The result -/

/-- What the list is said to be: never empty, its channels ascending and not negative, its
ids distinct, and DEFAULT in it at most once. -/
structure KeyDatabaseListOk (items : List KeyDatabaseItemSO) : Prop where
  nonempty : items ≠ []
  ascending : AscendingChannels items
  nonneg : ∀ x ∈ items, 0 ≤ x.channel
  ids : (items.map (·.id)).Nodup
  oneDefault : defaultCount items ≤ 1

/-- The fallback names a database: this computer's DEFAULT where the engine has one. -/
structure SeedsDefault (c : ReconcileInputs) : Prop where
  name : c.fallback.name = defaultKeyDatabaseName
  kind : c.fallback.kind = some .default
  channel : c.fallback.channel = 0
  path : c.fallback.path ≠ []
  local_ : c.localDefault.path ≠ [] → c.fallback.path = c.localDefault.path

/-- As the caller makes it. -/
theorem makeDefault_seeds (fs : ProfileFs) (engine : EngineState) (root appDataPath : QString) :
    SeedsDefault ⟨fs, defaultKeyDatabaseCandidate fs engine appDataPath,
      makeDefaultKeyDatabaseItem fs engine appDataPath, root, appDataPath⟩ := by
  have hrecorded : ∀ path : QString, path ≠ [] → fs.recordedPath engine appDataPath path ≠ [] := by
    intro path hpath
    unfold ProfileFs.recordedPath ProfileFs.toProfileRelativeKeyDatabasePath
    split
    · dsimp only
      split
      · decide
      · split
        · exact hpath
        · exact fun h => absurd (List.append_eq_nil_iff.mp h).1 (by decide)
    · exact hpath
  by_cases hpath : (defaultKeyDatabaseCandidate fs engine appDataPath).path = []
  · have hmake : makeDefaultKeyDatabaseItem fs engine appDataPath =
        { defaultKeyDatabaseCandidate fs engine appDataPath with
          path := fs.recordedPath engine appDataPath
            (appDataPath ++ [0x2F, 114, 112, 103, 112, 95, 100, 98]) } := by
      unfold makeDefaultKeyDatabaseItem
      dsimp only
      rw [if_neg (by simpa using hpath)]
    rw [hmake]
    refine ⟨rfl, rfl, rfl, hrecorded _ ?_, fun h => absurd hpath h⟩
    exact fun h => absurd (List.append_eq_nil_iff.mp h).2 (by decide)
  · have hmake : makeDefaultKeyDatabaseItem fs engine appDataPath =
        defaultKeyDatabaseCandidate fs engine appDataPath := by
      unfold makeDefaultKeyDatabaseItem
      dsimp only
      rw [if_pos hpath]
    rw [hmake]
    exact ⟨rfl, rfl, rfl, hpath, fun _ => rfl⟩

theorem channelsFit_map {f : KeyDatabaseItemSO → KeyDatabaseItemSO}
    (hf : ∀ x, (f x).channel = x.channel) (items : List KeyDatabaseItemSO) :
    ChannelsFit (items.map f) ↔ ChannelsFit items := by
  unfold ChannelsFit
  rw [List.forall_mem_map]
  have hcount : ∀ x : KeyDatabaseItemSO,
      (items.map f).countP (fun y => (f x).channel ≤ y.channel) =
        items.countP (fun y => x.channel ≤ y.channel) := by
    intro x
    rw [List.countP_map]
    congr 1
    funext y
    show decide ((f x).channel ≤ (f y).channel) = _
    rw [hf, hf]
  constructor
  · intro h x hx
    have hfit := h x hx
    rw [hcount, hf] at hfit
    exact hfit
  · intro h x hx
    rw [hcount, hf]
    exact h x hx

namespace ReconcileInputs

variable {c : ReconcileInputs} {fresh : Nat → QString} {stored : List KeyDatabaseItemSO}

theorem settle_channel (x : KeyDatabaseItemSO) : (c.settle x).channel = x.channel := by
  obtain ⟨kind, heq, -⟩ := c.settle_spec x
  rw [heq]

theorem seeded_eq : c.seeded stored =
    if (c.candidates stored).isEmpty then [c.fallback] else (c.candidates stored).map c.settle := by
  unfold seeded
  rw [kept_eq, List.isEmpty_map]

theorem seeded_of_candidates (h : c.candidates stored ≠ []) :
    c.seeded stored = (c.candidates stored).map c.settle := by
  rw [seeded_eq, if_neg (by simpa using h)]

theorem seeded_of_none (h : c.candidates stored = []) : c.seeded stored = [c.fallback] := by
  rw [seeded_eq, if_pos (by rw [h]; rfl)]

theorem seeded_ne_nil : c.seeded stored ≠ [] := by
  by_cases h : c.candidates stored = []
  · rw [seeded_of_none h]
    exact List.cons_ne_nil _ _
  · rw [seeded_of_candidates h]
    simpa using h

theorem reserved_defaultName : isReservedKeyDatabaseName defaultKeyDatabaseName = true := by
  decide

/-- Every entry names something, and its kind is settled. -/
theorem seeded_settled (hseed : SeedsDefault c) {x : KeyDatabaseItemSO}
    (hx : x ∈ c.seeded stored) : HasSettledKind x ∧ x.name ≠ [] ∧ x.path ≠ [] := by
  by_cases h : c.candidates stored = []
  · rw [seeded_of_none h, List.mem_singleton] at hx
    rw [hx]
    refine ⟨⟨?_, ?_⟩, ?_, hseed.path⟩
    · rw [hseed.kind]
      exact Option.some_ne_none _
    · rw [hseed.kind, hseed.name]
      exact iff_of_true rfl reserved_defaultName
    · rw [hseed.name]
      exact List.cons_ne_nil _ _
  · rw [seeded_of_candidates h] at hx
    obtain ⟨e, he, rfl⟩ := List.mem_map.mp hx
    obtain ⟨-, hnames⟩ := List.mem_filter.mp he
    simp only [Bool.and_eq_true, Bool.not_eq_true', List.isEmpty_eq_false_iff] at hnames
    obtain ⟨kind, heq, hkind⟩ := c.settle_spec e
    rw [heq]
    refine ⟨⟨Option.some_ne_none _, ?_⟩, hnames.2, reanchor_ne_nil hnames.1⟩
    show some kind = some .default ↔ _
    rw [Option.some_inj]
    exact hkind

theorem defaultCount_seeded : defaultCount (c.seeded stored) ≤ 1 := by
  by_cases h : c.candidates stored = []
  · rw [seeded_of_none h]
    exact List.countP_le_length
  · rw [seeded_of_candidates h]
    have hmap : defaultCount ((c.candidates stored).map c.settle) =
        defaultCount (c.candidates stored) := by
      unfold defaultCount
      rw [List.countP_map]
      congr 1
      funext x
      obtain ⟨kind, heq, -⟩ := c.settle_spec x
      show isReservedKeyDatabaseName (c.settle x).name = _
      rw [heq]
    rw [hmap]
    exact Nat.le_trans (List.Sublist.countP_le List.filter_sublist)
      (c.defaultCount_adopted stored)

theorem reconcile_faces (n : Nat) :
    (c.reconcileKeyDatabaseList fresh n stored).1.map (·.face) =
      (sortByChannel (c.seeded stored)).map (·.face) := by
  unfold reconcileKeyDatabaseList assignKeyDatabaseIds normalizeKeyDatabaseChannels
  rw [assignIdsFrom_map _ (fun _ _ => rfl), spreadChannels_map fun _ _ => rfl]

theorem reconcile_channels (n : Nat) :
    (c.reconcileKeyDatabaseList fresh n stored).1.map (·.channel) =
      (normalizeKeyDatabaseChannels (c.seeded stored)).map (·.channel) := by
  unfold reconcileKeyDatabaseList assignKeyDatabaseIds
  rw [assignIdsFrom_map _ fun _ _ => rfl]

variable {items : List KeyDatabaseItemSO}

theorem ascending_congr {items' : List KeyDatabaseItemSO}
    (h : items.map (·.channel) = items'.map (·.channel)) :
    AscendingChannels items ↔ AscendingChannels items' := by
  have hmap : ∀ items : List KeyDatabaseItemSO, AscendingChannels items ↔
      (items.map (·.channel)).Pairwise (· < ·) := fun _ => List.pairwise_map.symm
  rw [hmap, hmap, h]

theorem nonneg_congr {items' : List KeyDatabaseItemSO}
    (h : items.map (·.channel) = items'.map (·.channel)) :
    (∀ x ∈ items, 0 ≤ x.channel) ↔ ∀ x ∈ items', 0 ≤ x.channel := by
  have hmap : ∀ items : List KeyDatabaseItemSO, (∀ x ∈ items, 0 ≤ x.channel) ↔
      ∀ k ∈ items.map (·.channel), 0 ≤ k := fun _ => List.forall_mem_map.symm
  rw [hmap, hmap, h]

/-- The ids of the result are settled and distinct. -/
theorem reconcile_ids (hseed : SeedsDefault c) (hfresh : FreshIds fresh (c.fallback :: stored))
    (n : Nat) :
    (∀ x ∈ (c.reconcileKeyDatabaseList fresh n stored).1, HasSettledId x) ∧
    ((c.reconcileKeyDatabaseList fresh n stored).1.map (·.id)).Nodup := by
  have hid : ∀ x ∈ c.seeded stored, ∀ m, x.id.trimmed ≠ fresh m := by
    intro x hx m
    by_cases h : c.candidates stored = []
    · rw [seeded_of_none h, List.mem_singleton] at hx
      rw [hx]
      exact hfresh.unused m _ List.mem_cons_self
    · rw [seeded_of_candidates h] at hx
      obtain ⟨e, he, rfl⟩ := List.mem_map.mp hx
      obtain ⟨kind, heq, -⟩ := c.settle_spec e
      rw [heq]
      rcases c.adopted_id (List.mem_filter.mp he).1 with hnil | ⟨y, hy, heq⟩
      · show e.id.trimmed ≠ fresh m
        rw [hnil]
        exact Ne.symm (hfresh.nonempty m)
      · show e.id.trimmed ≠ fresh m
        rw [heq]
        exact hfresh.unused m y (List.mem_cons_of_mem _ hy)
  have hperm : ((normalizeKeyDatabaseChannels (c.seeded stored)).map (·.id)).Perm
      ((c.seeded stored).map (·.id)) := by
    unfold normalizeKeyDatabaseChannels
    rw [spreadChannels_map fun _ _ => rfl]
    exact (sortByChannel_perm _).map _
  have hfresh' : FreshIds fresh (normalizeKeyDatabaseChannels (c.seeded stored)) := { hfresh with
    unused := by
      intro m x hx heq
      obtain ⟨y, hy, hxy⟩ := List.mem_map.mp (hperm.mem_iff.mp (List.mem_map_of_mem hx))
      exact hid y hy m (by rw [hxy]; exact heq) }
  have hkinds : (normalizeKeyDatabaseChannels (c.seeded stored)).countP isDefaultKind =
      defaultCount (c.seeded stored) := by
    have hface : (normalizeKeyDatabaseChannels (c.seeded stored)).countP isDefaultKind =
        ((normalizeKeyDatabaseChannels (c.seeded stored)).map (·.face)).countP
          fun f => f.2.2.2 = some .default := by
      rw [List.countP_map]
      rfl
    rw [hface]
    unfold normalizeKeyDatabaseChannels
    rw [spreadChannels_map fun _ _ => rfl, List.countP_map, (sortByChannel_perm _).countP_eq]
    unfold defaultCount
    refine List.countP_congr ?_
    intro x hx
    rw [← (seeded_settled hseed hx).1.2]
    exact decide_eq_true_iff
  obtain ⟨hset, hnodup, -, -⟩ := @assignIdsFrom_spec fresh n [] _ hfresh' (by simp) (by simp)
    (hkinds ▸ defaultCount_seeded)
  exact ⟨hset, hnodup⟩

theorem listOk_iff (hseed : SeedsDefault c) (hfresh : FreshIds fresh (c.fallback :: stored))
    (n : Nat) :
    KeyDatabaseListOk (c.reconcileKeyDatabaseList fresh n stored).1 ↔
      ChannelsFit (c.candidates stored) ∧ ∀ x ∈ c.candidates stored, 0 ≤ x.channel := by
  have hasc : AscendingChannels (c.reconcileKeyDatabaseList fresh n stored).1 ↔
      ChannelsFit (c.seeded stored) := by
    rw [ascending_congr (reconcile_channels n), normalize_ascending_iff]
  have hcand : (ChannelsFit (c.seeded stored) ∧ ∀ x ∈ c.seeded stored, 0 ≤ x.channel) ↔
      ChannelsFit (c.candidates stored) ∧ ∀ x ∈ c.candidates stored, 0 ≤ x.channel := by
    by_cases h : c.candidates stored = []
    · rw [seeded_of_none h, h]
      refine iff_of_true ⟨?_, ?_⟩ ⟨fun x hx => (by cases hx), fun x hx => (by cases hx)⟩
      · intro x hx
        rw [List.mem_singleton.mp hx, hseed.channel]
        have hle : [c.fallback].countP (fun y => (0 : Int32) ≤ y.channel) ≤ 1 :=
          List.countP_le_length
        show 0 + (([c.fallback].countP (fun y => (0 : Int32) ≤ y.channel) : Nat) : Int) ≤ _
        omega
      · intro x hx
        rw [List.mem_singleton.mp hx, hseed.channel]
        exact Int32.le_refl _
    · rw [seeded_of_candidates h, channelsFit_map settle_channel, List.forall_mem_map]
      simp only [settle_channel]
  rw [← hcand]
  constructor
  · intro hok
    refine ⟨hasc.mp hok.ascending, ?_⟩
    have hnorm := (ascending_congr (reconcile_channels n)).mp hok.ascending
    exact (normalize_nonneg_iff hnorm).mp ((nonneg_congr (reconcile_channels n)).mp hok.nonneg)
  · rintro ⟨hfit, hnonneg⟩
    have hasc' := hasc.mpr hfit
    have hnorm := (ascending_congr (reconcile_channels n)).mp hasc'
    refine ⟨?_, hasc', ?_, (reconcile_ids hseed hfresh n).2, ?_⟩
    · intro hnil
      have hfaces := @reconcile_faces c fresh stored n
      rw [hnil, List.map_nil, eq_comm, List.map_eq_nil_iff] at hfaces
      have hperm := sortByChannel_perm (c.seeded stored)
      rw [hfaces] at hperm
      exact seeded_ne_nil hperm.nil_eq.symm
    · exact (nonneg_congr (reconcile_channels n)).mpr ((normalize_nonneg_iff hnorm).mpr hnonneg)
    · rw [defaultCount_eq_of_face (reconcile_faces n)]
      unfold defaultCount
      rw [(sortByChannel_perm _).countP_eq]
      exact defaultCount_seeded

/-! ## A second pass -/

theorem item_ext {x y : KeyDatabaseItemSO} (hface : x.face = y.face) (hid : x.id = y.id)
    (hchannel : x.channel = y.channel) : x = y := by
  cases x
  cases y
  simp only [KeyDatabaseItemSO.face, Prod.mk.injEq] at hface
  obtain ⟨rfl, rfl, rfl, rfl⟩ := hface
  cases hid
  cases hchannel
  rfl

variable (c) in
/-- What the passes before the numbering make of an entry of a list they have made. -/
def again (x : KeyDatabaseItemSO) : KeyDatabaseItemSO :=
  c.settle (if c.localDefault.path = [] then x
    else adoptItem c.localDefault.path c.localDefault.backendType x)

variable (c) in
/-- The keyrings that DEFAULT would move away from once more. -/
def carriedAgain (items : List KeyDatabaseItemSO) : List KeyDatabaseItemSO :=
  if c.localDefault.path = [] then []
  else items.filter (carriesKeyring c.fs items c.localDefault.path c.profileRoot)

theorem again_spec {x : KeyDatabaseItemSO} (hkind : HasSettledKind x) :
    c.again x = x ↔
      if c.localDefault.path ≠ [] ∧ isForeignDefault c.localDefault.path x = true then
        c.fs.reanchorKeyDatabasePath c.localDefault.path c.profileRoot = x.path ∧
          (c.localDefault.backendType = [] ∨ x.backendType = c.localDefault.backendType)
      else c.fs.reanchorKeyDatabasePath x.path c.profileRoot = x.path := by
  have hsettle : ∀ y : KeyDatabaseItemSO, HasSettledKind y → c.settle y =
      { y with path := c.fs.reanchorKeyDatabasePath y.path c.profileRoot } := by
    intro y hy
    unfold settle reanchor
    rw [resolveKind_settled hy]
  have hpath : ∀ y : KeyDatabaseItemSO, ∀ path : QString,
      ({ y with path := path } : KeyDatabaseItemSO) = y ↔ path = y.path := by
    intro y path
    constructor
    · intro h
      rw [← h]
    · intro h
      rw [h]
  by_cases hcond : c.localDefault.path ≠ [] ∧ isForeignDefault c.localDefault.path x = true
  · rw [if_pos hcond]
    obtain ⟨hlocal, hforeign⟩ := hcond
    unfold again
    rw [if_neg hlocal]
    unfold adoptItem
    rw [if_pos hforeign, hsettle]
    · constructor
      · intro h
        refine ⟨congrArg KeyDatabaseItemSO.path h, ?_⟩
        have hbackend := congrArg KeyDatabaseItemSO.backendType h
        by_cases hB : c.localDefault.backendType = []
        · exact Or.inl hB
        · dsimp only at hbackend
          rw [if_pos hB] at hbackend
          exact Or.inr hbackend.symm
      · rintro ⟨hp, hB⟩
        refine item_ext ?_ rfl rfl
        show (x.name, _, _, x.kind) = (x.name, x.path, x.backendType, x.kind)
        rw [hp]
        rcases hB with hB | hB
        · rw [if_neg (not_not.mpr hB)]
        · rw [hB, ite_self]
    · exact hkind
  · rw [if_neg hcond]
    unfold again
    have hsame : (if c.localDefault.path = [] then x
        else adoptItem c.localDefault.path c.localDefault.backendType x) = x := by
      split
      · rfl
      · next hlocal =>
        unfold adoptItem
        rw [if_neg fun hforeign => hcond ⟨hlocal, hforeign⟩]
    rw [hsame, hsettle x hkind]
    exact hpath x _

theorem again_fields (x : KeyDatabaseItemSO) :
    (c.again x).channel = x.channel ∧ (c.again x).id = x.id := by
  unfold again
  obtain ⟨kind, heq, -⟩ := c.settle_spec (if c.localDefault.path = [] then x
    else adoptItem c.localDefault.path c.localDefault.backendType x)
  rw [heq]
  split
  · exact ⟨rfl, rfl⟩
  · unfold adoptItem
    split <;> exact ⟨rfl, rfl⟩

theorem adopted_again (hcount : defaultCount items ≤ 1)
    (hnames : ∀ x ∈ items, x.name ≠ [] ∧ x.path ≠ []) :
    (c.carriedAgain items = [] → c.kept items = items.map c.again) ∧
    (c.carriedAgain items ≠ [] → (c.kept items).length = items.length + 1) := by
  have hdrop := drop_of_defaultCount hcount
  unfold carriedAgain
  by_cases hlocal : c.localDefault.path = []
  · rw [if_pos hlocal]
    refine ⟨fun _ => ?_, fun h => absurd rfl h⟩
    have hadopted : c.adopted items = items := by
      unfold adopted adoptLocalDefaultKeyDatabase
      rw [if_pos hlocal, hdrop]
    rw [kept_eq]
    unfold candidates
    rw [hadopted, List.filter_eq_self.mpr]
    · refine List.map_congr_left ?_
      intro x _
      unfold again
      rw [if_pos hlocal]
    · intro x hx
      simp [hnames x hx]
  · rw [if_neg hlocal]
    have hnames' : ∀ x ∈ items.map (adoptItem c.localDefault.path c.localDefault.backendType),
        (!x.path.isEmpty && !x.name.isEmpty) = true := by
      intro x hx
      obtain ⟨y, hy, rfl⟩ := List.mem_map.mp hx
      rw [adoptItem_name]
      have hpath : (adoptItem c.localDefault.path c.localDefault.backendType y).path ≠ [] := by
        unfold adoptItem
        split
        · exact hlocal
        · exact (hnames y hy).2
      simp [hpath, hnames y hy]
    rcases adopt_spec c.fs items c.localDefault.backendType c.profileRoot hlocal with
      ⟨hnone, heq⟩ | ⟨hsome, carried, -, hname, hpath, -, heq⟩
    · refine ⟨fun _ => ?_, fun h => absurd hnone h⟩
      rw [kept_eq]
      unfold candidates adopted
      rw [hdrop, heq, List.filter_eq_self.mpr hnames', List.map_map]
      refine List.map_congr_left ?_
      intro x _
      unfold again
      rw [if_neg hlocal]
      rfl
    · refine ⟨fun h => absurd h hsome, fun _ => ?_⟩
      rw [kept_eq]
      unfold candidates adopted
      rw [hdrop, heq, List.filter_append, List.filter_eq_self.mpr hnames', List.length_map,
        List.length_append, List.length_map, List.filter_cons_of_pos (by simp [hname, hpath])]
      rfl

/-- A list that went through the passes is left alone exactly when nothing is carried once
more and every entry is left alone. -/
theorem reconcile_again_iff (hne : items ≠ []) (hcount : defaultCount items ≤ 1)
    (hnames : ∀ x ∈ items, x.name ≠ [] ∧ x.path ≠ []) (hasc : AscendingChannels items)
    (hids : ∀ x ∈ items, HasSettledId x) (hnodup : (items.map (·.id)).Nodup) (m : Nat) :
    (c.reconcileKeyDatabaseList fresh m items).1 = items ↔
      c.carriedAgain items = [] ∧ ∀ x ∈ items, c.again x = x := by
  obtain ⟨hnone, hsome⟩ := c.adopted_again hcount hnames
  by_cases hcarried : c.carriedAgain items = []
  · have hkept := hnone hcarried
    have hseeded : c.seeded items = items.map c.again := by
      unfold seeded
      rw [hkept, if_neg (by simpa using hne)]
    have hchannels : (items.map c.again).map (·.channel) = items.map (·.channel) := by
      rw [List.map_map]
      exact List.map_congr_left fun x _ => (again_fields x).1
    have hasc' : AscendingChannels (items.map c.again) := (ascending_congr hchannels).mpr hasc
    refine ⟨fun h => ⟨hcarried, ?_⟩, fun h => ?_⟩
    · have hfaces := @reconcile_faces c fresh items m
      unfold sortByChannel at hfaces
      rw [h, hseeded, List.Pairwise.insertionSort_eq (hasc'.imp Int32.le_of_lt), List.map_map,
        List.map_inj_left] at hfaces
      intro x hx
      exact item_ext (hfaces x hx).symm (again_fields x).2 (again_fields x).1
    · have hmap : items.map c.again = items := by
        conv => rhs; rw [← List.map_id items]
        exact List.map_congr_left h.2
      unfold reconcileKeyDatabaseList assignKeyDatabaseIds
      rw [hseeded, hmap, normalize_of_ascending hasc,
        assignIdsFrom_settled hids hnodup fun _ _ => List.not_mem_nil]
  · refine ⟨fun h => ?_, fun h => absurd h.1 hcarried⟩
    -- one entry more
    have hlen : (c.reconcileKeyDatabaseList fresh m items).1.length = items.length + 1 := by
      have hfaces := congrArg List.length (@reconcile_faces c fresh items m)
      rw [List.length_map, List.length_map, (sortByChannel_perm _).length_eq] at hfaces
      rw [hfaces, ← hsome hcarried]
      unfold seeded
      rw [if_neg]
      intro hempty
      have hzero := hsome hcarried
      rw [List.isEmpty_iff.mp hempty] at hzero
      cases hzero
    rw [h] at hlen
    omega

end ReconcileInputs

/-- The stored lists that reconcile as they should: conditions on the entries that the first
two passes leave (`candidates`), on the fallback and on this computer's DEFAULT. -/
structure ReconcilesCleanly (c : ReconcileInputs) (stored : List KeyDatabaseItemSO) : Prop where
  nonneg : ∀ x ∈ c.candidates stored, 0 ≤ x.channel
  /-- Numbering the entries upward does not run past the last `int`. -/
  fit : ChannelsFit (c.candidates stored)
  /-- With nothing left, the fallback is spelled the way a read spells it. -/
  seeded : c.candidates stored = [] →
    c.fs.reanchorKeyDatabasePath c.fallback.path c.profileRoot = c.fallback.path
  /-- Where a read respells the path of this computer's DEFAULT, the entry has its backend
  already, and an rPGP keyring at the new spelling is not one to keep. -/
  localDefault : ∀ d ∈ c.candidates stored, isReservedKeyDatabaseName d.name = true →
    c.localDefault.path ≠ [] →
    c.fs.reanchorKeyDatabasePath c.localDefault.path c.profileRoot ≠ c.localDefault.path →
    (c.localDefault.backendType = [] ∨ d.backendType = c.localDefault.backendType) ∧
    (d.backendType = rpgpBackend →
      c.fs.isSameKeyDatabaseLocation (c.fs.fromProfileRelativeKeyDatabasePath
        (c.fs.reanchorKeyDatabasePath c.localDefault.path c.profileRoot) c.profileRoot)
        c.localDefault.path = true ∨
      ∃ e ∈ c.candidates stored, isReservedKeyDatabaseName e.name = false ∧
        e.backendType = rpgpBackend ∧
        c.fs.cleanPath (c.fs.reanchorKeyDatabasePath e.path c.profileRoot) =
          c.fs.cleanPath (c.fs.reanchorKeyDatabasePath c.localDefault.path c.profileRoot))

namespace ReconcileInputs

variable {c : ReconcileInputs} {fresh : Nat → QString} {stored : List KeyDatabaseItemSO}

variable {x : KeyDatabaseItemSO}

/-- The entries of the result are those of the seeded list, up to channel and id. -/
theorem mem_reconcile {n : Nat} (hx : x ∈ (c.reconcileKeyDatabaseList fresh n stored).1) :
    ∃ e ∈ c.seeded stored, x.face = e.face := by
  have hmem : x.face ∈ (c.reconcileKeyDatabaseList fresh n stored).1.map (·.face) :=
    List.mem_map_of_mem hx
  rw [reconcile_faces] at hmem
  obtain ⟨e, he, hface⟩ := List.mem_map.mp hmem
  exact ⟨e, (sortByChannel_perm _).mem_iff.mp he, hface.symm⟩

theorem exists_mem_reconcile (n : Nat) {e : KeyDatabaseItemSO} (he : e ∈ c.seeded stored) :
    ∃ x ∈ (c.reconcileKeyDatabaseList fresh n stored).1, x.face = e.face := by
  have hmem : e.face ∈ (sortByChannel (c.seeded stored)).map (·.face) :=
    List.mem_map_of_mem ((sortByChannel_perm _).mem_iff.mpr he)
  rw [← @reconcile_faces c fresh stored n] at hmem
  obtain ⟨x, hx, hface⟩ := List.mem_map.mp hmem
  exact ⟨x, hx, hface⟩

theorem face_inj {y : KeyDatabaseItemSO} (h : x.face = y.face) :
    x.name = y.name ∧ x.path = y.path ∧ x.backendType = y.backendType ∧ x.kind = y.kind := by
  simpa only [KeyDatabaseItemSO.face, Prod.mk.injEq] using h

theorem face_settle {e : KeyDatabaseItemSO} (h : x.face = (c.settle e).face) :
    x.name = e.name ∧ x.path = c.fs.reanchorKeyDatabasePath e.path c.profileRoot ∧
      x.backendType = e.backendType := by
  obtain ⟨kind, heq, -⟩ := c.settle_spec e
  rw [heq] at h
  obtain ⟨hname, hpath, hbackend, -⟩ := face_inj h
  exact ⟨hname, hpath, hbackend⟩

theorem mem_settled (hcand : c.candidates stored ≠ []) {n : Nat}
    (hx : x ∈ (c.reconcileKeyDatabaseList fresh n stored).1) :
    ∃ e ∈ c.candidates stored, x.name = e.name ∧
      x.path = c.fs.reanchorKeyDatabasePath e.path c.profileRoot ∧
      x.backendType = e.backendType := by
  obtain ⟨y, hy, hface⟩ := mem_reconcile hx
  rw [seeded_of_candidates hcand] at hy
  obtain ⟨e, he, rfl⟩ := List.mem_map.mp hy
  exact ⟨e, he, face_settle hface⟩

theorem exists_mem_settled (n : Nat) {e : KeyDatabaseItemSO}
    (he : e ∈ c.candidates stored) :
    ∃ x ∈ (c.reconcileKeyDatabaseList fresh n stored).1, x.name = e.name ∧
      x.path = c.fs.reanchorKeyDatabasePath e.path c.profileRoot ∧
      x.backendType = e.backendType := by
  have hmem : c.settle e ∈ c.seeded stored := by
    rw [seeded_of_candidates (List.ne_nil_of_mem he)]
    exact List.mem_map_of_mem he
  obtain ⟨x, hx, hface⟩ := @exists_mem_reconcile c fresh stored n _ hmem
  exact ⟨x, hx, face_settle hface⟩

/-- The result went through the passes. -/
theorem reconcile_settled (hseed : SeedsDefault c) {n : Nat}
    (hx : x ∈ (c.reconcileKeyDatabaseList fresh n stored).1) :
    HasSettledKind x ∧ x.name ≠ [] ∧ x.path ≠ [] := by
  obtain ⟨e, he, hface⟩ := mem_reconcile hx
  obtain ⟨hname, hpath, -, hkind⟩ := face_inj hface
  unfold HasSettledKind
  rw [hname, hpath, hkind]
  exact seeded_settled hseed he

theorem root_ne_nil_of_reanchor {fs : ProfileFs} {path root : QString}
    (h : fs.reanchorKeyDatabasePath path root ≠ path) : root ≠ [] := by
  intro hroot
  refine h ?_
  unfold ProfileFs.reanchorKeyDatabasePath
  rw [hroot]
  exact if_pos rfl

theorem carriesKeyring_iff {fs : ProfileFs} {items : List KeyDatabaseItemSO}
    {localPath root : QString} :
    carriesKeyring fs items localPath root x = true ↔
      isForeignDefault localPath x = true ∧ x.backendType = rpgpBackend ∧
      isProfileRelativeKeyDatabasePath x.path = true ∧
      ¬ (root ≠ [] ∧ fs.isSameKeyDatabaseLocation
        (fs.fromProfileRelativeKeyDatabasePath x.path root) localPath = true) ∧
      ¬ ∃ y ∈ items, isReservedKeyDatabaseName y.name = false ∧ y.backendType = rpgpBackend ∧
        fs.cleanPath y.path = fs.cleanPath x.path := by
  unfold carriesKeyring
  simp only [Bool.and_eq_true, decide_eq_true_eq, Bool.not_eq_true', List.any_eq_false,
    Bool.and_eq_false_iff, not_and, not_exists, and_assoc]
  constructor
  · rintro ⟨hf, hb, hr, hs, ha⟩
    refine ⟨hf, hb, hr, ?_, ?_⟩
    · intro hroot hsame
      rcases hs with hs | hs
      · exact absurd hroot (by simpa using hs)
      · rw [hsame] at hs
        cases hs
    · exact ha
  · rintro ⟨hf, hb, hr, hs, ha⟩
    refine ⟨hf, hb, hr, ?_, ?_⟩
    · by_cases hroot : root = []
      · exact Or.inl (by simpa using hroot)
      · exact Or.inr (Bool.eq_false_iff.mpr (hs hroot))
    · exact ha

/-- Seeded with the fallback, the list is left alone when the fallback's path is. -/
theorem fixed_of_none (hseed : SeedsDefault c) (hcand : c.candidates stored = []) {n : Nat} :
    (c.carriedAgain (c.reconcileKeyDatabaseList fresh n stored).1 = [] ∧
      ∀ x ∈ (c.reconcileKeyDatabaseList fresh n stored).1, c.again x = x) ↔
    c.fs.reanchorKeyDatabasePath c.fallback.path c.profileRoot = c.fallback.path := by
  have hlike : ∀ x ∈ (c.reconcileKeyDatabaseList fresh n stored).1, x.path = c.fallback.path := by
    intro x hx
    obtain ⟨e, he, hface⟩ := mem_reconcile hx
    rw [seeded_of_none hcand, List.mem_singleton] at he
    rw [(face_inj hface).2.1, he]
  -- DEFAULT is at this computer's place already
  have hhome : c.localDefault.path ≠ [] → ∀ x ∈ (c.reconcileKeyDatabaseList fresh n stored).1,
      isForeignDefault c.localDefault.path x = false := by
    intro hlocal x hx
    unfold isForeignDefault
    rw [hlike x hx, hseed.local_ hlocal]
    simp
  have hagain : ∀ x ∈ (c.reconcileKeyDatabaseList fresh n stored).1,
      (c.again x = x ↔
        c.fs.reanchorKeyDatabasePath c.fallback.path c.profileRoot = c.fallback.path) := by
    intro x hx
    rw [again_spec (reconcile_settled hseed hx).1, if_neg, hlike x hx]
    rintro ⟨hlocal, hforeign⟩
    rw [hhome hlocal x hx] at hforeign
    cases hforeign
  constructor
  · rintro ⟨-, h⟩
    have hmem : c.fallback ∈ c.seeded stored := by
      rw [seeded_of_none hcand]
      exact List.mem_singleton_self _
    obtain ⟨x, hx, -⟩ := @exists_mem_reconcile c fresh stored n _ hmem
    exact (hagain x hx).mp (h x hx)
  · intro h
    refine ⟨?_, fun x hx => (hagain x hx).mpr h⟩
    unfold carriedAgain
    split
    · rfl
    · next hlocal =>
      rw [List.filter_eq_nil_iff]
      intro x hx hcarries
      have hforeign := (carriesKeyring_iff.mp hcarries).1
      rw [hhome hlocal x hx] at hforeign
      cases hforeign

/-- With entries of its own, the list is left alone when DEFAULT agrees with this computer's
own. -/
theorem fixed_of_candidates (hseed : SeedsDefault c) (hcand : c.candidates stored ≠ []) {n : Nat} :
    (c.carriedAgain (c.reconcileKeyDatabaseList fresh n stored).1 = [] ∧
      ∀ x ∈ (c.reconcileKeyDatabaseList fresh n stored).1, c.again x = x) ↔
    ∀ d ∈ c.candidates stored, isReservedKeyDatabaseName d.name = true →
      c.localDefault.path ≠ [] →
      c.fs.reanchorKeyDatabasePath c.localDefault.path c.profileRoot ≠ c.localDefault.path →
      (c.localDefault.backendType = [] ∨ d.backendType = c.localDefault.backendType) ∧
      (d.backendType = rpgpBackend →
        c.fs.isSameKeyDatabaseLocation (c.fs.fromProfileRelativeKeyDatabasePath
          (c.fs.reanchorKeyDatabasePath c.localDefault.path c.profileRoot) c.profileRoot)
          c.localDefault.path = true ∨
        ∃ e ∈ c.candidates stored, isReservedKeyDatabaseName e.name = false ∧
          e.backendType = rpgpBackend ∧
          c.fs.cleanPath (c.fs.reanchorKeyDatabasePath e.path c.profileRoot) =
            c.fs.cleanPath (c.fs.reanchorKeyDatabasePath c.localDefault.path c.profileRoot)) := by
  constructor
  · rintro ⟨hcarried, hagain⟩ d hd hname hlocal hmoved
    have hdpath := c.adopted_path (List.mem_filter.mp hd).1 hname hlocal
    obtain ⟨x, hx, hxname, hxpath, hxbackend⟩ := @exists_mem_settled c fresh stored n d hd
    rw [hdpath] at hxpath
    have hforeign : isForeignDefault c.localDefault.path x = true := by
      unfold isForeignDefault
      rw [hxname, hname, hxpath]
      simpa using hmoved
    have hx' := (again_spec (reconcile_settled hseed hx).1).mp (hagain x hx)
    rw [if_pos ⟨hlocal, hforeign⟩, hxbackend] at hx'
    refine ⟨hx'.2, ?_⟩
    intro hrpgp
    -- nothing is carried once more, so one of the reasons to carry it is missing
    unfold carriedAgain at hcarried
    rw [if_neg hlocal, List.filter_eq_nil_iff] at hcarried
    have hnot := hcarried x hx
    rw [carriesKeyring_iff] at hnot
    by_contra hnone
    rw [not_or] at hnone
    refine hnot ⟨hforeign, hxbackend.trans hrpgp, ?_, ?_, ?_⟩
    · rw [hxpath]
      exact (reanchor_cases c.fs c.localDefault.path c.profileRoot).resolve_left hmoved
    · rintro ⟨-, hsame⟩
      rw [hxpath] at hsame
      exact hnone.1 hsame
    · rintro ⟨y, hy, hyname, hybackend, hyclean⟩
      obtain ⟨e, he, hename, hepath, hebackend⟩ := mem_settled hcand hy
      refine hnone.2 ⟨e, he, hename ▸ hyname, hebackend ▸ hybackend, ?_⟩
      rw [← hepath, ← hxpath]
      exact hyclean
  · intro h
    have hdefault : ∀ x ∈ (c.reconcileKeyDatabaseList fresh n stored).1,
        c.localDefault.path ≠ [] → isForeignDefault c.localDefault.path x = true →
        x.path = c.fs.reanchorKeyDatabasePath c.localDefault.path c.profileRoot ∧
        c.fs.reanchorKeyDatabasePath c.localDefault.path c.profileRoot ≠ c.localDefault.path ∧
        ∃ d ∈ c.candidates stored, isReservedKeyDatabaseName d.name = true ∧
          x.backendType = d.backendType := by
      intro x hx hlocal hforeign
      unfold isForeignDefault at hforeign
      rw [Bool.and_eq_true, decide_eq_true_eq] at hforeign
      obtain ⟨e, he, hname, hpath, hbackend⟩ := mem_settled hcand hx
      have hereserved := hname ▸ hforeign.1
      rw [c.adopted_path (List.mem_filter.mp he).1 hereserved hlocal] at hpath
      exact ⟨hpath, hpath ▸ hforeign.2, e, he, hereserved, hbackend⟩
    constructor
    · unfold carriedAgain
      split
      · rfl
      · next hlocal =>
        rw [List.filter_eq_nil_iff]
        intro x hx hcarries
        obtain ⟨hforeign, hrpgp, -, hplace, hother⟩ := carriesKeyring_iff.mp hcarries
        obtain ⟨hpath, hmoved, d, hd, hname, hbackend⟩ := hdefault x hx hlocal hforeign
        rw [hpath] at hplace hother
        rcases (h d hd hname hlocal hmoved).2 (hbackend ▸ hrpgp) with hsame | hkept
        · exact hplace ⟨root_ne_nil_of_reanchor hmoved, hsame⟩
        · obtain ⟨e, he, hename, hebackend, heclean⟩ := hkept
          obtain ⟨y, hy, hyname, hypath, hybackend⟩ := @exists_mem_settled c fresh stored n e he
          refine hother ⟨y, hy, hyname ▸ hename, hybackend ▸ hebackend, ?_⟩
          rw [hypath]
          exact heclean
    · intro x hx
      rw [again_spec (reconcile_settled hseed hx).1]
      split
      · next hcond =>
        obtain ⟨hpath, hmoved, d, hd, hname, hbackend⟩ := hdefault x hx hcond.1 hcond.2
        exact ⟨hpath.symm, hbackend ▸ (h d hd hname hcond.1 hmoved).1⟩
      · obtain ⟨e, -, -, hpath, -⟩ := mem_settled hcand hx
        rw [hpath]
        exact reanchor_reanchor c.fs e.path c.profileRoot

end ReconcileInputs

/-- The reconciled list is well formed and a fixed point exactly for the lists of
`ReconcilesCleanly`. The second pass may have any further supply of ids. -/
theorem reconcile_wellFormed_iff (c : ReconcileInputs) (hseed : SeedsDefault c)
    (fresh : Nat → QString) (stored : List KeyDatabaseItemSO)
    (hfresh : FreshIds fresh (c.fallback :: stored)) (n m : Nat) :
    (KeyDatabaseListOk (c.reconcileKeyDatabaseList fresh n stored).1 ∧
      (c.reconcileKeyDatabaseList fresh m (c.reconcileKeyDatabaseList fresh n stored).1).1 =
        (c.reconcileKeyDatabaseList fresh n stored).1) ↔
    ReconcilesCleanly c stored := by
  have hok := ReconcileInputs.listOk_iff hseed hfresh n
  have hagain : KeyDatabaseListOk (c.reconcileKeyDatabaseList fresh n stored).1 →
      ((c.reconcileKeyDatabaseList fresh m (c.reconcileKeyDatabaseList fresh n stored).1).1 =
        (c.reconcileKeyDatabaseList fresh n stored).1 ↔
      c.carriedAgain (c.reconcileKeyDatabaseList fresh n stored).1 = [] ∧
        ∀ x ∈ (c.reconcileKeyDatabaseList fresh n stored).1, c.again x = x) := by
    intro h
    obtain ⟨hids, hnodup⟩ := ReconcileInputs.reconcile_ids hseed hfresh n
    exact ReconcileInputs.reconcile_again_iff h.nonempty h.oneDefault
      (fun x hx => (ReconcileInputs.reconcile_settled hseed hx).2) h.ascending hids hnodup m
  by_cases hcand : c.candidates stored = []
  · have hfixed := @ReconcileInputs.fixed_of_none c fresh stored hseed hcand n
    constructor
    · rintro ⟨h, hsame⟩
      obtain ⟨hfit, hnonneg⟩ := hok.mp h
      refine ⟨hnonneg, hfit, fun _ => hfixed.mp ((hagain h).mp hsame), ?_⟩
      rw [hcand]
      exact fun d hd => by cases hd
    · intro h
      have hlist := hok.mpr ⟨h.fit, h.nonneg⟩
      exact ⟨hlist, (hagain hlist).mpr (hfixed.mpr (h.seeded hcand))⟩
  · have hfixed := @ReconcileInputs.fixed_of_candidates c fresh stored hseed hcand n
    constructor
    · rintro ⟨h, hsame⟩
      obtain ⟨hfit, hnonneg⟩ := hok.mp h
      exact ⟨hnonneg, hfit, fun hnone => absurd hnone hcand, hfixed.mp ((hagain h).mp hsame)⟩
    · intro h
      have hlist := hok.mpr ⟨h.fit, h.nonneg⟩
      exact ⟨hlist, (hagain hlist).mpr (hfixed.mpr h.localDefault)⟩

/-- A file system without links, on paths that are clean and absolute. -/
def plainFs (dirs : List QString) : ProfileFs where
  cleanPath path := path
  isDir path := dirs.contains path
  canonicalFilePath path := if dirs.contains path then path else []
  absoluteFilePath path := path

/-- Ids of growing length. -/
def growingIds (n : Nat) : QString := List.replicate (n + 1) 117

theorem growingIds_fresh {stored : List KeyDatabaseItemSO} (h : ∀ x ∈ stored, x.id = []) :
    FreshIds growingIds stored := by
  refine ⟨?_, ?_, fun n => List.cons_ne_nil _ _, ?_, ?_⟩
  · intro m n heq
    have hlen := congrArg List.length heq
    unfold growingIds at hlen
    rw [List.length_replicate, List.length_replicate] at hlen
    omega
  · intro n
    unfold growingIds QString.trimmed
    rw [List.dropWhile_replicate, if_neg (by decide), List.reverse_replicate,
      List.dropWhile_replicate, if_neg (by decide), List.reverse_replicate]
  · intro n heq
    exact absurd (List.cons.inj heq).1 (by decide)
  · intro n x hx
    rw [h x hx]
    exact fun heq => by cases heq

/-- The profile at `/p`, with the engine's own keyring at `/g`. -/
def gnupgHome : ReconcileInputs :=
  let fs := plainFs [[47, 112], [47, 103]]
  let engine : EngineState := ⟨[47, 103], false, true⟩
  ⟨fs, defaultKeyDatabaseCandidate fs engine [47, 112],
    makeDefaultKeyDatabaseItem fs engine [47, 112], [47, 112], [47, 112]⟩

/-- DEFAULT twice, an entry without a name, and a channel that is taken. -/
def damagedList : List KeyDatabaseItemSO :=
  [{ name := [68, 69, 70, 65, 85, 76, 84], path := [67, 58, 47, 103], channel := 0 },
   { name := [100, 101, 102, 97, 117, 108, 116], path := [47, 120], channel := 0 },
   { path := [47, 112, 47, 100, 98, 115], channel := 1 },
   { name := [119], path := [47, 112, 47, 100, 98, 115, 47, 119], channel := 0 }]

theorem damagedList_reconciled :
    (gnupgHome.candidates damagedList).length = 2 ∧
    KeyDatabaseListOk (gnupgHome.reconcileKeyDatabaseList growingIds 0 damagedList).1 ∧
    (gnupgHome.reconcileKeyDatabaseList growingIds 1
      (gnupgHome.reconcileKeyDatabaseList growingIds 0 damagedList).1).1 =
        (gnupgHome.reconcileKeyDatabaseList growingIds 0 damagedList).1 := by
  refine ⟨by decide, (reconcile_wellFormed_iff gnupgHome (makeDefault_seeds _ _ _ _) growingIds
    damagedList (growingIds_fresh (by decide)) 0 1).mpr ?_⟩
  exact ⟨by decide, by decide, by decide, by decide⟩

/-- The profile at `/p`, with an engine that names no keyring. -/
def noHome : ReconcileInputs :=
  let fs := plainFs [[47, 112]]
  let engine : EngineState := ⟨[], false, false⟩
  ⟨fs, defaultKeyDatabaseCandidate fs engine [47, 112],
    makeDefaultKeyDatabaseItem fs engine [47, 112], [47, 112], [47, 112]⟩

/-- Nothing is stored: the first read seeds `/p/rpgp_db`, and the second respells it as
`@profile/rpgp_db`. -/
theorem second_read_respells_fallback :
    SeedsDefault noHome ∧ FreshIds growingIds [noHome.fallback] ∧
    (noHome.reconcileKeyDatabaseList growingIds 0
      (noHome.reconcileKeyDatabaseList growingIds 0 []).1).1 ≠
        (noHome.reconcileKeyDatabaseList growingIds 0 []).1 :=
  ⟨makeDefault_seeds _ _ _ _, growingIds_fresh (by decide), by decide⟩

end GpgFrontend
