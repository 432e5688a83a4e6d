import GpgFrontend.Shell.KeyDatabaseSettingsModel

/-!
# The books of the key databases page

Over any list with distinct ids and any operations: no managed database gets lost or doubled,
no choice that was made on the page outlives its database, and a database that was made the
default is the default.

- `books_kept_iff`: **a page keeps its books throughout exactly if every step is sound.**
-/

namespace GpgFrontend

/-! ## Moves -/

variable {α : Type} {list : List α}

theorem moveItem_perm {from_ to_ : Nat} (hfrom : from_ < list.length) (hto : to_ < list.length) :
    (moveItem list from_ to_).Perm list := by
  rw [moveItem, List.getElem?_eq_getElem hfrom]
  dsimp only
  refine (List.perm_insertIdx _ _ ?_).trans (List.getElem_cons_eraseIdx_perm hfrom)
  rw [List.length_eraseIdx_of_lt hfrom]
  omega

theorem moveRow_perm (list : List α) (from_ insertAt : Int) :
    (moveRow list from_ insertAt).1.Perm list := by
  unfold moveRow
  extract_lets size to_
  split
  · exact List.Perm.refl list
  · next hrange =>
    split
    · exact List.Perm.refl list
    · have hsize : size = list.length := rfl
      have hto : to_ = if insertAt > from_ then insertAt - 1 else insertAt := rfl
      refine moveItem_perm (by omega) ?_
      split at hto <;> omega

theorem cons_eraseP_perm {p : α → Bool} {x : α} (h : list.find? p = some x) :
    (x :: list.eraseP p).Perm list := by
  induction list with
  | nil => cases h
  | cons first rest ih =>
    rw [List.find?_cons] at h
    cases hfirst : p first with
    | true =>
      rw [hfirst] at h
      obtain rfl := Option.some.inj h
      rw [List.eraseP_cons_of_pos hfirst]
    | false =>
      rw [hfirst] at h
      rw [List.eraseP_cons_of_neg (by rw [hfirst]; exact Bool.false_ne_true)]
      exact (List.Perm.swap first x _).trans ((ih h).cons first)

/-- What is left of a list without one of its items. -/
theorem mem_rest_iff {rest : List α} {x y : α} (h : (x :: rest).Perm list) (hnodup : list.Nodup) :
    y ∈ rest ↔ y ∈ list ∧ y ≠ x := by
  have hnew := (List.nodup_cons.1 (h.nodup_iff.2 hnodup)).1
  rw [← h.mem_iff, List.mem_cons]
  constructor
  · exact fun hy => ⟨.inr hy, fun heq => hnew (heq ▸ hy)⟩
  · exact fun hy => hy.1.resolve_left hy.2

namespace KeyDatabaseSettingsModel

variable {m : KeyDatabaseSettingsModel} {id : QString} {info : KeyDatabaseInfo}

/-- Every database the page holds, those that may be put back too. -/
def held (m : KeyDatabaseSettingsModel) : List KeyDatabaseInfo :=
  m.builtin.toList ++ m.managed ++ m.external ++ m.removedManaged

/-! ## Which database is the default -/

theorem find_eq (hid : id ≠ []) : m.find id = m.databases.find? fun info => info.id = id := by
  rw [find, if_neg hid, databases, List.find?_append, List.find?_append]
  cases m.builtin with
  | none => cases m.managed.find? fun info => info.id = id <;> rfl
  | some info =>
    by_cases hinfo : info.id = id
    · simp [Option.filter, hinfo]
    · cases m.managed.find? fun info => decide (info.id = id) <;> simp [Option.filter, hinfo]

theorem contains_iff (hid : id ≠ []) :
    m.contains id = true ↔ id ∈ m.databases.map (·.id) := by
  rw [contains, find_eq hid, List.find?_isSome, List.mem_map]
  simp

theorem ids_compose : m.compose.map (·.id) = m.databases.map (·.id) := by
  have hmapIdx : ∀ items : List KeyDatabaseItemSO,
      (items.mapIdx fun i item => { item with channel := Int32.ofNat i }).map (·.id)
        = items.map (·.id) := by
    intro items
    refine List.ext_getElem? fun i => ?_
    rw [List.getElem?_map, List.getElem?_mapIdx, List.getElem?_map, Option.map_map]
    rfl
  have hinfo : ∀ infos : List KeyDatabaseInfo,
      (infos.map KeyDatabaseItemSO.ofInfo).map (·.id) = infos.map (·.id) := by
    intro infos
    rw [List.map_map]
    rfl
  rw [compose, composeKeyDatabaseList, hmapIdx, databases, List.map_append, List.map_append,
    List.map_append, List.map_append, hinfo, hinfo]
  cases m.builtin <;> rfl

/-- What was just chosen is the default exactly if its folder is known, or none is. -/
theorem effectiveDefaultId_chosen (hid : id ≠ []) (hmem : id ∈ m.databases.map (·.id)) :
    ({ m with choiceId := id } : KeyDatabaseSettingsModel).effectiveDefaultId = id ↔
      m.isUsable id = true ∨ ∀ info ∈ m.databases, m.isUsable info.id = false := by
  have hresolved : resolveDefaultKeyDatabaseId id m.compose = id := by
    have hany : (m.compose.any fun item => item.id = id) = true := by
      rw [← ids_compose] at hmem
      obtain ⟨item, hitem, heq⟩ := List.mem_map.1 hmem
      exact List.any_eq_true.2 ⟨item, hitem, decide_eq_true heq⟩
    rw [resolveDefaultKeyDatabaseId, if_pos]
    rw [hany, decide_eq_true hid]
    rfl
  have husable : ∀ other, ({ m with choiceId := id } : KeyDatabaseSettingsModel).isUsable other
      = m.isUsable other := fun _ => rfl
  have hcompose : ({ m with choiceId := id } : KeyDatabaseSettingsModel).compose = m.compose := rfl
  have hitems : ∀ {other}, other ∈ m.compose.map (·.id) ↔ other ∈ m.databases.map (·.id) := by
    intro other
    rw [ids_compose]
  unfold effectiveDefaultId
  simp only [hcompose, hresolved, husable]
  by_cases hself : m.isUsable id = true
  · rw [if_pos hself]
    exact iff_of_true rfl (.inl hself)
  rw [if_neg hself]
  cases hfind : m.compose.find? fun item => m.isUsable item.id with
  | none =>
    refine iff_of_true rfl (.inr fun info hinfo => ?_)
    obtain ⟨item, hitem, heq⟩ := List.mem_map.1 (hitems.2 (List.mem_map_of_mem hinfo))
    have hno := List.find?_eq_none.1 hfind item hitem
    rw [← heq]
    exact Bool.eq_false_iff.2 hno
  | some item =>
    have husableItem := List.find?_some hfind
    refine iff_of_false (fun heq => hself ?_) fun hor => ?_
    · have hitemId : item.id = id := heq
      rw [← hitemId]
      exact husableItem
    · have hmemItem := hitems.1 (List.mem_map_of_mem (List.mem_of_find?_eq_some hfind))
      obtain ⟨info, hinfo, hinfoId⟩ := List.mem_map.1 hmemItem
      have hnone := hor.resolve_left hself info hinfo
      rw [hinfoId] at hnone
      exact absurd husableItem (Bool.eq_false_iff.1 hnone)

/-- The default has a folder, if a database has one. -/
theorem isUsable_effectiveDefaultId (h : ∃ info ∈ m.databases, m.isUsable info.id = true) :
    m.isUsable m.effectiveDefaultId = true := by
  obtain ⟨info, hinfo, husable⟩ := h
  unfold effectiveDefaultId
  dsimp only
  split
  · next hresolved => exact hresolved
  · cases hfind : m.compose.find? fun item => m.isUsable item.id with
    | some item =>
      have husableItem := List.find?_some hfind
      exact husableItem
    | none =>
      have hmem : info.id ∈ m.compose.map (·.id) := by
        rw [ids_compose]
        exact List.mem_map_of_mem hinfo
      obtain ⟨item, hitem, heq⟩ := List.mem_map.1 hmem
      exact absurd (heq ▸ husable) (List.find?_eq_none.1 hfind item hitem)

/-! ## Loading -/

/-- One database more is held, unless it takes the place of the built-in one. -/
theorem held_place (h : info.kind = .default → m.builtin = none) :
    (m.place info).held.Perm (m.held ++ [info]) := by
  unfold place
  cases hkind : info.kind with
  | default =>
    simp only [held, h hkind, Option.toList_none, Option.toList_some, List.nil_append,
      List.singleton_append]
    exact (List.perm_append_singleton info _).symm
  | managed =>
    simp only [held, List.append_assoc]
    refine (List.Perm.append_left _ (List.Perm.append_left _ ?_))
    rw [List.singleton_append, ← List.append_assoc]
    exact (List.perm_append_singleton info _).symm
  | external =>
    simp only [held, List.append_assoc]
    refine (List.Perm.append_left _ (List.Perm.append_left _ (List.Perm.append_left _ ?_)))
    exact (List.perm_append_singleton info _).symm

/-- How many of the databases are built-in ones. -/
def builtInCount (all : List KeyDatabaseInfo) : Nat := all.countP (·.kind = .default)

/-- By induction on the list: with one built-in database at most, all of them are held. -/
theorem held_foldl_place {all : List KeyDatabaseInfo}
    (h : m.builtin.toList.length + builtInCount all ≤ 1) :
    (all.foldl place m).held.Perm (m.held ++ all) := by
  induction all generalizing m with
  | nil => rw [List.append_nil]; exact List.Perm.refl _
  | cons info rest ih =>
    rw [builtInCount, List.countP_cons] at h
    have hbuiltin : info.kind = .default → m.builtin = none := by
      intro hkind
      rw [if_pos (decide_eq_true hkind)] at h
      cases hm : m.builtin with
      | none => rfl
      | some old =>
        rw [hm, Option.toList_some, List.length_singleton] at h
        omega
    have hlength : (m.place info).builtin.toList.length
        = m.builtin.toList.length + if info.kind = .default then 1 else 0 := by
      unfold place
      cases hkind : info.kind with
      | default => rw [hbuiltin hkind]; rfl
      | managed => rfl
      | external => rfl
    have hrest : (m.place info).builtin.toList.length + builtInCount rest ≤ 1 := by
      rw [hlength, builtInCount]
      simp only [decide_eq_true_eq] at h
      omega
    rw [List.foldl_cons, List.append_cons]
    exact (ih hrest).trans ((held_place hbuiltin).append_right rest)

theorem foldl_place_lists (all : List KeyDatabaseInfo) (m : KeyDatabaseSettingsModel) :
    (all.foldl place m).managed = m.managed ++ all.filter (·.kind = .managed) ∧
      (all.foldl place m).removedManaged = m.removedManaged := by
  induction all generalizing m with
  | nil => exact ⟨(List.append_nil _).symm, rfl⟩
  | cons info rest ih =>
    obtain ⟨hmanaged, hremoved⟩ := ih (m.place info)
    rw [List.foldl_cons, hmanaged, hremoved, List.filter_cons]
    unfold place
    cases hkind : info.kind with
    | default => exact ⟨rfl, rfl⟩
    | managed => exact ⟨List.append_assoc _ _ _, rfl⟩
    | external => exact ⟨rfl, rfl⟩

/-! ## What an operation moves -/

theorem removeAt_cases (m : KeyDatabaseSettingsModel) (table : KeyDatabaseTable) (row : Int) :
    m.removeAt table row = m ∨
    ∃ info, (m.list table)[row.toNat]? = some info ∧
      m.removeAt table row =
        { m with
          choiceId := if m.choiceId ≠ [] ∧ info.id = m.choiceId then [] else m.choiceId
          removedManaged := if table = KeyDatabaseTable.managed then m.removedManaged ++ [info]
            else m.removedManaged }.setList ((m.list table).eraseIdx row.toNat) table := by
  unfold removeAt
  split
  · exact .inl rfl
  · cases hrow : (m.list table)[row.toNat]? with
    | none => exact .inl rfl
    | some info => exact .inr ⟨info, rfl, rfl⟩

/-- A managed database moves to those that may be put back. -/
theorem held_removeAt_managed {row : Nat} (h : m.managed[row]? = some info) :
    (m.builtin.toList ++ m.managed.eraseIdx row ++ m.external ++
      (m.removedManaged ++ [info])).Perm m.held := by
  obtain ⟨hrow, rfl⟩ := List.getElem?_eq_some_iff.1 h
  have hperm := List.getElem_cons_eraseIdx_perm hrow
  rw [held, ← List.append_assoc]
  refine List.perm_append_comm.trans ?_
  rw [List.singleton_append]
  refine List.Perm.trans ?_ ((((hperm.append_left m.builtin.toList).append_right
    m.external).append_right m.removedManaged))
  simp only [List.append_assoc, List.cons_append]
  exact List.perm_middle.symm

theorem undoRemoval_cases (m : KeyDatabaseSettingsModel) (id : QString) :
    m.undoRemoval id = (m, false) ∨
    ∃ info ∈ m.removedManaged, info.id = id ∧
      m.undoRemoval id = ({ m with
        managed := m.managed ++ [info]
        removedManaged := m.removedManaged.eraseP (·.id = id) }, true) ∧
      (info :: m.removedManaged.eraseP (·.id = id)).Perm m.removedManaged := by
  unfold undoRemoval
  cases hfind : m.removedManaged.find? fun info => info.id = id with
  | none => exact .inl rfl
  | some info =>
    have hid : info.id = id := by simpa using List.find?_some hfind
    exact .inr ⟨info, List.mem_of_find?_eq_some hfind, hid, rfl, cons_eraseP_perm hfind⟩

end KeyDatabaseSettingsModel

/-! ## The books -/

/-- Every loaded managed database that was not committed as removed is in one of the two lists,
ids are distinct, a choice made on the page names a database that is there, and one that was
made the default is the default. -/
structure Books (all : List KeyDatabaseInfo) (p : Page) : Prop where
  booked : ∀ info ∈ all, info.kind = .managed → info.id ∉ p.committed →
    Xor (info ∈ p.model.managed) (info ∈ p.model.removedManaged)
  distinct : (p.model.held.map (·.id)).Nodup
  choice : p.chosenHere = true → p.model.choiceId ≠ [] →
    p.model.choiceId ∈ p.model.databases.map (·.id)
  used : ∀ id, p.used = some id → p.model.effectiveDefaultId = id

/-- A choice was made on the page, and names the built-in database. -/
def Page.ChoseBuiltIn (p : Page) : Prop :=
  p.chosenHere = true ∧ p.model.choiceId ≠ [] ∧
    p.model.builtin.any (fun info => info.id = p.model.choiceId) = true

/-- An operation that keeps the books: a database that is made the default has a folder, or none
has; one that is turned off under a choice of it has the id that is withdrawn; and one that is
turned on has an id of its own, and that of the choice if it takes the place of what was
chosen. -/
def PageOp.Sound (p : Page) : PageOp → Prop
  | .setBuiltIn none => p.ChoseBuiltIn → p.model.choiceId = defaultKeyDatabaseId
  | .setBuiltIn (some info) =>
    info.id ∉ (p.model.managed ++ p.model.external ++ p.model.removedManaged).map (·.id) ∧
      (p.ChoseBuiltIn → info.id = p.model.choiceId)
  | .useAsDefault id =>
    p.model.contains id = true → p.model.isUsable id = true ∨
      ∀ info ∈ p.model.databases, p.model.isUsable info.id = false
  | _ => True

section Books

open KeyDatabaseSettingsModel

variable {all : List KeyDatabaseInfo} {p : Page} {id : QString}

theorem Books.nodup (h : Books all p) : p.model.held.Nodup := List.Nodup.of_map _ h.distinct

theorem Books.nodup_removed (h : Books all p) : p.model.removedManaged.Nodup :=
  h.nodup.sublist (List.sublist_append_right _ _)

theorem Books.nodup_managed (h : Books all p) : p.model.managed.Nodup := by
  refine h.nodup.sublist ?_
  rw [held, List.append_assoc, List.append_assoc]
  exact (List.sublist_append_left _ _).trans (List.sublist_append_right _ _)

theorem Books.not_both (h : Books all p) {info : KeyDatabaseInfo} (hm : info ∈ p.model.managed) :
    info ∉ p.model.removedManaged := by
  have hdisjoint := (List.nodup_append.1 h.nodup).2.2
  intro hremoved
  exact hdisjoint info (by simp [hm]) info hremoved rfl

/-! ### Loading -/

theorem books_load (hdistinct : (all.map (·.id)).Nodup) (hbuiltin : builtInCount all ≤ 1)
    (choice : QString) : Books all (Page.load all choice) where
  booked info hinfo hkind _ := by
    obtain ⟨hmanaged, hremoved⟩ := foldl_place_lists all {}
    refine .inl ⟨?_, ?_⟩
    · show info ∈ (all.foldl place {}).managed
      rw [hmanaged]
      exact List.mem_filter.2 ⟨hinfo, decide_eq_true hkind⟩
    · show info ∉ (all.foldl place {}).removedManaged
      rw [hremoved]
      exact List.not_mem_nil
  distinct := by
    have hperm : (all.foldl place {}).held.Perm all :=
      held_foldl_place (by simpa using hbuiltin)
    exact (hperm.map _).nodup_iff.2 hdistinct
  choice h := by cases h
  used _ h := by cases h

/-! ### Operations that move databases -/

/-- An operation that moves databases of the page among its lists. -/
theorem Books.moved (h : Books all p) {m : KeyDatabaseSettingsModel}
    (hmanaged : ∀ info, info ∈ m.managed ↔ info ∈ p.model.managed)
    (hremoved : ∀ info, info ∈ m.removedManaged ↔ info ∈ p.model.removedManaged)
    (hheld : m.held.Perm p.model.held) (hdatabases : m.databases.Perm p.model.databases)
    (hchoice : m.choiceId = p.model.choiceId) :
    Books all { p with model := m, used := none } where
  booked info hinfo hkind hcommitted := by
    show Xor (info ∈ m.managed) (info ∈ m.removedManaged)
    rw [hmanaged, hremoved]
    exact h.booked info hinfo hkind hcommitted
  distinct := (hheld.map _).nodup_iff.2 h.distinct
  choice hhere hne := by
    show m.choiceId ∈ m.databases.map (·.id)
    rw [(hdatabases.map _).mem_iff, hchoice]
    exact h.choice hhere (hchoice ▸ hne)
  used _ hused := by cases hused

theorem books_moveRow (h : Books all p) (table : KeyDatabaseTable) (from_ insertAt : Int) :
    Books all (p.step (.moveRow table from_ insertAt)) := by
  have hperm := moveRow_perm (p.model.list table) from_ insertAt
  cases table with
  | managed =>
    exact h.moved (fun info => hperm.mem_iff) (fun _ => Iff.rfl)
      (((hperm.append_left _).append_right _).append_right _)
      ((hperm.append_left _).append_right _) rfl
  | external =>
    exact h.moved (fun _ => Iff.rfl) (fun _ => Iff.rfl) ((hperm.append_left _).append_right _)
      (hperm.append_left _) rfl

theorem books_undoRemoval (h : Books all p) (id : QString) :
    Books all (p.step (.undoRemoval id)) := by
  rcases undoRemoval_cases p.model id with heq | ⟨info, hinfo, rfl, heq, hperm⟩
  · show Books all { p with model := (p.model.undoRemoval id).1, used := none }
    rw [heq]
    exact h.moved (fun _ => Iff.rfl) (fun _ => Iff.rfl) (.refl _) (.refl _) rfl
  · show Books all { p with model := (p.model.undoRemoval info.id).1, used := none }
    rw [heq]
    have hmem : ∀ other, other ∈ p.model.removedManaged.eraseP (·.id = info.id) ↔
        other ∈ p.model.removedManaged ∧ other ≠ info :=
      fun other => mem_rest_iff hperm h.nodup_removed
    have hmanaged : info ∉ p.model.managed := fun hm => h.not_both hm hinfo
    refine ⟨fun other hother hkind hcommitted => ?_, ?_, fun hhere hne => ?_, fun _ hused => ?_⟩
    · have hbooked := h.booked other hother hkind hcommitted
      show Xor (other ∈ p.model.managed ++ [info])
        (other ∈ p.model.removedManaged.eraseP (·.id = info.id))
      rw [hmem, List.mem_append, List.mem_singleton]
      by_cases hother : other = info
      · subst hother
        exact .inl ⟨.inr rfl, fun hno => hno.2 rfl⟩
      · simpa [hother] using hbooked
    · refine ((List.Perm.map _ ?_).nodup_iff).2 h.distinct
      show (p.model.builtin.toList ++ (p.model.managed ++ [info]) ++ p.model.external ++
        p.model.removedManaged.eraseP (·.id = info.id)).Perm p.model.held
      rw [held]
      simp only [List.append_assoc]
      refine List.Perm.append_left _ (List.Perm.append_left _ ?_)
      refine List.Perm.trans ?_ (List.Perm.append_left _ hperm)
      rw [List.singleton_append]
      exact List.perm_middle.symm
    · have hold := h.choice hhere hne
      obtain ⟨chosen, hchosen, hid⟩ := List.mem_map.1 hold
      refine List.mem_map.2 ⟨chosen, ?_, hid⟩
      show chosen ∈ p.model.builtin.toList ++ (p.model.managed ++ [info]) ++ p.model.external
      rw [databases, List.mem_append, List.mem_append] at hchosen
      rw [List.mem_append, List.mem_append, List.mem_append]
      tauto
    · cases hused

theorem step_commitRemoval (p : Page) (id : QString) (listSo : KeyDatabaseListSO) :
    p.step (.commitRemoval id listSo) = { p with used := none } ∨
    ∃ info, p.model.removedManaged.find? (fun info => info.id = id) = some info ∧
      p.step (.commitRemoval id listSo) = { p with
        model := { p.model with removedManaged := p.model.removedManaged.eraseP (·.id = id) }
        committed := id :: p.committed
        used := none } := by
  cases hfind : p.model.removedManaged.find? fun info => info.id = id with
  | none =>
    left
    simp only [Page.step, commitRemoval, hfind]
    rfl
  | some info =>
    refine .inr ⟨info, rfl, ?_⟩
    simp only [Page.step, commitRemoval, hfind]
    rfl

theorem books_commitRemoval (h : Books all p) (id : QString) (listSo : KeyDatabaseListSO) :
    Books all (p.step (.commitRemoval id listSo)) := by
  rcases step_commitRemoval p id listSo with heq | ⟨info, hfind, heq⟩
  · rw [heq]
    exact h.moved (fun _ => Iff.rfl) (fun _ => Iff.rfl) (.refl _) (.refl _) rfl
  · have hid : info.id = id := by simpa using List.find?_some hfind
    have hmem : ∀ other, other ∈ p.model.removedManaged.eraseP (·.id = id) ↔
        other ∈ p.model.removedManaged ∧ other ≠ info :=
      fun other => mem_rest_iff (cons_eraseP_perm hfind) h.nodup_removed
    rw [heq]
    refine ⟨fun other hother hkind hcommitted => ?_, ?_, h.choice, fun _ hused => ?_⟩
    · obtain ⟨hne, hbefore⟩ := not_or.1 (mt List.mem_cons.2 hcommitted)
      have hother' : other ≠ info := fun heq => hne (heq ▸ hid)
      show Xor (other ∈ p.model.managed) (other ∈ p.model.removedManaged.eraseP (·.id = id))
      rw [hmem, and_iff_left hother']
      exact h.booked other hother hkind hbefore
    · exact h.distinct.sublist ((List.eraseP_sublist.append_left _).map _)
    · cases hused

/-- A choice of another database than one that was removed still names a database. -/
theorem choice_removed (p : Page) {m : KeyDatabaseSettingsModel} {info : KeyDatabaseInfo}
    (hchoice : p.chosenHere = true → p.model.choiceId ≠ [] →
      p.model.choiceId ∈ p.model.databases.map (·.id))
    (hdatabases : ∀ other ∈ p.model.databases, other ≠ info → other ∈ m.databases)
    (hid : m.choiceId
      = if p.model.choiceId ≠ [] ∧ info.id = p.model.choiceId then [] else p.model.choiceId)
    (hhere : p.chosenHere = true) (hne : m.choiceId ≠ []) :
    m.choiceId ∈ m.databases.map (·.id) := by
  rw [hid] at hne ⊢
  split at hne
  · exact absurd rfl hne
  · next hother =>
    rw [if_neg hother]
    obtain ⟨chosen, hchosen, heq⟩ := List.mem_map.1 (hchoice hhere hne)
    refine List.mem_map.2 ⟨chosen, hdatabases chosen hchosen ?_, heq⟩
    rintro rfl
    exact hother ⟨hne, heq⟩

theorem books_removeAt (h : Books all p) (table : KeyDatabaseTable) (row : Int) :
    Books all (p.step (.removeAt table row)) := by
  show Books all { p with model := p.model.removeAt table row, used := none }
  rcases removeAt_cases p.model table row with heq | ⟨info, hrow, heq⟩
  · rw [heq]
    exact h.moved (fun _ => Iff.rfl) (fun _ => Iff.rfl) (.refl _) (.refl _) rfl
  rw [heq]
  cases table with
  | managed =>
    obtain ⟨hlt, hget⟩ := List.getElem?_eq_some_iff.1 hrow
    replace hlt : row.toNat < p.model.managed.length := hlt
    replace hget : p.model.managed[row.toNat] = info := hget
    have hperm : (info :: p.model.managed.eraseIdx row.toNat).Perm p.model.managed :=
      hget ▸ List.getElem_cons_eraseIdx_perm hlt
    have hmem : ∀ other, other ∈ p.model.managed.eraseIdx row.toNat ↔
        other ∈ p.model.managed ∧ other ≠ info := fun other => mem_rest_iff hperm h.nodup_managed
    have hinfo : info ∈ p.model.managed := hget ▸ List.getElem_mem hlt
    refine ⟨fun other hother hkind hcommitted => ?_, ?_, ?_, fun _ hused => ?_⟩
    · have hbooked := h.booked other hother hkind hcommitted
      show Xor (other ∈ p.model.managed.eraseIdx row.toNat)
        (other ∈ p.model.removedManaged ++ [info])
      rw [hmem, List.mem_append, List.mem_singleton]
      by_cases hother : other = info
      · subst hother
        exact .inr ⟨.inr rfl, fun hno => hno.2 rfl⟩
      · simpa [hother] using hbooked
    · exact ((held_removeAt_managed hrow).map _).nodup_iff.2 h.distinct
    · refine choice_removed p h.choice (fun other hother hne => ?_) rfl
      show other ∈ p.model.builtin.toList ++ p.model.managed.eraseIdx row.toNat ++ p.model.external
      rw [databases, List.mem_append, List.mem_append] at hother
      rw [List.mem_append, List.mem_append, hmem]
      tauto
    · cases hused
  | external =>
    obtain ⟨hlt, hget⟩ := List.getElem?_eq_some_iff.1 hrow
    replace hlt : row.toNat < p.model.external.length := hlt
    replace hget : p.model.external[row.toNat] = info := hget
    have hperm : (info :: p.model.external.eraseIdx row.toNat).Perm p.model.external :=
      hget ▸ List.getElem_cons_eraseIdx_perm hlt
    refine ⟨h.booked, ?_, ?_, fun _ hused => ?_⟩
    · refine h.distinct.sublist (List.Sublist.map _ ?_)
      exact (((List.eraseIdx_sublist _ _).append_left _).append_right _)
    · refine choice_removed p h.choice (fun other hother hne => ?_) rfl
      show other ∈ p.model.builtin.toList ++ p.model.managed ++ p.model.external.eraseIdx row.toNat
      rw [databases, List.mem_append] at hother
      rw [List.mem_append]
      refine hother.imp_right fun hexternal => ?_
      exact (List.mem_cons.1 (hperm.mem_iff.2 hexternal)).resolve_left hne
    · cases hused

/-! ### Turning the built-in database on and off, and choosing -/

/-- The ids of all that is held but the built-in database. -/
theorem held_setBuiltIn (m : KeyDatabaseSettingsModel) (info : Option KeyDatabaseInfo) :
    (m.setBuiltIn info).held
      = info.toList ++ (m.managed ++ m.external ++ m.removedManaged) := by
  unfold setBuiltIn
  split <;> simp [held]

theorem databases_setBuiltIn (m : KeyDatabaseSettingsModel) (info : Option KeyDatabaseInfo) :
    (m.setBuiltIn info).databases = info.toList ++ m.managed ++ m.external := by
  unfold setBuiltIn
  split <;> rfl

theorem any_id_iff {info : Option KeyDatabaseInfo} :
    info.any (fun info => info.id = id) = true ↔ id ∈ info.toList.map (·.id) := by
  cases info with
  | none => simp
  | some info => simp [eq_comm]

/-- The choice names a database that is there after the built-in one was set: what the page
chose was among the others, or has the id of the new one. -/
theorem mem_databases_setBuiltIn (h : Books all p) {info : Option KeyDatabaseInfo}
    (hhere : p.chosenHere = true) (hne : p.model.choiceId ≠ []) :
    p.model.choiceId ∈ (p.model.setBuiltIn info).databases.map (·.id) ↔
      (p.ChoseBuiltIn → info.any (fun info => info.id = p.model.choiceId) = true) := by
  have hold := h.choice hhere hne
  have hdisjoint : p.model.choiceId ∈ p.model.builtin.toList.map (·.id) →
      p.model.choiceId ∉ (p.model.managed ++ p.model.external).map (·.id) := by
    intro hbuiltin hrest
    have hdistinct := h.distinct
    rw [held, List.append_assoc _ p.model.managed, List.map_append, List.map_append] at hdistinct
    have hpage := (List.nodup_append.1 hdistinct).1
    exact (List.nodup_append.1 hpage).2.2 _ hbuiltin _ hrest rfl
  rw [databases, List.append_assoc, List.map_append, List.mem_append] at hold
  rw [databases_setBuiltIn, List.append_assoc, List.map_append, List.mem_append, any_id_iff]
  constructor
  · rintro hnew ⟨-, -, hchose⟩
    exact hnew.resolve_right (hdisjoint (any_id_iff.1 hchose))
  · intro himp
    rcases hold with hbuiltin | hrest
    · exact .inl (himp ⟨hhere, hne, any_id_iff.2 hbuiltin⟩)
    · exact .inr hrest

theorem choiceId_setBuiltIn (m : KeyDatabaseSettingsModel) (info : Option KeyDatabaseInfo) :
    (m.setBuiltIn info).choiceId
      = if info = none ∧ m.choiceId = defaultKeyDatabaseId then [] else m.choiceId := by
  unfold setBuiltIn
  split <;> rfl

theorem lists_setBuiltIn (m : KeyDatabaseSettingsModel) (info : Option KeyDatabaseInfo) :
    (m.setBuiltIn info).managed = m.managed ∧
      (m.setBuiltIn info).removedManaged = m.removedManaged := by
  unfold setBuiltIn
  split <;> exact ⟨rfl, rfl⟩

/-- Setting the built-in database keeps the books exactly if the ids stay distinct and a choice
that is not withdrawn still names a database. -/
theorem books_setBuiltIn_iff (h : Books all p) (info : Option KeyDatabaseInfo) :
    Books all (p.step (.setBuiltIn info)) ↔
      ((p.model.setBuiltIn info).held.map (·.id)).Nodup ∧
      (p.ChoseBuiltIn → ¬ (info = none ∧ p.model.choiceId = defaultKeyDatabaseId) →
        info.any (fun info => info.id = p.model.choiceId) = true) := by
  obtain ⟨hmanaged, hremoved⟩ := lists_setBuiltIn p.model info
  constructor
  · intro hbooks
    refine ⟨hbooks.distinct, fun hchose hkept => ?_⟩
    refine (mem_databases_setBuiltIn h hchose.1 hchose.2.1).1 ?_ hchose
    have hchoice : (p.model.setBuiltIn info).choiceId = p.model.choiceId := by
      rw [choiceId_setBuiltIn, if_neg hkept]
    have hthere := hbooks.choice hchose.1 (hchoice ▸ hchose.2.1)
    exact hchoice ▸ hthere
  · rintro ⟨hdistinct, hchoice⟩
    refine ⟨fun other hother hkind hcommitted => ?_, hdistinct, fun hhere hne => ?_,
      fun _ hused => ?_⟩
    · show Xor (other ∈ (p.model.setBuiltIn info).managed)
        (other ∈ (p.model.setBuiltIn info).removedManaged)
      rw [hmanaged, hremoved]
      exact h.booked other hother hkind hcommitted
    · show (p.model.setBuiltIn info).choiceId ∈ (p.model.setBuiltIn info).databases.map (·.id)
      replace hne : (p.model.setBuiltIn info).choiceId ≠ [] := hne
      rw [choiceId_setBuiltIn] at hne ⊢
      split at hne
      · exact absurd rfl hne
      · next hkept =>
        rw [if_neg hkept]
        exact (mem_databases_setBuiltIn h hhere hne).2 fun hchose => hchoice hchose hkept
    · cases hused

theorem books_turnedOff_iff (h : Books all p) :
    Books all (p.step (.setBuiltIn none)) ↔ (PageOp.setBuiltIn none).Sound p := by
  rw [books_setBuiltIn_iff h, held_setBuiltIn]
  have hnodup : (((none : Option KeyDatabaseInfo).toList ++
      (p.model.managed ++ p.model.external ++ p.model.removedManaged)).map (·.id)).Nodup := by
    refine h.distinct.sublist (List.Sublist.map _ ?_)
    rw [held, List.append_assoc, List.append_assoc, List.append_assoc]
    exact List.sublist_append_right _ _
  show _ ↔ (p.ChoseBuiltIn → p.model.choiceId = defaultKeyDatabaseId)
  rw [and_iff_right hnodup]
  refine forall_congr' fun _ => ?_
  simp

theorem books_turnedOn_iff (h : Books all p) (info : KeyDatabaseInfo) :
    Books all (p.step (.setBuiltIn (some info))) ↔ (PageOp.setBuiltIn (some info)).Sound p := by
  rw [books_setBuiltIn_iff h, held_setBuiltIn]
  have hrest : ((p.model.managed ++ p.model.external ++ p.model.removedManaged).map
      (·.id)).Nodup := by
    refine h.distinct.sublist (List.Sublist.map _ ?_)
    rw [held, List.append_assoc, List.append_assoc, List.append_assoc]
    exact List.sublist_append_right _ _
  show _ ↔ info.id ∉ (p.model.managed ++ p.model.external ++ p.model.removedManaged).map (·.id) ∧
    (p.ChoseBuiltIn → info.id = p.model.choiceId)
  rw [Option.toList_some, List.singleton_append, List.map_cons, List.nodup_cons,
    and_iff_left hrest]
  refine and_congr Iff.rfl (forall_congr' fun _ => ?_)
  simp

theorem step_useAsDefault (p : Page) (id : QString) :
    p.step (.useAsDefault id) =
      if p.model.canUseAsDefault id then
        { p with model := { p.model with choiceId := id }, chosenHere := true, used := some id }
      else { p with used := none } := by
  by_cases hcan : p.model.canUseAsDefault id = true
  · simp [Page.step, useAsDefault, hcan]
  · simp [Page.step, useAsDefault, hcan]

/-- A database that is made the default is the default exactly if it has a folder, or none has. -/
theorem books_useAsDefault_iff (h : Books all p) (id : QString) :
    Books all (p.step (.useAsDefault id)) ↔ (PageOp.useAsDefault id).Sound p := by
  show _ ↔ (p.model.contains id = true → p.model.isUsable id = true ∨
    ∀ info ∈ p.model.databases, p.model.isUsable info.id = false)
  rw [step_useAsDefault]
  by_cases hcan : p.model.canUseAsDefault id = true
  · have hparts : id ≠ [] ∧ p.model.contains id = true := by
      simp only [canUseAsDefault, Bool.and_eq_true, decide_eq_true_eq] at hcan
      exact hcan.1
    have hmem := (contains_iff hparts.1).1 hparts.2
    rw [if_pos hcan, imp_iff_right hparts.2, ← effectiveDefaultId_chosen hparts.1 hmem]
    constructor
    · exact fun hbooks => hbooks.used id rfl
    · intro heffective
      refine ⟨h.booked, h.distinct, fun _ _ => hmem, fun other hother => ?_⟩
      rw [← Option.some.inj hother]
      exact heffective
  · rw [if_neg hcan]
    refine iff_of_true (h.moved (fun _ => Iff.rfl) (fun _ => Iff.rfl) (.refl _) (.refl _) rfl)
      fun hcontains => ?_
    -- what is in the list and cannot be made the default is the default
    have hid : id ≠ [] := by
      rintro rfl
      cases hcontains
    have heffective : id = p.model.effectiveDefaultId := by
      by_contra hne
      exact hcan (by simp [canUseAsDefault, hid, hcontains, hne])
    by_cases husable : ∃ info ∈ p.model.databases, p.model.isUsable info.id = true
    · exact .inl (heffective ▸ isUsable_effectiveDefaultId husable)
    · refine .inr fun info hinfo => Bool.eq_false_iff.2 fun htrue => husable ⟨info, hinfo, htrue⟩

/-- It is exactly the sound operations that keep the books. -/
theorem books_step_iff (h : Books all p) (op : PageOp) : Books all (p.step op) ↔ op.Sound p := by
  cases op with
  | setBuiltIn info =>
    cases info with
    | none => exact books_turnedOff_iff h
    | some info => exact books_turnedOn_iff h info
  | removeAt table row => exact iff_of_true (books_removeAt h table row) trivial
  | undoRemoval id => exact iff_of_true (books_undoRemoval h id) trivial
  | commitRemoval id listSo => exact iff_of_true (books_commitRemoval h id listSo) trivial
  | moveRow table from_ insertAt =>
    exact iff_of_true (books_moveRow h table from_ insertAt) trivial
  | useAsDefault id => exact books_useAsDefault_iff h id

/-- From every loaded list with distinct ids and at most one built-in database, a page keeps its
books throughout exactly if every operation is sound where it is done. -/
theorem books_kept_iff (hdistinct : (all.map (·.id)).Nodup) (hbuiltin : builtInCount all ≤ 1)
    (choice : QString) (ops : List PageOp) :
    (∀ n, Books all ((ops.take n).foldl Page.step (Page.load all choice))) ↔
      BeforeEach (fun _ => false) Page.step (fun p op => op.Sound p) ops
        (Page.load all choice) := by
  have hstep : ∀ p op, True → Books all p → (Books all (Page.step p op) ↔ op.Sound p) :=
    fun p op _ hbooks => books_step_iff hbooks op
  have hkept : ∀ (p : Page) (op : PageOp), True → True := fun _ _ _ => trivial
  exact prefixes_good_iff_beforeEach hkept hstep trivial (books_load hdistinct hbuiltin choice)

end Books

/-! ## A database whose folder is gone -/

def builtInInfo : KeyDatabaseInfo where
  id := defaultKeyDatabaseId
  path := [47, 104]
  kind := .default

/-- One of the profile, with its folder. -/
def workInfo : KeyDatabaseInfo where
  id := [119, 111, 114, 107]
  path := [47, 119]
  kind := .managed

/-- One of this computer, on a drive that may be away. -/
def usbInfo (path : QString) : KeyDatabaseInfo where
  id := [117, 115, 98]
  path := path
  originPath := [47, 117]
  kind := .external

/-- The one on the drive is made the default, the managed one removed and put back, and the
built-in one turned off. -/
theorem usb_books_kept :
    Books [builtInInfo, workInfo, usbInfo [47, 117]]
      (([.useAsDefault [117, 115, 98], .removeAt .managed 0, .undoRemoval [119, 111, 114, 107],
        .setBuiltIn none] : List PageOp).foldl Page.step
        (Page.load [builtInInfo, workInfo, usbInfo [47, 117]] [])) := by
  suffices hall : ∀ n, Books [builtInInfo, workInfo, usbInfo [47, 117]]
      ((([.useAsDefault [117, 115, 98], .removeAt .managed 0, .undoRemoval [119, 111, 114, 107],
        .setBuiltIn none] : List PageOp).take n).foldl Page.step
        (Page.load [builtInInfo, workInfo, usbInfo [47, 117]] [])) from hall 4
  refine (books_kept_iff (by decide) (by decide) [] _).2 fun _ => ⟨fun _ => .inl (by decide), ?_⟩
  refine fun _ => ⟨trivial, fun _ => ⟨trivial, fun _ => ⟨fun hchose => ?_, trivial⟩⟩⟩
  exact absurd hchose.2.2 (by decide)

/-- While the drive is away, its database is made the default, and the built-in one is the
default. -/
theorem unresolved_database_is_no_default :
    ¬ ∀ (all : List KeyDatabaseInfo) (choice : QString) (ops : List PageOp),
      (all.map (·.id)).Nodup → KeyDatabaseSettingsModel.builtInCount all ≤ 1 →
        Books all (ops.foldl Page.step (Page.load all choice)) := by
  intro h
  have hbooks := h [builtInInfo, usbInfo []] [] [.useAsDefault [117, 115, 98]] (by decide)
    (by decide)
  have hdefault := hbooks.used [117, 115, 98] (by decide)
  exact absurd hdefault (by decide)

end GpgFrontend
