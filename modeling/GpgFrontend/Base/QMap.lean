import Mathlib.Data.List.Pairwise
import Mathlib.Data.String.Basic

/-!
# Maps sorted by key

`QMap` with texts as keys: the entries in the order of their keys, each key once.
-/

namespace GpgFrontend

/-- `QMap`: its entries in order. -/
@[ext] structure QMap (β : Type) where
  entries : List (String × β)
  sorted : entries.Pairwise fun a b => a.1 < b.1
  deriving DecidableEq

namespace QMap

variable {β : Type} {m : QMap β} {key other : String} {v : β}

/-- A map without entries. -/
def empty : QMap β := ⟨[], List.Pairwise.nil⟩

instance : Inhabited (QMap β) := ⟨empty⟩

@[simp] theorem entries_empty : (empty : QMap β).entries = [] := rfl

/-! ## Insertion -/

/-- An entry put in its place, over the one with its key. -/
def insertEntry (key : String) (v : β) : List (String × β) → List (String × β)
  | [] => [(key, v)]
  | (name, w) :: rest =>
    if key < name then (key, v) :: (name, w) :: rest
    else if key = name then (key, v) :: rest
    else (name, w) :: insertEntry key v rest

variable {entries : List (String × β)}

theorem mem_insertEntry {entry : String × β} (h : entry ∈ insertEntry key v entries) :
    entry = (key, v) ∨ entry ∈ entries := by
  induction entries with
  | nil => exact .inl (List.mem_singleton.1 h)
  | cons first rest ih =>
    rw [insertEntry] at h
    split at h
    · exact List.mem_cons.1 h
    · split at h
      · exact (List.mem_cons.1 h).imp_right (List.mem_cons_of_mem _)
      · rcases List.mem_cons.1 h with rfl | hrest
        · exact .inr List.mem_cons_self
        · exact (ih hrest).imp_right (List.mem_cons_of_mem _)

theorem sorted_insertEntry (h : entries.Pairwise fun a b => a.1 < b.1) :
    (insertEntry key v entries).Pairwise fun a b => a.1 < b.1 := by
  induction entries with
  | nil => exact List.pairwise_singleton _ _
  | cons first rest ih =>
    obtain ⟨hfirst, hrest⟩ := List.pairwise_cons.1 h
    rw [insertEntry]
    split
    · next hlt =>
      refine List.pairwise_cons.2 ⟨fun entry hentry => ?_, h⟩
      rcases List.mem_cons.1 hentry with rfl | hlater
      · exact hlt
      · exact lt_trans hlt (hfirst entry hlater)
    · next hge =>
      split
      · next heq =>
        exact List.pairwise_cons.2 ⟨fun entry hentry => heq ▸ hfirst entry hentry, hrest⟩
      · next hne =>
        refine List.pairwise_cons.2 ⟨fun entry hentry => ?_, ih hrest⟩
        rcases mem_insertEntry hentry with rfl | hlater
        · exact lt_of_le_of_ne (not_lt.1 hge) (Ne.symm hne)
        · exact hfirst entry hlater

/-- `QMap::insert`. -/
def insert (m : QMap β) (key : String) (v : β) : QMap β :=
  ⟨insertEntry key v m.entries, sorted_insertEntry m.sorted⟩

/-! ## Reading -/

/-- `QMap::constFind`, `QMap::value`. -/
def value (m : QMap β) (key : String) : Option β := m.entries.lookup key

/-- `QMap::keys`. -/
def keys (m : QMap β) : List String := m.entries.map Prod.fst

/-- `QMap::size`. -/
def size (m : QMap β) : Nat := m.entries.length

@[simp] theorem keys_empty : (empty : QMap β).keys = [] := rfl

theorem length_keys (m : QMap β) : m.keys.length = m.size := List.length_map _

theorem sorted_keys (m : QMap β) : m.keys.Pairwise (· < ·) :=
  List.pairwise_map.2 m.sorted

theorem nodup_keys (m : QMap β) : m.keys.Nodup := m.sorted_keys.imp ne_of_lt

/-- In a list sorted by key, looking a key up finds its entry. -/
theorem lookup_eq_some_iff (h : entries.Pairwise fun a b => a.1 < b.1) :
    entries.lookup key = some v ↔ (key, v) ∈ entries := by
  induction entries with
  | nil => simp
  | cons first rest ih =>
    obtain ⟨hfirst, hrest⟩ := List.pairwise_cons.1 h
    rw [List.lookup_cons, List.mem_cons]
    by_cases hkey : key = first.1
    · subst hkey
      have hnot : (first.1, v) ∉ rest := fun hmem => lt_irrefl first.1 (hfirst (first.1, v) hmem)
      simp only [beq_self_eq_true, hnot, or_false, Option.some.injEq, Prod.ext_iff,
        true_and]
      exact eq_comm
    · rw [beq_false_of_ne hkey]
      have hne : (key, v) ≠ first := fun heq => hkey (congrArg Prod.fst heq)
      simp only [hne, false_or]
      exact ih hrest

theorem value_eq_some_iff : m.value key = some v ↔ (key, v) ∈ m.entries :=
  lookup_eq_some_iff m.sorted

/-- Maps are told apart by their values. -/
theorem ext_value {other : QMap β} (h : ∀ key, m.value key = other.value key) : m = other := by
  refine QMap.ext (List.Perm.eq_of_pairwise
    (fun a b _ _ hab hba => absurd hab (lt_asymm hba)) m.sorted other.sorted ?_)
  have hnodup (m : QMap β) : m.entries.Nodup :=
    m.sorted.imp fun hlt heq => ne_of_lt hlt (congrArg Prod.fst heq)
  refine (List.perm_ext_iff_of_nodup (hnodup m) (hnodup other)).2 fun entry => ?_
  rw [← value_eq_some_iff, ← value_eq_some_iff, h]

theorem mem_keys_iff : key ∈ m.keys ↔ ∃ v, m.value key = some v := by
  simp only [keys, List.mem_map, value_eq_some_iff, Prod.exists]
  constructor
  · rintro ⟨_, v, hmem, rfl⟩
    exact ⟨v, hmem⟩
  · rintro ⟨v, hmem⟩
    exact ⟨key, v, hmem, rfl⟩

theorem lookup_insertEntry_self (entries : List (String × β)) :
    (insertEntry key v entries).lookup key = some v := by
  induction entries with
  | nil => exact List.lookup_cons_self
  | cons first rest ih =>
    unfold insertEntry
    split
    · exact List.lookup_cons_self
    · split
      · exact List.lookup_cons_self
      · next hne => rw [List.lookup_cons, beq_false_of_ne hne]; exact ih

theorem lookup_insertEntry_ne (h : other ≠ key) (entries : List (String × β)) :
    (insertEntry key v entries).lookup other = entries.lookup other := by
  induction entries with
  | nil => rw [insertEntry, List.lookup_cons, beq_false_of_ne h]
  | cons first rest ih =>
    unfold insertEntry
    split
    · rw [List.lookup_cons, beq_false_of_ne h]
    · split
      · next heq =>
        rw [List.lookup_cons, List.lookup_cons, beq_false_of_ne h, beq_false_of_ne (heq ▸ h)]
      · rw [List.lookup_cons, List.lookup_cons]
        split
        · rfl
        · exact ih

@[simp] theorem value_insert_self : (m.insert key v).value key = some v :=
  lookup_insertEntry_self m.entries

@[simp] theorem value_insert_ne (h : other ≠ key) : (m.insert key v).value other = m.value other :=
  lookup_insertEntry_ne h m.entries

theorem mem_keys_insert : other ∈ (m.insert key v).keys ↔ other = key ∨ other ∈ m.keys := by
  by_cases h : other = key
  · subst h
    simp [mem_keys_iff]
  · simp [mem_keys_iff, h]

/-! ## Many insertions -/

/-- Entries inserted one after the other. -/
def insertAll (m : QMap β) (entries : List (String × β)) : QMap β :=
  entries.foldl (fun m entry => m.insert entry.1 entry.2) m

@[simp] theorem insertAll_nil : m.insertAll [] = m := rfl

@[simp] theorem insertAll_cons {entry : String × β} {entries : List (String × β)} :
    m.insertAll (entry :: entries) = (m.insert entry.1 entry.2).insertAll entries := rfl

theorem mem_insertAll {entry : String × β} :
    ∀ {m : QMap β}, entry ∈ (m.insertAll entries).entries → entry ∈ m.entries ∨ entry ∈ entries := by
  induction entries with
  | nil => exact fun h => .inl h
  | cons first rest ih =>
    intro m h
    rcases ih h with hinsert | hrest
    · rcases mem_insertEntry hinsert with rfl | hm
      · exact .inr List.mem_cons_self
      · exact .inl hm
    · exact .inr (List.mem_cons_of_mem _ hrest)

theorem mem_keys_insertAll :
    ∀ {m : QMap β}, key ∈ (m.insertAll entries).keys ↔
      key ∈ m.keys ∨ key ∈ entries.map Prod.fst := by
  induction entries with
  | nil => simp
  | cons entry rest ih =>
    intro m
    rw [insertAll_cons, ih, mem_keys_insert, List.map_cons, List.mem_cons]
    tauto

theorem value_insertAll_ne (h : key ∉ entries.map Prod.fst) :
    ∀ {m : QMap β}, (m.insertAll entries).value key = m.value key := by
  induction entries with
  | nil => exact rfl
  | cons entry rest ih =>
    intro m
    rw [List.map_cons, List.mem_cons, not_or] at h
    rw [insertAll_cons, ih h.2, value_insert_ne h.1]

theorem value_insertAll (hnodup : (entries.map Prod.fst).Nodup) (h : (key, v) ∈ entries) :
    ∀ {m : QMap β}, (m.insertAll entries).value key = some v := by
  induction entries with
  | nil => cases h
  | cons entry rest ih =>
    intro m
    obtain ⟨hnew, hrest⟩ := List.nodup_cons.1 hnodup
    rw [insertAll_cons]
    rcases List.mem_cons.1 h with rfl | hlater
    · rw [value_insertAll_ne hnew, value_insert_self]
    · exact ih hrest hlater

/-- As many entries as there were insertions, when each key is inserted once. -/
theorem size_insertAll (hnodup : (entries.map Prod.fst).Nodup) :
    ((empty : QMap β).insertAll entries).size = entries.length := by
  have hperm : ((empty : QMap β).insertAll entries).keys.Perm (entries.map Prod.fst) :=
    (List.perm_ext_iff_of_nodup (nodup_keys _) hnodup).2 fun key => by
      rw [mem_keys_insertAll, keys_empty]
      simp
  rw [← length_keys, hperm.length_eq, List.length_map]

/-- Behind all others. -/
theorem insertEntry_of_lt (h : ∀ entry ∈ entries, entry.1 < key) :
    insertEntry key v entries = entries ++ [(key, v)] := by
  induction entries with
  | nil => rfl
  | cons first rest ih =>
    have hlt := h first List.mem_cons_self
    rw [insertEntry, if_neg (not_lt_of_gt hlt), if_neg (ne_of_gt hlt),
      ih fun entry hentry => h entry (List.mem_cons_of_mem _ hentry)]
    rfl

/-- Entries inserted in their order stand behind what was there. -/
theorem insertAll_sorted :
    ∀ {m : QMap β}, (m.entries ++ entries).Pairwise (fun a b => a.1 < b.1) →
      (m.insertAll entries).entries = m.entries ++ entries := by
  induction entries with
  | nil =>
    intro m _
    exact (List.append_nil _).symm
  | cons entry rest ih =>
    intro m h
    have hlt : ∀ e ∈ m.entries, e.1 < entry.1 := fun e he =>
      (List.pairwise_append.1 h).2.2 e he entry List.mem_cons_self
    have hinsert : (m.insert entry.1 entry.2).entries = m.entries ++ [entry] :=
      insertEntry_of_lt hlt
    have hassoc : m.entries ++ entry :: rest = (m.insert entry.1 entry.2).entries ++ rest := by
      rw [hinsert, List.append_assoc, List.singleton_append]
    rw [insertAll_cons, ih (hassoc ▸ h), hassoc]

/-- A map is its entries inserted in order. -/
theorem insertAll_entries (m : QMap β) : (empty : QMap β).insertAll m.entries = m :=
  QMap.ext (insertAll_sorted m.sorted)

end QMap

end GpgFrontend
