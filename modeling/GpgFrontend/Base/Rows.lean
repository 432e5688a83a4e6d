import Mathlib.Data.List.Nodup
import Mathlib.Data.List.Perm.Basic

/-!
# Tables as lists of rows

A table is a list of rows, known by a key; the order of the rows is no content.
-/

namespace GpgFrontend

section Rows

variable {α κ : Type} [DecidableEq κ] (key : α → κ)

/-- The row takes the place of any other with its key. -/
def replaceRow (rows : List α) (row : α) : List α :=
  (rows.filter fun r => key r ≠ key row) ++ [row]

variable {key} {rows : List α} {row : α}

theorem mem_replaceRow {r : α} :
    r ∈ replaceRow key rows row ↔ (r ∈ rows ∧ key r ≠ key row) ∨ r = row := by
  unfold replaceRow
  rw [List.mem_append, List.mem_filter, List.mem_singleton, decide_eq_true_eq]

theorem nodup_replaceRow (h : (rows.map key).Nodup) : ((replaceRow key rows row).map key).Nodup := by
  unfold replaceRow
  rw [List.map_append, List.nodup_append]
  refine ⟨h.sublist (List.filter_sublist.map key), List.nodup_singleton _, ?_⟩
  intro k hk k' hk'
  obtain ⟨r, hr, rfl⟩ := List.mem_map.mp hk
  rw [List.map_singleton, List.mem_singleton] at hk'
  rw [hk']
  simpa using (List.mem_filter.mp hr).2

omit [DecidableEq κ] in
/-- With one row a key, two rows of a key are one. -/
theorem eq_of_key_eq (h : (rows.map key).Nodup) {r : α} (hr : r ∈ rows) (hrow : row ∈ rows)
    (hkey : key r = key row) : r = row :=
  List.inj_on_of_nodup_map h hr hrow hkey

theorem find?_of_nodup (h : (rows.map key).Nodup) (hrow : row ∈ rows) :
    rows.find? (fun r => key r = key row) = some row := by
  cases hfind : rows.find? fun r => key r = key row with
  | none =>
    have hnone := List.find?_eq_none.mp hfind row hrow
    exact absurd (decide_eq_true rfl) hnone
  | some r =>
    have hkey : key r = key row := by simpa using List.find?_some hfind
    rw [eq_of_key_eq h (List.mem_of_find?_eq_some hfind) hrow hkey]

variable (key) in
/-- A row at the end, unless its key is there. -/
def insertUnique (rows : List α) (row : α) : Option (List α) :=
  if key row ∈ rows.map key then none else some (rows ++ [row])

/-- Rows inserted one after the other: all of them, or one has a key that is there. -/
theorem foldlM_insertUnique {new : List α} (h : (rows.map key).Nodup) :
    new.foldlM (insertUnique key) rows =
      if ((rows ++ new).map key).Nodup then some (rows ++ new) else none := by
  induction new generalizing rows with
  | nil =>
    rw [List.append_nil, if_pos h]
    rfl
  | cons row new ih =>
    rw [List.foldlM_cons, insertUnique]
    by_cases hrow : key row ∈ rows.map key
    · rw [if_pos hrow, if_neg]
      · rfl
      · rw [List.map_append, List.map_cons]
        intro hnodup
        exact (List.nodup_append.mp hnodup).2.2 _ hrow _ List.mem_cons_self rfl
    · rw [if_neg hrow]
      have hnext : ((rows ++ [row]).map key).Nodup := by
        rw [List.map_append, List.map_singleton]
        exact List.nodup_append.mpr ⟨h, List.nodup_singleton _, fun a ha b hb hab =>
          hrow (List.mem_singleton.mp hb ▸ hab ▸ ha)⟩
      show new.foldlM (insertUnique key) (rows ++ [row]) = _
      rw [ih hnext, List.append_assoc, List.singleton_append]

/-- The rows of a key, put back with the others. -/
theorem replaceGroup_perm (k : κ) {group : List α}
    (h : group.Perm (rows.filter fun r => key r = k)) :
    ((rows.filter fun r => key r ≠ k) ++ group).Perm rows := by
  refine (h.append_left _).trans (List.perm_append_comm.trans ?_)
  have hsplit := List.filter_append_perm (fun r => decide (key r = k)) rows
  simpa using hsplit

theorem replaceRow_perm (h : (rows.map key).Nodup) (hrow : row ∈ rows) :
    (replaceRow key rows row).Perm rows := by
  refine replaceGroup_perm (key row) ?_
  have hgroup : ∀ r ∈ rows.filter (fun r => key r = key row), r = row := by
    intro r hr
    rw [List.mem_filter, decide_eq_true_eq] at hr
    exact eq_of_key_eq h hr.1 hrow hr.2
  have hnodup : (rows.filter fun r => key r = key row).Nodup :=
    (List.Nodup.of_map key h).filter _
  refine (List.perm_ext_iff_of_nodup (List.nodup_singleton row) hnodup).mpr fun r => ?_
  rw [List.mem_singleton]
  constructor
  · rintro rfl
    exact List.mem_filter.mpr ⟨hrow, decide_eq_true rfl⟩
  · exact hgroup r

end Rows

section Parts

variable {α β γ : Type} [DecidableEq β] {owner : α → β} {part : α → γ} {rows : List α}

/-- Rows with an owner and a part: one owner's, replaced, still have one row for each part. -/
theorem nodup_replaceParts {new : List α} {k : β}
    (h : (rows.map fun row => (owner row, part row)).Nodup)
    (hnew : (new.map part).Nodup) (howner : ∀ row ∈ new, owner row = k) :
    (((rows.filter fun row => owner row ≠ k) ++ new).map fun row =>
      (owner row, part row)).Nodup := by
  rw [List.map_append, List.nodup_append]
  refine ⟨h.sublist (List.filter_sublist.map _), ?_, ?_⟩
  · refine List.Nodup.of_map Prod.snd ?_
    rw [List.map_map]
    exact hnew
  · intro a ha b hb
    obtain ⟨row, hrow, rfl⟩ := List.mem_map.mp ha
    obtain ⟨row', hrow', rfl⟩ := List.mem_map.mp hb
    have hne : owner row ≠ k := by simpa using (List.mem_filter.mp hrow).2
    intro heq
    exact hne ((congrArg Prod.fst heq).trans (howner row' hrow'))

/-- One owner's rows inserted where he has none: all of them, or a part is there twice. -/
theorem foldlM_insertParts [DecidableEq γ] {new : List α} {k : β}
    (h : (rows.map fun row => (owner row, part row)).Nodup) (howner : ∀ row ∈ new, owner row = k) :
    new.foldlM (insertUnique fun row => (owner row, part row))
        (rows.filter fun row => owner row ≠ k) =
      if (new.map part).Nodup then some ((rows.filter fun row => owner row ≠ k) ++ new)
      else none := by
  rw [foldlM_insertUnique (h.sublist (List.filter_sublist.map _))]
  by_cases hnew : (new.map part).Nodup
  · rw [if_pos hnew, if_pos (nodup_replaceParts h hnew howner)]
  · rw [if_neg hnew, if_neg]
    intro hall
    rw [List.map_append] at hall
    have hpairs := (List.nodup_append.mp hall).2.1
    have hsame : (new.map fun row => (owner row, part row)) =
        (new.map part).map fun p => (k, p) := by
      rw [List.map_map]
      exact List.map_congr_left fun row hrow => by rw [howner row hrow]; rfl
    rw [hsame] at hpairs
    exact hnew (List.Nodup.of_map _ hpairs)

/-- Each part of one owner is in one row. -/
theorem nodup_part (h : (rows.map fun row => (owner row, part row)).Nodup) (k : β) :
    ((rows.filter fun row => owner row = k).map part).Nodup := by
  have hrows : rows.Nodup := List.Nodup.of_map _ h
  refine List.Nodup.map_on (fun r hr r' hr' hpart => ?_) (hrows.filter _)
  rw [List.mem_filter, decide_eq_true_eq] at hr hr'
  exact List.inj_on_of_nodup_map h hr.1 hr'.1 (Prod.ext (hr.2.trans hr'.2.symm) hpart)

end Parts

end GpgFrontend
