import GpgFrontend.Base.Rows

/-!
# Merging lists of keyed components

Components are known by a key. `mergeKeyed` takes the components of one list into another: the
first component with the key is updated, a new one is made and appended where one may be.

- `lookupKey_addKeyed_self`, `lookupKey_addKeyed_of_ne`: what one step does, by key.
-/

namespace GpgFrontend

section

variable {γ δ κ : Type} [DecidableEq κ] (key : γ → κ) (key' : δ → κ) (update : γ → δ → γ)
  (make : δ → Option γ)

/-- The first component with the key. -/
def lookupKey (k : κ) (l : List γ) : Option γ := l.find? fun d => decide (key d = k)

/-- Updates the first component with the key of `c`. -/
def updateFirst (c : δ) : List γ → List γ
  | [] => []
  | d :: l => if key d = key' c then update d c :: l else d :: updateFirst c l

/-- Takes in one component. -/
def addKeyed (dst : List γ) (c : δ) : List γ :=
  if dst.any fun d => decide (key d = key' c) then updateFirst key key' update c dst
  else
    match make c with
    | some d => dst ++ [d]
    | none => dst

/-- Takes in the components of `src`, in order. -/
def mergeKeyed (dst : List γ) (src : List δ) : List γ :=
  src.foldl (addKeyed key key' update make) dst

variable {key key' update make}

/-! ## One step, by key -/

theorem lookupKey_append (k : κ) (l l' : List γ) :
    lookupKey key k (l ++ l') = (lookupKey key k l).or (lookupKey key k l') := by
  simp [lookupKey, List.find?_append]

theorem any_key_iff (k : κ) (l : List γ) :
    (l.any fun d => decide (key d = k)) = (lookupKey key k l).isSome := by
  rw [lookupKey, List.isSome_find?]

theorem lookupKey_updateFirst_self (hkey : ∀ d c, key (update d c) = key d) (c : δ) (l : List γ) :
    lookupKey key (key' c) (updateFirst key key' update c l)
      = (lookupKey key (key' c) l).map fun d => update d c := by
  induction l with
  | nil => rfl
  | cons d l ih =>
    rw [updateFirst]
    by_cases hd : key d = key' c
    · simp [lookupKey, hd, hkey]
    · simp only [lookupKey] at ih ⊢
      simp [hd, ih]

theorem lookupKey_updateFirst_of_ne (hkey : ∀ d c, key (update d c) = key d) {c : δ} {k : κ}
    (hk : key' c ≠ k) (l : List γ) :
    lookupKey key k (updateFirst key key' update c l) = lookupKey key k l := by
  induction l with
  | nil => rfl
  | cons d l ih =>
    rw [updateFirst]
    by_cases hd : key d = key' c
    · simp [lookupKey, hd, hkey, hk]
    · simp only [lookupKey] at ih ⊢
      by_cases hdk : key d = k
      · rw [if_neg hd]
        simp [hdk]
      · rw [if_neg hd]
        simp [hdk, ih]

theorem lookupKey_addKeyed_self (hkey : ∀ d c, key (update d c) = key d)
    (hmake : ∀ c d, make c = some d → key d = key' c) (dst : List γ) (c : δ) :
    lookupKey key (key' c) (addKeyed key key' update make dst c)
      = ((lookupKey key (key' c) dst).map fun d => update d c).or (make c) := by
  rw [addKeyed, any_key_iff]
  cases hdst : lookupKey key (key' c) dst with
  | some d =>
    rw [if_pos Option.isSome_some, lookupKey_updateFirst_self hkey, hdst]
    rfl
  | none =>
    rw [if_neg (by simp)]
    cases hnew : make c with
    | none => simp [hdst]
    | some d =>
      rw [lookupKey_append, hdst]
      simp [lookupKey, hmake c d hnew]

theorem lookupKey_addKeyed_of_ne (hkey : ∀ d c, key (update d c) = key d)
    (hmake : ∀ c d, make c = some d → key d = key' c) {c : δ} {k : κ} (hk : key' c ≠ k)
    (dst : List γ) :
    lookupKey key k (addKeyed key key' update make dst c) = lookupKey key k dst := by
  rw [addKeyed]
  split
  · exact lookupKey_updateFirst_of_ne hkey hk dst
  · cases hnew : make c with
    | none => rfl
    | some d =>
      rw [lookupKey_append]
      have hne : key d ≠ k := fun h => hk ((hmake c d hnew).symm.trans h)
      simp [lookupKey, hne]

/-- Which keys are there, where every component may be made. -/
theorem exists_key_addKeyed (hkey : ∀ d c, key (update d c) = key d)
    (hmake : ∀ c d, make c = some d → key d = key' c) {c : δ} (hsome : (make c).isSome = true)
    (dst : List γ) (k : κ) :
    (∃ d ∈ addKeyed key key' update make dst c, key d = k) ↔
      (∃ d ∈ dst, key d = k) ∨ k = key' c := by
  have hlookup : ∀ l : List γ, (∃ d ∈ l, key d = k) ↔ (lookupKey key k l).isSome = true := by
    intro l
    rw [← any_key_iff]
    simp
  rw [hlookup, hlookup]
  by_cases hk : key' c = k
  · subst hk
    rw [lookupKey_addKeyed_self hkey hmake]
    simp [hsome]
  · rw [lookupKey_addKeyed_of_ne hkey hmake hk]
    simp [Ne.symm hk]

/-! ## The merge -/

/-- Every component is there after one more, as it was or updated. -/
theorem addKeyed_keeps {R : γ → γ → Prop} (hrefl : ∀ d, R d d) (hupdate : ∀ d c, R d (update d c))
    {dst : List γ} {d : γ} (hd : d ∈ dst) (c : δ) :
    ∃ d' ∈ addKeyed key key' update make dst c, R d d' := by
  have hfirst : ∃ d' ∈ updateFirst key key' update c dst, R d d' := by
    induction dst with
    | nil => cases hd
    | cons e dst ih =>
      rw [updateFirst]
      rcases List.mem_cons.1 hd with rfl | hd
      · split
        · exact ⟨_, .head _, hupdate d c⟩
        · exact ⟨d, .head _, hrefl d⟩
      · split
        · exact ⟨d, .tail _ hd, hrefl d⟩
        · obtain ⟨d', hd', hR⟩ := ih hd
          exact ⟨d', .tail _ hd', hR⟩
  unfold addKeyed
  split
  · exact hfirst
  · split
    · exact ⟨d, List.mem_append_left _ hd, hrefl d⟩
    · exact ⟨d, hd, hrefl d⟩

theorem mergeKeyed_keeps {R : γ → γ → Prop} (hrefl : ∀ d, R d d)
    (htrans : ∀ a b c, R a b → R b c → R a c) (hupdate : ∀ d c, R d (update d c)) {dst : List γ}
    {d : γ} (hd : d ∈ dst) (src : List δ) :
    ∃ d' ∈ mergeKeyed key key' update make dst src, R d d' := by
  induction src generalizing dst d with
  | nil => exact ⟨d, hd, hrefl d⟩
  | cons c src ih =>
    have hnext : ∃ e ∈ addKeyed key key' update make dst c, R d e :=
      addKeyed_keeps hrefl hupdate hd c
    obtain ⟨e, he, hde⟩ := hnext
    obtain ⟨d', hd', hed⟩ := ih he
    exact ⟨d', hd', htrans _ _ _ hde hed⟩

/-- A component that is there already, or may be made, is taken in: `Q` says of what, and no later
update undoes it. -/
theorem mergeKeyed_takes {Q : δ → γ → Prop} (hkey : ∀ d c, key (update d c) = key d)
    (hmake : ∀ c d, make c = some d → key d = key' c ∧ Q c d) (hupdate : ∀ d c, Q c (update d c))
    (hlater : ∀ d c c', Q c d → Q c (update d c')) {src : List δ} {c : δ} (hc : c ∈ src)
    {dst : List γ} (h : (∃ d ∈ dst, key d = key' c) ∨ (make c).isSome = true) :
    ∃ d ∈ mergeKeyed key key' update make dst src, key d = key' c ∧ Q c d := by
  induction src generalizing dst with
  | nil => cases hc
  | cons e src ih =>
    rcases List.mem_cons.1 hc with rfl | hc
    · -- it is taken in now, and kept by what comes later
      have hin : ∃ d ∈ addKeyed key key' update make dst c, key d = key' c ∧ Q c d := by
        have hself : lookupKey key (key' c) (addKeyed key key' update make dst c) = _ :=
          lookupKey_addKeyed_self hkey (fun c d hd => (hmake c d hd).1) dst c
        cases hdst : lookupKey key (key' c) dst with
        | some d =>
          rw [hdst, Option.map_some, Option.some_or] at hself
          have hfound := List.find?_some (p := fun d => decide (key d = key' c)) hdst
          exact ⟨_, List.mem_of_find?_eq_some hself, by rw [hkey]; simpa using hfound, hupdate d c⟩
        | none =>
          rw [hdst, Option.map_none, Option.none_or] at hself
          rcases h with ⟨d, hd, hdkey⟩ | hsome
          · exact absurd hdkey (by simpa using List.find?_eq_none.1 hdst d hd)
          · obtain ⟨d, hd⟩ := Option.isSome_iff_exists.1 hsome
            exact ⟨d, List.mem_of_find?_eq_some (hself.trans hd), hmake c d hd⟩
      obtain ⟨d, hd, hdkey, hQ⟩ := hin
      have hkept : ∃ d' ∈ mergeKeyed key key' update make _ src,
          key d' = key d ∧ (Q c d → Q c d') :=
        mergeKeyed_keeps (R := fun a b => key b = key a ∧ (Q c a → Q c b)) (fun _ => ⟨rfl, id⟩)
          (fun _ _ _ h h' => ⟨h'.1.trans h.1, h'.2 ∘ h.2⟩)
          (fun d c' => ⟨hkey d c', hlater d c c'⟩) hd src
      obtain ⟨d', hd', hkey', hQ'⟩ := hkept
      exact ⟨d', hd', hkey'.trans hdkey, hQ' hQ⟩
    · refine ih hc (h.imp_left fun ⟨d, hd, hdkey⟩ => ?_)
      have hkept : ∃ d' ∈ addKeyed key key' update make dst e, key d' = key d :=
        addKeyed_keeps (R := fun a b => key b = key a) (fun _ => rfl) hkey hd e
      obtain ⟨d', hd', hdd⟩ := hkept
      exact ⟨d', hd', hdd.trans hdkey⟩

end

end GpgFrontend
