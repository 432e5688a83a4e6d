import Mathlib.Data.List.DropRight
import Mathlib.Data.Nat.Digits.Lemmas
import GpgFrontend.Utils.KeyDatabaseList

/-!
# Numbering the key databases, naming them and giving them ids

- `Channels`: `NormalizeKeyDatabaseChannels` gives strictly ascending channels exactly when
  none of the numbers it needs is past the last `int` (`normalize_ascending_iff`), keeps the
  lowest (`normalize_nonneg_iff`), and leaves an ascending list alone. What it gives each entry
  is the least channel there is for it (`normalize_least`).
- `Identities`: `AssignKeyDatabaseIds` gives distinct ids (`assignIdsFrom_spec`), and keeps
  those of a list it made (`assignIdsFrom_settled`).
- `Names`: `UnusedKeyDatabaseName` finds one (`unusedKeyDatabaseName_unused`).
-/

namespace GpgFrontend

/-! ## Channels -/

variable {c : Int32}

theorem channel_succ (h : c.toInt + 1 < 2147483648) : (c + 1).toInt = c.toInt + 1 := by
  have hlow := c.le_toInt
  rw [Int32.toInt_add, show (1 : Int32).toInt = 1 from rfl]
  rw [Int.bmod_eq_of_le]
  · simp at hlow ⊢
    omega
  · simp at hlow ⊢
    omega

theorem channel_lt_succ_iff : c < c + 1 ↔ c.toInt + 1 < 2147483648 := by
  rw [Int32.lt_iff_toInt_lt]
  constructor
  · intro h
    by_contra hn
    have hhigh := c.toInt_lt
    have hmax : c.toInt = 2147483647 := by
      simp at hhigh
      omega
    rw [Int32.toInt_add, hmax] at h
    revert h
    decide
  · intro h
    rw [channel_succ h]
    omega

/-- SortedChannels by channel. -/
abbrev SortedChannels (items : List KeyDatabaseItemSO) : Prop :=
  items.Pairwise fun a b => a.channel ≤ b.channel

abbrev AscendingChannels (items : List KeyDatabaseItemSO) : Prop :=
  items.Pairwise fun a b => a.channel < b.channel

/-- Counting up from each entry over those that follow stays an `int`. -/
def FitsFrom : List KeyDatabaseItemSO → Prop
  | [] => True
  | item :: rest => item.channel.toInt + rest.length < 2147483648 ∧ FitsFrom rest

theorem raiseEqual_length (c : Int32) (items : List KeyDatabaseItemSO) :
    (raiseEqual c items).length = items.length := by
  induction items with
  | nil => rfl
  | cons item rest ih =>
    rw [raiseEqual]
    split
    · rw [List.length_cons, List.length_cons, ih]
    · rfl

variable {items : List KeyDatabaseItemSO}

/-- What the inner loop leaves of a sorted list that starts at `c` or later. -/
theorem raiseEqual_spec (hc : c.toInt + 1 < 2147483648) (hsorted : SortedChannels items)
    (hle : ∀ x ∈ items, c ≤ x.channel) :
    SortedChannels (raiseEqual c items) ∧ (∀ x ∈ raiseEqual c items, c < x.channel) ∧
    (FitsFrom (raiseEqual c items) → FitsFrom items) ∧
    (FitsFrom items → c.toInt + items.length < 2147483648 → FitsFrom (raiseEqual c items)) := by
  have hsucc := channel_succ hc
  induction items with
  | nil => exact ⟨List.Pairwise.nil, fun _ h => (by cases h), fun h => h, fun h _ => h⟩
  | cons item rest ih =>
    obtain ⟨hhead, htail⟩ := List.pairwise_cons.mp hsorted
    obtain ⟨hs, hlt, hfits, hfits'⟩ := ih htail fun x hx => hle x (List.mem_cons_of_mem _ hx)
    rw [raiseEqual]
    split
    · next heq =>
      refine ⟨List.pairwise_cons.mpr ⟨?_, hs⟩, ?_, ?_, ?_⟩
      · intro x hx
        have hx' := Int32.lt_iff_toInt_lt.mp (hlt x hx)
        show c + 1 ≤ x.channel
        rw [Int32.le_iff_toInt_le, hsucc]
        omega
      · intro x hx
        rcases List.mem_cons.mp hx with rfl | hx
        · exact channel_lt_succ_iff.mpr hc
        · exact hlt x hx
      · rintro ⟨hfirst, hrest⟩
        refine ⟨?_, hfits hrest⟩
        replace hfirst : (c + 1).toInt + (raiseEqual c rest).length < 2147483648 := hfirst
        rw [raiseEqual_length, hsucc] at hfirst
        rw [heq]
        omega
      · rintro ⟨-, hrest⟩ htotal
        rw [List.length_cons] at htotal
        refine ⟨?_, hfits' hrest (by omega)⟩
        show (c + 1).toInt + (raiseEqual c rest).length < 2147483648
        rw [raiseEqual_length, hsucc]
        omega
    · next hne =>
      -- the rest of the list is past `c` already
      have hpast : c < item.channel :=
        Int32.lt_of_le_of_ne (hle item List.mem_cons_self) (Ne.symm hne)
      refine ⟨hsorted, ?_, fun h => h, fun h _ => h⟩
      intro x hx
      rcases List.mem_cons.mp hx with rfl | hx
      · exact hpast
      · exact Int32.lt_of_lt_of_le hpast (hhead x hx)

variable {n : Nat}

/-- The loop leaves the first entry alone. -/
theorem spreadChannels_head? (hn : 0 < n) : (spreadChannels n items).head? = items.head? := by
  obtain ⟨m, rfl⟩ := Nat.exists_eq_succ_of_ne_zero (Nat.pos_iff_ne_zero.mp hn)
  cases items with
  | nil => rfl
  | cons item rest => rfl

variable {rest : List KeyDatabaseItemSO}

theorem channel_succ_of_raised {next : KeyDatabaseItemSO}
    (h : ∀ x ∈ (raiseEqual c (next :: rest)).head?, c < x.channel) : c.toInt + 1 < 2147483648 := by
  rw [raiseEqual] at h
  split at h
  · have hlt : c < c + 1 := h { next with channel := c + 1 } rfl
    exact channel_lt_succ_iff.mp hlt
  · have hlt := Int32.lt_iff_toInt_lt.mp (h next rfl)
    have hhigh := next.channel.toInt_lt
    simp at hhigh
    omega

theorem ascending_cons {item : KeyDatabaseItemSO} :
    AscendingChannels (item :: rest) ↔
      (∀ x ∈ rest.head?, item.channel < x.channel) ∧ AscendingChannels rest := by
  constructor
  · intro h
    obtain ⟨hall, hrest⟩ := List.pairwise_cons.mp h
    exact ⟨fun x hx => hall x (List.mem_of_mem_head? hx), hrest⟩
  · rintro ⟨hhead, hrest⟩
    refine List.pairwise_cons.mpr ⟨?_, hrest⟩
    cases rest with
    | nil => exact fun x hx => by cases hx
    | cons y rest =>
      have hy : item.channel < y.channel := hhead y rfl
      intro x hx
      rcases List.mem_cons.mp hx with rfl | hx
      · exact hy
      · exact Int32.lt_trans hy ((List.pairwise_cons.mp hrest).1 x hx)

/-- The loop ends strictly ascending exactly when no number it needs is too large. -/
theorem spreadChannels_ascending_iff (hn : items.length ≤ n) (hsorted : SortedChannels items) :
    AscendingChannels (spreadChannels n items) ↔ FitsFrom items := by
  induction n generalizing items with
  | zero =>
    rw [List.eq_nil_of_length_eq_zero (Nat.le_zero.mp hn)]
    exact ⟨fun _ => trivial, fun _ => List.Pairwise.nil⟩
  | succ n ih =>
    cases items with
    | nil => exact ⟨fun _ => trivial, fun _ => List.Pairwise.nil⟩
    | cons item rest =>
      obtain ⟨hhead, htail⟩ := List.pairwise_cons.mp hsorted
      rw [spreadChannels, ascending_cons]
      have hlen : (raiseEqual item.channel rest).length ≤ n := by
        rw [raiseEqual_length]
        exact Nat.le_of_succ_le_succ hn
      constructor
      · rintro ⟨hlt, hasc⟩
        cases rest with
        | nil =>
          refine ⟨?_, trivial⟩
          have hhigh := item.channel.toInt_lt
          simp at hhigh ⊢
          omega
        | cons next rest =>
          have hc : item.channel.toInt + 1 < 2147483648 := by
            rw [raiseEqual_length, List.length_cons] at hlen
            rw [spreadChannels_head? (by omega)] at hlt
            exact channel_succ_of_raised hlt
          obtain ⟨hs, hpast, hfits, -⟩ := raiseEqual_spec hc htail hhead
          have hraised := (ih hlen hs).mp hasc
          refine ⟨?_, hfits hraised⟩
          cases hys : raiseEqual item.channel (next :: rest) with
          | nil =>
            have hzero := raiseEqual_length item.channel (next :: rest)
            rw [hys] at hzero
            cases hzero
          | cons y ys =>
            have hzero := raiseEqual_length item.channel (next :: rest)
            rw [hys] at hraised hpast hzero
            have hy := Int32.lt_iff_toInt_lt.mp (hpast y List.mem_cons_self)
            have hfirst := hraised.1
            rw [List.length_cons] at hzero
            omega
      · rintro ⟨hfirst, hfits⟩
        cases rest with
        | nil =>
          have hnil : spreadChannels n (raiseEqual item.channel []) = [] := by
            cases n <;> rfl
          rw [hnil]
          exact ⟨fun x hx => (by cases hx), List.Pairwise.nil⟩
        | cons next rest =>
          have hc : item.channel.toInt + 1 < 2147483648 := by
            rw [List.length_cons] at hfirst
            omega
          obtain ⟨hs, hlt, -, hfits'⟩ := raiseEqual_spec hc htail hhead
          refine ⟨?_, (ih hlen hs).mpr (hfits' hfits hfirst)⟩
          rw [spreadChannels_head? (Nat.lt_of_lt_of_le (by simp) (Nat.le_of_succ_le_succ hn))]
          exact fun x hx => hlt x (List.mem_of_mem_head? hx)

/-- From each channel on there are enough numbers for the entries that are there. -/
def ChannelsFit (items : List KeyDatabaseItemSO) : Prop :=
  ∀ x ∈ items,
    x.channel.toInt + items.countP (fun y => x.channel ≤ y.channel) ≤ 2147483648

instance (items : List KeyDatabaseItemSO) : Decidable (ChannelsFit items) :=
  inferInstanceAs (Decidable (∀ x ∈ items, _))

theorem channelsFit_perm {items' : List KeyDatabaseItemSO} (h : items.Perm items') :
    ChannelsFit items ↔ ChannelsFit items' := by
  unfold ChannelsFit
  constructor
  · intro hfit x hx
    rw [← h.countP_eq]
    exact hfit x (h.mem_iff.mpr hx)
  · intro hfit x hx
    rw [h.countP_eq]
    exact hfit x (h.mem_iff.mp hx)

theorem fitsFrom_iff (hsorted : SortedChannels items) : FitsFrom items ↔ ChannelsFit items := by
  induction items with
  | nil => exact ⟨fun _ _ h => (by cases h), fun _ => trivial⟩
  | cons item rest ih =>
    obtain ⟨hhead, htail⟩ := List.pairwise_cons.mp hsorted
    -- everything from the first entry on counts for it
    have hcount : (item :: rest).countP (fun y => item.channel ≤ y.channel) = rest.length + 1 := by
      rw [List.countP_eq_length.mpr, List.length_cons]
      intro x hx
      rw [decide_eq_true_eq]
      rcases List.mem_cons.mp hx with rfl | hx
      · exact Int32.le_refl _
      · exact hhead x hx
    unfold FitsFrom
    rw [ih htail]
    constructor
    · rintro ⟨hfirst, hrest⟩ x hx
      by_cases heq : x.channel = item.channel
      · rw [heq, hcount]
        omega
      · rcases List.mem_cons.mp hx with rfl | hx
        · exact absurd rfl heq
        · have hnot : ¬ x.channel ≤ item.channel := fun hle =>
            heq (Int32.le_antisymm hle (hhead x hx))
          rw [List.countP_cons_of_neg (by simpa using hnot)]
          exact hrest x hx
    · intro hfit
      constructor
      · have hfirst := hfit item List.mem_cons_self
        rw [hcount] at hfirst
        omega
      · intro x hx
        have hx' := hfit x (List.mem_cons_of_mem _ hx)
        have hle : rest.countP (fun y => x.channel ≤ y.channel) ≤
            (item :: rest).countP (fun y => x.channel ≤ y.channel) :=
          List.Sublist.countP_le (List.sublist_cons_self item rest)
        omega

instance : Std.Total (fun a b : KeyDatabaseItemSO => a.channel ≤ b.channel) :=
  ⟨fun a b => Int32.le_total a.channel b.channel⟩

instance : IsTrans KeyDatabaseItemSO (fun a b => a.channel ≤ b.channel) :=
  ⟨fun _ _ _ hab hbc => Int32.le_trans hab hbc⟩

theorem sortByChannel_perm (items : List KeyDatabaseItemSO) : (sortByChannel items).Perm items :=
  List.perm_insertionSort _ items

theorem sortByChannel_sorted (items : List KeyDatabaseItemSO) : SortedChannels (sortByChannel items) :=
  List.pairwise_insertionSort _ items

/-- `NormalizeKeyDatabaseChannels` gives strictly ascending channels exactly when they fit. -/
theorem normalize_ascending_iff (items : List KeyDatabaseItemSO) :
    AscendingChannels (normalizeKeyDatabaseChannels items) ↔ ChannelsFit items := by
  unfold normalizeKeyDatabaseChannels
  rw [spreadChannels_ascending_iff _ (sortByChannel_sorted items),
    fitsFrom_iff (sortByChannel_sorted items), channelsFit_perm (sortByChannel_perm items)]
  rw [(sortByChannel_perm items).length_eq]

/-- The lowest channel stays where it is. -/
theorem normalize_nonneg_iff (hasc : AscendingChannels (normalizeKeyDatabaseChannels items)) :
    (∀ x ∈ normalizeKeyDatabaseChannels items, 0 ≤ x.channel) ↔ ∀ x ∈ items, 0 ≤ x.channel := by
  have hperm := sortByChannel_perm items
  have hsorted := sortByChannel_sorted items
  unfold normalizeKeyDatabaseChannels at hasc ⊢
  cases hs : sortByChannel items with
  | nil =>
    rw [hs] at hperm
    cases hperm.nil_eq
    exact Iff.rfl
  | cons first rest =>
    rw [hs] at hperm hsorted hasc
    obtain ⟨m, hm⟩ : ∃ m, items.length = m + 1 := ⟨rest.length, by rw [← hperm.length_eq]; rfl⟩
    rw [hm, spreadChannels] at hasc ⊢
    constructor
    · intro h x hx
      have hfirst := h first List.mem_cons_self
      rcases List.mem_cons.mp (hperm.mem_iff.mpr hx) with rfl | hx
      · exact hfirst
      · exact Int32.le_trans hfirst ((List.pairwise_cons.mp hsorted).1 x hx)
    · intro h x hx
      have hfirst := h first (hperm.mem_iff.mp List.mem_cons_self)
      rcases List.mem_cons.mp hx with rfl | hx
      · exact hfirst
      · exact Int32.le_trans hfirst (Int32.le_of_lt ((List.pairwise_cons.mp hasc).1 x hx))

/-- The loop leaves an ascending list alone. -/
theorem spreadChannels_of_ascending (h : AscendingChannels items) :
    spreadChannels n items = items := by
  induction n generalizing items with
  | zero => rfl
  | succ n ih =>
    cases items with
    | nil => rfl
    | cons item rest =>
      have hraise : raiseEqual item.channel rest = rest := by
        cases rest with
        | nil => rfl
        | cons next rest =>
          have hlt := (List.pairwise_cons.mp h).1 next List.mem_cons_self
          rw [raiseEqual, if_neg (Ne.symm (Int32.ne_of_lt hlt))]
      rw [spreadChannels, hraise, ih (List.pairwise_cons.mp h).2]

/-- An ascending list is left alone. -/
theorem normalize_of_ascending (h : AscendingChannels items) :
    normalizeKeyDatabaseChannels items = items := by
  unfold normalizeKeyDatabaseChannels sortByChannel
  rw [List.Pairwise.insertionSort_eq (h.imp Int32.le_of_lt)]
  exact spreadChannels_of_ascending h

/-- Entries with one channel stay in their order. -/
theorem sortByChannel_filter (items : List KeyDatabaseItemSO) (c : Int32) :
    (sortByChannel items).filter (·.channel = c) = items.filter (·.channel = c) := by
  have hsub : (items.filter (·.channel = c)).Sublist (sortByChannel items) := by
    refine List.sublist_insertionSort (List.pairwise_of_forall_mem_list ?_) List.filter_sublist
    intro x hx y hy
    rw [List.mem_filter, decide_eq_true_eq] at hx hy
    rw [hx.2, hy.2]
    exact Int32.le_refl c
  have hfilter := hsub.filter (·.channel = c)
  rw [List.filter_filter] at hfilter
  simp only [Bool.and_self] at hfilter
  refine (hfilter.eq_of_length ?_).symm
  exact ((sortByChannel_perm items).filter _).length_eq.symm

/-- The second list is the first one with other channels: each is the least one from the old one
on that is above that of the entry before it. -/
def LeastChannels : Option KeyDatabaseItemSO → List KeyDatabaseItemSO →
    List KeyDatabaseItemSO → Prop
  | _, [], [] => True
  | before, item :: rest, item' :: rest' =>
    item' = { item with channel := item'.channel } ∧
    IsLeast {c : ℤ | item.channel.toInt ≤ c ∧ ∀ x ∈ before, x.channel.toInt < c}
      item'.channel.toInt ∧
    LeastChannels (some item') rest rest'
  | _, _, _ => False

/-- An entry above `c` has the same least channel when the inner loop has raised it from `c`. -/
theorem leastChannels_of_raised (hc : c.toInt + 1 < 2147483648) {before : KeyDatabaseItemSO}
    (hbefore : c.toInt ≤ before.channel.toInt) {spread : List KeyDatabaseItemSO}
    (h : LeastChannels (some before) (raiseEqual c items) spread) :
    LeastChannels (some before) items spread := by
  induction items generalizing before spread with
  | nil => exact h
  | cons item rest ih =>
    rw [raiseEqual] at h
    split at h
    · next heq =>
      cases spread with
      | nil => exact h
      | cons item' spread =>
        obtain ⟨hitem, ⟨⟨-, hpast⟩, hleast⟩, hrest⟩ := h
        have hlow := hpast before rfl
        refine ⟨hitem, ⟨⟨?_, hpast⟩, ?_⟩, ih (by omega) hrest⟩
        · rw [heq]
          omega
        · rintro d ⟨-, hd⟩
          -- what is above the entry before is `c + 1` at least
          refine hleast ⟨?_, hd⟩
          have hlow' := hd before rfl
          show (c + 1).toInt ≤ d
          rw [channel_succ hc]
          omega
    · exact h

/-- The loop gives each entry the least channel it can have. -/
theorem spreadChannels_least {before : Option KeyDatabaseItemSO} (hn : items.length ≤ n)
    (hsorted : SortedChannels items) (hfits : FitsFrom items)
    (hbefore : ∀ x ∈ before, ∀ item ∈ items, x.channel < item.channel) :
    LeastChannels before items (spreadChannels n items) := by
  induction n generalizing before items with
  | zero =>
    rw [List.eq_nil_of_length_eq_zero (Nat.le_zero.mp hn)]
    trivial
  | succ n ih =>
    cases items with
    | nil => trivial
    | cons item rest =>
      obtain ⟨hhead, htail⟩ := List.pairwise_cons.mp hsorted
      refine ⟨rfl, ⟨⟨Int.le_refl _, fun x hx => ?_⟩, fun c hc => hc.1⟩, ?_⟩
      · exact Int32.lt_iff_toInt_lt.mp (hbefore x hx item List.mem_cons_self)
      · have hlen : (raiseEqual item.channel rest).length ≤ n := by
          rw [raiseEqual_length]
          exact Nat.le_of_succ_le_succ hn
        cases rest with
        | nil => exact ih hlen List.Pairwise.nil trivial fun x _ y hy => by cases hy
        | cons next rest =>
          have hfirst := hfits.1
          have hc : item.channel.toInt + 1 < 2147483648 := by
            rw [List.length_cons] at hfirst
            omega
          -- the inner loop raises what is equal, and that costs no entry its least channel
          obtain ⟨hs, hlt, -, hfits'⟩ := raiseEqual_spec hc htail hhead
          refine leastChannels_of_raised hc (Int.le_refl _)
            (ih hlen hs (hfits' hfits.2 hfirst) fun x hx y hy => ?_)
          rw [← Option.some.inj hx]
          exact hlt y hy

/-- `NormalizeKeyDatabaseChannels` sorts by channel, equal ones in their order, and then gives each
entry the least channel it can have: nothing else changes, channels that are distinct stay, and
a second time nothing happens. -/
theorem normalize_least {items : List KeyDatabaseItemSO} (hfit : ChannelsFit items) :
    (sortByChannel items).Perm items ∧ SortedChannels (sortByChannel items) ∧
    (∀ c, (sortByChannel items).filter (·.channel = c) = items.filter (·.channel = c)) ∧
    LeastChannels none (sortByChannel items) (normalizeKeyDatabaseChannels items) ∧
    AscendingChannels (normalizeKeyDatabaseChannels items) ∧
    ((items.map (·.channel)).Nodup → normalizeKeyDatabaseChannels items = sortByChannel items) ∧
    normalizeKeyDatabaseChannels (normalizeKeyDatabaseChannels items)
      = normalizeKeyDatabaseChannels items := by
  have hperm := sortByChannel_perm items
  have hsorted := sortByChannel_sorted items
  have hasc := (normalize_ascending_iff items).mpr hfit
  refine ⟨hperm, hsorted, sortByChannel_filter items, ?_, hasc, ?_, normalize_of_ascending hasc⟩
  · refine spreadChannels_least (Nat.le_of_eq hperm.length_eq) hsorted ?_ (fun x hx => by cases hx)
    exact (fitsFrom_iff hsorted).mpr ((channelsFit_perm hperm).mpr hfit)
  · intro hnodup
    have hne := List.pairwise_map.mp ((hperm.map _).nodup_iff.mpr hnodup)
    exact spreadChannels_of_ascending (hsorted.imp₂ (fun _ _ => Int32.lt_of_le_of_ne) hne)

def sampleChannels : List KeyDatabaseItemSO :=
  [{ channel := 1 }, { channel := 0, name := [97] }, { channel := 0 }]

theorem normalize_least_sample :
    LeastChannels none (sortByChannel sampleChannels)
      (normalizeKeyDatabaseChannels sampleChannels) ∧
    (normalizeKeyDatabaseChannels sampleChannels).map (·.channel) = [0, 1, 2] := by
  have hfit : ChannelsFit sampleChannels := by decide
  exact ⟨(normalize_least hfit).2.2.2.1, by decide⟩

/-! ## Identities -/

theorem dropWhile_rdropWhile {p : UInt16 → Bool} (s : QString)
    (h : s.dropWhile p = s) : (s.rdropWhile p).dropWhile p = s.rdropWhile p := by
  rw [List.dropWhile_eq_self_iff] at h ⊢
  intro hl
  obtain ⟨t, ht⟩ := List.rdropWhile_prefix p s
  have hget : (s.rdropWhile p)[0]? = s[0]? := by
    conv => rhs; rw [← ht]
    rw [List.getElem?_append_left hl]
  have hs : 0 < s.length := by
    rw [← ht, List.length_append]
    omega
  have hzero := h hs
  rw [List.getElem?_eq_getElem hl, List.getElem?_eq_getElem hs, Option.some_inj] at hget
  simpa [hget] using hzero

theorem trimmed_trimmed (s : QString) : s.trimmed.trimmed = s.trimmed := by
  have h₁ : (s.dropWhile isSpaceUnit).dropWhile isSpaceUnit = s.dropWhile isSpaceUnit :=
    List.dropWhile_idempotent isSpaceUnit s
  have h₂ := dropWhile_rdropWhile (s.dropWhile isSpaceUnit) h₁
  show ((List.rdropWhile isSpaceUnit (s.dropWhile isSpaceUnit)).dropWhile
    isSpaceUnit).rdropWhile isSpaceUnit = List.rdropWhile isSpaceUnit (s.dropWhile isSpaceUnit)
  rw [h₂]
  exact List.rdropWhile_idempotent isSpaceUnit (s.dropWhile isSpaceUnit)

/-- The ids `NewKeyDatabaseId` answers: distinct, and none of them in use. -/
structure FreshIds (fresh : Nat → QString) (stored : List KeyDatabaseItemSO) : Prop where
  distinct : ∀ m n, fresh m = fresh n → m = n
  trimmed : ∀ n, (fresh n).trimmed = fresh n
  nonempty : ∀ n, fresh n ≠ []
  notDefault : ∀ n, fresh n ≠ defaultKeyDatabaseId
  unused : ∀ n, ∀ x ∈ stored, x.id.trimmed ≠ fresh n

/-- An id that `AssignKeyDatabaseIds` keeps. -/
def HasSettledId (x : KeyDatabaseItemSO) : Prop :=
  x.kind = some .default ∧ x.id = defaultKeyDatabaseId ∨
  x.kind ≠ some .default ∧ x.id.trimmed = x.id ∧ x.id ≠ [] ∧ x.id ≠ defaultKeyDatabaseId

def isDefaultKind (x : KeyDatabaseItemSO) : Bool := x.kind = some .default

theorem assignIdsFrom_spec {fresh : Nat → QString} {n : Nat} {claimed : List QString}
    {items : List KeyDatabaseItemSO} (hfresh : FreshIds fresh items)
    (hdefault : defaultKeyDatabaseId ∉ claimed) (hclaimed : ∀ m, n ≤ m → fresh m ∉ claimed)
    (hone : items.countP isDefaultKind ≤ 1) :
    (∀ x ∈ (assignIdsFrom fresh n claimed items).1, HasSettledId x) ∧
    ((assignIdsFrom fresh n claimed items).1.map (·.id)).Nodup ∧
    (∀ x ∈ (assignIdsFrom fresh n claimed items).1, x.id ∉ claimed) ∧
    ((assignIdsFrom fresh n claimed items).1.countP isDefaultKind = items.countP isDefaultKind) := by
  induction items generalizing n claimed with
  | nil => exact ⟨fun _ h => (by cases h), List.nodup_nil, fun _ h => (by cases h), rfl⟩
  | cons item rest ih =>
    have hrest : FreshIds fresh rest := { hfresh with
      unused := fun n x hx => hfresh.unused n x (List.mem_cons_of_mem _ hx) }
    rw [List.countP_cons] at hone
    rw [assignIdsFrom]
    split
    · next hkind =>
      have hdef : isDefaultKind item = true := decide_eq_true hkind
      rw [if_pos hdef] at hone
      obtain ⟨hset, hnodup, hnot, hcount⟩ := ih hrest hdefault hclaimed (by omega)
      have hnone : ∀ x ∈ (assignIdsFrom fresh n claimed rest).1, x.kind ≠ some .default := by
        have hzero : (assignIdsFrom fresh n claimed rest).1.countP isDefaultKind = 0 := by omega
        intro x hx hxkind
        exact List.countP_eq_zero.mp hzero x hx (decide_eq_true hxkind)
      refine ⟨?_, ?_, ?_, ?_⟩
      · intro x hx
        rcases List.mem_cons.mp hx with rfl | hx
        · exact Or.inl ⟨hkind, rfl⟩
        · exact hset x hx
      · refine List.nodup_cons.mpr ⟨?_, hnodup⟩
        intro hmem
        obtain ⟨x, hx, hid⟩ := List.mem_map.mp hmem
        rcases hset x hx with ⟨hxkind, -⟩ | ⟨-, -, -, hne⟩
        · exact hnone x hx hxkind
        · exact hne hid
      · intro x hx
        rcases List.mem_cons.mp hx with rfl | hx
        · exact hdefault
        · exact hnot x hx
      · rw [List.countP_cons, List.countP_cons, hcount]
        rfl
    · next hkind =>
      have hdef : isDefaultKind item = false := decide_eq_false hkind
      rw [hdef, if_neg Bool.false_ne_true] at hone
      -- whichever id the entry ends with, it is taken from here on
      have hgiven : ∀ (id : QString) (m : Nat), id.trimmed = id → id ≠ [] →
          id ≠ defaultKeyDatabaseId → id ∉ claimed → (∀ k, m ≤ k → fresh k ∉ id :: claimed) →
          (∀ x ∈ { item with id := id } :: (assignIdsFrom fresh m (id :: claimed) rest).1,
            HasSettledId x) ∧
          (({ item with id := id } :: (assignIdsFrom fresh m (id :: claimed) rest).1).map
            (·.id)).Nodup ∧
          (∀ x ∈ { item with id := id } :: (assignIdsFrom fresh m (id :: claimed) rest).1,
            x.id ∉ claimed) ∧
          ({ item with id := id } :: (assignIdsFrom fresh m (id :: claimed) rest).1).countP
            isDefaultKind = (item :: rest).countP isDefaultKind := by
        intro id m htrim hne hnd hmem hfree
        have hdefault' : defaultKeyDatabaseId ∉ id :: claimed := by
          intro h
          rcases List.mem_cons.mp h with heq | h
          · exact hnd heq.symm
          · exact hdefault h
        obtain ⟨hset, hnodup, hnot, hcount⟩ := ih hrest hdefault' hfree (by omega)
        refine ⟨?_, ?_, ?_, ?_⟩
        · intro x hx
          rcases List.mem_cons.mp hx with rfl | hx
          · exact Or.inr ⟨hkind, htrim, hne, hnd⟩
          · exact hset x hx
        · refine List.nodup_cons.mpr ⟨?_, hnodup⟩
          intro h
          obtain ⟨x, hx, hid⟩ := List.mem_map.mp h
          exact hnot x hx (hid ▸ List.mem_cons_self)
        · intro x hx
          rcases List.mem_cons.mp hx with rfl | hx
          · exact hmem
          · exact fun h => hnot x hx (List.mem_cons_of_mem _ h)
        · rw [List.countP_cons, List.countP_cons, hcount]
          rfl
      dsimp only
      split
      · refine hgiven (fresh n) (n + 1) (hfresh.trimmed n) (hfresh.nonempty n)
          (hfresh.notDefault n) (hclaimed n (Nat.le_refl n)) ?_
        intro k hk hmem
        rcases List.mem_cons.mp hmem with heq | hmem
        · have := hfresh.distinct k n heq
          omega
        · exact hclaimed k (by omega) hmem
      · next hkeep =>
        simp only [Bool.or_eq_true, decide_eq_true_eq, not_or, List.contains_iff_mem] at hkeep
        refine hgiven item.id.trimmed n (trimmed_trimmed item.id) hkeep.1.1 hkeep.1.2 hkeep.2 ?_
        intro k hk hmem
        rcases List.mem_cons.mp hmem with heq | hmem
        · exact hfresh.unused k item List.mem_cons_self heq.symm
        · exact hclaimed k hk hmem

/-- A list whose ids are settled and distinct keeps them, and no id is made. -/
theorem assignIdsFrom_settled {fresh : Nat → QString} {claimed : List QString}
    (hset : ∀ x ∈ items, HasSettledId x) (hnodup : (items.map (·.id)).Nodup)
    (hnot : ∀ x ∈ items, x.id ∉ claimed) : assignIdsFrom fresh n claimed items = (items, n) := by
  induction items generalizing claimed with
  | nil => rfl
  | cons item rest ih =>
    obtain ⟨hhead, htail⟩ := List.nodup_cons.mp hnodup
    rw [assignIdsFrom]
    rcases hset item List.mem_cons_self with ⟨hkind, hid⟩ | ⟨hkind, htrim, hne, hnd⟩
    · rw [if_pos hkind, ih (fun x hx => hset x (List.mem_cons_of_mem _ hx)) htail
        (fun x hx => hnot x (List.mem_cons_of_mem _ hx))]
      dsimp only
      rw [← hid]
    · have hfree : ∀ x ∈ rest, x.id ∉ item.id :: claimed := by
        intro x hx hmem
        rcases List.mem_cons.mp hmem with heq | hmem
        · exact hhead (List.mem_map.mpr ⟨x, hx, heq⟩)
        · exact hnot x (List.mem_cons_of_mem _ hx) hmem
      rw [if_neg hkind]
      dsimp only
      rw [htrim, if_neg, ih (fun x hx => hset x (List.mem_cons_of_mem _ hx)) htail hfree]
      simp only [Bool.or_eq_true, decide_eq_true_eq, not_or, List.contains_iff_mem]
      exact ⟨⟨hne, hnd⟩, hnot item List.mem_cons_self⟩

/-! ## Names -/

/-- The `i`th name that is tried. -/
def triedName (base : QString) : Nat → QString
  | 0 => base
  | i + 1 => numberedName base (i + 2)

theorem foldCase_digits {ds : List Nat} (h : ∀ d ∈ ds, d < 10) :
    QString.foldCase (ds.map fun d => UInt16.ofNat (48 + d)) =
      ds.map fun d => UInt16.ofNat (48 + d) := by
  unfold QString.foldCase
  rw [List.map_map]
  refine List.map_congr_left ?_
  intro d hd
  have hd' := h d hd
  show foldCaseUnit (UInt16.ofNat (48 + d)) = UInt16.ofNat (48 + d)
  interval_cases d <;> rfl

theorem digits_map_inj {m : Nat}
    (h : ((Nat.digits 10 m).reverse.map fun d => UInt16.ofNat (48 + d)) =
      (Nat.digits 10 n).reverse.map fun d => UInt16.ofNat (48 + d)) : m = n := by
  have hvalue : ∀ n : Nat, ((Nat.digits 10 n).reverse.map fun d => UInt16.ofNat (48 + d)).map
      (fun c => c.toNat - 48) = (Nat.digits 10 n).reverse := by
    intro n
    rw [List.map_map]
    conv => rhs; rw [← List.map_id (Nat.digits 10 n).reverse]
    refine List.map_congr_left ?_
    intro d hd
    have hlt : d < 10 := Nat.digits_lt_base (by omega) (List.mem_reverse.mp hd)
    show (UInt16.ofNat (48 + d)).toNat - 48 = d
    rw [UInt16.toNat_ofNat_of_lt' (by show 48 + d < 65536; omega)]
    omega
  have heq := congrArg (List.map fun c : UInt16 => c.toNat - 48) h
  rw [hvalue, hvalue, List.reverse_inj] at heq
  exact Nat.digits_inj_iff.mp heq

theorem triedName_inj {base : QString} {i j : Nat}
    (h : (triedName base i).foldCase = (triedName base j).foldCase) : i = j := by
  have hnumbered : ∀ n, (numberedName base n).foldCase = base.foldCase ++ ([0x20, 0x28] ++
      ((Nat.digits 10 n).reverse.map (fun d => UInt16.ofNat (48 + d)) ++ [0x29])) := by
    intro n
    have hdigits := @foldCase_digits (Nat.digits 10 n).reverse fun d hd =>
      Nat.digits_lt_base (by omega) (List.mem_reverse.mp hd)
    unfold numberedName QString.foldCase at *
    rw [List.map_append, List.map_append, List.map_append, hdigits]
    simp [foldCaseUnit]
  cases i with
  | zero =>
    cases j with
    | zero => rfl
    | succ j =>
      have hlen := congrArg List.length h
      rw [triedName, triedName, hnumbered] at hlen
      simp at hlen
  | succ i =>
    cases j with
    | zero =>
      have hlen := congrArg List.length h
      rw [triedName, triedName, hnumbered] at hlen
      simp at hlen
    | succ j =>
      rw [triedName, triedName, hnumbered, hnumbered] at h
      have hdigits := List.append_cancel_right
        (List.append_cancel_left (List.append_cancel_left h))
      have := digits_map_inj hdigits
      omega

theorem unusedNameFrom_spec (databases : List KeyDatabaseItemSO) (base : QString) (fuel i : Nat) :
    (∃ j, unusedNameFrom databases base fuel (i + 2) (triedName base i) = triedName base j) ∧
    (isNameTaken databases
        (unusedNameFrom databases base fuel (i + 2) (triedName base i)) = true →
      ∀ j, i ≤ j → j < i + fuel → isNameTaken databases (triedName base j) = true) := by
  induction fuel generalizing i with
  | zero => exact ⟨⟨i, rfl⟩, fun _ j hij hj => by omega⟩
  | succ fuel ih =>
    rw [unusedNameFrom]
    split
    · next htaken =>
      obtain ⟨hname, hall⟩ := ih (i + 1)
      refine ⟨hname, ?_⟩
      intro h j hij hj
      by_cases heq : j = i
      · rw [heq]
        exact htaken
      · exact hall h j (by omega) (by omega)
    · next hfree =>
      exact ⟨⟨i, rfl⟩, fun h => absurd h hfree⟩

/-- The loop finds a name: there are more to try than entries. -/
theorem unusedKeyDatabaseName_unused (databases : List KeyDatabaseItemSO) (base : QString) :
    isNameTaken databases (unusedKeyDatabaseName databases base) = false := by
  by_contra htaken
  rw [Bool.not_eq_false] at htaken
  have hall := (unusedNameFrom_spec databases base (databases.length + 1) 0).2 htaken
  have hsub : (List.range (databases.length + 1)).map (fun j => (triedName base j).foldCase) ⊆
      databases.map fun item => item.name.foldCase := by
    intro name hname
    obtain ⟨j, hj, rfl⟩ := List.mem_map.mp hname
    have hj' := hall j (Nat.zero_le j) (by simpa using hj)
    obtain ⟨item, hitem, heq⟩ := List.any_eq_true.mp hj'
    exact List.mem_map.mpr ⟨item, hitem, of_decide_eq_true heq⟩
  have hnodup : ((List.range (databases.length + 1)).map
      fun j => (triedName base j).foldCase).Nodup :=
    List.Nodup.map (fun i j h => triedName_inj h) List.nodup_range
  have hle := (List.subperm_of_subset hnodup hsub).length_le
  rw [List.length_map, List.length_map, List.length_range] at hle
  omega
/-! ## What stays -/

theorem raiseEqual_map {β : Type} {f : KeyDatabaseItemSO → β}
    (hf : ∀ (x : KeyDatabaseItemSO) (c : Int32), f { x with channel := c } = f x) (c : Int32)
    (items : List KeyDatabaseItemSO) : (raiseEqual c items).map f = items.map f := by
  induction items with
  | nil => rfl
  | cons item rest ih =>
    rw [raiseEqual]
    split
    · rw [List.map_cons, List.map_cons, ih, hf]
    · rfl

theorem spreadChannels_map {β : Type} {f : KeyDatabaseItemSO → β}
    (hf : ∀ (x : KeyDatabaseItemSO) (c : Int32), f { x with channel := c } = f x) (n : Nat)
    (items : List KeyDatabaseItemSO) : (spreadChannels n items).map f = items.map f := by
  induction n generalizing items with
  | zero => rfl
  | succ n ih =>
    cases items with
    | nil => rfl
    | cons item rest =>
      rw [spreadChannels, List.map_cons, ih, raiseEqual_map hf, List.map_cons]

theorem assignIdsFrom_map {β : Type} (f : KeyDatabaseItemSO → β)
    (hf : ∀ (x : KeyDatabaseItemSO) (id : QString), f { x with id := id } = f x)
    (fresh : Nat → QString) (n : Nat) (claimed : List QString) (items : List KeyDatabaseItemSO) :
    (assignIdsFrom fresh n claimed items).1.map f = items.map f := by
  induction items generalizing n claimed with
  | nil => rfl
  | cons item rest ih =>
    rw [assignIdsFrom]
    dsimp only
    split
    · rw [List.map_cons, List.map_cons, ih, hf]
    · split
      · rw [List.map_cons, List.map_cons, ih, hf]
      · rw [List.map_cons, List.map_cons, ih, hf]

end GpgFrontend
