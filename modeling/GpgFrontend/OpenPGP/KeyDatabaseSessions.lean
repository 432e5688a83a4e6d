import GpgFrontend.Base.Runs

/-!
# One connection per key database file (`KeyDatabaseSessions`, OpenPGPContext.cpp)

Every context on a key database directory shares one `GFKeyDatabase`, found through a
table of weak references under one mutex. A location held for deletion is not opened.

Opening is one lock section, `Init` included. Closing is not: when the last strong
reference goes, the deleter first runs the destructor, which closes the connection, and
only then takes the mutex to remove the table entry, if the entry still names the address
of the object it destroyed. So an interleaving of threads is a list of `SessionAction`s.

- `SessionInv`: the entry of a location names the one published object that is not gone;
  an object that was never published is alone at its location while it is connected.
- `one_live_connection`: **at most one live connection per location and none at a reserved
  one**, as long as nobody connects to or reserves a location while an open of it that
  failed after connecting is still being closed.
-/

namespace GpgFrontend

/-- How `GFKeyDatabase::Init` went. -/
inductive KeyDatabaseInit
  | ok
  /-- The connection was opened, and the pragmas or the schema failed after it. -/
  | failedConnected
  | failedUnconnected
  deriving DecidableEq

/-- How far an object is from its last strong reference to the end of its deleter. -/
inductive SessionPhase
  /-- One strong reference, and some others. -/
  | held (others : Nat)
  /-- The last reference is gone; the destructor has not finished. -/
  | dying
  /-- Destroyed and freed; the deleter has still to look at the table. -/
  | closed
  | gone
  deriving DecidableEq

/-- A `GFKeyDatabase`, with the location its deleter captured. -/
structure GFKeyDatabaseObject where
  location : String
  raw : Nat
  published : Bool
  connected : Bool
  phase : SessionPhase
  deriving DecidableEq

namespace GFKeyDatabaseObject

/-- Its memory is not free for another object. -/
def allocated (o : GFKeyDatabaseObject) : Bool :=
  match o.phase with
  | .held _ | .dying => true
  | .closed | .gone => false

/-- It has an open connection. -/
def live (o : GFKeyDatabaseObject) : Bool := o.connected && o.allocated

end GFKeyDatabaseObject

/-- `KeyDatabaseSessions::Entry`: the weak reference names the object by its number. -/
structure SessionEntry where
  session : Nat
  raw : Nat
  deriving DecidableEq

structure KeyDatabaseSessions where
  objects : List GFKeyDatabaseObject := []
  opened : AList fun _ : String => SessionEntry := ∅
  reserved : List String := []

inductive SessionAction
  /-- A lock section of `AcquireKeyDatabaseSession`, with the memory it is given and how
  `Init` goes if it comes to that. -/
  | acquire (location : String) (mem : Option Nat) (init : KeyDatabaseInit)
  /-- A holder copies its strong reference. -/
  | copy (i : Nat)
  /-- A holder drops its strong reference. -/
  | drop (i : Nat)
  /-- The deleter of an object runs the destructor and frees the memory. -/
  | destroy (i : Nat)
  /-- The deleter of an object looks at the table. -/
  | unregister (i : Nat)
  /-- The lock section of `ReserveKeyDatabaseLocationForDeletion`. -/
  | reserve (location : String)
  /-- `~KeyDatabaseDeletionReservation`. -/
  | release (location : String)
  deriving DecidableEq

namespace KeyDatabaseSessions

variable (s : KeyDatabaseSessions)

def setPhase (i : Nat) (o : GFKeyDatabaseObject) (phase : SessionPhase) : KeyDatabaseSessions :=
  { s with objects := s.objects.set i { o with phase := phase } }

/-- Memory comes from the allocator, which hands out no block that is in use. -/
def freeAddress (address : Nat) : Bool :=
  s.objects.all fun o => !(o.allocated && o.raw = address)

/-- The end of `AcquireKeyDatabaseSession`: build the object and open it. -/
def openSession (location : String) (address : Nat) : KeyDatabaseInit → KeyDatabaseSessions
  | .ok =>
    { s with
      objects := s.objects ++ [⟨location, address, true, true, .held 0⟩]
      opened := s.opened.insert location ⟨s.objects.length, address⟩ }
  -- unlocked and dropped: its deleter is yet to run
  | .failedConnected =>
    { s with objects := s.objects ++ [⟨location, address, false, true, .dying⟩] }
  | .failedUnconnected =>
    { s with objects := s.objects ++ [⟨location, address, false, false, .dying⟩] }

/-- Whether an acquire comes to build an object: nothing is open there, and it is not held
for deletion. -/
def mayOpen (location : String) : Bool :=
  (s.opened.lookup location).isNone && !(s.reserved.contains location)

def step : SessionAction → KeyDatabaseSessions
  | .acquire location mem init =>
    match s.opened.lookup location with
    | some entry =>
      match s.objects[entry.session]? with
      | some o =>
        match o.phase with
        | .held others => s.setPhase entry.session o (.held (others + 1))
        -- the weak reference is empty: wait on `closed`
        | _ => s
      | none => s
    | none =>
      if location ∈ s.reserved then s
      else
        match mem with
        | none => s
        | some address =>
          if s.freeAddress address then s.openSession location address init else s
  | .copy i =>
    match s.objects[i]? with
    | none => s
    | some o =>
      match o.phase with
      | .held others => s.setPhase i o (.held (others + 1))
      | _ => s
  | .drop i =>
    match s.objects[i]? with
    | none => s
    | some o =>
      match o.phase with
      | .held 0 => s.setPhase i o .dying
      | .held (others + 1) => s.setPhase i o (.held others)
      | _ => s
  | .destroy i =>
    match s.objects[i]? with
    | none => s
    | some o => if o.phase = .dying then s.setPhase i o .closed else s
  | .unregister i =>
    match s.objects[i]? with
    | none => s
    | some o =>
      if o.phase = .closed then
        { s.setPhase i o .gone with
          opened :=
            if (s.opened.lookup o.location).any fun entry => entry.raw = o.raw then
              s.opened.erase o.location
            else s.opened }
      else s
  | .reserve location =>
    if location = "" then s
    else if location ∈ s.reserved then s
    else if (s.opened.lookup location).isSome then s
    else { s with reserved := location :: s.reserved }
  | .release location => { s with reserved := s.reserved.filter (· ≠ location) }

end KeyDatabaseSessions

/-- At most one live connection per location, and none where one is reserved. -/
structure OneConnection (s : KeyDatabaseSessions) : Prop where
  one : ∀ (i j : Nat) (o o' : GFKeyDatabaseObject), s.objects[i]? = some o →
    s.objects[j]? = some o' → o.live = true → o'.live = true → o.location = o'.location → i = j
  reserved : ∀ o ∈ s.objects, o.live = true → o.location ∉ s.reserved

/-- Nobody connects to a location, and nobody reserves it, while an open of it that failed
after connecting is still being closed; nor is an object opened there at the address of a
failed one whose deleter has still to look at the table. -/
def FailedOpensAreOut (s : KeyDatabaseSessions) : SessionAction → Prop
  | .acquire location mem init => s.mayOpen location = true → init ≠ .failedUnconnected →
      ∀ o ∈ s.objects, o.published = false → o.location = location →
        o.live = false ∧ (init = .ok → o.phase = .closed → mem ≠ some o.raw)
  | .reserve location => ∀ o ∈ s.objects, o.published = false → o.location = location →
      o.live = false
  | _ => True

/-! ## The invariant -/

structure SessionInv (s : KeyDatabaseSessions) : Prop where
  /-- An entry names a published object whose deleter has not finished. -/
  entry : ∀ L e, s.opened.lookup L = some e → ∃ o, s.objects[e.session]? = some o ∧
    o.published = true ∧ o.location = L ∧ o.raw = e.raw ∧ o.phase ≠ .gone
  /-- Until its deleter has finished, a published object has the entry of its location. -/
  published : ∀ (i : Nat) (o : GFKeyDatabaseObject), s.objects[i]? = some o →
    o.published = true → o.phase ≠ .gone → ∃ e, s.opened.lookup o.location = some e ∧ e.session = i
  /-- A connection of a failed open is alone at its location. -/
  failed : ∀ (i : Nat) (o : GFKeyDatabaseObject), s.objects[i]? = some o →
    o.published = false → o.live = true → s.opened.lookup o.location = none ∧ o.location ∉ s.reserved ∧
    ∀ (j : Nat) (o' : GFKeyDatabaseObject), s.objects[j]? = some o' →
      o'.published = false → o'.live = true →
      o'.location = o.location → j = i
  /-- The deleter of a failed open finds no entry that it would take for its own. -/
  address : ∀ (i : Nat) (o : GFKeyDatabaseObject), s.objects[i]? = some o →
    o.published = false → o.phase ≠ .gone →
    ∀ e, s.opened.lookup o.location = some e → e.raw ≠ o.raw
  reserved : ∀ L ∈ s.reserved, s.opened.lookup L = none

theorem GFKeyDatabaseObject.live_not_gone {o : GFKeyDatabaseObject} (h : o.live = true) :
    o.phase ≠ .gone := by
  intro hgone
  simp [live, allocated, hgone] at h

theorem KeyDatabaseSessions.address_ne_of_free {s : KeyDatabaseSessions} {address : Nat}
    {o : GFKeyDatabaseObject} (hfree : s.freeAddress address = true) (ho : o ∈ s.objects)
    (halloc : o.allocated = true) : address ≠ o.raw := by
  unfold freeAddress at hfree
  rw [List.all_eq_true] at hfree
  have hnot := hfree o ho
  simp only [halloc, Bool.true_and, Bool.not_eq_true', decide_eq_false_iff_not] at hnot
  exact Ne.symm hnot

theorem KeyDatabaseSessions.openSession_opened (s : KeyDatabaseSessions) (L : String)
    (address : Nat) :
    (s.openSession L address .ok).opened = s.opened.insert L ⟨s.objects.length, address⟩ := rfl

namespace SessionInv

variable {s : KeyDatabaseSessions} {i : Nat} {o : GFKeyDatabaseObject}

theorem initial : SessionInv {} where
  entry := fun _ _ h => by cases h
  published := fun _ _ h => by cases h
  failed := fun _ _ h => by cases h
  address := fun _ _ h => by cases h
  reserved := fun _ h => by cases h

theorem oneConnection (h : SessionInv s) : OneConnection s := by
  constructor
  · intro i j o o' hi hj hlive hlive' hloc
    cases hp : o.published with
    | false =>
      obtain ⟨hnone, -, hunique⟩ := h.failed i o hi hp hlive
      cases hp' : o'.published with
      | false => exact (hunique j o' hj hp' hlive' hloc.symm).symm
      | true =>
        -- a published object has an entry, and there is none beside a failed open
        obtain ⟨e, he, -⟩ := h.published j o' hj hp' (o'.live_not_gone hlive')
        rw [← hloc, hnone] at he
        cases he
    | true =>
      obtain ⟨e, he, hei⟩ := h.published i o hi hp (o.live_not_gone hlive)
      cases hp' : o'.published with
      | false =>
        obtain ⟨hnone, -, -⟩ := h.failed j o' hj hp' hlive'
        rw [← hloc, he] at hnone
        cases hnone
      | true =>
        obtain ⟨e', he', hej⟩ := h.published j o' hj hp' (o'.live_not_gone hlive')
        rw [← hloc, he] at he'
        cases he'
        exact hei.symm.trans hej
  · intro o ho hlive hreserved
    obtain ⟨i, hi⟩ := List.getElem?_of_mem ho
    cases hp : o.published with
    | false => exact (h.failed i o hi hp hlive).2.1 hreserved
    | true =>
      obtain ⟨e, he, -⟩ := h.published i o hi hp (o.live_not_gone hlive)
      rw [h.reserved _ hreserved] at he
      cases he

/-- An object that is there moves on, without finishing its deleter. -/
theorem setPhase (h : SessionInv s) (hi : s.objects[i]? = some o) {phase : SessionPhase}
    (halloc : o.allocated = true) (hnew : phase ≠ .gone) :
    SessionInv (s.setPhase i o phase) := by
  have hold : o.phase ≠ .gone := by
    intro hgone
    rw [GFKeyDatabaseObject.allocated, hgone] at halloc
    cases halloc
  have hlive : { o with phase := phase }.live = true → o.live = true := by
    intro hl
    unfold GFKeyDatabaseObject.live at hl ⊢
    rw [halloc, Bool.and_true]
    exact (Bool.and_eq_true_iff.mp hl).1
  constructor
  case entry =>
    intro L e he
    obtain ⟨u, hu, hp, hloc, hraw, hphase⟩ := h.entry L e he
    by_cases hei : e.session = i
    · rw [hei, hi] at hu
      cases hu
      refine ⟨{ o with phase := phase }, ?_, hp, hloc, hraw, hnew⟩
      show (s.objects.set i _)[e.session]? = _
      rw [hei, List.getElem?_set_self (List.getElem?_eq_some_iff.mp hi).1]
    · refine ⟨u, ?_, hp, hloc, hraw, hphase⟩
      show (s.objects.set i _)[e.session]? = _
      rw [List.getElem?_set_ne (Ne.symm hei)]
      exact hu
  case published =>
    intro j u hu hp hphase
    rcases getElem?_set_cases hu with ⟨rfl, rfl⟩ | ⟨-, hu⟩
    · exact h.published j o hi hp hold
    · exact h.published j u hu hp hphase
  case failed =>
    intro j u hu hp hl
    have hkey : ∀ (k : Nat) (v : GFKeyDatabaseObject),
        (s.setPhase i o phase).objects[k]? = some v → v.published = false → v.live = true →
        ∃ v' : GFKeyDatabaseObject, s.objects[k]? = some v' ∧ v'.published = false ∧
          v'.live = true ∧ v'.location = v.location := by
      intro k v hv hvp hvl
      rcases getElem?_set_cases hv with ⟨rfl, rfl⟩ | ⟨-, hv⟩
      · exact ⟨o, hi, hvp, hlive hvl, rfl⟩
      · exact ⟨v, hv, hvp, hvl, rfl⟩
    obtain ⟨u', hu', hp', hl', hloc⟩ := hkey j u hu hp hl
    obtain ⟨hnone, hres, hunique⟩ := h.failed j u' hu' hp' hl'
    rw [hloc] at hnone hres
    refine ⟨hnone, hres, fun k v hv hvp hvl hvloc => ?_⟩
    obtain ⟨v', hv', hvp', hvl', hvloc'⟩ := hkey k v hv hvp hvl
    exact hunique k v' hv' hvp' hvl' (hvloc'.trans (hvloc.trans hloc.symm))
  case address =>
    intro j u hu hp hphase
    rcases getElem?_set_cases hu with ⟨rfl, rfl⟩ | ⟨-, hu⟩
    · exact h.address j o hi hp hold
    · exact h.address j u hu hp hphase
  case reserved => exact h.reserved

/-- A state with fewer entries, each of them with its object, and fewer objects to care for. -/
theorem gone (h : SessionInv s) (hi : s.objects[i]? = some o)
    {opened : AList fun _ : String => SessionEntry}
    (hsub : ∀ L e, opened.lookup L = some e → s.opened.lookup L = some e ∧ e.session ≠ i)
    (hkeep : ∀ (j : Nat) (u : GFKeyDatabaseObject), s.objects[j]? = some u → j ≠ i →
      u.published = true → u.phase ≠ .gone →
      opened.lookup u.location = s.opened.lookup u.location) :
    SessionInv { s.setPhase i o .gone with opened := opened } where
  entry := by
    intro L e he
    obtain ⟨hold, hne⟩ := hsub L e he
    obtain ⟨u, hu, hrest⟩ := h.entry L e hold
    refine ⟨u, ?_, hrest⟩
    show (s.objects.set i _)[e.session]? = _
    rw [List.getElem?_set_ne (Ne.symm hne)]
    exact hu
  published := by
    intro j u hu hp hphase
    rcases getElem?_set_cases hu with ⟨rfl, rfl⟩ | ⟨hj, hu⟩
    · exact absurd rfl hphase
    · obtain ⟨e, he, hej⟩ := h.published j u hu hp hphase
      exact ⟨e, (hkeep j u hu hj hp hphase).trans he, hej⟩
  failed := by
    intro j u hu hp hl
    rcases getElem?_set_cases hu with ⟨rfl, rfl⟩ | ⟨hj, hu⟩
    · exact absurd rfl (GFKeyDatabaseObject.live_not_gone hl)
    · obtain ⟨hnone, hres, hunique⟩ := h.failed j u hu hp hl
      refine ⟨?_, hres, fun k v hv hvp hvl hloc => ?_⟩
      · rw [Option.eq_none_iff_forall_not_mem]
        intro e he
        rw [(hsub _ e he).1] at hnone
        cases hnone
      · rcases getElem?_set_cases hv with ⟨rfl, rfl⟩ | ⟨-, hv⟩
        · exact absurd rfl (GFKeyDatabaseObject.live_not_gone hvl)
        · exact hunique k v hv hvp hvl hloc
  address := by
    intro j u hu hp hphase e he
    rcases getElem?_set_cases hu with ⟨rfl, rfl⟩ | ⟨hj, hu⟩
    · exact absurd rfl hphase
    · exact h.address j u hu hp hphase e (hsub _ e he).1
  reserved := by
    intro L hL
    rw [Option.eq_none_iff_forall_not_mem]
    intro e he
    have hnone := h.reserved L hL
    rw [(hsub L e he).1] at hnone
    cases hnone

/-- The deleter of an object finishes: an entry goes only with the object it names. -/
theorem unregister (h : SessionInv s) (hi : s.objects[i]? = some o) (hphase : o.phase = .closed) :
    SessionInv { s.setPhase i o .gone with
      opened :=
        if (s.opened.lookup o.location).any fun entry => entry.raw = o.raw then
          s.opened.erase o.location
        else s.opened } := by
  have hnot : o.phase ≠ .gone := by
    rw [hphase]
    decide
  cases hp : o.published with
  | true =>
    obtain ⟨e, he, hei⟩ := h.published i o hi hp hnot
    obtain ⟨u, hu, -, -, hraw, -⟩ := h.entry o.location e he
    rw [hei, hi] at hu
    cases hu
    rw [he, if_pos (by simpa using hraw.symm)]
    refine h.gone hi ?_ ?_
    · intro L e' he'
      have hL : L ≠ o.location := by
        rintro rfl
        rw [AList.lookup_erase] at he'
        cases he'
      rw [AList.lookup_erase_ne hL] at he'
      refine ⟨he', ?_⟩
      obtain ⟨v, hv, -, hloc, -⟩ := h.entry L e' he'
      rintro hsession
      rw [hsession, hi] at hv
      cases hv
      exact hL hloc.symm
    · intro j u hu hj hup huphase
      refine AList.lookup_erase_ne ?_
      intro hloc
      obtain ⟨e', he', hej⟩ := h.published j u hu hup huphase
      rw [hloc, he] at he'
      cases he'
      exact hj (hej.symm.trans hei)
  | false =>
    have hkeep : ((s.opened.lookup o.location).any fun entry => entry.raw = o.raw) = false := by
      rw [Option.any_eq_false]
      intro e he
      simpa using h.address i o hi hp hnot e he
    rw [hkeep]
    refine h.gone hi (fun L e he => ⟨he, ?_⟩) fun _ _ _ _ _ _ => rfl
    obtain ⟨u, hu, hup, -⟩ := h.entry L e he
    intro hsession
    rw [hsession, hi] at hu
    cases hu
    rw [hp] at hup
    cases hup

variable {L : String}

/-- A session opens: nothing was open there, and no failed open is on its way out. -/
theorem openOk (h : SessionInv s) {address : Nat} (hnone : s.opened.lookup L = none)
    (hres : L ∉ s.reserved) (hfree : s.freeAddress address = true)
    (hfailed : ∀ o ∈ s.objects, o.published = false → o.location = L →
      o.live = false ∧ (o.phase = .closed → address ≠ o.raw)) :
    SessionInv (s.openSession L address .ok) where
  entry := by
    intro L' e he
    show ∃ o, (s.objects ++ [_])[e.session]? = some o ∧ _
    by_cases hL : L' = L
    · rw [hL] at he ⊢
      rw [KeyDatabaseSessions.openSession_opened, AList.lookup_insert] at he
      cases he
      exact ⟨_, List.getElem?_concat_length, rfl, rfl, rfl, by simp⟩
    · rw [KeyDatabaseSessions.openSession_opened, AList.lookup_insert_ne hL] at he
      obtain ⟨u, hu, hrest⟩ := h.entry L' e he
      refine ⟨u, ?_, hrest⟩
      rw [List.getElem?_append_left (List.getElem?_eq_some_iff.mp hu).1]
      exact hu
  published := by
    intro j u hu hp hphase
    show ∃ e, (s.opened.insert L _).lookup u.location = some e ∧ _
    rcases getElem?_snoc_cases hu with hu | ⟨rfl, rfl⟩
    · obtain ⟨e, he, hej⟩ := h.published j u hu hp hphase
      refine ⟨e, ?_, hej⟩
      rw [AList.lookup_insert_ne, he]
      intro hloc
      rw [hloc, hnone] at he
      cases he
    · exact ⟨_, AList.lookup_insert _, rfl⟩
  failed := by
    intro j u hu hp hl
    rcases getElem?_snoc_cases hu with hu | ⟨rfl, rfl⟩
    · obtain ⟨hnone', hres', hunique⟩ := h.failed j u hu hp hl
      have hloc : u.location ≠ L := by
        intro hloc
        rw [(hfailed u (List.mem_of_getElem? hu) hp hloc).1] at hl
        cases hl
      refine ⟨?_, hres', fun k v hv hvp hvl hvloc => ?_⟩
      · show (s.opened.insert L _).lookup u.location = none
        rw [AList.lookup_insert_ne hloc]
        exact hnone'
      · rcases getElem?_snoc_cases hv with hv | ⟨rfl, rfl⟩
        · exact hunique k v hv hvp hvl hvloc
        · cases hvp
    · cases hp
  address := by
    intro j u hu hp hphase e he
    rcases getElem?_snoc_cases hu with hu | ⟨rfl, rfl⟩
    · by_cases hloc : u.location = L
      · rw [hloc] at he
        rw [KeyDatabaseSessions.openSession_opened, AList.lookup_insert] at he
        cases he
        have humem := List.mem_of_getElem? hu
        cases hph : u.phase with
        | closed => exact (hfailed u humem hp hloc).2 hph
        | gone => exact absurd hph hphase
        | held others => exact KeyDatabaseSessions.address_ne_of_free hfree humem (by
            rw [GFKeyDatabaseObject.allocated, hph])
        | dying => exact KeyDatabaseSessions.address_ne_of_free hfree humem (by
            rw [GFKeyDatabaseObject.allocated, hph])
      · rw [KeyDatabaseSessions.openSession_opened, AList.lookup_insert_ne hloc] at he
        exact h.address j u hu hp hphase e he
    · cases hp
  reserved := by
    intro L' hL'
    show (s.opened.insert L _).lookup L' = none
    rw [AList.lookup_insert_ne, h.reserved L' hL']
    rintro rfl
    exact hres hL'

/-- An open fails, and its object goes to its deleter unpublished. -/
theorem openFailed (h : SessionInv s) {address : Nat} {connected : Bool}
    (hnone : s.opened.lookup L = none) (hres : L ∉ s.reserved)
    (hfailed : connected = true → ∀ o ∈ s.objects, o.published = false → o.location = L →
      o.live = false) :
    SessionInv { s with objects := s.objects ++ [⟨L, address, false, connected, .dying⟩] } where
  entry := by
    intro L' e he
    obtain ⟨u, hu, hrest⟩ := h.entry L' e he
    refine ⟨u, ?_, hrest⟩
    show (s.objects ++ [_])[e.session]? = some u
    rw [List.getElem?_append_left (List.getElem?_eq_some_iff.mp hu).1]
    exact hu
  published := by
    intro j u hu hp hphase
    rcases getElem?_snoc_cases hu with hu | ⟨rfl, rfl⟩
    · exact h.published j u hu hp hphase
    · cases hp
  failed := by
    intro j u hu hp hl
    rcases getElem?_snoc_cases hu with hu | ⟨rfl, rfl⟩
    · obtain ⟨hnone', hres', hunique⟩ := h.failed j u hu hp hl
      refine ⟨hnone', hres', fun k v hv hvp hvl hvloc => ?_⟩
      rcases getElem?_snoc_cases hv with hv | ⟨rfl, rfl⟩
      · exact hunique k v hv hvp hvl hvloc
      · have hconn : connected = true := by
          simpa [GFKeyDatabaseObject.live, GFKeyDatabaseObject.allocated] using hvl
        rw [hfailed hconn u (List.mem_of_getElem? hu) hp hvloc.symm] at hl
        cases hl
    · have hconn : connected = true := by
        simpa [GFKeyDatabaseObject.live, GFKeyDatabaseObject.allocated] using hl
      refine ⟨hnone, hres, fun k v hv hvp hvl hvloc => ?_⟩
      rcases getElem?_snoc_cases hv with hv | ⟨rfl, rfl⟩
      · rw [hfailed hconn v (List.mem_of_getElem? hv) hvp hvloc] at hvl
        cases hvl
      · rfl
  address := by
    intro j u hu hp hphase e he
    rcases getElem?_snoc_cases hu with hu | ⟨rfl, rfl⟩
    · exact h.address j u hu hp hphase e he
    · change s.opened.lookup L = some e at he
      rw [hnone] at he
      cases he
  reserved := h.reserved

theorem openSession (h : SessionInv s) {address : Nat} {init : KeyDatabaseInit}
    (hnone : s.opened.lookup L = none) (hres : L ∉ s.reserved)
    (hfree : s.freeAddress address = true)
    (hout : FailedOpensAreOut s (.acquire L (some address) init)) :
    SessionInv (s.openSession L address init) := by
  have hmay : s.mayOpen L = true := by
    simp [KeyDatabaseSessions.mayOpen, hnone, hres]
  cases init with
  | ok =>
    refine h.openOk hnone hres hfree fun o ho hp hloc => ?_
    obtain ⟨hlive, hraw⟩ := hout hmay (by decide) o ho hp hloc
    exact ⟨hlive, fun hphase heq => hraw rfl hphase (congrArg some heq)⟩
  | failedConnected =>
    exact h.openFailed hnone hres fun _ o ho hp hloc =>
      (hout hmay (by decide) o ho hp hloc).1
  | failedUnconnected => exact h.openFailed hnone hres fun hconn => by cases hconn

theorem acquire (h : SessionInv s) {mem : Option Nat} {init : KeyDatabaseInit}
    (hout : FailedOpensAreOut s (.acquire L mem init)) :
    SessionInv (s.step (.acquire L mem init)) := by
  unfold KeyDatabaseSessions.step
  dsimp only
  split
  · next entry hentry =>
    split
    · next o ho =>
      split
      · next others hphase =>
        exact h.setPhase ho (by rw [GFKeyDatabaseObject.allocated, hphase]) (by simp)
      · exact h
    · exact h
  · next hnone =>
    split
    · exact h
    · next hres =>
      split
      · exact h
      · split
        · next hfree => exact h.openSession hnone hres hfree hout
        · exact h

theorem reserve (h : SessionInv s) (hout : FailedOpensAreOut s (.reserve L)) :
    SessionInv (s.step (.reserve L)) := by
  unfold KeyDatabaseSessions.step
  dsimp only
  split
  · exact h
  · split
    · exact h
    · split
      · exact h
      · next hopen =>
        have hnone : s.opened.lookup L = none := by simpa using hopen
        refine ⟨h.entry, h.published, ?_, h.address, ?_⟩
        · intro i o hi hp hl
          obtain ⟨hnone', hres, hunique⟩ := h.failed i o hi hp hl
          refine ⟨hnone', ?_, hunique⟩
          rw [List.mem_cons, not_or]
          refine ⟨?_, hres⟩
          intro hloc
          rw [hout o (List.mem_of_getElem? hi) hp hloc] at hl
          cases hl
        · intro L' hL'
          rcases List.mem_cons.mp hL' with rfl | hL'
          · exact hnone
          · exact h.reserved L' hL'

/-- **Step.** -/
theorem step (h : SessionInv s) {a : SessionAction} (hout : FailedOpensAreOut s a) :
    SessionInv (s.step a) := by
  cases a with
  | acquire L mem init => exact h.acquire hout
  | reserve L => exact h.reserve hout
  | copy i =>
    unfold KeyDatabaseSessions.step
    dsimp only
    split
    · exact h
    · next o ho =>
      split
      · next others hphase =>
        exact h.setPhase ho (by rw [GFKeyDatabaseObject.allocated, hphase]) (by simp)
      · exact h
  | drop i =>
    unfold KeyDatabaseSessions.step
    dsimp only
    split
    · exact h
    · next o ho =>
      split
      · next hphase =>
        exact h.setPhase ho (by rw [GFKeyDatabaseObject.allocated, hphase]) (by simp)
      · next others hphase =>
        exact h.setPhase ho (by rw [GFKeyDatabaseObject.allocated, hphase]) (by simp)
      · exact h
  | destroy i =>
    unfold KeyDatabaseSessions.step
    dsimp only
    split
    · exact h
    · next o ho =>
      split
      · next hphase =>
        exact h.setPhase ho (by rw [GFKeyDatabaseObject.allocated, hphase]) (by simp)
      · exact h
  | unregister i =>
    unfold KeyDatabaseSessions.step
    dsimp only
    split
    · exact h
    · next o ho =>
      split
      · next hphase => exact h.unregister ho hphase
      · exact h
  | release L =>
    refine ⟨h.entry, h.published, ?_, h.address, ?_⟩
    · intro i o hi hp hl
      obtain ⟨hnone, hres, hunique⟩ := h.failed i o hi hp hl
      exact ⟨hnone, fun hmem => hres (List.mem_filter.mp hmem).1, hunique⟩
    · intro L' hL'
      exact h.reserved L' (List.mem_filter.mp hL').1

end SessionInv

/-- **One live connection per key database file.** In every state of every run in which
nobody connects to or reserves a location while a failed open of it is on its way out, a
location has at most one live connection, and none while it is reserved for deletion. -/
theorem one_live_connection {s : KeyDatabaseSessions}
    (h : ReachableUnder KeyDatabaseSessions.step FailedOpensAreOut {} s) : OneConnection s :=
  (h.inv SessionInv.initial fun _ _ hs hout => hs.step hout).oneConnection

/-- A session is opened, closed and opened again while another thread tries to reserve its
location; a failed open runs to its end before the location is reserved. -/
theorem reopened_and_reserved :
    (∃ o, (((((((({} : KeyDatabaseSessions).step (.acquire "/db" (some 1) .ok)).step
      (.drop 0)).step (.reserve "/db")).step (.destroy 0)).step (.unregister 0)).step
      (.acquire "/db" (some 1) .failedConnected)).step (.destroy 1)).objects[1]? = some o) ∧
    OneConnection ((((((((({} : KeyDatabaseSessions).step (.acquire "/db" (some 1) .ok)).step
      (.drop 0)).step (.reserve "/db")).step (.destroy 0)).step (.unregister 0)).step
      (.acquire "/db" (some 1) .failedConnected)).step (.destroy 1)).step (.reserve "/db")) := by
  refine ⟨⟨_, rfl⟩, one_live_connection ?_⟩
  refine .next _ (.next _ (.next _ (.next _ (.next _ (.next _ (.next _ (.next _ .start ?_)
    trivial) ?_) trivial) trivial) ?_) trivial) ?_
  · intro _ _ o ho
    cases ho
  · unfold FailedOpensAreOut
    decide
  · intro _ _
    decide
  · unfold FailedOpensAreOut
    decide

/-- **A failed open leaves its connection behind the mutex**: `Init` fails after it
connected, the mutex is given up before the connection is closed, and another open of the
same location connects beside it. -/
theorem failed_open_leaves_second_connection :
    ¬ ∀ s, ReachableUnder KeyDatabaseSessions.step (fun _ _ => True) {} s →
      OneConnection s := by
  intro hall
  have hreach : ReachableUnder KeyDatabaseSessions.step (fun _ _ => True) {}
      ((({} : KeyDatabaseSessions).step (.acquire "/db" (some 1) .failedConnected)).step
        (.acquire "/db" (some 2) .ok)) :=
    .next _ (.next _ .start trivial) trivial
  have hsame : 0 = 1 := (hall _ hreach).one 0 1 _ _ rfl rfl rfl rfl rfl
  cases hsame

end GpgFrontend
