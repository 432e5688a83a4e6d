import GpgFrontend.Profile.MemoryAreaProfileAccessor

/-!
# Reading what was written to a resident area

Runs of `Read`, `Write` and `Remove` by callers who give `Write` a buffer of their own or
one that `Read` handed out, which may be a share of what is stored.

- `Client`, `step`: the calls, the buffers handed out, and a log of what was accepted.
-/

namespace GpgFrontend

namespace MemoryArea

/-! ## Runs -/

/-- What the log keeps of an accepted call. -/
inductive Change (Area : Type) where
  | wrote (area : Area) (name : String) (bytes : Bytes)
  | removed (area : Area) (name : String)

/-- The bytes of the last `Write` under a name with no `Remove` after it. The newest
change comes first. -/
def lastWritten {Area : Type} [DecidableEq Area] :
    List (Change Area) → Area → String → Option Bytes
  | [], _, _ => none
  | .wrote area name bytes :: log, a, n =>
    if a = area ∧ n = name then some bytes else lastWritten log a n
  | .removed area name :: log, a, n =>
    if a = area ∧ n = name then none else lastWritten log a n

/-- Where the buffer given to `Write` comes from. -/
inductive Supply where
  | fresh (bytes : Bytes)
  | got (k : Nat)

inductive Call (Area : Type) where
  | read (area : Area) (name : String)
  | write (area : Area) (name : String) (value : Supply)
  | remove (area : Area) (name : String)

/-- The accessor and its callers: `got` is what `Read` handed out, oldest first. -/
structure Client (Area ι : Type) where
  accessor : MemoryArea Area ι
  got : List GFBuffer
  log : List (Change Area)

namespace Client

variable {Area ι : Type} [DecidableEq Area]

def start (inner : ι) : Client Area ι where
  accessor := .fresh inner
  got := []
  log := []

/-- The buffer a caller gives to `Write`; there may be none with that number. -/
def supply (c : Client Area ι) : Supply → Option (GFBuffer × Client Area ι)
  | .fresh bytes =>
    let (buffer, heap) := GFBuffer.create c.accessor.heap bytes
    some (buffer, { c with accessor := { c.accessor with heap } })
  | .got k => c.got[k]?.map fun buffer => (buffer, c)

/-- An accepted call is logged. -/
def answered (c : Client Area ι) (change : Change Area) :
    Bool × MemoryArea Area ι → Client Area ι
  | (false, accessor) => { c with accessor }
  | (true, accessor) => { c with accessor, log := change :: c.log }

variable (D : ProfileDriver Area ι) (resident : Area → Bool)

def step (c : Client Area ι) : Call Area → Client Area ι
  | .read area name =>
    match c.accessor.read D resident area name with
    | (none, accessor) => { c with accessor }
    | (some buffer, accessor) => { c with accessor, got := c.got ++ [buffer] }
  | .write area name value =>
    match c.supply value with
    | none => c
    | some (buffer, c) =>
      c.answered (.wrote area name (GFBuffer.bytes c.accessor.heap buffer))
        (c.accessor.write D resident area name buffer)
  | .remove area name =>
    c.answered (.removed area name) (c.accessor.remove D resident area name)

/-- Every `Read` of a resident area finds the bytes of the last `Write`. -/
def ReadsYourWrites (c : Client Area ι) : Prop :=
  ∀ area name, resident area = true →
    (c.accessor.read D resident area name).1.map (GFBuffer.bytes c.accessor.heap) =
      lastWritten c.log area name

end Client

/-! ## What a call wipes -/

variable {Area ι : Type} [DecidableEq Area] (resident : Area → Bool)

/-- The buffer stored under a name, if it holds anything but zeros, is neither of the
storage of the `value` that takes its place nor of that of another stored object. -/
def KeptApart (s : MemoryArea Area ι) (area : Area) (name : String) (value : Option GFBuffer) :
    Prop :=
  ∀ taken, (s.areas area).lookup name = some taken →
    ¬ GFBuffer.Blank (GFBuffer.bytes s.heap taken) →
      value ≠ some taken ∧ ∀ a n, resident a = true → ¬ (a = area ∧ n = name) →
        (s.areas a).lookup n ≠ some taken

/-- What a reader finds under a name. -/
def contentAt (s : MemoryArea Area ι) (area : Area) (name : String) : Option Bytes :=
  ((s.areas area).lookup name).map (GFBuffer.bytes s.heap)

variable {resident} {D : ProfileDriver Area ι} {s : MemoryArea Area ι} {area : Area}
  {name : String} {value : Option GFBuffer} {objects : AreaObjects}

/-- A new value takes a name's place and the old one is wiped: every reader finds what he
should exactly when the old one was kept apart. -/
theorem replaced_reads_iff (hresident : resident area = true)
    (hobjects : ∀ n, objects.lookup n = if n = name then value else (s.areas area).lookup n) :
    (∀ a n, resident a = true →
      ((s.setObjects area objects).forgetDetached ((s.areas area).lookup name)).contentAt a n =
        if a = area ∧ n = name then value.map (GFBuffer.bytes s.heap) else s.contentAt a n) ↔
      KeptApart resident s area name value := by
  have hlookup : ∀ a n, ((s.setObjects area objects).areas a).lookup n =
      if a = area ∧ n = name then value else (s.areas a).lookup n := by
    intro a n
    rw [lookup_setObjects]
    by_cases ha : a = area
    · subst ha
      rw [if_pos rfl, hobjects]
      by_cases hn : n = name
      · rw [if_pos hn, if_pos ⟨rfl, hn⟩]
      · rw [if_neg hn, if_neg fun h => hn h.2]
    · rw [if_neg ha, if_neg fun h => ha h.1]
  -- A share that a reader finds afterwards is blank if it was wiped.
  have hread : ∀ a n b,
      (if a = area ∧ n = name then value else (s.areas a).lookup n) = some b →
      (((s.setObjects area objects).forgetDetached ((s.areas area).lookup name)).contentAt a n =
        some (GFBuffer.bytes s.heap b) ↔
          ((s.areas area).lookup name = some b → GFBuffer.Blank (GFBuffer.bytes s.heap b))) := by
    intro a n b hb
    rw [contentAt, areas_forgetDetached, hlookup, hb, Option.map_some, Option.some.injEq]
    exact bytes_forgetDetached_eq_iff
  constructor
  · intro h taken htaken hblank
    constructor
    · rintro rfl
      have hfound := h area name hresident
      rw [if_pos ⟨rfl, rfl⟩, Option.map_some] at hfound
      exact hblank ((hread area name taken (if_pos ⟨rfl, rfl⟩)).mp hfound htaken)
    · intro a n ha hother hshared
      have hfound := h a n ha
      rw [if_neg hother, contentAt, contentAt, hshared, Option.map_some] at hfound
      exact hblank ((hread a n taken (by rw [if_neg hother, hshared])).mp hfound htaken)
  · intro h a n ha
    have hcontent : (if a = area ∧ n = name then value.map (GFBuffer.bytes s.heap)
        else s.contentAt a n) =
        (if a = area ∧ n = name then value else (s.areas a).lookup n).map
          (GFBuffer.bytes s.heap) := by
      split
      · rfl
      · rfl
    rw [hcontent]
    cases hb : (if a = area ∧ n = name then value else (s.areas a).lookup n) with
    | none => rw [contentAt, areas_forgetDetached, hlookup, hb, Option.map_none, Option.map_none]
    | some b =>
      rw [Option.map_some, hread a n b hb]
      intro htaken
      by_contra hblank
      obtain ⟨hvalue, hothers⟩ := h b htaken hblank
      by_cases hself : a = area ∧ n = name
      · rw [if_pos hself] at hb
        exact hvalue hb
      · rw [if_neg hself] at hb
        exact hothers a n ha hself hb

omit [DecidableEq Area] in
theorem read_resident (hresident : resident area = true) :
    s.read D resident area name = ((s.areas area).lookup name, s) := by
  unfold read
  rw [hresident, if_neg (by simp)]

namespace Client

variable {c c' : Client Area ι} {buffer : GFBuffer} {source : Supply} {call : Call Area}

theorem readsYourWrites_iff :
    c.ReadsYourWrites D resident ↔ ∀ a n, resident a = true →
      c.accessor.contentAt a n = lastWritten c.log a n := by
  constructor
  · intro h a n ha
    rw [← h a n ha, read_resident ha, contentAt]
  · intro h a n ha
    rw [← h a n ha, read_resident ha, contentAt]

/-! ## One call -/

/-- Every share held on either side is of an `Impl` that is there. -/
structure Live (c : Client Area ι) : Prop where
  stored : ∀ a n b, (c.accessor.areas a).lookup n = some b → c.accessor.heap.Live b
  handed : ∀ b ∈ c.got, c.accessor.heap.Live b

variable (resident) in
/-- More memory, and the same objects in it. -/
structure Extends (c c' : Client Area ι) : Prop where
  areas : c'.accessor.areas = c.accessor.areas
  log : ∀ a n, resident a = true → lastWritten c'.log a n = lastWritten c.log a n
  live : ∀ b, c.accessor.heap.Live b → c'.accessor.heap.Live b
  bytes : ∀ b, c.accessor.heap.Live b →
    GFBuffer.bytes c'.accessor.heap b = GFBuffer.bytes c.accessor.heap b

namespace Extends

theorem rfl : Extends resident c c where
  areas := Eq.refl _
  log _ _ _ := Eq.refl _
  live _ h := h
  bytes _ _ := Eq.refl _

theorem trans {c'' : Client Area ι} (h : Extends resident c c') (h' : Extends resident c' c'') :
    Extends resident c c'' where
  areas := h'.areas.trans h.areas
  log a n ha := (h'.log a n ha).trans (h.log a n ha)
  live b hb := h'.live b (h.live b hb)
  bytes b hb := (h'.bytes b (h.live b hb)).trans (h.bytes b hb)

theorem alloc {bytes : Bytes} {got : List GFBuffer} :
    Extends resident c
      { c with accessor := { c.accessor with heap := c.accessor.heap.alloc bytes }, got } where
  areas := Eq.refl _
  log _ _ _ := Eq.refl _
  live _ h := h.alloc
  bytes _ h := GFBuffer.bytes_alloc_of_live h

theorem contentAt (h : Extends resident c c') (hlive : c.Live) (a : Area) (n : String) :
    c'.accessor.contentAt a n = c.accessor.contentAt a n := by
  rw [MemoryArea.contentAt, MemoryArea.contentAt, h.areas]
  cases hb : (c.accessor.areas a).lookup n with
  | none => exact Eq.refl _
  | some b => rw [Option.map_some, Option.map_some, h.bytes b (hlive.stored a n b hb)]

theorem storedTotal (h : Extends resident c c') (hlive : c.Live) (a : Area) :
    c'.accessor.storedTotal a = c.accessor.storedTotal a := by
  rw [MemoryArea.storedTotal, MemoryArea.storedTotal, h.areas]
  congr 1
  refine List.map_congr_left fun object hobject => ?_
  have hlookup : (c.accessor.areas a).lookup object.1 = some object.2 :=
    AList.mem_lookup_iff.mpr hobject
  rw [objectSize, objectSize, GFBuffer.size, GFBuffer.size,
    h.bytes _ (hlive.stored _ _ _ hlookup)]

theorem readsYourWrites (h : Extends resident c c') (hlive : c.Live) :
    c'.ReadsYourWrites D resident ↔ c.ReadsYourWrites D resident := by
  rw [readsYourWrites_iff, readsYourWrites_iff]
  constructor
  · intro hreads a n ha
    rw [← h.contentAt hlive, ← h.log a n ha]
    exact hreads a n ha
  · intro hreads a n ha
    rw [h.contentAt hlive, h.log a n ha]
    exact hreads a n ha

/-- More shares may be handed out along the way. -/
theorem keeps (h : Extends resident c c') (hlive : c.Live)
    (hgot : ∀ b ∈ c'.got, b ∈ c.got ∨ c'.accessor.heap.Live b) : c'.Live where
  stored a n b hb := h.live b (hlive.stored a n b (h.areas ▸ hb))
  handed b hb := (hgot b hb).elim (fun hold => h.live b (hlive.handed b hold)) id

end Extends

/-- The buffer a caller gives is there, whether it is new or was handed out. -/
theorem supply_spec (hlive : c.Live) (h : c.supply source = some (buffer, c')) :
    Extends resident c c' ∧ c'.Live ∧ c'.accessor.heap.Live buffer := by
  cases source with
  | fresh bytes =>
    obtain ⟨rfl, rfl⟩ := Prod.mk.inj (Option.some.inj h)
    exact ⟨.alloc, (Extends.alloc : Extends resident c _).keeps hlive fun b hb => .inl hb,
      Blocks.live_next⟩
  | got k =>
    obtain ⟨b, hb, heq⟩ := Option.map_eq_some_iff.mp h
    obtain ⟨rfl, rfl⟩ := Prod.mk.inj heq
    exact ⟨.rfl, hlive, hlive.handed b (List.mem_of_getElem? hb)⟩

variable (resident) in
/-- The condition on a call, in the state it is made in. -/
def Safe (c : Client Area ι) : Call Area → Prop
  | .read _ _ => True
  | .write area name source =>
    ∀ buffer c', c.supply source = some (buffer, c') → resident area = true →
      c'.accessor.Accepts area name buffer →
        KeptApart resident c'.accessor area name (some buffer)
  | .remove area name =>
    resident area = true → name ≠ "" → KeptApart resident c.accessor area name none

/-- What a `Write` or a `Remove` of a resident area leaves. -/
def replaced (c : Client Area ι) (area : Area) (name : String) (objects : AreaObjects)
    (change : Change Area) : Client Area ι :=
  { c with
    accessor := (c.accessor.setObjects area objects).forgetDetached
      ((c.accessor.areas area).lookup name)
    log := change :: c.log }

/-- What a `Write` or a `Remove` leaves holds only the shares it was given. -/
theorem live_replaced {change : Change Area} (hlive : c.Live)
    (hvalue : ∀ b, value = some b → c.accessor.heap.Live b)
    (hobjects : ∀ n, objects.lookup n =
      if n = name then value else (c.accessor.areas area).lookup n) :
    (c.replaced area name objects change).Live where
  stored a n b hb := by
    show Blocks.Live _ b
    rw [Blocks.Live, replaced, next_forgetDetached]
    rw [replaced, areas_forgetDetached, lookup_setObjects] at hb
    by_cases ha : a = area
    · rw [if_pos ha, hobjects] at hb
      by_cases hn : n = name
      · rw [if_pos hn] at hb
        exact hvalue b hb
      · rw [if_neg hn] at hb
        exact hlive.stored area n b hb
    · rw [if_neg ha] at hb
      exact hlive.stored a n b hb
  handed b hb := by
    show Blocks.Live _ b
    rw [Blocks.Live, replaced, next_forgetDetached]
    exact hlive.handed b hb

variable (resident) in
/-- What one call can do: leave every resident object alone, or put a value, or nothing,
in the place of one. -/
inductive Outcome (c : Client Area ι) (call : Call Area) : Client Area ι → Prop
  | kept {c' : Client Area ι} : Extends resident c c' → c'.Live → Safe resident c call →
      Outcome c call c'
  | replaced {c₁ : Client Area ι} {area : Area} {name : String} {value : Option GFBuffer}
      {objects : AreaObjects} {change : Change Area} :
      Extends resident c c₁ → c₁.Live → resident area = true →
      (∀ b, value = some b → c₁.accessor.heap.Live b) →
      (∀ n, objects.lookup n =
        if n = name then value else (c₁.accessor.areas area).lookup n) →
      (objects.entries.map (objectSize c₁.accessor.heap)).sum ≤
        max (c₁.accessor.storedTotal area) residentAreaByteCeiling →
      (∀ log a n, lastWritten (change :: log) a n =
        if a = area ∧ n = name then value.map (GFBuffer.bytes c₁.accessor.heap)
        else lastWritten log a n) →
      (Safe resident c call ↔ KeptApart resident c₁.accessor area name value) →
      Outcome c call (c₁.replaced area name objects change)

omit [DecidableEq Area] in
theorem other_area {a : Area} {n : String} (h : resident area = false) (ha : resident a = true) :
    ¬ (a = area ∧ n = name) := by
  rintro ⟨rfl, -⟩
  rw [h] at ha
  cases ha

/-- The driver underneath answered: no resident object is touched. -/
theorem kept_answered {c₁ : Client Area ι} {change : Change Area} {accepted : Bool} {inner : ι}
    (hext : Extends resident c c₁) (hlive : c₁.Live) (hresident : resident area = false)
    (hchange : ∀ log a n, ¬ (a = area ∧ n = name) →
      lastWritten (change :: log) a n = lastWritten log a n)
    (hsafe : Safe resident c call) :
    Outcome resident c call (c₁.answered change (accepted, { c₁.accessor with inner })) := by
  cases accepted with
  | false =>
    exact .kept (hext.trans ⟨rfl, fun _ _ _ => rfl, fun _ h => h, fun _ _ => rfl⟩)
      ⟨hlive.stored, hlive.handed⟩ hsafe
  | true =>
    refine .kept (hext.trans ⟨rfl, fun a n ha => ?_, fun _ h => h, fun _ _ => rfl⟩)
      ⟨hlive.stored, hlive.handed⟩ hsafe
    exact hchange _ a n (other_area hresident ha)

theorem step_read {area : Area} {name : String} (hlive : c.Live) :
    Outcome resident c (.read area name) (c.step D resident (.read area name)) := by
  rw [step]
  cases hresident : resident area with
  | true =>
    rw [read_resident hresident]
    cases hb : (c.accessor.areas area).lookup name with
    | none => exact .kept .rfl hlive trivial
    | some b =>
      -- What is handed out is a share of what is stored.
      refine .kept ⟨rfl, fun _ _ _ => rfl, fun _ h => h, fun _ _ => rfl⟩
        ⟨hlive.stored, fun b' hb' => ?_⟩ trivial
      rcases List.mem_append.mp hb' with hold | hnew
      · exact hlive.handed b' hold
      · obtain rfl := List.mem_singleton.mp hnew
        exact hlive.stored area name b' hb
  | false =>
    unfold read
    rw [hresident, if_pos (by simp)]
    cases D.read c.accessor.inner area name with
    | none => exact .kept .rfl hlive trivial
    | some bytes =>
      refine .kept .alloc ((Extends.alloc : Extends resident c _).keeps hlive ?_) trivial
      intro b hb
      rcases List.mem_append.mp hb with hold | hnew
      · exact .inl hold
      · obtain rfl := List.mem_singleton.mp hnew
        exact .inr Blocks.live_next

theorem step_write {area : Area} {name : String} (hlive : c.Live) :
    Outcome resident c (.write area name source) (c.step D resident (.write area name source)) := by
  rw [step]
  cases hsupply : c.supply source with
  | none =>
    refine .kept .rfl hlive fun buffer c' h => ?_
    rw [hsupply] at h
    cases h
  | some given =>
    obtain ⟨buffer, c₁⟩ := given
    have hspec : Extends resident c c₁ ∧ _ := supply_spec hlive hsupply
    obtain ⟨hext, hlive₁, hbuffer⟩ := hspec
    have hgiven : ∀ {buffer' : GFBuffer} {c' : Client Area ι},
        c.supply source = some (buffer', c') → buffer' = buffer ∧ c' = c₁ := by
      intro buffer' c' h
      rw [hsupply] at h
      obtain ⟨rfl, rfl⟩ := Prod.mk.inj (Option.some.inj h)
      exact ⟨rfl, rfl⟩
    show Outcome resident c _
      (c₁.answered (.wrote area name (GFBuffer.bytes c₁.accessor.heap buffer))
        (c₁.accessor.write D resident area name buffer))
    cases hresident : resident area with
    | false =>
      unfold write
      rw [hresident, if_pos (by simp)]
      refine kept_answered hext hlive₁ hresident (fun _ _ _ h => if_neg h) ?_
      intro buffer' c' _ hr
      rw [hresident] at hr
      cases hr
    | true =>
      by_cases haccepts : c₁.accessor.Accepts area name buffer
      · rw [write_of_accepts hresident haccepts]
        have hobjects : ∀ n, ((c₁.accessor.areas area).insert name buffer).lookup n =
            if n = name then some buffer else (c₁.accessor.areas area).lookup n :=
          fun n => AList.lookup_insert_ite name n buffer _
        refine .replaced hext hlive₁ hresident (fun b hb => Option.some.inj hb ▸ hbuffer) hobjects
          ?_ (fun _ _ _ => rfl) ?_
        · have htotal := haccepts.2
          rw [accountedTotal_eq] at htotal
          exact le_max_of_le_right htotal
        · constructor
          · intro h
            exact h buffer c₁ hsupply hresident haccepts
          · intro h buffer' c' hgive _ _
            obtain ⟨rfl, rfl⟩ := hgiven hgive
            exact h
      · rw [write_of_not_accepts hresident haccepts]
        refine .kept hext hlive₁ fun buffer' c' hgive _ haccepts' => ?_
        obtain ⟨rfl, rfl⟩ := hgiven hgive
        exact absurd haccepts' haccepts

theorem step_remove {area : Area} {name : String} (hlive : c.Live) :
    Outcome resident c (.remove area name) (c.step D resident (.remove area name)) := by
  rw [step]
  cases hresident : resident area with
  | false =>
    unfold remove
    rw [hresident, if_pos (by simp)]
    refine kept_answered .rfl hlive hresident (fun _ _ _ h => if_neg h) ?_
    intro hr
    rw [hresident] at hr
    cases hr
  | true =>
    by_cases hname : name = ""
    · unfold remove
      rw [hresident, if_neg (by simp), if_pos hname]
      exact .kept .rfl hlive fun _ h => absurd hname h
    · rw [remove_of_name hresident hname]
      have hobjects : ∀ n, ((c.accessor.areas area).erase name).lookup n =
          if n = name then none else (c.accessor.areas area).lookup n :=
        fun n => AList.lookup_erase_ite name n _
      refine .replaced .rfl hlive hresident (by simp) hobjects
        (le_max_of_le_left storedTotal_erase_le) (fun _ _ _ => rfl) ?_
      exact ⟨fun h => h hresident hname, fun h _ _ => h⟩

theorem step_outcome (D : ProfileDriver Area ι) (resident : Area → Bool) (call : Call Area)
    (hlive : c.Live) : Outcome resident c call (c.step D resident call) := by
  cases call with
  | read area name => exact step_read hlive
  | write area name source => exact step_write hlive
  | remove area name => exact step_remove hlive

/-! ## Whole runs -/

/-- What a caller of a resident area relies on. -/
structure Intact (D : ProfileDriver Area ι) (resident : Area → Bool) (c : Client Area ι) :
    Prop where
  reads : c.ReadsYourWrites D resident
  bounded : ∀ area, resident area = true → c.accessor.storedTotal area ≤ residentAreaByteCeiling
  /-- What an accepted `Write` counts is what is then stored. -/
  accounted : ∀ area name value, resident area = true →
    (c.accessor.write D resident area name value).1 = true →
      (c.accessor.write D resident area name value).2.storedTotal area =
          c.accessor.accountedTotal area name value ∧
        c.accessor.accountedTotal area name value ≤ residentAreaByteCeiling

/-- The invariant that holds whatever is written. -/
structure Accounted (c : Client Area ι) : Prop where
  live : c.Live
  bounded : ∀ area, c.accessor.storedTotal area ≤ residentAreaByteCeiling

omit [DecidableEq Area] in
theorem accounted_start (inner : ι) : Accounted (start inner : Client Area ι) where
  live := by
    constructor
    · intro a n b h
      cases h
    · intro b h
      cases h
  bounded _ := Nat.zero_le _

theorem accounted_step (h : Accounted c) : Accounted (c.step D resident call) := by
  have houtcome := step_outcome D resident call h.live
  generalize c.step D resident call = c' at houtcome ⊢
  cases houtcome with
  | kept hext hlive _ =>
    refine ⟨hlive, fun area => ?_⟩
    rw [hext.storedTotal h.live]
    exact h.bounded area
  | replaced hext hlive hresident hvalue hobjects htotal hlog hsafe =>
    refine ⟨live_replaced hlive hvalue hobjects, fun a => ?_⟩
    show ((_ : MemoryArea Area ι).forgetDetached _).storedTotal a ≤ _
    rw [storedTotal_forgetDetached, storedTotal_setObjects, hext.storedTotal h.live]
    rw [hext.storedTotal h.live] at htotal
    split
    · exact htotal.trans (max_le (h.bounded _) le_rfl)
    · exact h.bounded a

theorem intact_iff (h : Accounted c) : Intact D resident c ↔ c.ReadsYourWrites D resident := by
  refine ⟨fun hintact => hintact.reads, fun hreads => ⟨hreads, fun area _ => h.bounded area, ?_⟩⟩
  intro area name value hresident hwritten
  by_cases haccepts : c.accessor.Accepts area name value
  · exact ⟨storedTotal_write hresident haccepts, haccepts.2⟩
  · rw [write_of_not_accepts hresident haccepts] at hwritten
    cases hwritten

/-- The step of the run: a call keeps what was good exactly when it is safe. -/
theorem intact_step (h : Accounted c) (hintact : Intact D resident c) :
    Intact D resident (c.step D resident call) ↔ Safe resident c call := by
  rw [intact_iff (accounted_step h)]
  have hreads := readsYourWrites_iff.mp hintact.reads
  have houtcome := step_outcome D resident call h.live
  generalize c.step D resident call = c' at houtcome ⊢
  cases houtcome with
  | kept hext hlive hsafe =>
    rw [hext.readsYourWrites h.live]
    exact ⟨fun _ => hsafe, fun _ => hintact.reads⟩
  | @replaced c₁ area name value objects change hext hlive hresident hvalue hobjects htotal hlog
      hsafe =>
    rw [hsafe, ← replaced_reads_iff hresident hobjects, readsYourWrites_iff]
    -- Both sides say of every object what its reader finds.
    refine forall_congr' fun a => forall_congr' fun n => imp_congr_right fun ha => ?_
    rw [show (c₁.replaced area name objects change).log = change :: c₁.log from rfl, hlog,
      hext.log a n ha, ← hreads a n ha, ← hext.contentAt h.live]
    exact Iff.rfl

/-- A run keeps every read true exactly when each of its calls is safe. -/
theorem resident_reads_iff (D : ProfileDriver Area ι) (resident : Area → Bool) (inner : ι)
    (calls : List (Call Area)) :
    (∀ n, Intact D resident ((calls.take n).foldl (step D resident) (start inner))) ↔
      BeforeEach (fun _ => false) (step D resident) (Safe resident) calls (start inner) := by
  have hstart : Intact D resident (start inner : Client Area ι) := by
    rw [intact_iff (accounted_start inner), readsYourWrites_iff]
    exact fun _ _ _ => rfl
  exact prefixes_good_iff_beforeEach (fun _ _ => accounted_step) (fun _ _ => intact_step)
    (accounted_start inner) hstart

/-! ## A buffer written back -/

/-- Every area is held in memory. -/
def noDriver : ProfileDriver Unit Unit where
  read _ _ _ := none
  write _ _ _ _ := (false, ())
  remove _ _ _ := (false, ())

/-- A key is stored, read, and what was read is written back under the same name. -/
def writtenBack : List (Call Unit) :=
  [.write () "app.key" (.fresh [0x6b]), .read () "app.key", .write () "app.key" (.got 0)]

/-- The key is wiped where it lies. -/
theorem written_back_reads_zeros :
    ¬ ∀ (calls : List (Call Unit)), ReadsYourWrites noDriver (fun _ => true)
      (calls.foldl (step noDriver fun _ => true) (start ())) := by
  intro h
  have hread := h writtenBack () "app.key" rfl
  exact absurd hread (by decide +kernel)

end Client

end MemoryArea

end GpgFrontend
