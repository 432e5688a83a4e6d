import GpgFrontend.Profile.PackageRoundTrip

/-!
# Feeding a package body to the extraction (`ReadProfilePackage`)

`ReadProfilePackage` decrypts a streamed body in one thread and extracts it in
another, with a bounded pipe between them. The feeder reports two things: whether
the body was good (`bodyOk`), and whether it stopped because nobody was reading
any more (`sinkClosed`), which is the extraction's failure and not the body's.
-/

namespace GpgFrontend

/-- What one `GFDataExchanger::Write` does: every byte is queued, or the pipe is
found closed after `taken` of them (and `-1` returned), or the queue throws after
`taken` of them (and a count is returned, which the feeder does not look at). -/
inductive PipeWrite where
  | whole
  | closed (taken : Nat)
  | aborted (taken : Nat)
  deriving Repr, DecidableEq

/-- The bytes of `chunk` that reached the queue. -/
def PipeWrite.queued : PipeWrite → Bytes → Bytes
  | whole, chunk => chunk
  | closed taken, chunk => chunk.take taken
  | aborted taken, chunk => chunk.take taken

/-- Where the feeder thread stands when it leaves its loop. -/
structure Feed where
  bodyOk : Bool
  sinkClosed : Bool
  complete : Bool
  fed : Bytes
  deriving Repr, DecidableEq

section Feeder

variable {S : SecretStream}

/-- The `while (true)` of the feeder: `i` counts the writes made so far, `fed`
is what they queued. -/
def feedLoop (pipe : Nat → PipeWrite) (i : Nat) (r : PackageStreamReader S) (fed : Bytes) :
    Feed :=
  match _h : r.next with
  | (false, _, r') => ⟨false, false, r'.complete, fed⟩
  | (true, chunk, r') =>
    if chunk = [] then ⟨true, false, r'.complete, fed⟩
    else
      match pipe i with
      | .closed taken => ⟨true, true, r'.complete, fed ++ chunk.take taken⟩
      | write =>
        if _hc : r'.complete = true then ⟨true, false, true, fed ++ write.queued chunk⟩
        else feedLoop pipe (i + 1) r' (fed ++ write.queued chunk)
termination_by r.source.rest.length
decreasing_by exact PackageStreamReader.next_rest_lt _h (by simpa using _hc)

/-- The feeder thread of a streamed package: `opened` says whether the file
could be opened and positioned at its body. -/
def feed (S : SecretStream) (pwhash : Bytes → Bytes → Option Bytes) (pipe : Nat → PipeWrite)
    (opened : Bool) (body : Source) (passphrase : Bytes) (isProtected : Bool) : Feed :=
  if !opened then ⟨false, false, false, []⟩
  else
    match (PackageStreamReader.mk' S body passphrase isProtected).begin pwhash with
    | (false, _) => ⟨false, false, false, []⟩
    | (true, r) =>
      let f := feedLoop pipe 0 r []
      -- cut short, unless nobody was reading any more
      if f.bodyOk && !f.sinkClosed && !f.complete then { f with bodyOk := false } else f

variable {pipe : Nat → PipeWrite} {r r' : PackageStreamReader S}

variable {fed : Bytes}

theorem feedLoop_of_fail {i : Nat} {out : Bytes} (h : r.next = (false, out, r')) :
    feedLoop pipe i r fed = ⟨false, false, r'.complete, fed⟩ := by
  rw [feedLoop]
  split
  · rename_i h'
    rw [h] at h'
    obtain ⟨-, -, rfl⟩ := Prod.mk.injEq .. ▸ Prod.mk.injEq .. ▸ h'
    rfl
  · rename_i h'
    rw [h] at h'
    exact nomatch h'

theorem feedLoop_of_next {i : Nat} {chunk : Bytes} (h : r.next = (true, chunk, r')) :
    feedLoop pipe i r fed =
      if chunk = [] then ⟨true, false, r'.complete, fed⟩
      else match pipe i with
        | .closed taken => ⟨true, true, r'.complete, fed ++ chunk.take taken⟩
        | write =>
          if r'.complete = true then ⟨true, false, true, fed ++ write.queued chunk⟩
          else feedLoop pipe (i + 1) r' (fed ++ write.queued chunk) := by
  rw [feedLoop]
  split
  · rename_i h'
    rw [h] at h'
    exact nomatch h'
  · rename_i h'
    rw [h] at h'
    obtain ⟨-, rfl, rfl⟩ := Prod.mk.injEq .. ▸ Prod.mk.injEq .. ▸ h'
    split
    · rfl
    · cases pipe i <;> rfl

/-! ## The honest run -/

variable {key header payload : Bytes}

/-- The stream state `st` the honest run is in when `rest` of the payload is
still to be sealed. -/
def AtRest (S : SecretStream) (key header payload : Bytes) (st : S.State) (rest : Bytes) :
    Prop :=
  ∃ st₀ ms cs, S.initPush key header = some st₀ ∧
    chunkMessages payload = ms ++ chunkMessages rest ∧ S.Pushes st₀ ms cs st

theorem atRest_start {st₀ : S.State} (h : S.initPush key header = some st₀) :
    AtRest S key header payload st₀ payload :=
  ⟨st₀, [], [], h, rfl, .nil st₀⟩

variable {rest : Bytes}

theorem AtRest.step {st st' : S.State} {c : Bytes} (h : AtRest S key header payload st rest)
    (hrest : ¬ rest.length < profilePackageChunkBytes)
    (hpush : S.push st (rest.take profilePackageChunkBytes) SecretStream.tagMessage = some (c, st')) :
    AtRest S key header payload st' (rest.drop profilePackageChunkBytes) := by
  obtain ⟨st₀, ms, cs, hinit, hmsgs, hpushes⟩ := h
  refine ⟨st₀, ms ++ [(rest.take profilePackageChunkBytes, SecretStream.tagMessage)], cs ++ [c],
    hinit, ?_, hpushes.append (.single hpush)⟩
  rw [hmsgs, chunkMessages_of_ge hrest, List.append_assoc, List.singleton_append]

/-- In an ideal stream, the frame accepted next is the next honest frame: the
chunk handed out, its tag and the state after it are those of the honest run. -/
theorem nextSealed_ideal (hS : S.Seals) (hI : S.Ideal key header (chunkMessages payload))
    {out m : Bytes} {tag : UInt8} {ms : List (Bytes × UInt8)}
    (hat : AtRest S key header payload r.state rest) (hms : chunkMessages rest = (m, tag) :: ms)
    (h : r.nextSealed = (true, out, r')) :
    out = m ∧ (∃ c, S.push r.state m tag = some (c, r'.state)) ∧
      r' = { r with source := r'.source, state := r'.state,
                    complete := r.complete || tag == SecretStream.tagFinal } := by
  obtain ⟨lengthBytes, cipher, tag', -, -, -, hpull, -, hr'⟩ :=
    PackageStreamReader.nextSealed_inv h
  obtain ⟨st₀, ms₀, cs, hinit, hmsgs, hpushes⟩ := hat
  have hm : m.length ≤ profilePackageChunkBytes :=
    length_le_of_mem_chunkMessages (p := rest) (m := (m, tag)) (hms ▸ List.mem_cons_self)
  obtain ⟨c, st', hpush⟩ := hS.push_some r.state tag (Nat.le_trans hm chunk_le_messageBytesMax)
  have honly := hI.onlyPushed hinit (hms ▸ hmsgs) hpushes hpush cipher
  rw [hpull] at honly
  split at honly
  · obtain ⟨rfl, rfl, hst⟩ := Prod.mk.injEq .. ▸ Prod.mk.injEq .. ▸ Option.some.inj honly
    exact ⟨rfl, ⟨c, hst ▸ hpush⟩, hr'⟩
  · exact nomatch honly

/-- What the feeder can have done with a body of which `rest` is still to come
and `fed` has been queued: never more than a prefix of it, and all of it when it
leaves the loop with an open pipe, a good body and the FINAL tag seen. -/
structure Delivers (f : Feed) (fed rest : Bytes) : Prop where
  isPrefix : f.fed <+: fed ++ rest
  whole : f.bodyOk = true → f.sinkClosed = false → f.complete = true → f.fed = fed ++ rest

theorem Delivers.fail {complete : Bool} : Delivers ⟨false, false, complete, fed⟩ fed rest :=
  ⟨List.prefix_append fed rest, fun h => (nomatch h)⟩

theorem Delivers.gaveUp {chunk : Bytes} {complete : Bool} (taken : Nat) (h : chunk <+: rest) :
    Delivers ⟨true, true, complete, fed ++ chunk.take taken⟩ fed rest := by
  refine ⟨?_, fun _ h => (nomatch h)⟩
  exact (List.prefix_append_right_inj fed).mpr ((List.take_prefix taken chunk).trans h)

/-- The feeder loop, from any point of the honest run on: the recursion follows
the chunks of what is left of the payload. -/
theorem feedLoop_delivers (hS : S.Seals) (hI : S.Ideal key header (chunkMessages payload))
    (hpipe : ∀ i taken, pipe i ≠ .aborted taken) (rest : Bytes) :
    ∀ {r : PackageStreamReader S} {i : Nat} {fed : Bytes}, r.begun = true →
      r.isProtected = true → r.complete = false → AtRest S key header payload r.state rest →
      Delivers (feedLoop pipe i r fed) fed rest := by
  induction rest using chunkMessages.induct with
  | case1 rest hlt =>
    intro r i fed hbegun hprot hcomplete hat
    rcases hnext : r.next with ⟨_ | _, out, r'⟩
    · rw [feedLoop_of_fail hnext]
      exact .fail
    have hsealed := hnext
    rw [PackageStreamReader.next_eq_nextSealed hbegun hprot hcomplete] at hsealed
    obtain ⟨rfl, -, hr'⟩ := nextSealed_ideal hS hI hat (chunkMessages_of_lt hlt) hsealed
    have hdone : r'.complete = true := by
      rw [hr']
      simp
    rw [feedLoop_of_next hnext]
    by_cases hnil : out = []
    · rw [if_pos hnil, hnil]
      exact ⟨List.prefix_append fed [], fun _ _ _ => (List.append_nil fed).symm⟩
    rw [if_neg hnil]
    -- the last chunk: the pipe takes all of it, or was closed under it
    rcases hwrite : pipe i with _ | taken | taken
    · simp only [hdone, if_true]
      exact ⟨List.prefix_refl _, fun _ _ _ => rfl⟩
    · exact .gaveUp taken (List.prefix_refl out)
    · exact absurd hwrite (hpipe i taken)
  | case2 rest hge ih =>
    intro r i fed hbegun hprot hcomplete hat
    rcases hnext : r.next with ⟨_ | _, out, r'⟩
    · rw [feedLoop_of_fail hnext]
      exact .fail
    have hsealed := hnext
    rw [PackageStreamReader.next_eq_nextSealed hbegun hprot hcomplete] at hsealed
    obtain ⟨rfl, ⟨c, hpush⟩, hr'⟩ :=
      nextSealed_ideal hS hI hat (chunkMessages_of_ge hge) hsealed
    have hgo : r'.complete = false := by
      rw [hr', hcomplete]
      rfl
    have hnil : rest.take profilePackageChunkBytes ≠ [] := by
      have := profilePackageChunkBytes_pos
      apply List.ne_nil_of_length_pos
      rw [List.length_take]
      omega
    rw [feedLoop_of_next hnext, if_neg hnil]
    -- a whole chunk: the loop goes on with what is left
    rcases hwrite : pipe i with _ | taken | taken
    · simp only [hgo, Bool.false_eq_true, if_false, PipeWrite.queued]
      have hrec : Delivers
          (feedLoop pipe (i + 1) r' (fed ++ rest.take profilePackageChunkBytes))
          (fed ++ rest.take profilePackageChunkBytes) (rest.drop profilePackageChunkBytes) :=
        ih (by rw [hr']; exact hbegun) (by rw [hr']; exact hprot) hgo (hat.step hge hpush)
      have hsplit : fed ++ rest.take profilePackageChunkBytes ++
          rest.drop profilePackageChunkBytes = fed ++ rest := by
        rw [List.append_assoc, List.take_append_drop]
      exact ⟨hsplit ▸ hrec.isPrefix, hsplit ▸ hrec.whole⟩
    · exact .gaveUp taken (List.take_prefix _ rest)
    · exact absurd hwrite (hpipe i taken)

/-- A stream that opens nothing fails on its first chunk. -/
theorem next_of_foreign (hprot : r.isProtected = true) (hcomplete : r.complete = false)
    (hforeign : ∀ f, S.pull r.state f = none) : r.next.1 = false := by
  by_contra hne
  rcases hnext : r.next with ⟨_ | _, out, r'⟩
  · rw [hnext] at hne
    exact hne rfl
  obtain ⟨-, ⟨hp, -⟩ | ⟨-, hc, -⟩ | ⟨-, -, hsealed⟩⟩ := PackageStreamReader.next_inv hnext
  · rw [hprot] at hp
    exact nomatch hp
  · rw [hcomplete] at hc
    exact nomatch hc
  · obtain ⟨_, cipher, _, -, -, -, hpull, -⟩ := PackageStreamReader.nextSealed_inv hsealed
    rw [hforeign cipher] at hpull
    exact nomatch hpull

variable {pwhash : Bytes → Bytes → Option Bytes} {passphrase : Bytes}

variable {opened : Bool} {body : Source}

/-- Whatever body it is given and whatever it is opened with, the feeder delivers the
payload that was sealed. -/
theorem feed_delivers (hS : S.Seals) (hI : S.Ideal key header (chunkMessages payload))
    (hpipe : ∀ i taken, pipe i ≠ .aborted taken) :
    Delivers (feed S pwhash pipe opened body passphrase true) [] payload := by
  unfold feed
  split
  · exact .fail
  rcases hbegin : (PackageStreamReader.mk' S body passphrase true).begin pwhash with ⟨_ | _, r⟩
  · exact .fail
  obtain ⟨salt', header', key', -, -, -, -, -, hinit, hr⟩ := PackageStreamReader.begin_inv hbegin
  have hbegun : r.begun = true := by rw [hr]
  have hprot : r.isProtected = true := by rw [hr]; rfl
  have hcomplete : r.complete = false := by rw [hr]; rfl
  have hloop : Delivers (feedLoop pipe 0 r []) [] payload := by
    by_cases hsame : (key', header') = (key, header)
    · -- the honest key and header: follow the honest run
      obtain ⟨rfl, rfl⟩ := Prod.mk.injEq .. ▸ hsame
      obtain ⟨st₀, hst₀⟩ := hS.initPush_some key' header'
      have hstate : st₀ = r.state :=
        Option.some.inj ((hS.initPull_initPush hst₀).symm.trans hinit)
      have hat : AtRest S key' header' payload r.state payload := hstate ▸ atRest_start hst₀
      exact feedLoop_delivers hS hI hpipe payload hbegun hprot hcomplete hat
    · -- any other key or header: the first chunk does not authenticate
      have hfail := next_of_foreign hprot hcomplete (hI.foreign hsame hinit)
      rcases hnext : r.next with ⟨_ | _, out, r'⟩
      · rw [feedLoop_of_fail hnext]
        exact .fail
      · rw [hnext] at hfail
        exact nomatch hfail
  dsimp only
  split
  · exact ⟨hloop.isPrefix, fun h => (nomatch h)⟩
  · exact hloop

/-- A good body left an open pipe behind the FINAL tag. -/
theorem feed_complete {isProtected : Bool}
    (hok : (feed S pwhash pipe opened body passphrase isProtected).bodyOk = true)
    (hopen : (feed S pwhash pipe opened body passphrase isProtected).sinkClosed = false) :
    (feed S pwhash pipe opened body passphrase isProtected).complete = true := by
  unfold feed at hok hopen ⊢
  split at hok
  · exact nomatch hok
  rw [if_neg ‹_›] at hopen ⊢
  rcases hbegin : (PackageStreamReader.mk' S body passphrase isProtected).begin pwhash with
    ⟨_ | _, r⟩
  · simp only [hbegin] at hok
    exact nomatch hok
  simp only [hbegin] at hok hopen ⊢
  split at hok
  · exact nomatch hok
  · next hcut =>
    rw [if_neg hcut] at hopen ⊢
    simpa [hok, hopen] using hcut

/-- The loop over an unprotected body queues a front part of it. -/
theorem feedLoop_plain (hpipe : ∀ i taken, pipe i ≠ .aborted taken) (n : Nat) :
    ∀ {r : PackageStreamReader S} {i : Nat} {fed : Bytes}, r.source.rest.length ≤ n →
      r.begun = true → r.isProtected = false →
      (feedLoop pipe i r fed).fed <+: fed ++ r.source.rest := by
  induction n with
  | zero =>
    intro r i fed hn hbegun hplain
    rcases hnext : r.next with ⟨_ | _, out, r'⟩
    · rw [feedLoop_of_fail hnext]
      exact List.prefix_append fed _
    obtain ⟨-, ⟨-, hread⟩ | ⟨hp, -⟩ | ⟨hp, -⟩⟩ := PackageStreamReader.next_inv hnext
    · obtain ⟨-, hout, -⟩ := PackageStreamReader.nextPlain_inv hread
      have hnil : out = [] := by
        rw [hout, List.length_eq_zero_iff.mp (Nat.le_zero.mp hn), List.take_nil]
      rw [feedLoop_of_next hnext, if_pos hnil]
      exact List.prefix_append fed _
    · rw [hplain] at hp
      exact nomatch hp
    · rw [hplain] at hp
      exact nomatch hp
  | succ n ih =>
    intro r i fed hn hbegun hplain
    rcases hnext : r.next with ⟨_ | _, out, r'⟩
    · rw [feedLoop_of_fail hnext]
      exact List.prefix_append fed _
    obtain ⟨-, ⟨-, hread⟩ | ⟨hp, -⟩ | ⟨hp, -⟩⟩ := PackageStreamReader.next_inv hnext
    · obtain ⟨hrest, -, -, hr'⟩ := PackageStreamReader.nextPlain_inv hread
      rw [feedLoop_of_next hnext]
      by_cases hnil : out = []
      · rw [if_pos hnil]
        exact List.prefix_append fed _
      rw [if_neg hnil, hrest]
      rcases hwrite : pipe i with _ | taken | taken
      · dsimp only
        split
        · rw [← List.append_assoc]
          exact List.prefix_append _ _
        · have hshort : r'.source.rest.length ≤ n := by
            have hlen := congrArg List.length hrest
            have hpos := List.length_pos_iff.mpr hnil
            rw [List.length_append] at hlen
            omega
          have hrec : (feedLoop pipe (i + 1) r' (fed ++ out)).fed <+:
              (fed ++ out) ++ r'.source.rest :=
            ih hshort (by rw [hr']; exact hbegun) (by rw [hr']; exact hplain)
          rw [List.append_assoc] at hrec
          exact hrec
      · have htake : out.take taken <+: out ++ r'.source.rest :=
          (List.take_prefix taken out).trans (List.prefix_append out _)
        exact (List.prefix_append_right_inj fed).mpr htake
      · exact absurd hwrite (hpipe i taken)
    · rw [hplain] at hp
      exact nomatch hp
    · rw [hplain] at hp
      exact nomatch hp

theorem feed_plain (hpipe : ∀ i taken, pipe i ≠ .aborted taken) :
    (feed S pwhash pipe opened body passphrase false).fed <+: body.rest := by
  unfold feed
  split
  · exact List.nil_prefix
  have hloop : (feedLoop pipe 0 { PackageStreamReader.mk' S body passphrase false with
      begun := true } []).fed <+: body.rest := feedLoop_plain hpipe _ (Nat.le_refl _) rfl rfl
  have hbegin : (PackageStreamReader.mk' S body passphrase false).begin pwhash =
      (true, { PackageStreamReader.mk' S body passphrase false with begun := true }) := rfl
  rw [hbegin]
  dsimp only
  split <;> exact hloop

/-- **No silent truncation or splicing.** Whatever bytes stand where the body of
a protected package should be, and whatever passphrase it is opened with: if the
feeder calls the body good, then what it queued is a prefix of the payload that
was sealed, and all of it unless the extraction closed the pipe. (The messages
sealed for a payload are `chunkMessages payload`, by `writeBody_spec`.) -/
theorem feed_delivers_payload (hS : S.Seals) (hI : S.Ideal key header (chunkMessages payload))
    (pwhash : Bytes → Bytes → Option Bytes) (pipe : Nat → PipeWrite)
    (hpipe : ∀ i taken, pipe i ≠ .aborted taken) (opened : Bool) (body : Source)
    (passphrase : Bytes)
    (hok : (feed S pwhash pipe opened body passphrase true).bodyOk = true) :
    (feed S pwhash pipe opened body passphrase true).fed <+: payload ∧
    ((feed S pwhash pipe opened body passphrase true).sinkClosed = false →
      (feed S pwhash pipe opened body passphrase true).fed = payload) := by
  have hd : Delivers (feed S pwhash pipe opened body passphrase true) [] payload :=
    feed_delivers hS hI hpipe
  exact ⟨hd.isPrefix, fun hopen => hd.whole hok hopen (feed_complete hok hopen)⟩

end Feeder

/-! ## A stream that remembers its honest run -/

/-- The frame of a message in `recordedStream`. -/
def recordedFrame (m : Bytes × UInt8) : Bytes := m.2 :: (m.1 ++ List.replicate 16 0)

/-- The ideal stream of one honest run: `some i` is its state after `i` messages,
`none` a stream under another key or header. -/
def recordedStream (key header : Bytes) (msgs : List (Bytes × UInt8)) : SecretStream where
  State := Option Nat
  zeroed := none
  initPush key' header' := some (if (key', header') = (key, header) then some 0 else none)
  initPull header' key' := some (if (key', header') = (key, header) then some 0 else none)
  push st m tag :=
    if m.length ≤ SecretStream.messageBytesMax then
      some (recordedFrame (m, tag), st.map (· + 1))
    else none
  pull st f :=
    match st with
    | none => none
    | some i =>
      match msgs[i]? with
      | none => none
      | some m => if f = recordedFrame m then some (m.1, m.2, some (i + 1)) else none

variable {key header : Bytes} {msgs : List (Bytes × UInt8)}

theorem recordedStream_push {st st' : Option Nat} {m : Bytes} {tag : UInt8} {c : Bytes}
    (h : (recordedStream key header msgs).push st m tag = some (c, st')) :
    c = recordedFrame (m, tag) ∧ st' = st.map (· + 1) := by
  simp only [recordedStream] at h
  split at h
  · obtain ⟨rfl, rfl⟩ := Prod.mk.injEq .. ▸ Option.some.inj h
    exact ⟨rfl, rfl⟩
  · exact nomatch h

theorem recordedStream_seals : (recordedStream key header msgs).Seals where
  initPush_some _ _ := ⟨_, rfl⟩
  initPull_initPush h := h
  push_some _ _ _ h := ⟨_, _, if_pos h⟩
  length_push h := by
    obtain ⟨rfl, -⟩ := recordedStream_push h
    simp [recordedFrame, SecretStream.abytes]

/-- The state after pushing `ms` counts them. -/
theorem recordedStream_pushes {st st' : (recordedStream key header msgs).State}
    {ms : List (Bytes × UInt8)} {cs : List Bytes}
    (h : (recordedStream key header msgs).Pushes st ms cs st') :
    st' = Option.map (· + ms.length) st := by
  induction h with
  | nil st => exact (congrFun Option.map_id st).symm
  | cons hpush _ ih =>
    obtain ⟨-, rfl⟩ := recordedStream_push hpush
    rw [ih]
    refine (Option.map_map _ _ _).trans (congrArg (Option.map · _) ?_)
    funext i
    simp only [Function.comp_apply, List.length_cons]
    omega

theorem recordedStream_ideal : (recordedStream key header msgs).Ideal key header msgs where
  onlyPushed {st₀ st st' ms ms' cs m tag c} hinit hmsgs hpushes hpush f := by
    obtain ⟨rfl, rfl⟩ := recordedStream_push hpush
    obtain rfl : some 0 = st₀ := by
      have := Option.some.inj hinit
      rwa [if_pos rfl] at this
    obtain rfl := recordedStream_pushes hpushes
    have hget : msgs[ms.length]? = some (m, tag) := by
      rw [hmsgs, List.getElem?_append_right (Nat.le_refl _), Nat.sub_self]
      rfl
    simp [recordedStream, hget]
  foreign {key' header' st} hne hinit f := by
    obtain rfl : none = st := by
      have := Option.some.inj hinit
      rwa [if_neg hne] at this
    rfl

/-! ## One package -/

/-- A three-byte payload, sealed in one chunk under passphrase `[1]`. -/
def samplePayload : Bytes := [10, 11, 12]

def sampleSalt : Bytes := List.replicate 16 7

def sampleHeader : Bytes := List.replicate 24 9

def samplePwhash (passphrase salt : Bytes) : Option Bytes := some (passphrase ++ salt)

def sampleStream : SecretStream :=
  recordedStream (1 :: sampleSalt) sampleHeader [(samplePayload, SecretStream.tagFinal)]

def sampleBody : Bytes :=
  sampleSalt ++ (sampleHeader ++ framed [recordedFrame (samplePayload, SecretStream.tagFinal)])

/-- The reader of the sample package after `i` chunks. -/
def sampleReader (rest : Bytes) (reads i : Nat) (complete : Bool) :
    PackageStreamReader sampleStream :=
  ⟨⟨rest, reads, fun _ => true⟩, [1], true, some i, true, complete⟩

theorem sampleReader_begin :
    (PackageStreamReader.mk' sampleStream (Source.ofBytes sampleBody) [1] true).begin
      samplePwhash = (true, sampleReader
        (framed [recordedFrame (samplePayload, SecretStream.tagFinal)]) 2 0 false) := rfl

theorem sampleReader_next :
    (sampleReader (framed [recordedFrame (samplePayload, SecretStream.tagFinal)]) 2 0 false).next =
      (true, samplePayload, sampleReader [] 4 1 true) := rfl

/-- Feeding the sample package comes down to one write into the pipe. -/
theorem feed_sample (pipe : Nat → PipeWrite) :
    feed sampleStream samplePwhash pipe true (Source.ofBytes sampleBody) [1] true =
      match pipe 0 with
      | .closed taken => ⟨true, true, true, samplePayload.take taken⟩
      | write => ⟨true, false, true, write.queued samplePayload⟩ := by
  simp only [feed, sampleReader_begin]
  rw [feedLoop_of_next sampleReader_next]
  cases pipe 0 <;> rfl

theorem chunkMessages_sample :
    chunkMessages samplePayload = [(samplePayload, SecretStream.tagFinal)] :=
  chunkMessages_of_lt (by decide)

theorem sampleStream_seals : sampleStream.Seals := recordedStream_seals

theorem sampleStream_ideal :
    sampleStream.Ideal (1 :: sampleSalt) sampleHeader (chunkMessages samplePayload) :=
  chunkMessages_sample ▸ recordedStream_ideal

/-- The sample package, fed into a pipe that takes everything. -/
theorem feed_delivers_payload_sample :
    (feed sampleStream samplePwhash (fun _ => .whole) true (Source.ofBytes sampleBody) [1]
      true).bodyOk = true ∧
    (feed sampleStream samplePwhash (fun _ => .whole) true (Source.ofBytes sampleBody) [1]
      true).fed = samplePayload := by
  have hok : (feed sampleStream samplePwhash (fun _ => .whole) true (Source.ofBytes sampleBody)
      [1] true).bodyOk = true := by
    rw [feed_sample]
  refine ⟨hok, (feed_delivers_payload sampleStream_seals sampleStream_ideal samplePwhash
    (fun _ => .whole) (fun _ _ h => nomatch h) true (Source.ofBytes sampleBody) [1] hok).2 ?_⟩
  rw [feed_sample]

/-- A good body is not all of the payload when the extraction closes the pipe
after one byte: the feeder leaves that to the extraction to report. -/
theorem not_feed_whole_of_closed_pipe :
    ¬ ∀ (S : SecretStream) (key header payload : Bytes), S.Seals →
      S.Ideal key header (chunkMessages payload) →
      ∀ (pwhash : Bytes → Bytes → Option Bytes) (pipe : Nat → PipeWrite) (opened : Bool)
        (body : Source) (passphrase : Bytes),
        (feed S pwhash pipe opened body passphrase true).bodyOk = true →
        (feed S pwhash pipe opened body passphrase true).fed = payload := by
  intro hclaim
  have h := hclaim sampleStream (1 :: sampleSalt) sampleHeader samplePayload sampleStream_seals
    sampleStream_ideal samplePwhash (fun _ => .closed 1) true (Source.ofBytes sampleBody) [1]
  rw [feed_sample] at h
  exact absurd (h rfl) (by decide)

end GpgFrontend
