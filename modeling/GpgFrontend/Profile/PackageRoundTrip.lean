import GpgFrontend.Profile.PackageStream

/-!
# What the stream writer writes, the stream reader reads back

- `nextSealed_framed`: one well-formed frame is one chunk.
- `package_stream_round_trip`: **what is written in any pieces is read whole.**
-/

namespace GpgFrontend

/-! ## Layout arithmetic -/

@[simp] theorem framed_nil : framed [] = [] := rfl

@[simp] theorem framed_cons (c : Bytes) (cs : List Bytes) :
    framed (c :: cs) = bigEndian32 c.length ++ (c ++ framed cs) := by
  simp [framed]

theorem framed_append (cs cs' : List Bytes) : framed (cs ++ cs') = framed cs ++ framed cs' := by
  simp [framed]

theorem chunkMessages_of_lt {p : Bytes} (h : p.length < profilePackageChunkBytes) :
    chunkMessages p = [(p, SecretStream.tagFinal)] := by
  rw [chunkMessages, if_pos h]

theorem chunkMessages_of_ge {p : Bytes} (h : ¬ p.length < profilePackageChunkBytes) :
    chunkMessages p = (p.take profilePackageChunkBytes, SecretStream.tagMessage) ::
      chunkMessages (p.drop profilePackageChunkBytes) := by
  rw [chunkMessages, if_neg h]

/-- Whole chunks followed by a short rest are cut exactly there. -/
theorem chunkMessages_flatten (fulls : List Bytes) (last : Bytes)
    (hfull : ∀ c ∈ fulls, c.length = profilePackageChunkBytes)
    (hlast : last.length < profilePackageChunkBytes) :
    chunkMessages (fulls.flatten ++ last) =
      fulls.map (fun c => (c, SecretStream.tagMessage)) ++ [(last, SecretStream.tagFinal)] := by
  induction fulls with
  | nil => exact chunkMessages_of_lt hlast
  | cons c cs ih =>
    have hc : c.length = profilePackageChunkBytes := hfull c List.mem_cons_self
    have hcs : ∀ c' ∈ cs, c'.length = profilePackageChunkBytes :=
      fun c' h => hfull c' (List.mem_cons_of_mem c h)
    rw [List.flatten_cons, List.append_assoc, chunkMessages_of_ge, ← hc, List.take_left,
      List.drop_left, ih hcs]
    · rfl
    · rw [List.length_append, hc]
      exact Nat.not_lt.mpr (Nat.le_add_right _ _)

/-- The messages of a payload, put together again, are the payload. -/
theorem chunkMessages_join (p : Bytes) :
    ((chunkMessages p).map Prod.fst).flatten = p := by
  induction p using chunkMessages.induct with
  | case1 p h => rw [chunkMessages_of_lt h]; simp
  | case2 p h ih =>
    rw [chunkMessages_of_ge h, List.map_cons, List.flatten_cons, ih]
    exact List.take_append_drop _ p

theorem length_le_of_mem_chunkMessages {p : Bytes} {m : Bytes × UInt8}
    (h : m ∈ chunkMessages p) : m.1.length ≤ profilePackageChunkBytes := by
  induction p using chunkMessages.induct with
  | case1 p hp =>
    rw [chunkMessages_of_lt hp, List.mem_singleton] at h
    rw [h]
    exact Nat.le_of_lt hp
  | case2 p hp ih =>
    rw [chunkMessages_of_ge hp] at h
    rcases List.mem_cons.mp h with rfl | h
    · exact List.length_take_le _ _
    · exact ih h

/-! ## The writer -/

/-- A chunk is never too long to be sealed in one piece. -/
theorem chunk_le_messageBytesMax : profilePackageChunkBytes ≤ SecretStream.messageBytesMax := by
  decide

/-- What a sink promises, with `Out s o` read as "in state `s` exactly the bytes
`o` have been taken": an accepted run of bytes is appended, consecutive states
are related by `G`, and a `live` sink accepts everything. -/
def SinkSpec {σ : Type} (G : σ → σ → Prop) (Out : σ → Bytes → Prop) (live : Prop)
    (sink : Bytes → CrashM σ Bool) : Prop :=
  ∀ s o d, Out s o →
    Triple G (sink d) s fun ok s' => (ok = true → Out s' (o ++ d)) ∧ (live → ok = true)

namespace PackageStreamWriter

variable {S : SecretStream} {σ : Type} {G : σ → σ → Prop} {Out : σ → Bytes → Prop}
  {live : Prop} {sink : Bytes → CrashM σ Bool}

/-- Postconditions of writer calls: success establishes `P`, and over a live
sink the call succeeds. -/
def Returns (live : Prop) (P : PackageStreamWriter S → σ → Prop) :
    Bool × PackageStreamWriter S → σ → Prop :=
  fun r s => (r.1 = true → P r.2 s) ∧ (live → r.1 = true)

variable {s : σ} {P : PackageStreamWriter S → σ → Prop}

theorem returns_of_imp {live' : Prop} {m : CrashM σ (Bool × PackageStreamWriter S)}
    (hl : live' → live) (h : Triple G m s (Returns live P)) : Triple G m s (Returns live' P) :=
  h.weaken fun _ _ hr => ⟨hr.1, fun hlive => hr.2 (hl hlive)⟩

/-- A writer that has taken `written` since the body started, over a sink that
had taken `o₀` then and `o` now. Protected: whole chunks are sealed (from `st₀`
on) and framed, the rest is pending. Unprotected: everything went through. -/
structure Holds (p : Bool) (st₀ : S.State) (o₀ : Bytes) (written o : Bytes)
    (w : PackageStreamWriter S) : Prop where
  begun : w.begun = true
  unfinished : w.finished = false
  guarded : w.isProtected = p
  sealedPart : p = true → ∃ (fulls : List Bytes) (cs : List Bytes),
    written = fulls.flatten ++ w.pending ∧
    (∀ c ∈ fulls, c.length = profilePackageChunkBytes) ∧
    S.Pushes st₀ (fulls.map fun c => (c, SecretStream.tagMessage)) cs w.state ∧
    o = o₀ ++ framed cs
  plainPart : p = false → o = o₀ ++ written

variable {w : PackageStreamWriter S}

variable {o : Bytes}

/-- Writing two runs of bytes, one after the other, and giving up early. -/
theorem sink_pair_spec {d d' : Bytes} (hsink : SinkSpec G Out live sink) (ho : Out s o)
    (hP : ∀ s', Out s' (o ++ d ++ d') → P w s') :
    Triple G (do
      if ← sink d then
        let ok ← sink d'
        pure (ok, w)
      else pure (false, w)) s (Returns live P) := by
  refine Triple.bind (hsink s o d ho) fun ok s₁ h₁ => ?_
  cases ok with
  | false => exact Triple.pure ⟨fun h => (nomatch h), h₁.2⟩
  | true =>
    refine Triple.bind (hsink s₁ (o ++ d) d' (h₁.1 rfl)) fun ok' s₂ h₂ => ?_
    exact Triple.pure ⟨fun h => hP s₂ (h₂.1 h), h₂.2⟩

/-- Sealing one chunk appends its frame and advances the stream. -/
theorem flushChunk_spec (hS : S.Seals) (hsink : SinkSpec G Out live sink) {chunk : Bytes}
    {finalChunk : Bool} (hchunk : ¬(chunk = [] ∧ finalChunk = false))
    (hlen : chunk.length ≤ profilePackageChunkBytes) (ho : Out s o) :
    Triple G (flushChunk sink w chunk finalChunk) s (Returns live fun w' s' =>
      ∃ c st, S.push w.state chunk
          (if finalChunk then SecretStream.tagFinal else SecretStream.tagMessage) = some (c, st) ∧
        w' = { w.forgetPending with state := st } ∧ Out s' (o ++ framed [c])) := by
  obtain ⟨c, st, hpush⟩ := hS.push_some w.state
    (if finalChunk then SecretStream.tagFinal else SecretStream.tagMessage)
    (Nat.le_trans hlen chunk_le_messageBytesMax)
  have hpush' : S.push w.forgetPending.state chunk
      (if finalChunk then SecretStream.tagFinal else SecretStream.tagMessage) = some (c, st) :=
    hpush
  rw [flushChunk, if_neg hchunk]
  simp only [hpush']
  refine sink_pair_spec hsink ho fun s' hs' => ⟨c, st, hpush, rfl, ?_⟩
  rw [framed_cons, framed_nil, List.append_nil, ← List.append_assoc]
  exact hs'

variable {st₀ : S.State}

variable {o₀ : Bytes}

/-- The loop of `Write` takes its data into the layout, wherever chunk
boundaries fall. -/
theorem writeLoop_spec (hS : S.Seals) (hsink : SinkSpec G Out live sink) (n : Nat) :
    ∀ {data : Bytes}, data.length ≤ n → ∀ {w : PackageStreamWriter S} {s : σ} {written o : Bytes},
      Out s o → Holds true st₀ o₀ written o w →
      Triple G (writeLoop sink w data) s (Returns live fun w' s' =>
        ∃ o', Out s' o' ∧ Holds true st₀ o₀ (written ++ data) o' w') := by
  induction n with
  | zero =>
    intro data hn w s written o ho hw
    rw [writeLoop, if_pos (List.length_eq_zero_iff.mp (Nat.le_zero.mp hn))]
    refine Triple.pure ⟨fun _ => ⟨o, ho, ?_⟩, fun _ => rfl⟩
    rw [List.length_eq_zero_iff.mp (Nat.le_zero.mp hn), List.append_nil]
    exact hw
  | succ n ih =>
    intro data hn w s written o ho hw
    rw [writeLoop]
    by_cases hdata : data = []
    · rw [if_pos hdata]
      refine Triple.pure ⟨fun _ => ⟨o, ho, ?_⟩, fun _ => rfl⟩
      rw [hdata, List.append_nil]
      exact hw
    rw [if_neg hdata]
    -- one round: `take` bytes join the pending chunk
    have hroom := w.pending_lt
    have hpos : 0 < data.length := List.length_pos_iff.mpr hdata
    set take := min (profilePackageChunkBytes - w.pending.length) data.length with htake
    have hdrop : (data.drop take).length ≤ n := by
      rw [List.length_drop]
      omega
    have htakelen : (data.take take).length = take := by
      rw [List.length_take]
      omega
    obtain ⟨fulls, cs, hwritten, hfulls, hpushes, hout⟩ := hw.sealedPart rfl
    have hsplit : written ++ data =
        (fulls.flatten ++ (w.pending ++ data.take take)) ++ data.drop take := by
      rw [hwritten]
      simp [List.append_assoc]
    by_cases hfull : profilePackageChunkBytes ≤ (w.pending ++ data.take take).length
    · -- the chunk is whole: seal it and go on with an empty one
      rw [dif_pos hfull]
      have hexact : (w.pending ++ data.take take).length = profilePackageChunkBytes := by
        rw [List.length_append, htakelen] at hfull ⊢
        omega
      have hidle : ¬((w.pending ++ data.take take) = [] ∧ false = false) := by
        rintro ⟨hnil, -⟩
        rw [hnil] at hexact
        exact absurd hexact (Nat.ne_of_lt profilePackageChunkBytes_pos)
      refine Triple.bind (flushChunk_spec hS hsink hidle (Nat.le_of_eq hexact) ho) ?_
      rintro ⟨ok, w'⟩ s' ⟨hok, hlive⟩
      cases ok with
      | false => exact Triple.pure ⟨fun h => (nomatch h), hlive⟩
      | true =>
        obtain ⟨c, st, hpush, rfl, ho'⟩ := hok rfl
        rw [hsplit]
        refine ih hdrop ho' ⟨hw.begun, hw.unfinished, hw.guarded,
          fun _ => ⟨fulls ++ [w.pending ++ data.take take], cs ++ [c], ?_, ?_, ?_, ?_⟩,
          fun h => (nomatch h)⟩
        · simp [forgetPending]
        · intro c' hc'
          rcases List.mem_append.mp hc' with h | h
          · exact hfulls c' h
          · rw [List.mem_singleton.mp h]
            exact hexact
        · rw [List.map_append]
          exact hpushes.append (.single hpush)
        · rw [hout, framed_append, List.append_assoc]
    · -- the data ran out before the chunk was whole
      rw [dif_neg hfull, hsplit]
      exact ih hdrop ho ⟨hw.begun, hw.unfinished, hw.guarded,
        fun _ => ⟨fulls, cs, rfl, hfulls, hpushes, hout⟩, fun h => (nomatch h)⟩

variable {p : Bool}

/-- One `Write` call. -/
theorem write_spec (hS : S.Seals) (hsink : SinkSpec G Out live sink) {data : Bytes}
    {written : Bytes} (ho : Out s o) (hw : Holds p st₀ o₀ written o w) :
    Triple G (write sink w data) s (Returns live fun w' s' =>
      ∃ o', Out s' o' ∧ Holds p st₀ o₀ (written ++ data) o' w') := by
  rw [write, if_neg (by simp [hw.begun, hw.unfinished])]
  by_cases hdata : data = []
  · rw [if_pos hdata]
    refine Triple.pure ⟨fun _ => ⟨o, ho, ?_⟩, fun _ => rfl⟩
    rw [hdata, List.append_nil]
    exact hw
  rw [if_neg hdata]
  cases p with
  | true =>
    rw [if_neg (by simp [hw.guarded])]
    exact writeLoop_spec hS hsink data.length (Nat.le_refl _) ho hw
  | false =>
    rw [if_pos (by simp [hw.guarded])]
    refine Triple.bind (hsink s o data ho) fun ok s' h => Triple.pure ⟨fun hok => ?_, h.2⟩
    refine ⟨o ++ data, h.1 hok, hw.begun, hw.unfinished, hw.guarded, fun h => (nomatch h), ?_⟩
    intro _
    rw [hw.plainPart rfl, List.append_assoc]

/-- Any number of `Write` calls take the concatenation of their data. -/
theorem writes_spec (hS : S.Seals) (hsink : SinkSpec G Out live sink) (datas : List Bytes) :
    ∀ {w : PackageStreamWriter S} {s : σ} {written o : Bytes},
      Out s o → Holds p st₀ o₀ written o w →
      Triple G (writes sink w datas) s (Returns live fun w' s' =>
        ∃ o', Out s' o' ∧ Holds p st₀ o₀ (written ++ datas.flatten) o' w') := by
  induction datas with
  | nil =>
    intro w s written o ho hw
    refine Triple.pure ⟨fun _ => ⟨o, ho, ?_⟩, fun _ => rfl⟩
    rw [List.flatten_nil, List.append_nil]
    exact hw
  | cons data rest ih =>
    intro w s written o ho hw
    refine Triple.bind (write_spec hS hsink ho hw) ?_
    rintro ⟨ok, w'⟩ s' ⟨hok, hlive⟩
    cases ok with
    | false => exact Triple.pure ⟨fun h => (nomatch h), hlive⟩
    | true =>
      obtain ⟨o', ho', hw'⟩ := hok rfl
      rw [List.flatten_cons, ← List.append_assoc]
      exact ih ho' hw'

/-- `Finish` closes the layout: what was pending goes out under the FINAL tag. -/
theorem finish_spec (hS : S.Seals) (hsink : SinkSpec G Out live sink) {written : Bytes}
    (ho : Out s o) (hw : Holds p st₀ o₀ written o w) :
    Triple G (finish sink w) s (Returns live fun _ s' =>
      (p = true → ∃ cs st, S.Pushes st₀ (chunkMessages written) cs st ∧
        Out s' (o₀ ++ framed cs)) ∧
      (p = false → Out s' (o₀ ++ written))) := by
  rw [finish, if_neg (by simp [hw.begun, hw.unfinished])]
  cases p with
  | false =>
    rw [if_pos (by simp [hw.guarded])]
    refine Triple.pure ⟨fun _ => ⟨fun h => (nomatch h), fun _ => ?_⟩, fun _ => rfl⟩
    rw [← hw.plainPart rfl]
    exact ho
  | true =>
    rw [if_neg (by simp [hw.guarded])]
    obtain ⟨fulls, cs, hwritten, hfulls, hpushes, hout⟩ := hw.sealedPart rfl
    refine (flushChunk_spec hS hsink (by simp) (Nat.le_of_lt w.pending_lt) ho).weaken ?_
    rintro ⟨ok, w'⟩ s' ⟨hok, hlive⟩
    refine ⟨fun h => ⟨fun _ => ?_, fun h => (nomatch h)⟩, hlive⟩
    obtain ⟨c, st, hpush, -, ho'⟩ := hok h
    refine ⟨cs ++ [c], st, ?_, ?_⟩
    · rw [hwritten, chunkMessages_flatten fulls w.pending hfulls w.pending_lt]
      exact hpushes.append (.single hpush)
    · rw [framed_append, ← List.append_assoc, ← hout]
      exact ho'

/-- What a protected body needs to begin: a passphrase, and a key out of it. -/
def CanBegin (pwhash : Bytes → Bytes → Option Bytes) (passphrase salt : Bytes)
    (p : Bool) : Prop :=
  p = true → passphrase ≠ [] ∧ ∃ key, pwhash passphrase salt = some key

/-- `Begin` starts the stream behind salt and header, or writes nothing. -/
theorem begin_spec {pwhash : Bytes → Bytes → Option Bytes} {passphrase : Bytes}
    {salt : Block packageSaltLen} {header : Block SecretStream.headerBytes} (hS : S.Seals)
    (hsink : SinkSpec G Out live sink) (ho : Out s o) :
    Triple G (begin pwhash sink salt header (mk' S passphrase p)) s
      (Returns (live ∧ CanBegin pwhash passphrase salt.1 p) fun w s' =>
        ∃ st₀ o', Out s' o' ∧ Holds p st₀ o' [] o' w ∧
          (p = true → passphrase ≠ [] ∧ ∃ key, pwhash passphrase salt.1 = some key ∧
            S.initPush key header.1 = some st₀ ∧ o' = o ++ (salt.1 ++ header.1)) ∧
          (p = false → o' = o)) := by
  cases p with
  | false =>
    refine Triple.pure ⟨fun _ => ⟨S.zeroed, o, ho, ?_, fun h => (nomatch h), fun _ => rfl⟩,
      fun _ => rfl⟩
    exact ⟨rfl, rfl, rfl, fun h => (nomatch h), fun _ => (List.append_nil o).symm⟩
  | true =>
    rw [begin, if_neg (by simp [mk']), if_neg (by simp [mk'])]
    by_cases hpass : passphrase = []
    · rw [if_pos (by simpa [mk'] using hpass)]
      exact Triple.pure ⟨fun h => (nomatch h), fun h => absurd hpass (h.2 rfl).1⟩
    rw [if_neg (by simpa [mk'] using hpass)]
    cases hkey : pwhash passphrase salt.1 with
    | none =>
      simp only [mk', hkey]
      refine Triple.pure ⟨fun h => (nomatch h), fun h => ?_⟩
      obtain ⟨key, hsome⟩ := (h.2 rfl).2
      rw [hkey] at hsome
      exact nomatch hsome
    | some key =>
      obtain ⟨st₀, hinit⟩ := hS.initPush_some key header.1
      simp only [mk', hkey, hinit]
      refine returns_of_imp And.left (sink_pair_spec hsink ho fun s' hs' => ?_)
      refine ⟨st₀, o ++ (salt.1 ++ header.1), ?_, ?_, ?_, fun h => (nomatch h)⟩
      · rw [← List.append_assoc]
        exact hs'
      · exact ⟨rfl, rfl, rfl, fun _ => ⟨[], [], rfl, fun c hc => (nomatch hc), .nil st₀, by simp⟩,
          fun h => (nomatch h)⟩
      · exact fun _ => ⟨hpass, key, rfl, hinit, rfl⟩

end PackageStreamWriter

/-! ## The reader -/

namespace Source

theorem read_some {s s' : Source} {n : Nat} {d : Bytes} (h : s.read n = (some d, s')) :
    s.rest = d ++ s'.rest ∧ d = s.rest.take n ∧ s'.readOk = s.readOk := by
  unfold read at h
  split at h
  · obtain ⟨hd, rfl⟩ := Prod.mk.injEq .. ▸ h
    rw [← Option.some.inj hd]
    exact ⟨(List.take_append_drop n s.rest).symm, rfl, rfl⟩
  · exact nomatch h

/-- A device that serves every read hands out what is asked for. -/
theorem read_append {s : Source} (hok : s.readOk = fun _ => true) {d rest : Bytes} {n : Nat}
    (hn : d.length = n) (hrest : s.rest = d ++ rest) :
    s.read n = (some d, { s with rest := rest, reads := s.reads + 1 }) := by
  rw [read, if_pos (by rw [hok]), hrest, ← hn, List.take_left, List.drop_left]

end Source

namespace PackageStreamReader

variable {S : SecretStream}

variable {r r' : PackageStreamReader S} {out : Bytes}

/-- A chunk is handed out only for a whole frame of a plausible size that the
stream opens. -/
theorem nextSealed_inv (h : r.nextSealed = (true, out, r')) :
    ∃ lengthBytes cipher tag,
      r.source.rest = lengthBytes ++ (cipher ++ r'.source.rest) ∧
      lengthBytes.length = profilePackageChunkPrefixBytes ∧
      cipher.length = ofBigEndian32 lengthBytes ∧
      S.pull r.state cipher = some (out, tag, r'.state) ∧
      r'.source.readOk = r.source.readOk ∧
      r' = { r with source := r'.source, state := r'.state,
                    complete := r.complete || tag == SecretStream.tagFinal } := by
  unfold nextSealed at h
  rcases hread : r.source.read profilePackageChunkPrefixBytes with ⟨_ | lengthBytes, s₁⟩
  · simp only [hread] at h
    exact nomatch h
  simp only [hread] at h
  split at h
  · exact nomatch h
  rename_i hlen
  split at h
  · exact nomatch h
  rcases hread' : s₁.read (ofBigEndian32 lengthBytes) with ⟨_ | cipher, s₂⟩
  · simp only [hread'] at h
    exact nomatch h
  simp only [hread'] at h
  split at h
  · exact nomatch h
  rename_i hcipher
  split at h
  · exact nomatch h
  rename_i plain tag st hpull
  obtain ⟨-, rfl, rfl⟩ := Prod.mk.injEq .. ▸ Prod.mk.injEq .. ▸ h
  have h₁ := Source.read_some hread
  have h₂ := Source.read_some hread'
  refine ⟨lengthBytes, cipher, tag, ?_, Decidable.not_not.mp hlen,
    Decidable.not_not.mp hcipher, hpull, h₂.2.2.trans h₁.2.2, rfl⟩
  rw [h₁.1, h₂.1]

/-- One frame of the layout is one chunk. -/
theorem nextSealed_framed (hok : r.source.readOk = fun _ => true) {c rest m : Bytes} {tag : UInt8}
    {st : S.State} (hrest : r.source.rest = bigEndian32 c.length ++ (c ++ rest))
    (hmin : SecretStream.abytes ≤ c.length) (hmax : c.length ≤ maxChunkBytes)
    (hpull : S.pull r.state c = some (m, tag, st)) :
    r.nextSealed = (true, m, { r with
      source := ⟨rest, r.source.reads + 2, r.source.readOk⟩, state := st,
      complete := r.complete || tag == SecretStream.tagFinal }) := by
  have hword : c.length < 2 ^ 32 := Nat.lt_of_le_of_lt hmax (by decide)
  have hread := Source.read_append hok (length_bigEndian32 c.length) hrest
  have hread' : (⟨c ++ rest, r.source.reads + 1, r.source.readOk⟩ : Source).read c.length =
      (some c, ⟨rest, r.source.reads + 2, r.source.readOk⟩) :=
    Source.read_append (s := ⟨c ++ rest, r.source.reads + 1, r.source.readOk⟩) hok rfl rfl
  unfold nextSealed
  rw [profilePackageChunkPrefixBytes, hread]
  simp only [length_bigEndian32, ne_eq, not_true_eq_false, if_false,
    ofBigEndian32_bigEndian32 hword]
  rw [if_neg (by omega), hread']
  simp only [not_true_eq_false, if_false, hpull]

theorem nextPlain_inv (h : r.nextPlain = (true, out, r')) :
    r.source.rest = out ++ r'.source.rest ∧ out = r.source.rest.take profilePackageChunkBytes ∧
      r'.source.readOk = r.source.readOk ∧
      r' = { r with source := r'.source, complete := r.complete || out == [] } := by
  unfold nextPlain at h
  rcases hread : r.source.read profilePackageChunkBytes with ⟨_ | data, s⟩
  · simp only [hread] at h
    exact nomatch h
  have hs := Source.read_some hread
  simp only [hread] at h
  split at h
  · rename_i hdata
    subst hdata
    obtain ⟨-, rfl, rfl⟩ := Prod.mk.injEq .. ▸ Prod.mk.injEq .. ▸ h
    exact ⟨hs.1, hs.2.1, hs.2.2, by simp⟩
  · rename_i hdata
    obtain ⟨-, rfl, rfl⟩ := Prod.mk.injEq .. ▸ Prod.mk.injEq .. ▸ h
    exact ⟨hs.1, hs.2.1, hs.2.2, by simp [hdata]⟩

/-- The four ways `Next` can succeed, told apart by the reader's own flags. -/
theorem next_inv (h : r.next = (true, out, r')) :
    r.begun = true ∧
      ((r.isProtected = false ∧ r.nextPlain = (true, out, r')) ∨
       (r.isProtected = true ∧ r.complete = true ∧ out = [] ∧ r' = r) ∨
       (r.isProtected = true ∧ r.complete = false ∧ r.nextSealed = (true, out, r'))) := by
  unfold next at h
  split at h
  · exact nomatch h
  rename_i hbegun
  have hbegun' : r.begun = true := by simpa using hbegun
  refine ⟨hbegun', ?_⟩
  split at h
  · rename_i hp
    exact .inl ⟨by simpa using hp, h⟩
  rename_i hp
  have hp' : r.isProtected = true := by simpa using hp
  split at h
  · rename_i hc
    obtain ⟨-, rfl, rfl⟩ := Prod.mk.injEq .. ▸ Prod.mk.injEq .. ▸ h
    exact .inr (.inl ⟨hp', hc, rfl, rfl⟩)
  · rename_i hc
    exact .inr (.inr ⟨hp', by simpa using hc, h⟩)

theorem next_eq_nextSealed (hbegun : r.begun = true) (hprot : r.isProtected = true)
    (hcomplete : r.complete = false) : r.next = r.nextSealed := by
  simp [next, hbegun, hprot, hcomplete]

/-- Every chunk short of completion consumes some of the file. -/
theorem next_rest_lt (h : r.next = (true, out, r')) (hc : r'.complete = false) :
    r'.source.rest.length < r.source.rest.length := by
  obtain ⟨-, ⟨-, hplain⟩ | ⟨-, hcomplete, -, rfl⟩ | ⟨-, -, hsealed⟩⟩ := next_inv h
  · obtain ⟨hrest, -, -, hr'⟩ := nextPlain_inv hplain
    rw [hr'] at hc
    have hout : out ≠ [] := by
      intro hnil
      simp [hnil] at hc
    rw [hrest, List.length_append]
    have := List.length_pos_iff.mpr hout
    omega
  · rw [hcomplete] at hc
    exact nomatch hc
  · obtain ⟨lengthBytes, cipher, tag, hrest, hlen, -⟩ := nextSealed_inv hsealed
    rw [hrest, List.length_append, List.length_append, hlen, profilePackageChunkPrefixBytes]
    omega

/-- Read chunks until the reader reports `Complete`; nothing when one fails. -/
def readAll (r : PackageStreamReader S) : Option (List Bytes) :=
  match _h : r.next with
  | (false, _, _) => none
  | (true, out, r') =>
    if _hc : r'.complete = true then some [out]
    else (readAll r').map (out :: ·)
termination_by r.source.rest.length
decreasing_by exact next_rest_lt _h (by simpa using _hc)

theorem readAll_of_next (h : r.next = (true, out, r')) :
    r.readAll = if r'.complete = true then some [out] else r'.readAll.map (out :: ·) := by
  rw [readAll]
  split
  · rename_i h'
    rw [h] at h'
    exact nomatch h'
  · rename_i out' r'' h'
    rw [h] at h'
    obtain ⟨-, rfl, rfl⟩ := Prod.mk.injEq .. ▸ Prod.mk.injEq .. ▸ h'
    split <;> rfl

/-- A frame of at most one chunk of plaintext is one the reader accepts. -/
theorem length_push_bounds (hS : S.Seals) {st st' : S.State} {m : Bytes} {tag : UInt8}
    {c : Bytes} (hpush : S.push st m tag = some (c, st'))
    (hm : m.length ≤ profilePackageChunkBytes) :
    SecretStream.abytes ≤ c.length ∧ c.length ≤ maxChunkBytes := by
  rw [hS.length_push hpush, maxChunkBytes]
  omega

/-- Reading a laid-out body to its FINAL tag hands out the messages it was cut
into. -/
theorem readAll_framed (hS : S.Inverts) (payload : Bytes) :
    ∀ {r : PackageStreamReader S} {cs : List Bytes} {st : S.State},
      r.begun = true → r.isProtected = true → r.complete = false →
      r.source.readOk = (fun _ => true) → r.source.rest = framed cs →
      S.Pushes r.state (chunkMessages payload) cs st →
      r.readAll = some ((chunkMessages payload).map Prod.fst) := by
  induction payload using chunkMessages.induct with
  | case1 p hp =>
    intro r cs st hbegun hprot hcomplete hok hrest hpushes
    rw [chunkMessages_of_lt hp] at hpushes ⊢
    cases hpushes with
    | cons hpush htail =>
      obtain ⟨hmin, hmax⟩ := length_push_bounds hS.toSeals hpush (Nat.le_of_lt hp)
      rw [framed_cons] at hrest
      have hnext := nextSealed_framed hok hrest hmin hmax (hS.pull_push hpush)
      rw [← next_eq_nextSealed hbegun hprot hcomplete] at hnext
      rw [readAll_of_next hnext]
      simp
  | case2 p hp ih =>
    intro r cs st hbegun hprot hcomplete hok hrest hpushes
    rw [chunkMessages_of_ge hp] at hpushes ⊢
    cases hpushes with
    | cons hpush htail =>
      obtain ⟨hmin, hmax⟩ := length_push_bounds hS.toSeals hpush (List.length_take_le _ _)
      rw [framed_cons] at hrest
      have hnext := nextSealed_framed hok hrest hmin hmax (hS.pull_push hpush)
      rw [← next_eq_nextSealed hbegun hprot hcomplete] at hnext
      rw [readAll_of_next hnext]
      -- an ordinary tag leaves the reader incomplete, so it goes on with the rest
      have hgo : (r.complete || SecretStream.tagMessage == SecretStream.tagFinal) = false := by
        rw [hcomplete]
        rfl
      have hrec := ih (r := { r with
        source := ⟨framed _, r.source.reads + 2, r.source.readOk⟩, state := _,
        complete := r.complete || SecretStream.tagMessage == SecretStream.tagFinal })
        hbegun hprot hgo hok rfl htail
      rw [if_neg (by rw [hgo]; exact Bool.false_ne_true), hrec]
      rfl

/-- A protected `Begin` that succeeds has read a whole salt and header, and its
state comes out of them and the passphrase. -/
theorem begin_inv {pwhash : Bytes → Bytes → Option Bytes} {body : Source} {passphrase : Bytes}
    (h : (mk' S body passphrase true).begin pwhash = (true, r)) :
    ∃ salt header key, body.rest = salt ++ (header ++ r.source.rest) ∧
      salt.length = packageSaltLen ∧ header.length = SecretStream.headerBytes ∧
      passphrase ≠ [] ∧ pwhash passphrase salt = some key ∧
      S.initPull header key = some r.state ∧
      r = { mk' S r.source passphrase true with begun := true, state := r.state } := by
  rw [begin, if_neg (by simp [mk']), if_neg (by simp [mk'])] at h
  by_cases hpass : passphrase = []
  · rw [if_pos (by simpa [mk'] using hpass)] at h
    exact nomatch h
  rw [if_neg (by simpa [mk'] using hpass)] at h
  rcases hread : body.read packageSaltLen with ⟨_ | salt, s₁⟩
  · simp only [mk', hread] at h
    exact nomatch h
  simp only [mk', hread] at h
  split at h
  · exact nomatch h
  rename_i hsalt
  rcases hread' : s₁.read SecretStream.headerBytes with ⟨_ | header, s₂⟩
  · simp only [hread'] at h
    exact nomatch h
  simp only [hread'] at h
  split at h
  · exact nomatch h
  rename_i hheader
  split at h
  · exact nomatch h
  rename_i key hkey
  split at h
  · exact nomatch h
  rename_i st hinit
  obtain ⟨-, rfl⟩ := Prod.mk.injEq .. ▸ h
  refine ⟨salt, header, key, ?_, Decidable.not_not.mp hsalt, Decidable.not_not.mp hheader, hpass,
    hkey, hinit, rfl⟩
  rw [(Source.read_some hread).1, (Source.read_some hread').1]

/-- `Begin` on a body the writer began derives the writer's state. -/
theorem begin_of_layout (hS : S.Seals) {pwhash : Bytes → Bytes → Option Bytes}
    {passphrase key : Bytes} (hpass : passphrase ≠ []) {salt : Block packageSaltLen}
    {header : Block SecretStream.headerBytes} (hkey : pwhash passphrase salt.1 = some key)
    {st₀ : S.State} (hinit : S.initPush key header.1 = some st₀) (rest : Bytes) :
    (mk' S (Source.ofBytes (salt.1 ++ (header.1 ++ rest))) passphrase true).begin pwhash =
      (true, { mk' S ⟨rest, 2, fun _ => true⟩ passphrase true with
        begun := true, state := st₀ }) := by
  have hsalt : (Source.ofBytes (salt.1 ++ (header.1 ++ rest))).read packageSaltLen =
      (some salt.1, ⟨header.1 ++ rest, 1, fun _ => true⟩) :=
    Source.read_append rfl salt.2 rfl
  have hheader : (⟨header.1 ++ rest, 1, fun _ => true⟩ : Source).read SecretStream.headerBytes =
      (some header.1, ⟨rest, 2, fun _ => true⟩) :=
    Source.read_append (s := ⟨header.1 ++ rest, 1, fun _ => true⟩) rfl header.2 rfl
  simp [begin, mk', hpass, hsalt, hheader, salt.2, header.2, hkey, hS.initPull_initPush hinit]

end PackageStreamReader

/-! ## The round trip -/

/-- An in-memory sink that takes everything. -/
def bufferSink (d : Bytes) : CrashM Bytes Bool := CrashM.step fun o => (o ++ d, true)

theorem bufferSink_spec :
    SinkSpec (fun _ _ => True) (fun (s o : Bytes) => s = o) True bufferSink := by
  rintro s o d rfl
  exact Triple.step trivial ⟨fun _ => rfl, fun _ => rfl⟩

/-- `Begin`, the `Write`s, `Finish`. -/
def writeBody {σ : Type} (S : SecretStream) (pwhash : Bytes → Bytes → Option Bytes)
    (sink : Bytes → CrashM σ Bool) (salt : Block packageSaltLen)
    (header : Block SecretStream.headerBytes) (passphrase : Bytes) (isProtected : Bool)
    (datas : List Bytes) : CrashM σ Bool := do
  let (ok, w) ← PackageStreamWriter.begin pwhash sink salt header
    (PackageStreamWriter.mk' S passphrase isProtected)
  if !ok then pure false
  else
    let (ok, w) ← PackageStreamWriter.writes sink w datas
    if !ok then pure false
    else
      let (ok, _) ← PackageStreamWriter.finish sink w
      pure ok

/-- `Begin`, then `Next` until `Complete`. -/
def readBody (S : SecretStream) (pwhash : Bytes → Bytes → Option Bytes) (source : Source)
    (passphrase : Bytes) (isProtected : Bool) : Option (List Bytes) :=
  match (PackageStreamReader.mk' S source passphrase isProtected).begin pwhash with
  | (false, _) => none
  | (true, r) => r.readAll

section RoundTrip

variable {S : SecretStream} {passphrase key : Bytes} (pwhash : Bytes → Bytes → Option Bytes)
  (salt : Block packageSaltLen) (header : Block SecretStream.headerBytes)

/-- A protected body written undisturbed has the layout, whatever the sink is. -/
theorem writeBody_spec {σ : Type} {G : σ → σ → Prop} {Out : σ → Bytes → Prop} {live : Prop}
    {sink : Bytes → CrashM σ Bool} (hS : S.Seals) (hsink : SinkSpec G Out live sink)
    (hpass : passphrase ≠ []) (hkey : pwhash passphrase salt.1 = some key)
    (datas : List Bytes) {s : σ} {o : Bytes} (ho : Out s o) :
    Triple G (writeBody S pwhash sink salt header passphrase true datas) s fun ok s' =>
      (ok = true → ∃ st₀ cs st, S.initPush key header.1 = some st₀ ∧
        S.Pushes st₀ (chunkMessages datas.flatten) cs st ∧
        Out s' (o ++ (salt.1 ++ header.1) ++ framed cs)) ∧ (live → ok = true) := by
  refine Triple.bind (PackageStreamWriter.begin_spec hS hsink ho) ?_
  rintro ⟨ok₁, w₁⟩ s₁ ⟨hok₁, hlive₁⟩
  have hready : PackageStreamWriter.CanBegin pwhash passphrase salt.1 true :=
    fun _ => ⟨hpass, key, hkey⟩
  cases ok₁ with
  | false => exact Triple.pure ⟨fun h => (nomatch h), fun hl => hlive₁ ⟨hl, hready⟩⟩
  | true =>
  obtain ⟨st₀, o₁, ho₁, hw₁, hbegun, -⟩ := hok₁ rfl
  obtain ⟨-, key', hkey', hinit, rfl⟩ := hbegun rfl
  obtain rfl : key = key' := Option.some.inj (hkey.symm.trans hkey')
  refine Triple.bind (PackageStreamWriter.writes_spec hS hsink datas ho₁ hw₁) ?_
  rintro ⟨ok₂, w₂⟩ s₂ ⟨hok₂, hlive₂⟩
  cases ok₂ with
  | false => exact Triple.pure ⟨fun h => (nomatch h), hlive₂⟩
  | true =>
  obtain ⟨o₂, ho₂, hw₂⟩ := hok₂ rfl
  refine Triple.bind (PackageStreamWriter.finish_spec hS hsink ho₂ hw₂) ?_
  rintro ⟨ok₃, w₃⟩ s₃ ⟨hok₃, hlive₃⟩
  refine Triple.pure ⟨fun h => ?_, hlive₃⟩
  obtain ⟨cs, st, hpushes, ho₃⟩ := (hok₃ h).1 rfl
  exact ⟨st₀, cs, st, hinit, hpushes, ho₃⟩

/-- **Round trip.** However the payload is split over `Write` calls, writing it
succeeds, and reading the body back until `Complete` hands out its bytes, in
chunks of at most the chunk size. -/
theorem package_stream_round_trip (hS : S.Inverts) (hpass : passphrase ≠ [])
    (hkey : pwhash passphrase salt.1 = some key) (datas : List Bytes) :
    (writeBody S pwhash bufferSink salt header passphrase true datas).value [] = true ∧
    ∃ chunks, readBody S pwhash (Source.ofBytes
        ((writeBody S pwhash bufferSink salt header passphrase true datas).final []))
        passphrase true = some chunks ∧
      chunks.flatten = datas.flatten ∧ ∀ c ∈ chunks, c.length ≤ profilePackageChunkBytes := by
  obtain ⟨hok, hlive⟩ := (writeBody_spec pwhash salt header hS.toSeals bufferSink_spec hpass hkey
    datas (o := []) rfl).post
  obtain ⟨st₀, cs, st, hinit, hpushes, hout⟩ := hok (hlive trivial)
  refine ⟨hlive trivial, (chunkMessages datas.flatten).map Prod.fst, ?_, chunkMessages_join _, ?_⟩
  · rw [hout, List.nil_append, List.append_assoc, readBody,
      PackageStreamReader.begin_of_layout hS.toSeals hpass hkey hinit]
    exact PackageStreamReader.readAll_framed hS datas.flatten rfl rfl rfl rfl rfl hpushes
  · intro c hc
    obtain ⟨m, hm, rfl⟩ := List.mem_map.mp hc
    exact length_le_of_mem_chunkMessages hm

end RoundTrip

/-- Sixteen bytes out of a stream state. -/
def clearMac (st : Bytes) : Bytes := (st ++ List.replicate 16 0).take 16

theorem length_clearMac (st : Bytes) : (clearMac st).length = 16 := by
  rw [clearMac, List.length_take, List.length_append, List.length_replicate]
  omega

/-- A stream that hides nothing but frames like the real one: the tag, the
message, and sixteen bytes that depend on what was pushed before. -/
def clearStream : SecretStream where
  State := Bytes
  zeroed := []
  initPush key header := some (key ++ header)
  initPull header key := some (key ++ header)
  push st m tag :=
    if m.length ≤ SecretStream.messageBytesMax then
      some (tag :: (m ++ clearMac st), tag :: (m ++ st))
    else none
  pull st f :=
    match f with
    | [] => none
    | tag :: rest =>
      let m := rest.take (rest.length - 16)
      if rest.drop (rest.length - 16) = clearMac st then some (m, tag, tag :: (m ++ st)) else none

theorem clearStream_push {st : Bytes} {m : Bytes} {tag : UInt8} {c st' : Bytes}
    (h : clearStream.push st m tag = some (c, st')) :
    c = tag :: (m ++ clearMac st) ∧ st' = tag :: (m ++ st) := by
  simp only [clearStream] at h
  split at h
  · obtain ⟨rfl, rfl⟩ := Prod.mk.injEq .. ▸ Option.some.inj h
    exact ⟨rfl, rfl⟩
  · exact nomatch h

theorem clearStream_pull (st m : Bytes) (tag : UInt8) :
    clearStream.pull st (tag :: (m ++ clearMac st)) = some (m, tag, tag :: (m ++ st)) := by
  have hlen : (m ++ clearMac st).length - 16 = m.length := by
    rw [List.length_append, length_clearMac, Nat.add_sub_cancel]
  simp only [clearStream, hlen, List.take_left, List.drop_left, if_true]

theorem clearStream_inverts : clearStream.Inverts where
  initPush_some key header := ⟨key ++ header, rfl⟩
  initPull_initPush h := h
  push_some st m tag h := ⟨_, _, if_pos h⟩
  length_push h := by
    obtain ⟨rfl, -⟩ := clearStream_push h
    simp only [List.length_cons, List.length_append]
    exact congrArg (_ + · + 1) (length_clearMac _)
  pull_push h := by
    obtain ⟨rfl, rfl⟩ := clearStream_push h
    exact clearStream_pull _ _ _

/-- The round trip on a payload of three calls, one of them empty. -/
theorem package_stream_round_trip_three_writes :
    ∃ chunks, readBody clearStream (fun p s => some (p ++ s)) (Source.ofBytes
        ((writeBody clearStream (fun p s => some (p ++ s)) bufferSink
          ⟨List.replicate 16 7, rfl⟩ ⟨List.replicate 24 9, rfl⟩ [1, 2] true
          [[10, 11], [], [12]]).final [])) [1, 2] true = some chunks ∧
      chunks.flatten = [10, 11, 12] := by
  obtain ⟨chunks, hread, hjoin, -⟩ := (package_stream_round_trip (fun p s => some (p ++ s))
    ⟨List.replicate 16 7, rfl⟩ ⟨List.replicate 24 9, rfl⟩ clearStream_inverts
    (List.cons_ne_nil (1 : UInt8) [2]) rfl [[10, 11], [], [12]]).2
  exact ⟨chunks, hread, hjoin⟩

end GpgFrontend
