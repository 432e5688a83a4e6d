import GpgFrontend.Profile.PackageWrite

/-!
# Writing a package never loses the only copy

A package is written to a temporary, the old one is moved aside, and the new one takes its name.
What holds of the disk is stated of every state on the way, as a crash may leave any of them: the
temporary is whole before it is given the name, and the backup goes last.
-/

namespace GpgFrontend

namespace PackageWriteJob

variable {S : SecretStream} {job : PackageWriteJob S} {env : PackageWriteOutcomes}

/-! ## Names -/

theorem temporaryPath_ne_fileName : job.temporaryPath ≠ job.fileName := by
  intro h
  have := congrArg String.length h
  simp only [temporaryPath, String.length_append] at this
  have hdot : ("." : String).length = 1 := rfl
  omega

theorem backupPath_ne_fileName : job.backupPath ≠ job.fileName := by
  intro h
  have := congrArg String.length h
  simp only [backupPath, String.length_append] at this
  have hdot : ("." : String).length = 1 := rfl
  omega

theorem backupPath_ne_temporaryPath : job.backupPath ≠ job.temporaryPath := by
  intro h
  have := congrArg String.toList h
  simp only [backupPath, temporaryPath, String.toList_append, List.append_assoc] at this
  have := List.append_cancel_left (List.append_cancel_left this)
  exact absurd (List.cons.inj (List.cons.inj this).2).1 (by decide)

/-! ## What a whole package is -/

/-- `body` is what a writer that was not disturbed puts behind the header. -/
def IsBody (job : PackageWriteJob S) (body : Bytes) : Prop :=
  if job.isProtected then
    ∃ key st₀ cs st, job.pwhash job.passphrase job.salt.1 = some key ∧
      S.initPush key job.streamHeader.1 = some st₀ ∧
      S.Pushes st₀ (chunkMessages job.payload) cs st ∧
      body = job.salt.1 ++ job.streamHeader.1 ++ framed cs
  else body = job.payload

/-- What this job seals opens again. -/
def Reopens (job : PackageWriteJob S) : Prop :=
  job.isProtected = true → ∀ ⦃key : Bytes⦄, job.pwhash job.passphrase job.salt.1 = some key →
    S.Reopens key job.streamHeader.1 (chunkMessages job.payload)

/-- The complete new content: header and whole body of a profile that was packed
without an error. -/
def Complete (job : PackageWriteJob S) (content : Bytes) : Prop :=
  job.archive.error = 0 ∧ ∃ body, job.IsBody body ∧ content = job.headerBytes ++ body

/-! ## Filling the temporary -/

/-- Nothing but the temporary differs. -/
def OnlyTemporary (job : PackageWriteJob S) (a b : PackageDisk) : Prop :=
  ∀ p, p ≠ job.temporaryPath → b.files p = a.files p

theorem OnlyTemporary.refl (a : PackageDisk) : job.OnlyTemporary a a := fun _ _ => rfl

theorem OnlyTemporary.trans {a b c : PackageDisk} (h : job.OnlyTemporary a b)
    (h' : job.OnlyTemporary b c) : job.OnlyTemporary a c :=
  fun p hp => (h' p hp).trans (h p hp)

theorem onlyTemporary_set (s : PackageDisk) (content : Option Bytes) :
    job.OnlyTemporary s (s.set job.temporaryPath content) :=
  fun _ hp => s.set_files_of_ne content hp

/-- The temporary as a sink: accepted bytes are appended to it. -/
theorem write_sinkSpec :
    SinkSpec job.OnlyTemporary (fun s o => s.files job.temporaryPath = some o)
      (∀ n, env.writeOk n = true) (PackageDisk.write env job.temporaryPath) := by
  intro s o d ho
  by_cases hok : env.writeOk s.writes = true
  · refine Triple.step ?_ ?_
    · rw [if_pos hok]
      exact onlyTemporary_set s _
    · rw [if_pos hok]
      refine ⟨fun _ => ?_, fun _ => rfl⟩
      show (s.append job.temporaryPath d).files job.temporaryPath = _
      rw [PackageDisk.append, PackageDisk.set_files_self, ho]
      rfl
  · refine Triple.step ?_ ?_
    · rw [if_neg hok]
      exact onlyTemporary_set s _
    · rw [if_neg hok]
      exact ⟨fun h => (nomatch h), fun h => absurd (h s.writes) hok⟩

theorem remove_temporary_spec (s : PackageDisk) :
    Triple job.OnlyTemporary (PackageDisk.remove env.removesTemporary job.temporaryPath) s
      fun _ _ => True := by
  refine Triple.step ?_ trivial
  cases env.removesTemporary with
  | true => exact onlyTemporary_set s none
  | false => exact .refl s

theorem abandon_spec {α : Type} (why : String) (s : PackageDisk)
    {Q : Except String α → PackageDisk → Prop} (hQ : ∀ s', Q (.error why) s') :
    Triple job.OnlyTemporary (job.abandon env why) s Q :=
  Triple.bind (remove_temporary_spec s) fun _ s' _ => Triple.pure (hQ s')

/-- Filling the temporary touches nothing else; when it succeeds, the temporary
holds a front part of a complete package. -/
theorem writeTemporary_spec (hS : S.Seals) (s : PackageDisk) :
    Triple job.OnlyTemporary (job.writeTemporary env) s fun r s' =>
      ∀ n, r = .ok n → n = job.payload.length ∧ ∃ content, job.Complete content ∧
        s'.files job.temporaryPath = some (content.take env.flushKeeps) := by
  have hsink : SinkSpec job.OnlyTemporary _ _ (PackageDisk.write env job.temporaryPath) :=
    write_sinkSpec
  unfold writeTemporary
  have hcreate : Triple job.OnlyTemporary
      (PackageDisk.create env.temporaryOpens job.temporaryPath) s
      fun ok s' => ok = true → s'.files job.temporaryPath = some [] := by
    refine Triple.step ?_ ?_
    · cases env.temporaryOpens with
      | true => exact onlyTemporary_set s (some [])
      | false => exact .refl s
    · cases env.temporaryOpens with
      | true => exact fun _ => PackageDisk.set_files_self ..
      | false => exact fun h => (nomatch h)
  refine Triple.bind hcreate fun opened s₁ h₁ => ?_
  cases opened with
  | false => exact Triple.pure fun _ h => (nomatch h)
  | true =>
  refine Triple.bind (hsink s₁ [] job.headerBytes (h₁ rfl)) fun written s₂ h₂ => ?_
  cases written with
  | false => exact abandon_spec _ _ fun _ _ h => (nomatch h)
  | true =>
  refine Triple.bind (PackageStreamWriter.begin_spec hS hsink (h₂.1 rfl)) ?_
  rintro ⟨begun, w₃⟩ s₃ ⟨h₃, -⟩
  cases begun with
  | false => exact abandon_spec _ _ fun _ _ h => (nomatch h)
  | true =>
  obtain ⟨st₀, o₀, ho₀, hw₃, hsealed, hplain⟩ := h₃ rfl
  refine Triple.bind (PackageStreamWriter.writes_spec hS hsink job.archive.blocks ho₀ hw₃) ?_
  rintro ⟨kept, w₄⟩ s₄ ⟨h₄, -⟩
  cases kept with
  | false => exact abandon_spec _ _ fun _ _ h => (nomatch h)
  | true =>
  obtain ⟨o₄, ho₄, hw₄⟩ := h₄ rfl
  simp only [Bool.not_true, Bool.false_eq_true, if_false]
  by_cases hpack : job.archive.error ≠ 0 ∨ job.payload.length = 0
  · rw [if_pos hpack]
    exact abandon_spec _ _ fun _ _ h => (nomatch h)
  rw [if_neg hpack]
  refine Triple.bind (PackageStreamWriter.finish_spec hS hsink ho₄ hw₄) ?_
  rintro ⟨finished, w₅⟩ s₅ ⟨h₅, -⟩
  cases finished with
  | false => exact abandon_spec _ _ fun _ _ h => (nomatch h)
  | true =>
  -- everything was accepted: the temporary holds the package, then is closed
  obtain ⟨hfin, hfinPlain⟩ := h₅ rfl
  have hcontent : ∃ content, job.Complete content ∧
      s₅.files job.temporaryPath = some content := by
    have herror : job.archive.error = 0 := by
      by_contra h
      exact hpack (.inl h)
    cases hp : job.isProtected with
    | true =>
      obtain ⟨-, key, hkey, hinit, rfl⟩ := hsealed hp
      obtain ⟨cs, st, hpushes, hout⟩ := hfin hp
      refine ⟨_, ⟨herror, job.salt.1 ++ job.streamHeader.1 ++ framed cs, ?_, rfl⟩, ?_⟩
      · rw [IsBody, if_pos hp]
        exact ⟨key, st₀, cs, st, hkey, hinit, hpushes, rfl⟩
      · rw [hout]
        simp [List.append_assoc]
    | false =>
      have hout := hfinPlain hp
      rw [hplain hp] at hout
      refine ⟨_, ⟨herror, job.payload, ?_, rfl⟩, ?_⟩
      · rw [IsBody, hp]
        simp
      · rw [hout]
        rfl
  obtain ⟨content, hcomplete, hfile⟩ := hcontent
  refine Triple.bind (R := fun _ s' => s'.files job.temporaryPath =
    some (content.take env.flushKeeps)) (Triple.step (onlyTemporary_set s₅ _) ?_) ?_
  · rw [PackageDisk.set_files_self, hfile]
    rfl
  · rintro - s₆ h₆
    refine Triple.pure fun n hn => ⟨(Except.ok.inj hn).symm, content, hcomplete, h₆⟩

/-! ## Reading it back -/

theorem append_prefix_append {a b c d : Bytes} (h : a ++ b <+: c ++ d)
    (hlen : a.length = c.length) : a = c ∧ b <+: d := by
  obtain ⟨t, ht⟩ := h
  rw [List.append_assoc] at ht
  obtain ⟨rfl, rfl⟩ := List.append_inj ht hlen
  exact ⟨rfl, b.prefix_append t⟩

variable {r r' : PackageStreamReader S}

theorem verifyLoop_of_next {chunk : Bytes} {v : Nat} (h : r.next = (true, chunk, r')) :
    verifyLoop r v =
      if chunk = [] ∧ r'.complete = false then some v
      else if r'.complete = true then some (v + chunk.length)
      else verifyLoop r' (v + chunk.length) := by
  rw [verifyLoop]
  split
  · rename_i h'
    rw [h] at h'
    cases h'
  · rename_i h'
    rw [h] at h'
    obtain ⟨-, rfl, rfl⟩ := Prod.mk.injEq .. ▸ Prod.mk.injEq .. ▸ h'
    rfl

theorem verifyLoop_of_fail {chunk : Bytes} {v : Nat} (h : r.next = (false, chunk, r')) :
    verifyLoop r v = none := by
  rw [verifyLoop]
  split
  · rfl
  · rename_i h'
    rw [h] at h'
    cases h'

/-- On a front part of the honest frames, an accepted frame is the next one. -/
theorem nextSealed_of_prefix (hS : S.Seals) {st' : S.State} {m out c : Bytes} {tag : UInt8}
    {cs : List Bytes} (hpush : S.push r.state m tag = some (c, st'))
    (hpull : S.pull r.state c = some (m, tag, st')) (hm : m.length ≤ profilePackageChunkBytes)
    (hrest : r.source.rest <+: framed (c :: cs)) (h : r.nextSealed = (true, out, r')) :
    out = m ∧ r'.state = st' ∧ r'.source.rest <+: framed cs ∧
      r.source.rest = bigEndian32 c.length ++ (c ++ r'.source.rest) ∧
      r' = { r with source := r'.source, state := st',
                    complete := r.complete || tag == SecretStream.tagFinal } := by
  obtain ⟨lengthBytes, cipher, tag', hsplit, hlen, hcipher, hopened, -, hr'⟩ :=
    PackageStreamReader.nextSealed_inv h
  rw [hsplit, framed_cons] at hrest
  obtain ⟨rfl, hrest₁⟩ := append_prefix_append hrest hlen
  have hword : c.length < 2 ^ 32 :=
    Nat.lt_of_le_of_lt (PackageStreamReader.length_push_bounds hS hpush hm).2 (by decide)
  rw [ofBigEndian32_bigEndian32 hword] at hcipher
  obtain ⟨rfl, hrest₂⟩ := append_prefix_append hrest₁ hcipher
  rw [hpull] at hopened
  obtain ⟨rfl, rfl, rfl⟩ := Prod.mk.injEq .. ▸ Prod.mk.injEq .. ▸ Option.some.inj hopened
  exact ⟨rfl, rfl, hrest₂, hsplit, hr'⟩

/-- A front part of a sealed body that reads to its FINAL tag is all of it. -/
theorem verifyLoop_sealed (hS : S.Seals) (payload : Bytes) :
    ∀ {r : PackageStreamReader S} {cs : List Bytes} {st : S.State} {v v' : Nat},
      r.begun = true → r.isProtected = true → r.complete = false →
      S.Relays r.state (chunkMessages payload) cs st → r.source.rest <+: framed cs →
      verifyLoop r v = some v' → r.source.rest = framed cs := by
  induction payload using chunkMessages.induct with
  | case1 p hp =>
    intro r cs st v v' hbegun hprot hcomplete hrelays hrest hverify
    rcases hnext : r.next with ⟨_ | _, out, r'⟩
    · rw [verifyLoop_of_fail hnext] at hverify
      cases hverify
    rw [PackageStreamReader.next_eq_nextSealed hbegun hprot hcomplete] at hnext
    rw [chunkMessages_of_lt hp] at hrelays
    cases hrelays with
    | cons hpush hpull htail =>
      cases htail
      obtain ⟨-, -, hend, hall, -⟩ :=
        nextSealed_of_prefix hS hpush hpull (Nat.le_of_lt hp) hrest hnext
      rw [hall, List.prefix_nil.mp hend, framed_cons, framed_nil]
  | case2 p hp ih =>
    intro r cs st v v' hbegun hprot hcomplete hrelays hrest hverify
    rcases hnext : r.next with ⟨_ | _, out, r'⟩
    · rw [verifyLoop_of_fail hnext] at hverify
      cases hverify
    rw [verifyLoop_of_next hnext] at hverify
    rw [PackageStreamReader.next_eq_nextSealed hbegun hprot hcomplete] at hnext
    rw [chunkMessages_of_ge hp] at hrelays
    cases hrelays with
    | cons hpush hpull htail =>
      obtain ⟨rfl, rfl, hend, hall, hr'⟩ :=
        nextSealed_of_prefix hS hpush hpull (List.length_take_le _ _) hrest hnext
      have hgo : r'.complete = false := by
        rw [hr', hcomplete]
        rfl
      have hnil : p.take profilePackageChunkBytes ≠ [] := by
        have := profilePackageChunkBytes_pos
        apply List.ne_nil_of_length_pos
        rw [List.length_take]
        omega
      rw [if_neg (fun h => hnil h.1), if_neg (by rw [hgo]; exact Bool.false_ne_true)] at hverify
      rw [hall, framed_cons,
        ih (by rw [hr']; exact hbegun) (by rw [hr']; exact hprot) hgo htail hend hverify]

/-- An unprotected body is counted to its end. -/
theorem verifyLoop_plain (n : Nat) :
    ∀ {r : PackageStreamReader S} {v v' : Nat}, r.source.rest.length < n → r.begun = true →
      r.isProtected = false → r.complete = false → verifyLoop r v = some v' →
      v' = v + r.source.rest.length := by
  induction n with
  | zero => exact fun hn => absurd hn (Nat.not_lt_zero _)
  | succ n ih =>
    intro r v v' hn hbegun hprot hcomplete hverify
    rcases hnext : r.next with ⟨_ | _, out, r'⟩
    · rw [verifyLoop_of_fail hnext] at hverify
      exact nomatch hverify
    rw [verifyLoop_of_next hnext] at hverify
    rw [show r.next = r.nextPlain by simp [PackageStreamReader.next, hbegun, hprot]] at hnext
    obtain ⟨hrest, htake, -, hr'⟩ := PackageStreamReader.nextPlain_inv hnext
    have hsum : r.source.rest.length = out.length + r'.source.rest.length := by
      rw [hrest, List.length_append]
    have hflag : r'.complete = (r.complete || out == []) := by
      rw [hr']
    by_cases hempty : out = []
    · -- an empty read is the end of the file
      have hnothing : r.source.rest = [] := by
        have := profilePackageChunkBytes_pos
        rw [hempty] at htake
        exact (List.take_eq_nil_iff.mp htake.symm).resolve_left (by omega)
      have hdone : r'.complete = true := by
        rw [hflag, hempty]
        simp
      rw [if_neg (by simp [hdone]), if_pos hdone, hempty] at hverify
      rw [hnothing]
      exact (Option.some.inj hverify).symm
    · have hgo : r'.complete = false := by
        rw [hflag, hcomplete]
        simpa using hempty
      have hpos := List.length_pos_iff.mpr hempty
      rw [if_neg (fun h => hempty h.1), if_neg (by rw [hgo]; exact Bool.false_ne_true)] at hverify
      have := ih (by omega) (by rw [hr']; exact hbegun) (by rw [hr']; exact hprot) hgo hverify
      omega

/-- A front part of a whole body that reads back is the body. -/
theorem verifyBody_ok (hS : S.Seals) (hrun : job.Reopens) {rest body : Bytes}
    (hbody : job.IsBody body) (hpart : rest <+: body) (hok : job.verifyBody env job.payload.length rest = .ok ()) :
    rest = body := by
  unfold verifyBody at hok
  rcases hbegin : (PackageStreamReader.mk' S ⟨rest, 0, env.readOk⟩ job.passphrase
    job.isProtected).begin job.pwhash with ⟨_ | _, r⟩
  · simp only [hbegin] at hok
    exact nomatch hok
  simp only [hbegin] at hok
  rcases hverify : verifyLoop r 0 with _ | verified
  · simp only [hverify] at hok
    exact nomatch hok
  simp only [hverify] at hok
  split at hok
  · exact nomatch hok
  rename_i hcount
  cases hp : job.isProtected with
  | false =>
    -- unprotected: as many bytes as were handed over, and a front part of them
    rw [hp] at hbegin
    obtain ⟨-, rfl⟩ := Prod.mk.injEq .. ▸ hbegin
    have hlen := verifyLoop_plain (rest.length + 1) (Nat.lt_succ_self _) rfl rfl rfl hverify
    rw [IsBody, hp] at hbody
    simp only [Bool.false_eq_true, if_false] at hbody
    subst hbody
    refine hpart.eq_of_length ?_
    rw [Decidable.not_not.mp hcount, Nat.zero_add] at hlen
    exact hlen.symm
  | true =>
    -- protected: same salt, header, key and state, then the frames
    rw [IsBody, if_pos hp] at hbody
    obtain ⟨key, st₀, cs, st, hkey, hinit, hpushes, rfl⟩ := hbody
    rw [hp] at hbegin
    obtain ⟨salt', header', key', hrest, hsalt, hheader, -, hkey', hinit', hr⟩ :=
      PackageStreamReader.begin_inv hbegin
    change rest = _ at hrest
    rw [hrest, List.append_assoc] at hpart
    obtain ⟨rfl, hbody₁⟩ := append_prefix_append hpart (hsalt.trans job.salt.2.symm)
    obtain ⟨rfl, hbody₂⟩ := append_prefix_append hbody₁ (hheader.trans job.streamHeader.2.symm)
    obtain rfl : key = key' := Option.some.inj (hkey.symm.trans hkey')
    obtain rfl : st₀ = r.state :=
      Option.some.inj ((hS.initPull_initPush hinit).symm.trans hinit')
    have hframes := verifyLoop_sealed hS job.payload (by rw [hr]) (by rw [hr]; rfl)
      (by rw [hr]; rfl) (hrun hp hkey hinit hpushes) hbody₂ hverify
    rw [hrest, hframes, List.append_assoc]

/-- **What reads back is whole.** A front part of a complete package that passes
the checks of the second block is the package. -/
theorem verifyContent_ok (hS : S.Seals) (hrun : job.Reopens) {content new : Bytes}
    (hnew : job.Complete new) (hpart : content <+: new)
    (hok : job.verifyContent env job.payload.length (some content) = .ok ()) :
    content = new := by
  obtain ⟨-, body, hbody, rfl⟩ := hnew
  unfold verifyContent at hok
  simp only at hok
  set view := parseProfilePackageHeader job.codec (if env.headReads = true then
    content.take (profilePackageMagicLength + 4 + maxHeaderLength) else []) with hview
  split at hok
  · exact nomatch hok
  split at hok
  · exact nomatch hok
  rename_i hhead
  split at hok
  · exact nomatch hok
  -- the header read back is the one written, so the body starts right behind it
  obtain ⟨hstatus, hbytes⟩ := not_or.mp hhead
  have hfront : view.headerBytes <+: content := by
    refine (parse_ok_headerBytes (Decidable.not_not.mp hstatus)).trans ?_
    split
    · exact List.take_prefix _ _
    · exact List.nil_prefix
  rw [Decidable.not_not.mp hbytes] at hfront
  obtain ⟨rest, rfl⟩ := hfront
  rw [ProfilePackageHeaderView.bodyOffset, Decidable.not_not.mp hbytes, List.drop_left] at hok
  have hrest : rest <+: body := (append_prefix_append hpart rfl).2
  rw [verifyBody_ok hS hrun hbody hrest hok]

/-! ## Moving it into place -/

/-- No copy is lost: the previous package (`old`) is whole at the destination or
at the backup, or a complete new one is at the destination; and whatever is at
the destination is one of the two. -/
structure Safe (job : PackageWriteJob S) (old : Option Bytes) (s : PackageDisk) : Prop where
  kept : ∀ c, old = some c → s.files job.fileName = some c ∨ s.files job.backupPath = some c ∨
    ∃ n, job.Complete n ∧ s.files job.fileName = some n
  whole : ∀ c, s.files job.fileName = some c → old = some c ∨ job.Complete c

/-- Neither name could be restored, and both copies are still on disk. -/
structure Stranded (job : PackageWriteJob S) (env : PackageWriteOutcomes) (old : Option Bytes)
    (s : PackageDisk) : Prop where
  notInstalled : env.movesIntoPlace = false
  notRestored : env.movesBack = false
  newKept : ∃ n, job.Complete n ∧ s.files job.temporaryPath = some n
  oldKept : ∃ c, old = some c ∧ s.files job.backupPath = some c

/-- What the function promises with its result. -/
structure Delivered (job : PackageWriteJob S) (env : PackageWriteOutcomes) (old : Option Bytes)
    (r : ProfilePackageWriteResult) (s : PackageDisk) : Prop where
  installed : r.ok = true → ∃ n, job.Complete n ∧ s.files job.fileName = some n
  unchanged : r.ok = false → s.files job.fileName = old ∨ job.Stranded env old s

variable {old : Option Bytes}

variable {s : PackageDisk}

theorem safe_of_eq (h : s.files job.fileName = old) : job.Safe old s :=
  ⟨fun _ hc => .inl (h.trans hc), fun _ hc => .inl (h.symm.trans hc)⟩

/-- Touching only the temporary is safe wherever one stands. -/
theorem OnlyTemporary.safe {a b : PackageDisk} (h : job.OnlyTemporary a b)
    (ha : job.Safe old a) : job.Safe old b := by
  have hdest := h job.fileName temporaryPath_ne_fileName.symm
  have hbackup := h job.backupPath backupPath_ne_temporaryPath
  refine ⟨fun c hc => ?_, fun c hc => ?_⟩
  · rw [hdest, hbackup]
    exact ha.kept c hc
  · rw [hdest] at hc
    exact ha.whole c hc

/-- Giving up with the destination as it was. -/
theorem abandonResult_spec (why : String) (hs : s.files job.fileName = old) :
    Triple (fun a b => job.Safe old a → job.Safe old b) (job.abandonResult env why) s
      (job.Delivered env old) := by
  refine Triple.bind (((remove_temporary_spec s).and_rel .refl fun _ _ _ => .trans).mono
    (fun _ _ h => h.safe) fun _ _ h => h.2) fun _ s' hs' => Triple.pure ⟨fun h => (nomatch h), ?_⟩
  intro _
  left
  rw [hs' job.fileName temporaryPath_ne_fileName.symm, hs]

/-- `QFile::rename`, by its two outcomes. -/
theorem rename_spec {G : PackageDisk → PackageDisk → Prop} {moves : Bool} {source target : String}
    {Q : Bool → PackageDisk → Prop}
    (hmove : moves = true → s.files target = none → (s.files source).isSome →
      G s ((s.set target (s.files source)).set source none) ∧
      Q true ((s.set target (s.files source)).set source none))
    (hstay : ¬(moves = true ∧ (s.files target).isNone ∧ (s.files source).isSome) →
      G s s ∧ Q false s) : Triple G (PackageDisk.rename moves source target) s Q := by
  by_cases h : moves = true ∧ (s.files target).isNone ∧ (s.files source).isSome
  · obtain ⟨hG, hQ⟩ := hmove h.1 (Option.isNone_iff_eq_none.mp h.2.1) h.2.2
    refine Triple.step ?_ ?_
    · rw [if_pos h]
      exact hG
    · rw [if_pos h]
      exact hQ
  · obtain ⟨hG, hQ⟩ := hstay h
    refine Triple.step ?_ ?_
    · rw [if_neg h]
      exact hG
    · rw [if_neg h]
      exact hQ

/-- Where the last rename starts: the destination is free, a previous package is
at the backup, and a complete new one under the temporary's name. -/
structure Poised (job : PackageWriteJob S) (old : Option Bytes) (aside : Bool) (new : Bytes)
    (s : PackageDisk) : Prop where
  complete : job.Complete new
  temporary : s.files job.temporaryPath = some new
  free : s.files job.fileName = none
  backedUp : aside = true → ∃ c, old = some c ∧ s.files job.backupPath = some c
  nothing : aside = false → old = none

/-- The last rename, and its way back. -/
theorem moveIntoPlace_spec {aside : Bool} {new : Bytes} (hs : job.Poised old aside new s) :
    Triple (fun a b => job.Safe old a → job.Safe old b) (job.moveIntoPlace env aside) s
      (job.Delivered env old) := by
  have hdt : job.temporaryPath ≠ job.fileName := temporaryPath_ne_fileName
  have hbd : job.backupPath ≠ job.fileName := backupPath_ne_fileName
  have hbt : job.backupPath ≠ job.temporaryPath := backupPath_ne_temporaryPath
  unfold moveIntoPlace
  refine Triple.bind (R := fun ok s' =>
    (ok = true → s'.files job.fileName = some new ∧
      s'.files job.backupPath = s.files job.backupPath) ∧
    (ok = false → env.movesIntoPlace = false ∧ s' = s)) (rename_spec ?_ ?_) ?_
  · -- moved: the new package is complete, so the destination is safe with it
    intro _ _ _
    have hdest : ((s.set job.fileName (s.files job.temporaryPath)).set job.temporaryPath
        none).files job.fileName = some new := by
      rw [PackageDisk.set_files_of_ne _ _ hdt.symm, PackageDisk.set_files_self, hs.temporary]
    refine ⟨fun _ => ⟨fun c _ => .inr (.inr ⟨new, hs.complete, hdest⟩), fun c hc => ?_⟩,
      fun _ => ⟨hdest, ?_⟩, fun h => (nomatch h)⟩
    · rw [hdest] at hc
      exact .inr (Option.some.inj hc ▸ hs.complete)
    · rw [PackageDisk.set_files_of_ne _ _ hbt, PackageDisk.set_files_of_ne _ _ hbd]
  · -- not moved: nothing stood in its way, so the call itself failed
    intro hfail
    refine ⟨id, fun h => (nomatch h), fun _ => ⟨?_, rfl⟩⟩
    by_contra h
    refine hfail ⟨by simpa using h, ?_, ?_⟩
    · rw [hs.free]
      rfl
    · rw [hs.temporary]
      rfl
  rintro ok s₁ ⟨hmoved, hstay⟩
  cases ok with
  | true =>
    obtain ⟨hdest, hback⟩ := hmoved rfl
    have hdone : ∀ s', s'.files job.fileName = some new → job.Delivered env old
        ⟨true, "", job.headerBytes.length + job.payload.length⟩ s' :=
      fun s' h => ⟨fun _ => ⟨new, hs.complete, h⟩, fun h => (nomatch h)⟩
    cases aside with
    | false => exact Triple.pure (hdone s₁ hdest)
    | true =>
      -- the old copy goes only now that the new one is in place
      refine Triple.bind (R := fun _ s' => s'.files job.fileName = some new)
        (Triple.step ?_ ?_) fun _ s₂ h₂ => Triple.pure (hdone s₂ h₂)
      · intro _
        have hdest' : (if env.removesBackup = true then (s₁.set job.backupPath none, true)
            else (s₁, false)).1.files job.fileName = some new := by
          split
          · rw [PackageDisk.set_files_of_ne _ _ hbd.symm, hdest]
          · exact hdest
        refine ⟨fun c _ => .inr (.inr ⟨new, hs.complete, hdest'⟩), fun c hc => ?_⟩
        rw [hdest'] at hc
        exact .inr (Option.some.inj hc ▸ hs.complete)
      · show (if env.removesBackup = true then (s₁.set job.backupPath none, true)
            else (s₁, false)).1.files job.fileName = some new
        split
        · rw [PackageDisk.set_files_of_ne _ _ hbd.symm, hdest]
        · exact hdest
  | false =>
    obtain ⟨hinstall, rfl⟩ := hstay rfl
    cases aside with
    | false =>
      refine abandonResult_spec _ ?_
      rw [hs.free, hs.nothing rfl]
    | true =>
      obtain ⟨c, hold, hback⟩ := hs.backedUp rfl
      refine Triple.bind (R := fun ok s' =>
        (ok = true → s'.files job.fileName = old) ∧
        (ok = false → env.movesBack = false ∧ s' = s₁)) (rename_spec ?_ ?_) ?_
      · intro _ _ _
        have hdest : ((s₁.set job.fileName (s₁.files job.backupPath)).set job.backupPath
            none).files job.fileName = old := by
          rw [PackageDisk.set_files_of_ne _ _ hbd.symm, PackageDisk.set_files_self, hback, hold]
        exact ⟨fun _ => safe_of_eq hdest, fun _ => hdest, fun h => (nomatch h)⟩
      · intro hfail
        refine ⟨id, fun h => (nomatch h), fun _ => ⟨?_, rfl⟩⟩
        by_contra h
        refine hfail ⟨by simpa using h, ?_, ?_⟩
        · rw [hs.free]
          rfl
        · rw [hback]
          rfl
      · rintro ok s₂ ⟨hrestored, hstuck⟩
        cases ok with
        | true => exact abandonResult_spec _ (hrestored rfl)
        | false =>
          obtain ⟨hrestore, rfl⟩ := hstuck rfl
          refine Triple.pure ⟨fun h => (nomatch h), fun _ => .inr ⟨hinstall, hrestore, ?_, ?_⟩⟩
          · exact ⟨new, hs.complete, hs.temporary⟩
          · exact ⟨c, hold, hback⟩

/-- The last block, once a complete package is under the temporary's name. -/
theorem installTemporary_spec {new : Bytes} (hnew : job.Complete new)
    (htmp : s.files job.temporaryPath = some new) (hdest : s.files job.fileName = old) :
    Triple (fun a b => job.Safe old a → job.Safe old b) (job.installTemporary env) s
      (job.Delivered env old) := by
  have hdt : job.temporaryPath ≠ job.fileName := temporaryPath_ne_fileName
  have hbd : job.backupPath ≠ job.fileName := backupPath_ne_fileName
  have hbt : job.backupPath ≠ job.temporaryPath := backupPath_ne_temporaryPath
  unfold installTemporary
  refine Triple.bind (R := fun existing s' => existing = old ∧ s' = s)
    (Triple.read ⟨hdest, rfl⟩) ?_
  rintro existing s' ⟨rfl, rfl⟩
  cases hold : existing with
  | none =>
    exact moveIntoPlace_spec ⟨hnew, htmp, hdest.trans hold, fun h => (nomatch h), fun _ => rfl⟩
  | some c =>
    refine Triple.bind (R := fun ok s₁ => (ok = true → job.Poised (some c) true new s₁) ∧
      (ok = false → s₁.files job.fileName = some c)) (rename_spec ?_ ?_) ?_
    · intro _ _ _
      have hback : ((s'.set job.backupPath (s'.files job.fileName)).set job.fileName
          none).files job.backupPath = some c := by
        rw [PackageDisk.set_files_of_ne _ _ hbd, PackageDisk.set_files_self, hdest, hold]
      refine ⟨fun _ => ⟨fun d hd => .inr (.inl ?_), fun d hd => ?_⟩, fun _ => ?_,
        fun h => (nomatch h)⟩
      · rw [hback, hd]
      · rw [PackageDisk.set_files_self] at hd
        exact nomatch hd
      · refine ⟨hnew, ?_, PackageDisk.set_files_self .., fun _ => ⟨c, rfl, hback⟩,
          fun h => (nomatch h)⟩
        rw [PackageDisk.set_files_of_ne _ _ hdt, PackageDisk.set_files_of_ne _ _ hbt.symm, htmp]
    · exact fun _ => ⟨id, fun h => (nomatch h), fun _ => hdest.trans hold⟩
    · rintro ok s₁ ⟨hmoved, hstay⟩
      cases ok with
      | true => exact moveIntoPlace_spec (hmoved rfl)
      | false => exact abandonResult_spec _ (hstay rfl)

end PackageWriteJob

/-- The run as a whole: no copy is lost on the way, and the result is kept. -/
theorem writeProfilePackage_spec {S : SecretStream} (hS : S.Seals) {job : PackageWriteJob S}
    (hrun : job.Reopens) (env : PackageWriteOutcomes) (s₀ : PackageDisk) :
    Triple (fun a b => job.Safe (s₀.files job.fileName) a → job.Safe (s₀.files job.fileName) b)
      (writeProfilePackage job env) s₀ (job.Delivered env (s₀.files job.fileName)) := by
  -- the first two blocks touch only the temporary
  refine Triple.bind (((PackageWriteJob.writeTemporary_spec hS s₀).and_rel .refl
    fun _ _ _ => .trans).mono (fun _ _ h => h.safe) fun _ _ h => h) ?_
  rintro (why | n) s₁ ⟨hwritten, honly₁⟩
  · refine Triple.pure ⟨fun h => (nomatch h), fun _ => .inl ?_⟩
    exact honly₁ job.fileName PackageWriteJob.temporaryPath_ne_fileName.symm
  obtain ⟨rfl, new, hnew, hfile⟩ := hwritten n rfl
  have hdest₁ := honly₁ job.fileName PackageWriteJob.temporaryPath_ne_fileName.symm
  refine Triple.bind (R := fun r s₂ => s₂.files job.fileName = s₀.files job.fileName ∧
    (r = .ok () → s₂.files job.temporaryPath = some new)) ?_ ?_
  · refine Triple.bind (R := fun content s' =>
      content = some (new.take env.flushKeeps) ∧ s' = s₁) (Triple.read ⟨hfile, rfl⟩) ?_
    rintro content s' ⟨rfl, rfl⟩
    cases hverify : job.verifyContent env job.payload.length
      (some (new.take env.flushKeeps)) with
    | error why =>
      refine ((PackageWriteJob.abandon_spec why s' (Q := fun r _ => r = .error why)
        fun _ => rfl).and_rel .refl fun _ _ _ => .trans).mono (fun _ _ h => h.safe) ?_
      rintro r s₂ ⟨rfl, honly₂⟩
      refine ⟨?_, fun h => (nomatch h)⟩
      rw [honly₂ job.fileName PackageWriteJob.temporaryPath_ne_fileName.symm, hdest₁]
    | ok u =>
      have hwhole := PackageWriteJob.verifyContent_ok hS hrun hnew (List.take_prefix _ _) hverify
      refine Triple.pure ⟨hdest₁, fun _ => ?_⟩
      rw [hfile, hwhole]
  · rintro (why | ⟨⟨⟩⟩) s₂ ⟨hdest₂, htmp₂⟩
    · exact Triple.pure ⟨fun h => (nomatch h), fun _ => .inl hdest₂⟩
    · exact PackageWriteJob.installTemporary_spec hnew (htmp₂ rfl) hdest₂

/-- **No copy is lost.** For every outcome of every filesystem call, at every
state left behind: the previous package is whole at the destination or at the
backup, or a complete new one is at the destination, and the destination never
holds anything else. Success means the new package is there; failure that the
destination is as it was, or that both the install and the restore failed and
both copies are on disk. -/
theorem writeProfilePackage_keeps_a_copy {S : SecretStream} (hS : S.Inverts)
    (job : PackageWriteJob S) (env : PackageWriteOutcomes) (s₀ : PackageDisk) :
    (∀ s ∈ (writeProfilePackage job env).trace s₀, job.Safe (s₀.files job.fileName) s) ∧
    job.Delivered env (s₀.files job.fileName) ((writeProfilePackage job env).value s₀)
      ((writeProfilePackage job env).final s₀) := by
  have hreopens : job.Reopens := fun _ _ _ => hS.reopens ..
  have hrun := writeProfilePackage_spec hS.toSeals hreopens env s₀
  exact ⟨hrun.forall_trace (PackageWriteJob.safe_of_eq rfl) fun _ _ h => h, hrun.post⟩

/-- A small unprotected package, written over a previous one. -/
def overwriteJob : PackageWriteJob clearStream where
  pwhash p s := some (p ++ s)
  codec := ⟨fun _ => [123, 125], fun _ => some ⟨"gfprofile", 2, 2, "", true, "", "none", "none"⟩⟩
  header := { protection := .none }
  passphrase := []
  fileName := "a.gfp"
  temporaryUuid := "01234567"
  backupUuid := "89abcdef"
  salt := ⟨List.replicate 16 7, rfl⟩
  streamHeader := ⟨List.replicate 24 9, rfl⟩
  archive := ⟨[[10, 11], [12]], 0⟩

/-- The install rename fails, everything else works. -/
def lockedDestination : PackageWriteOutcomes where
  temporaryOpens := true
  writeOk _ := true
  shortWrite _ := 0
  flushKeeps := 2 ^ 20
  reopens := true
  headReads := true
  seeks := true
  readOk _ := true
  removesTemporary := true
  movesAside := true
  movesIntoPlace := false
  movesBack := true
  removesBackup := true

def previousPackage : PackageDisk := ⟨fun p => if p = "a.gfp" then some [1, 2, 3] else none, 0⟩

/-- A locked destination: whatever happens on the way, `[1, 2, 3]` is never the
copy that goes missing. -/
theorem writeProfilePackage_keeps_a_copy_locked :
    previousPackage.files "a.gfp" = some [1, 2, 3] ∧
    ∀ s ∈ (writeProfilePackage overwriteJob lockedDestination).trace previousPackage,
      s.files "a.gfp" = some [1, 2, 3] ∨ s.files ".a.gfp.bak-89abcdef" = some [1, 2, 3] ∨
      ∃ n, overwriteJob.Complete n ∧ s.files "a.gfp" = some n := by
  refine ⟨rfl, fun s hs => ?_⟩
  have hsafe := (writeProfilePackage_keeps_a_copy clearStream_inverts overwriteJob
    lockedDestination previousPackage).1 s hs
  exact hsafe.kept [1, 2, 3] rfl

end GpgFrontend
