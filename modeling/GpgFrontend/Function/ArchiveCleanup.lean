import GpgFrontend.Function.ArchiveSparse

/-!
# What a failed extraction leaves

Under the strict policy the destination is the extraction's own, and it is removed when the walk is
refused. What follows the walk can still fail, and nothing is removed then.

- `strict_nothing_left_iff`: **nothing is left exactly when the closing calls succeed behind a walk
  that came to its end with a file.**
-/

namespace GpgFrontend

/-- The file or link at a path below a destination. -/
def fileAt (destination : Option (FsNode Bytes)) (path : List String) :
    Option (FsNode.Kind Bytes) :=
  (destination.bind (FsNode.kindAt path)).filter fun kind => kind ≠ .dir

/-- A failed extraction leaves no file that was not there before. -/
def NothingLeft {τ : Type} (before : Option (FsNode Bytes)) (result : ExtractionResult τ) : Prop :=
  result.ok = false → ∀ path file, fileAt result.destination path = some file →
    fileAt before path = some file

theorem fileAt_none (path : List String) : fileAt none path = none := rfl

theorem fileAt_empty (path : List String) : fileAt (some (.dir [])) path = none := by
  cases path <;> rfl

section Strict

variable {τ : Type} (steps : ExtractionSteps) (maxTotalBytes maxEntries : Int)
  (diversion : Option (Diversion τ)) (stream : ArchiveStream) (destination : Option (FsNode Bytes))
  (sink : τ)

/-- The walk of an extraction under the strict policy, which starts in an empty destination. -/
def strictWalk : Bool × Extraction τ :=
  walkArchive steps (.strict maxTotalBytes maxEntries) diversion true stream
    { tree := [], sink := sink }

variable {steps maxTotalBytes maxEntries diversion stream destination sink}

theorem strict_removes (maxTotalBytes maxEntries : Int) :
    (true && (ArchiveExtractPolicy.strict maxTotalBytes maxEntries).requireEmptyDestination) = true :=
  rfl

/-- An extraction under the strict policy starts in an empty destination, or not at all. -/
theorem startTree_strict {tree : List (String × FsNode Bytes)}
    (h : startTree steps (.strict maxTotalBytes maxEntries) true destination = some tree) :
    tree = [] ∧ ∀ path, fileAt destination path = none := by
  unfold startTree at h
  rw [if_pos (strict_removes maxTotalBytes maxEntries)] at h
  split at h
  · split at h
    · exact ⟨(Option.some.inj h).symm, fileAt_none⟩
    · cases h
  · exact ⟨(Option.some.inj h).symm, fileAt_empty⟩
  · cases h

/-- Once it has started, it removes the destination when the walk is refused, and returns what the
closing calls make of it when it is not. -/
theorem extractArchive_strict_cases
    (hstart : startTree steps (.strict maxTotalBytes maxEntries) true destination = some []) :
    let walked := strictWalk steps maxTotalBytes maxEntries diversion stream sink
    let result := extractArchive steps (.strict maxTotalBytes maxEntries) diversion true stream
      destination sink
    ((stream.opens = false ∨ walked.1 = false) ∧
      ∃ tree, result.destination = steps.removeDestination tree) ∨
    ((stream.opens = true ∧ walked.1 = true) ∧ result.ok = (steps.frees && steps.closes) ∧
      result.destination = some (.dir walked.2.tree)) := by
  intro walked result
  unfold result extractArchive
  rw [hstart]
  dsimp only
  rw [if_pos (strict_removes maxTotalBytes maxEntries)]
  cases hopens : stream.opens with
  | false => exact .inl ⟨.inl rfl, [], rfl⟩
  | true =>
    rw [if_neg (by decide)]
    by_cases hwalked : (walkArchive steps (.strict maxTotalBytes maxEntries) diversion true stream
        { tree := [], sink := sink }).1 = true
    · refine .inr ⟨⟨rfl, hwalked⟩, ?_⟩
      rw [if_neg (by simpa using hwalked)]
      cases steps.closes with
      | false => exact ⟨rfl, rfl⟩
      | true => exact ⟨rfl, rfl⟩
    · refine .inl ⟨.inr (Bool.not_eq_true _ ▸ hwalked), walked.2.tree, ?_⟩
      rw [if_pos (by simpa using hwalked)]
      rfl

/-- **An extraction under the strict policy that fails leaves nothing exactly when** it does not
start, its walk does not come to the end, the calls that close behind the walk succeed, or there is
no file in the destination then. -/
theorem strict_nothing_left_iff (steps : ExtractionSteps) (maxTotalBytes maxEntries : Int)
    (diversion : Option (Diversion τ)) (stream : ArchiveStream)
    (destination : Option (FsNode Bytes)) (sink : τ)
    (hremove : ∀ tree path, fileAt (steps.removeDestination tree) path = none) :
    NothingLeft destination (extractArchive steps (.strict maxTotalBytes maxEntries) diversion true
      stream destination sink) ↔
    startTree steps (.strict maxTotalBytes maxEntries) true destination = none ∨
    (stream.opens = false ∨
      (strictWalk steps maxTotalBytes maxEntries diversion stream sink).1 = false) ∨
    (steps.frees && steps.closes) = true ∨
    ∀ path, fileAt (some (.dir
      (strictWalk steps maxTotalBytes maxEntries diversion stream sink).2.tree)) path = none := by
  cases hstart : startTree steps (.strict maxTotalBytes maxEntries) true destination with
  | none =>
    refine ⟨fun _ => .inl rfl, fun _ _ path file hfile => ?_⟩
    unfold extractArchive at hfile
    rw [hstart] at hfile
    exact hfile
  | some tree =>
    obtain ⟨rfl, hbefore⟩ := startTree_strict hstart
    rcases @extractArchive_strict_cases _ steps maxTotalBytes maxEntries diversion stream
      destination sink hstart with ⟨hrefused, tree, hremoved⟩ | ⟨⟨hopens, hwalked⟩, hok, hleft⟩
    · refine ⟨fun _ => .inr (.inl hrefused), fun _ _ path file hfile => ?_⟩
      rw [hremoved, hremove] at hfile
      cases hfile
    · unfold NothingLeft
      rw [hok, hleft, hopens, hwalked]
      constructor
      · intro h
        by_cases hclosed : (steps.frees && steps.closes) = true
        · exact .inr (.inr (.inl hclosed))
        · refine .inr (.inr (.inr fun path => ?_))
          by_contra hfile
          obtain ⟨file, hfile⟩ := Option.ne_none_iff_exists'.1 hfile
          have hold := h (Bool.not_eq_true _ ▸ hclosed) path file hfile
          rw [hbefore] at hold
          cases hold
      · rintro (hnone | (hopen | hwalk) | hclosed | hempty) hfailed path file hfile
        · cases hnone
        · cases hopen
        · cases hwalk
        · rw [hclosed] at hfailed
          cases hfailed
        · rw [hempty] at hfile
          cases hfile

end Strict

/-- One file, and everything closes. -/
theorem strict_nothing_left_smooth : NothingLeft none
    (extractArchive smoothSteps (.strict 2 1) none true ⟨true, [solidEntry], true, "", 0⟩ none ()) :=
  (strict_nothing_left_iff smoothSteps 2 1 none ⟨true, [solidEntry], true, "", 0⟩ none ()
    fun _ path => fileAt_none path).2 (.inr (.inr (.inl rfl)))

/-- The disk is full when the last file is closed: the extraction fails, and the file stays. -/
theorem file_left_behind_close :
    ¬ NothingLeft none (extractArchive { smoothSteps with closes := false } (.strict 2 1) none true
      ⟨true, [solidEntry], true, "", 0⟩ none ()) := by
  intro h
  exact absurd (h (by decide +kernel) ["a"] (.file [1, 2]) (by decide +kernel)) (by decide)

end GpgFrontend
