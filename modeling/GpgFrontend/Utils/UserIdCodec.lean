import GpgFrontend.Base.Regex
import GpgFrontend.Function.GFKeyDatabaseReads
import GpgFrontend.Utils.KeyDatabaseNumbering

/-!
# User IDs put together and taken apart (`GpgUtils.cpp`)

`AssembleUserId` writes `name (comment) <email>`, and `ParseUserId` reads that with a regular
expression. A regular expression does not match a text that is no UTF-16: then the parser takes
the whole text for the name, and the validation finds nothing forbidden.

- `first_kRegexUserId`: how the engine goes through a user ID whose parts hold no bracket.
- `wellFormedText_assemble`: a user ID is UTF-16 when its parts are.
- `parse_assemble_iff`: **the parts come back** exactly when they are UTF-16, or when there is
  only a name.
-/

namespace GpgFrontend

/-! ## Code points -/

def isHighSurrogate (c : UInt16) : Bool := 0xD800 ≤ c && c ≤ 0xDBFF

def isLowSurrogate (c : UInt16) : Bool := 0xDC00 ≤ c && c ≤ 0xDFFF

def isSurrogate (c : UInt16) : Bool := isHighSurrogate c || isLowSurrogate c

/-- The code points of a text, each as its units; nothing for a text with half a pair. -/
def codePoints : QString → Option (List QString)
  | [] => some []
  | [c] => if isSurrogate c then none else some [[c]]
  | c :: d :: rest =>
    if isSurrogate c then
      if isHighSurrogate c && isLowSurrogate d then (codePoints rest).map ([c, d] :: ·) else none
    else (codePoints (d :: rest)).map ([c] :: ·)

/-- Whether a text is UTF-16. -/
def WellFormedText (s : QString) : Prop := (codePoints s).isSome = true

instance (s : QString) : Decidable (WellFormedText s) :=
  inferInstanceAs (Decidable ((codePoints s).isSome = true))

/-! ## The regular expressions -/

/-- `.`, which is any code point but a line feed. -/
def anyPoint (p : QString) : Bool := p ≠ [0x0A]

/-- `\s` without Unicode properties. -/
def asciiSpace (p : QString) : Bool :=
  p = [0x20] || p = [9] || p = [10] || p = [11] || p = [12] || p = [13]

def point (c : UInt16) (p : QString) : Bool := p = [c]

/-- `^(.*?)(?:\s*\((.*?)\))?(?:\s*<(.*?)>)?$` -/
def kRegexUserId : Regex QString :=
  .seq (.group 1 (.lazyStar anyPoint))
    (.seq (.opt (.bracketed asciiSpace (point 0x28) anyPoint (point 0x29) 2))
      (.seq (.opt (.bracketed asciiSpace (point 0x3C) anyPoint (point 0x3E) 3))
        (.atEnd (point 0x0A))))

/-- What `kRegexUserId` captures. -/
def captureUserId (rawId : QString) : Option (QString × QString × QString) :=
  match codePoints rawId with
  | none => none
  | some points =>
    (kRegexUserId.match? points).map fun groups =>
      ((Regex.captured groups 1).flatten, (Regex.captured groups 2).flatten,
        (Regex.captured groups 3).flatten)

/-- `[()<>\x00-\x1F\x7F]` -/
def forbiddenPoint (p : QString) : Bool :=
  match p with
  | [c] => c = 0x28 || c = 0x29 || c = 0x3C || c = 0x3E || c ≤ 0x1F || c = 0x7F
  | _ => false

/-- `IsValidUserIdComponent`. -/
def isValidUserIdComponent (component : QString) : Bool :=
  !match codePoints component with
    | none => false
    | some points => points.any forbiddenPoint

/-- `ParseUserId`, with what the expression captures. -/
def parseUserId (rawId : QString) : GFUserId := KeyTexts.parseUserId ⟨captureUserId, id⟩ rawId

/-! ## Texts -/

theorem codePoints_cons {c : UInt16} (h : isSurrogate c = false) (s : QString) :
    codePoints (c :: s) = (codePoints s).map ([c] :: ·) := by
  cases s with
  | nil => simp [codePoints, h]
  | cons d rest => simp [codePoints, h]

theorem codePoints_append {a : QString} {as : List QString} (h : codePoints a = some as)
    (b : QString) : codePoints (a ++ b) = (codePoints b).map (as ++ ·) := by
  fun_induction codePoints a generalizing as with
  | case1 =>
    cases h
    simp
  | case2 c hc => cases h
  | case3 c hc =>
    cases h
    rw [List.singleton_append, codePoints_cons (by simpa using hc)]
    rfl
  | case4 c d rest hc hpair ih =>
    obtain ⟨rs, hrs, rfl⟩ := Option.map_eq_some_iff.mp h
    simp only [List.cons_append, codePoints, hc, hpair, if_true, ih hrs, Option.map_map]
    rfl
  | case5 c d rest hc hpair => cases h
  | case6 c d rest hc ih =>
    obtain ⟨rs, hrs, rfl⟩ := Option.map_eq_some_iff.mp h
    rw [List.cons_append, codePoints_cons (by simpa using hc), ih hrs, Option.map_map]
    rfl

theorem flatten_codePoints {s : QString} {ps : List QString} (h : codePoints s = some ps) :
    ps.flatten = s := by
  fun_induction codePoints s generalizing ps with
  | case1 => cases h; rfl
  | case2 c hc => cases h
  | case3 c hc => cases h; rfl
  | case4 c d rest hc hpair ih =>
    obtain ⟨rs, hrs, rfl⟩ := Option.map_eq_some_iff.mp h
    simp [ih hrs]
  | case5 c d rest hc hpair => cases h
  | case6 c d rest hc ih =>
    obtain ⟨rs, hrs, rfl⟩ := Option.map_eq_some_iff.mp h
    simp [ih hrs]

/-- A unit that is no half of a pair parts a text in two that are read alone. -/
theorem wellFormedText_append_cons {c : UInt16} (hc : isSurrogate c = false) (a b : QString) :
    WellFormedText (a ++ c :: b) ↔ WellFormedText a ∧ WellFormedText b := by
  unfold WellFormedText
  fun_induction codePoints a with
  | case1 => simp [codePoints_cons hc]
  | case2 x hx =>
    have hlow : isLowSurrogate c = false := by
      simp only [isSurrogate, Bool.or_eq_false_iff] at hc
      exact hc.2
    simp [codePoints, hx, hlow]
  | case3 x hx => simp [codePoints_cons (show isSurrogate x = false by simpa using hx),
      codePoints_cons hc]
  | case4 x d rest hx hpair ih => simpa [codePoints, hx, hpair] using ih
  | case5 x d rest hx hpair => simp [codePoints, hx, hpair]
  | case6 x d rest hx ih =>
    rw [List.cons_append, codePoints_cons (show isSurrogate x = false by simpa using hx)]
    simpa using ih

theorem wellFormedText_nil : WellFormedText [] := rfl

/-! ## Trimmed texts -/

theorem not_surrogate_of_space {c : UInt16} (h : isSpaceUnit c = true) :
    isSurrogate c = false := by
  have hle : c ≤ 0x3000 := by
    simp only [isSpaceUnit, Bool.or_eq_true, Bool.and_eq_true, decide_eq_true_eq] at h
    rcases h with (((((((((⟨-, h⟩ | rfl) | rfl) | rfl) | rfl) | ⟨-, h⟩) | rfl) | rfl) | rfl) |
      rfl) | rfl
    · exact UInt16.le_trans h (by decide)
    all_goals first | decide | exact UInt16.le_trans h (by decide)
  have hle := UInt16.le_iff_toNat_le.mp hle
  have hhigh : ¬ (0xD800 : UInt16) ≤ c := fun hc => by
    have := (UInt16.le_iff_toNat_le.mp hc).trans hle
    exact absurd this (by decide)
  have hlow : ¬ (0xDC00 : UInt16) ≤ c := fun hc => by
    have := (UInt16.le_iff_toNat_le.mp hc).trans hle
    exact absurd this (by decide)
  simp [isSurrogate, isHighSurrogate, isLowSurrogate, hhigh, hlow]

/-- A text is what is left of it trimmed, between white space. -/
theorem trimmed_between (s : QString) :
    ∃ lead trail, s = lead ++ s.trimmed ++ trail ∧
      (∀ c ∈ lead, isSpaceUnit c = true) ∧ ∀ c ∈ trail, isSpaceUnit c = true := by
  refine ⟨s.takeWhile isSpaceUnit,
    ((s.dropWhile isSpaceUnit).reverse.takeWhile isSpaceUnit).reverse, ?_, ?_, ?_⟩
  · have hback : s.trimmed ++ ((s.dropWhile isSpaceUnit).reverse.takeWhile isSpaceUnit).reverse =
        s.dropWhile isSpaceUnit := by
      rw [QString.trimmed, ← List.reverse_append, List.takeWhile_append_dropWhile,
        List.reverse_reverse]
    rw [List.append_assoc, hback, List.takeWhile_append_dropWhile]
  · exact fun c hc => List.mem_takeWhile_imp hc
  · exact fun c hc => List.mem_takeWhile_imp (List.mem_reverse.mp hc)

theorem wellFormedText_lead {lead : QString} (hlead : ∀ c ∈ lead, isSpaceUnit c = true)
    (s : QString) : WellFormedText (lead ++ s) ↔ WellFormedText s := by
  induction lead with
  | nil => rfl
  | cons c lead ih =>
    have hc := not_surrogate_of_space (hlead c (List.mem_cons_self ..))
    have h := wellFormedText_append_cons hc [] (lead ++ s)
    rw [List.nil_append] at h
    rw [List.cons_append, h, ih fun d hd => hlead d (List.mem_cons_of_mem _ hd)]
    exact and_iff_right wellFormedText_nil

theorem wellFormedText_trail {trail : QString} (htrail : ∀ c ∈ trail, isSpaceUnit c = true)
    (s : QString) : WellFormedText (s ++ trail) ↔ WellFormedText s := by
  cases trail with
  | nil => rw [List.append_nil]
  | cons c trail =>
    have hc := not_surrogate_of_space (htrail c (List.mem_cons_self ..))
    have hrest := wellFormedText_lead (fun d hd => htrail d (List.mem_cons_of_mem _ hd)) []
    rw [List.append_nil] at hrest
    rw [wellFormedText_append_cons hc]
    exact and_iff_left (hrest.mpr wellFormedText_nil)

theorem wellFormedText_trimmed (s : QString) : WellFormedText s.trimmed ↔ WellFormedText s := by
  obtain ⟨lead, trail, hs, hlead, htrail⟩ := trimmed_between s
  conv_rhs => rw [hs, List.append_assoc]
  rw [wellFormedText_lead hlead, wellFormedText_trail htrail]

/-- The code points of a component that was accepted, once it is trimmed: none is forbidden,
and the last is no white space. -/
structure TrimmedPoints (s : QString) (ps : List QString) : Prop where
  points : codePoints s.trimmed = some ps
  allowed : ∀ p ∈ ps, forbiddenPoint p = false
  last : ∀ p ∈ ps.getLast?, asciiSpace p = false

theorem trimmed_getLast {s : QString} : ∀ c ∈ s.trimmed.getLast?, isSpaceUnit c = false := by
  intro c hc
  rw [QString.trimmed, List.getLast?_reverse] at hc
  have := List.head?_dropWhile_not isSpaceUnit (s.dropWhile isSpaceUnit).reverse
  rw [Option.mem_def.mp hc] at this
  simpa using this

theorem exists_trimmedPoints {s : QString} (hwf : WellFormedText s)
    (haccepted : isValidUserIdComponent s = true) : ∃ ps, TrimmedPoints s ps := by
  obtain ⟨ps, hps⟩ := Option.isSome_iff_exists.mp ((wellFormedText_trimmed s).mpr hwf)
  refine ⟨ps, hps, ?_, ?_⟩
  · obtain ⟨lead, trail, hs, hlead, htrail⟩ := trimmed_between s
    obtain ⟨all, hall⟩ := Option.isSome_iff_exists.mp hwf
    have hnone : all.any forbiddenPoint = false := by
      rw [isValidUserIdComponent, hall] at haccepted
      simpa using haccepted
    have hleadWf : WellFormedText lead := by
      have h := (wellFormedText_lead hlead []).mpr wellFormedText_nil
      rwa [List.append_nil] at h
    obtain ⟨as, has⟩ := Option.isSome_iff_exists.mp hleadWf
    have hsplit := hall
    rw [hs, List.append_assoc, codePoints_append has, codePoints_append hps] at hsplit
    obtain ⟨tail, htail, rfl⟩ := Option.map_eq_some_iff.mp hsplit
    obtain ⟨bs, -, rfl⟩ := Option.map_eq_some_iff.mp htail
    rw [List.any_eq_false] at hnone
    intro p hp
    exact Bool.eq_false_iff.mpr
      (hnone p (List.mem_append_right _ (List.mem_append_left _ hp)))
  · intro p hp
    rw [Bool.eq_false_iff]
    intro hspace
    obtain ⟨init, rfl⟩ : ∃ init, ps = init ++ [p] :=
      ⟨_, (List.dropLast_append_getLast? p hp).symm⟩
    have hflat := flatten_codePoints hps
    rw [List.flatten_append, List.flatten_singleton] at hflat
    simp only [asciiSpace, Bool.or_eq_true, decide_eq_true_eq] at hspace
    have hunit : ∃ c, p = [c] ∧ isSpaceUnit c = true := by
      rcases hspace with ((((rfl | rfl) | rfl) | rfl) | rfl) | rfl <;>
        exact ⟨_, rfl, by decide⟩
    obtain ⟨c, rfl, hc⟩ := hunit
    have hlast : s.trimmed.getLast? = some c := by
      rw [← hflat, List.getLast?_append]
      rfl
    have := trimmed_getLast c (Option.mem_def.mpr hlast)
    rw [hc] at this
    cases this

/-! ## The engine on a user ID -/

/-- A part that `AssembleUserId` has appended. -/
def partPoints (gap : List QString) (o z : UInt16) (ps : List QString) : List QString :=
  if ps = [] then [] else gap ++ [o] :: (ps ++ [[z]])

/-- Nothing but white space stands before the first unit that is not white space. -/
def NotOpening (o : UInt16) (ps : List QString) : Prop :=
  ∀ (v : List QString) (y : QString) (t : List QString), ps = v ++ y :: t →
    (∀ x ∈ v, asciiSpace x = true) → point o y = false

theorem notOpening_cons {o : UInt16} {gap : List QString} {x : QString}
    (hx : asciiSpace x = false) (ho : point o x = false)
    (hgap : ∀ y ∈ gap, asciiSpace y = true ∧ point o y = false) (rest : List QString) :
    NotOpening o (gap ++ x :: rest) := by
  intro v y t heq hv
  induction gap generalizing v with
  | nil =>
    cases v with
    | nil =>
      cases heq
      exact ho
    | cons z v =>
      cases heq
      have := hv x (List.mem_cons_self ..)
      rw [hx] at this
      cases this
  | cons g gap ih =>
    cases v with
    | nil =>
      cases heq
      exact (hgap _ (List.mem_cons_self ..)).2
    | cons z v =>
      rw [List.cons_append, List.cons_append, List.cons.injEq] at heq
      exact ih (fun y hy => hgap y (List.mem_cons_of_mem _ hy)) v heq.2
        fun x hx => hv x (List.mem_cons_of_mem _ hx)

theorem notOpening_nil (o : UInt16) : NotOpening o [] := by
  intro v y t heq
  cases v <;> cases heq

/-- What may stand in a part: neither bracket of the user ID, and no line feed. -/
theorem allowed_point {p : QString} (h : forbiddenPoint p = false) :
    anyPoint p = true ∧ point 0x28 p = false ∧ point 0x29 p = false ∧ point 0x3C p = false ∧
      point 0x3E p = false := by
  have hne : ∀ c : UInt16, forbiddenPoint [c] = true → p ≠ [c] := by
    rintro c hc rfl
    rw [hc] at h
    cases h
  simp only [anyPoint, point, ne_eq, decide_eq_true_eq, decide_eq_false_iff_not]
  exact ⟨hne _ (by decide), hne _ (by decide), hne _ (by decide), hne _ (by decide),
    hne _ (by decide)⟩

theorem first_optPart {gap ps rest : List QString} {o z : UInt16} (n : Nat)
    (hgap : ∀ p ∈ gap, asciiSpace p = true) (ho : asciiSpace [o] = false)
    (hps : ∀ p ∈ ps, anyPoint p = true ∧ point z p = false) (hrest : NotOpening o rest) :
    Regex.First (.opt (.bracketed asciiSpace (point o) anyPoint (point z) n))
      (partPoints gap o z ps ++ rest) (if ps = [] then [] else [(n, ps)], rest) := by
  unfold partPoints
  split
  · exact ⟨[], Regex.runs_opt_nil (Regex.runs_bracketed_nil hrest)⟩
  · have hself : ∀ c : UInt16, point c [c] = true := by simp [point]
    have h := Regex.first_bracketed (n := n) hgap ho (hself o) (fun p hp => (hps p hp).1)
      (fun p hp => (hps p hp).2) (hself z) rest
    have heq : gap ++ [o] :: (ps ++ [z] :: rest) = gap ++ [o] :: (ps ++ [[z]]) ++ rest := by simp
    rw [← heq]
    exact h.opt

/-- Before the end of the name the rest of the expression finds nothing. -/
theorem runs_inside_name {ps u rest : List QString} (hps : ∀ p ∈ ps, forbiddenPoint p = false)
    (hlast : ∀ p ∈ ps.getLast?, asciiSpace p = false) (hne : u ≠ []) (hu : u <:+ ps) :
    Regex.runs (.seq (.opt (.bracketed asciiSpace (point 0x28) anyPoint (point 0x29) 2))
      (.seq (.opt (.bracketed asciiSpace (point 0x3C) anyPoint (point 0x3E) 3))
        (.atEnd (point 0x0A)))) (u ++ rest) = [] := by
  obtain ⟨init, x, rfl⟩ : ∃ init x, u = init ++ [x] :=
    ⟨u.dropLast, u.getLast hne, (List.dropLast_append_getLast hne).symm⟩
  have hx : asciiSpace x = false := by
    obtain ⟨before, rfl⟩ := hu
    refine hlast x ?_
    rw [← List.append_assoc, List.getLast?_append]
    rfl
  have hallowed : ∀ p ∈ init ++ [x], forbiddenPoint p = false := fun p hp => hps p (hu.subset hp)
  have hclosed : ∀ o : UInt16, (∀ p, forbiddenPoint p = false → point o p = false) →
      NotOpening o (init ++ [x] ++ rest) := by
    intro o ho v y t heq hv
    -- the opening unit would stand behind the last unit of the name, which is no white space
    rw [List.append_eq_append_iff] at heq
    rcases heq with ⟨w, rfl, -⟩ | ⟨w, hw, ht⟩
    · have := hv x (by simp)
      rw [hx] at this
      cases this
    · cases w with
      | nil =>
        rw [List.append_nil] at hw
        have := hv x (by rw [← hw]; simp)
        rw [hx] at this
        cases this
      | cons z w =>
        rw [List.cons_append, List.cons.injEq] at ht
        rw [ht.1]
        exact ho z (hallowed z (by rw [hw]; simp))
  refine Regex.runs_seq_nil fun f hf => ?_
  rw [Regex.runs_opt_nil (Regex.runs_bracketed_nil
    (hclosed 0x28 fun p hp => (allowed_point hp).2.1)), List.mem_singleton] at hf
  rw [hf]
  refine Regex.runs_seq_nil fun f hf => ?_
  rw [Regex.runs_opt_nil (Regex.runs_bracketed_nil
    (hclosed 0x3C fun p hp => (allowed_point hp).2.2.2.1)), List.mem_singleton] at hf
  rw [hf]
  have hx' : point 0x0A x = false := by
    have := (allowed_point (hallowed x (by simp))).1
    simpa [anyPoint, point] using this
  cases init with
  | nil => cases rest <;> simp [Regex.runs, hx']
  | cons y init =>
    cases init <;> simp [Regex.runs]

theorem first_kRegexUserId {ns cs es gap₁ gap₂ : List QString}
    (hns : ∀ p ∈ ns, forbiddenPoint p = false) (hlast : ∀ p ∈ ns.getLast?, asciiSpace p = false)
    (hcs : ∀ p ∈ cs, forbiddenPoint p = false) (hes : ∀ p ∈ es, forbiddenPoint p = false)
    (hgap₁ : ∀ p ∈ gap₁, p = [0x20]) (hgap₂ : ∀ p ∈ gap₂, p = [0x20]) :
    Regex.First kRegexUserId (ns ++ (partPoints gap₁ 0x28 0x29 cs ++ partPoints gap₂ 0x3C 0x3E es))
      ((1, ns) :: ((if cs = [] then [] else [(2, cs)]) ++ if es = [] then [] else [(3, es)]),
        []) := by
  have hspace : ∀ {gap : List QString}, (∀ p ∈ gap, p = [0x20]) →
      ∀ p ∈ gap, asciiSpace p = true := by
    intro gap hgap p hp
    rw [hgap p hp]
    decide
  have hemail : NotOpening 0x28 (partPoints gap₂ 0x3C 0x3E es) := by
    unfold partPoints
    split
    · exact notOpening_nil _
    · refine notOpening_cons (by decide) (by decide) (fun y hy => ?_) _
      rw [hgap₂ y hy]
      decide
  obtain ⟨before, after, hname, hbefore⟩ := Regex.runs_group_lazyStar (p := anyPoint) 1
    (fun p hp => (allowed_point (hns p hp)).1)
    (partPoints gap₁ 0x28 0x29 cs ++ partPoints gap₂ 0x3C 0x3E es)
  have hcomment := first_optPart 2 (hspace hgap₁) (by decide)
    (fun p hp => ⟨(allowed_point (hcs p hp)).1, (allowed_point (hcs p hp)).2.2.1⟩) hemail
  have hmail := first_optPart (o := 0x3C) (z := 0x3E) 3 (hspace hgap₂) (by decide)
    (fun p hp => ⟨(allowed_point (hes p hp)).1, (allowed_point (hes p hp)).2.2.2.2⟩)
    (notOpening_nil 0x3C)
  rw [List.append_nil] at hmail
  have hend : Regex.First (.atEnd (point 0x0A)) [] ([], []) := ⟨[], rfl⟩
  have htail := hcomment.seq_first (hmail.seq_first hend)
  have h := Regex.First.seq hname (fun f hf => ?_) htail
  · simpa [kRegexUserId] using h
  · obtain ⟨u, hne, hsuffix, hu⟩ := hbefore f hf
    rw [hu]
    exact runs_inside_name hns hlast hne hsuffix

/-! ## Round trips -/

/-- One step of `AssembleUserId`. -/
def addPart (uid part : QString) (o z : UInt16) : QString :=
  if part.isEmpty then uid
  else (if uid.isEmpty then uid else uid ++ [0x20]) ++ [o] ++ part ++ [z]

theorem assembleUserId_eq (name comment email : QString) :
    assembleUserId name comment email =
      addPart (addPart name.trimmed comment.trimmed 0x28 0x29) email.trimmed 0x3C 0x3E := rfl

theorem codePoints_addPart {uid part : QString} {us ps : List QString} {o z : UInt16}
    (ho : isSurrogate o = false) (hz : isSurrogate z = false)
    (huid : codePoints uid = some us) (hpart : codePoints part = some ps) :
    ∃ gap, codePoints (addPart uid part o z) = some (us ++ partPoints gap o z ps) ∧
      ∀ p ∈ gap, p = [0x20] := by
  unfold addPart
  cases part with
  | nil =>
    cases hpart
    exact ⟨[], by simp [partPoints, huid], by simp⟩
  | cons c part =>
    have hps : ps ≠ [] := by
      rintro rfl
      have := flatten_codePoints hpart
      cases this
    have hclosed : codePoints ([o] ++ (c :: part) ++ [z]) = some ([o] :: (ps ++ [[z]])) := by
      rw [List.append_assoc, List.singleton_append, codePoints_cons ho,
        codePoints_append hpart, codePoints_cons hz]
      rfl
    rw [if_neg (by simp)]
    cases uid with
    | nil =>
      cases huid
      refine ⟨[], ?_, by simp⟩
      rw [List.isEmpty_nil, if_pos rfl, List.nil_append, hclosed, partPoints, if_neg hps]
      rfl
    | cons d uid =>
      refine ⟨[[0x20]], ?_, by simp⟩
      rw [if_neg (by simp), List.append_assoc, List.append_assoc, List.append_assoc,
        codePoints_append huid, List.singleton_append, codePoints_cons (by decide),
        ← List.append_assoc [o], hclosed, partPoints, if_neg hps]
      rfl

theorem wellFormedText_addPart {uid part : QString} {o z : UInt16} (ho : isSurrogate o = false)
    (hz : isSurrogate z = false) (h : WellFormedText (addPart uid part o z)) :
    WellFormedText uid ∧ WellFormedText part := by
  unfold addPart at h
  split at h
  · next hempty =>
    rw [List.isEmpty_iff.mp hempty]
    exact ⟨h, wellFormedText_nil⟩
  · rw [wellFormedText_append_cons hz, List.append_assoc, List.singleton_append,
      wellFormedText_append_cons ho] at h
    refine ⟨?_, h.1.2⟩
    split at h
    · exact h.1.1
    · exact ((wellFormedText_append_cons (by decide) uid []).mp h.1.1).1

theorem wellFormedText_assemble (name comment email : QString) :
    WellFormedText (assembleUserId name comment email) ↔
      WellFormedText name ∧ WellFormedText comment ∧ WellFormedText email := by
  rw [assembleUserId_eq, ← wellFormedText_trimmed name, ← wellFormedText_trimmed comment,
    ← wellFormedText_trimmed email]
  constructor
  · intro h
    obtain ⟨hone, he⟩ := wellFormedText_addPart (by decide) (by decide) h
    obtain ⟨hn, hc⟩ := wellFormedText_addPart (by decide) (by decide) hone
    exact ⟨hn, hc, he⟩
  · rintro ⟨hn, hc, he⟩
    obtain ⟨ns, hns⟩ := Option.isSome_iff_exists.mp hn
    obtain ⟨cs, hcs⟩ := Option.isSome_iff_exists.mp hc
    obtain ⟨es, hes⟩ := Option.isSome_iff_exists.mp he
    obtain ⟨_, hone, -⟩ := codePoints_addPart (o := 0x28) (z := 0x29) (by decide) (by decide)
      hns hcs
    obtain ⟨_, htwo, -⟩ := codePoints_addPart (o := 0x3C) (z := 0x3E) (by decide) (by decide)
      hone hes
    rw [WellFormedText, htwo]
    rfl

/-- The parts of a UTF-16 user ID come back as they were trimmed. -/
theorem parse_assemble {name comment email : QString} (hname : isValidUserIdComponent name = true)
    (hcomment : isValidUserIdComponent comment = true)
    (hemail : isValidUserIdComponent email = true) (hn : WellFormedText name)
    (hc : WellFormedText comment) (he : WellFormedText email) :
    parseUserId (assembleUserId name comment email) =
      { name := name.trimmed, comment := comment.trimmed, email := email.trimmed } := by
  obtain ⟨ns, hns⟩ := exists_trimmedPoints hn hname
  obtain ⟨cs, hcs⟩ := exists_trimmedPoints hc hcomment
  obtain ⟨es, hes⟩ := exists_trimmedPoints he hemail
  obtain ⟨gap₁, hone, hgap₁⟩ := codePoints_addPart (o := 0x28) (z := 0x29) (by decide) (by decide)
    hns.points hcs.points
  obtain ⟨gap₂, htwo, hgap₂⟩ := codePoints_addPart (o := 0x3C) (z := 0x3E) (by decide) (by decide)
    hone hes.points
  rw [List.append_assoc] at htwo
  have hmatch := (first_kRegexUserId hns.allowed hns.last hcs.allowed hes.allowed hgap₁
    hgap₂).match?
  have hcapture : captureUserId (assembleUserId name comment email) =
      some (name.trimmed, comment.trimmed, email.trimmed) := by
    rw [captureUserId, assembleUserId_eq, htwo]
    simp only [hmatch, Option.map_some, Option.some.injEq, Prod.mk.injEq]
    rw [← flatten_codePoints hns.points, ← flatten_codePoints hcs.points,
      ← flatten_codePoints hes.points]
    refine ⟨rfl, ?_, ?_⟩
    · by_cases hcs' : cs = [] <;> by_cases hes' : es = [] <;>
        simp [Regex.captured, List.lookup_cons, hcs', hes']
    · by_cases hcs' : cs = [] <;> by_cases hes' : es = [] <;>
        simp [Regex.captured, List.lookup_cons, hcs', hes']
  simp only [parseUserId, KeyTexts.parseUserId, hcapture, trimmed_trimmed]

/-- Without a match the whole user ID is the name. -/
theorem parse_of_not_wellFormed {rawId : QString} (h : ¬ WellFormedText rawId) :
    parseUserId rawId = { name := rawId } := by
  have hnone : codePoints rawId = none := by
    simpa [WellFormedText] using h
  simp only [parseUserId, KeyTexts.parseUserId, captureUserId, hnone]

/-- **The parts of a user ID come back** from the parser, for components the validation accepts,
exactly when all three are UTF-16, or when there is only a name. -/
theorem parse_assemble_iff (name comment email : QString)
    (hname : isValidUserIdComponent name = true) (hcomment : isValidUserIdComponent comment = true)
    (hemail : isValidUserIdComponent email = true) :
    parseUserId (assembleUserId name comment email) =
        { name := name.trimmed, comment := comment.trimmed, email := email.trimmed } ↔
      (WellFormedText name ∧ WellFormedText comment ∧ WellFormedText email) ∨
        (comment.trimmed = [] ∧ email.trimmed = []) := by
  rw [← wellFormedText_assemble]
  by_cases hwf : WellFormedText (assembleUserId name comment email)
  · obtain ⟨hn, hc, he⟩ := (wellFormedText_assemble name comment email).mp hwf
    exact iff_of_true (parse_assemble hname hcomment hemail hn hc he) (Or.inl hwf)
  · rw [parse_of_not_wellFormed hwf, or_iff_right hwf]
    constructor
    · intro h
      injection h with _ he hc
      exact ⟨hc.symm, he.symm⟩
    · rintro ⟨hc, he⟩
      simp [assembleUserId_eq, addPart, hc, he]

/-- `Al`, `wo` and `a@a`. -/
theorem parse_assemble_iff_sample :
    parseUserId (assembleUserId [0x41, 0x6C] [0x77, 0x6F] [0x61, 0x40, 0x61]) =
        { name := [0x41, 0x6C], comment := [0x77, 0x6F], email := [0x61, 0x40, 0x61] } :=
  (parse_assemble_iff [0x41, 0x6C] [0x77, 0x6F] [0x61, 0x40, 0x61] (by decide) (by decide)
    (by decide)).mpr (Or.inl (by decide))

/-- Half a surrogate pair in the name passes the validation, and a bracket beside it too; with a
comment, the parser takes the whole user ID for the name. -/
theorem half_pair_not_parsed :
    isValidUserIdComponent [0x41, 0xD800] = true ∧ isValidUserIdComponent [0x28, 0xD800] = true ∧
    ¬ ∀ name comment email : QString, isValidUserIdComponent name = true →
      isValidUserIdComponent comment = true → isValidUserIdComponent email = true →
      parseUserId (assembleUserId name comment email) =
        { name := name.trimmed, comment := comment.trimmed, email := email.trimmed } := by
  refine ⟨by decide, by decide, fun h => ?_⟩
  exact absurd (h [0x41, 0xD800] [0x63] [] (by decide) (by decide) (by decide)) (by decide)

end GpgFrontend
