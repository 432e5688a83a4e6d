import GpgFrontend.UI.CommandSections

/-!
# The tables of the registry

- `Later`: what no section takes back.
- `RegistryOk`: what holds between the tables and the history, kept by each change of them.
-/

namespace GpgFrontend

variable {τ ρ : Type}

open CommandFrame CommandRegistry

/-! ## What no section takes back -/

/-- A record, and the same one later. -/
structure Grown (k k' : PendingCall τ) : Prop where
  caller : k'.caller = k.caller
  via : k'.via = k.via
  completer : k'.completer = k.completer
  cancelled : k.cancelled = true → k'.cancelled = true
  finished : k.finished = true → k'.finished = true
  done : k'.done = k.done ∨ k'.done = none

theorem Grown.refl (k : PendingCall τ) : Grown k k := ⟨rfl, rfl, rfl, id, id, .inl rfl⟩

structure Later (r r' : CommandRegistry τ ρ) : Prop where
  calls : ∀ {c k}, r.calls c = some k → ∃ k', r'.calls c = some k' ∧ Grown k k'
  /-- A call that is new has its completer from an `Invoke` under way. -/
  fresh : ∀ {c k'}, r'.calls c = some k' →
    (∃ k, r.calls c = some k ∧ Grown k k') ∨ r.underWay k'.completer ≠ none
  settled : ∀ {d}, d < r.nextCompleter → r.underWay d = none → r'.underWay d = none
  nextCallId : r.nextCallId ≤ r'.nextCallId
  nextSerial : r.nextSerial ≤ r'.nextSerial
  nextCompleter : r.nextCompleter ≤ r'.nextCompleter
  gone : ∀ {p}, p.serial < r.nextSerial → p ∉ r.providers → p ∉ r'.providers
  left : ∀ {c}, c < r.nextCallId → c ∉ r.pending → c ∉ r'.pending
  history : r.history ⊆ r'.history

section Later

variable {r r' : CommandRegistry τ ρ}

/-- Sections that leave the records and the numbers as they are. -/
theorem Later.of_same (hcalls : r'.calls = r.calls) (hunderWay : r'.underWay = r.underWay)
    (hid : r'.nextCallId = r.nextCallId) (hserial : r'.nextSerial = r.nextSerial)
    (hcompleter : r'.nextCompleter = r.nextCompleter) (hproviders : r'.providers ⊆ r.providers)
    (hpending : r'.pending ⊆ r.pending) (hhistory : r.history ⊆ r'.history) : Later r r' where
  calls := fun {_ k} h => ⟨k, hcalls ▸ h, .refl k⟩
  fresh := fun {_ k} h => .inl ⟨k, hcalls ▸ h, .refl k⟩
  settled := fun _ h => hunderWay ▸ h
  nextCallId := hid.ge
  nextSerial := hserial.ge
  nextCompleter := hcompleter.ge
  gone := fun _ h hin => h (hproviders hin)
  left := fun _ h hin => h (hpending hin)
  history := hhistory

theorem Later.refl (r : CommandRegistry τ ρ) : Later r r :=
  .of_same rfl rfl rfl rfl rfl (fun _ h => h) (fun _ h => h) fun _ h => h

theorem Later.log (e : CommandEvent ρ) : Later r (r.log e) :=
  .of_same rfl rfl rfl rfl rfl (fun _ h => h) (fun _ h => h) fun _ h => List.mem_cons_of_mem _ h

theorem Later.erase (call : Nat) : Later r (r.erase call) :=
  .of_same rfl rfl rfl rfl rfl (fun _ h => h) (fun _ h => List.mem_of_mem_filter h) fun _ h => h

theorem Grown.trans {k₁ k₂ k₃ : PendingCall τ} (h : Grown k₁ k₂) (h' : Grown k₂ k₃) :
    Grown k₁ k₃ where
  caller := h'.caller.trans h.caller
  via := h'.via.trans h.via
  completer := h'.completer.trans h.completer
  cancelled := fun hk => h'.cancelled (h.cancelled hk)
  finished := fun hk => h'.finished (h.finished hk)
  done := by
    rcases h'.done with heq | hnone
    · rcases h.done with heq' | hnone'
      · exact .inl (heq.trans heq')
      · exact .inr (heq.trans hnone')
    · exact .inr hnone

/-- A change to a record that it survives. -/
theorem Later.modify {call : Nat} {change : PendingCall τ → PendingCall τ}
    (hchange : ∀ k, r.calls call = some k → Grown k (change k)) :
    Later r (r.modify call change) := by
  have hgrown : ∀ c k, r.calls c = some k → Grown k (if c = call then change k else k) := by
    intro c k hk
    split
    · next hc => exact hchange k (hc ▸ hk)
    · exact .refl k
  refine ⟨fun {c k} hk => ⟨_, modify_some.2 ⟨k, hk, rfl⟩, hgrown c k hk⟩, fun {c k'} hk' => ?_,
    fun _ h => h, le_refl _, le_refl _, le_refl _, fun _ h => h, fun _ h => h, fun _ h => h⟩
  obtain ⟨k, hk, rfl⟩ := modify_some.1 hk'
  exact .inl ⟨k, hk, hgrown c k hk⟩

theorem Later.trans {r₁ r₂ r₃ : CommandRegistry τ ρ} (h : Later r₁ r₂) (h' : Later r₂ r₃)
    (hunderWay : r₂.underWay = r₁.underWay) : Later r₁ r₃ where
  calls := by
    intro c k hk
    obtain ⟨k', hk', hgrown⟩ := h.calls hk
    obtain ⟨k'', hk'', hgrown'⟩ := h'.calls hk'
    exact ⟨k'', hk'', hgrown.trans hgrown'⟩
  fresh := by
    intro c k'' hk''
    rcases h'.fresh hk'' with ⟨k', hk', hgrown'⟩ | hnew
    · rcases h.fresh hk' with ⟨k, hk, hgrown⟩ | hnew
      · exact .inl ⟨k, hk, hgrown.trans hgrown'⟩
      · exact .inr (hgrown'.completer ▸ hnew)
    · exact .inr (hunderWay ▸ hnew)
  settled := fun hd hnone => h'.settled (hd.trans_le h.nextCompleter) (h.settled hd hnone)
  nextCallId := h.nextCallId.trans h'.nextCallId
  nextSerial := h.nextSerial.trans h'.nextSerial
  nextCompleter := h.nextCompleter.trans h'.nextCompleter
  gone := fun hp hout => h'.gone (hp.trans_le h.nextSerial) (h.gone hp hout)
  left := fun hc hout => h'.left (hc.trans_le h.nextCallId) (h.left hc hout)
  history := fun _ he => h'.history (h.history he)

theorem Later.register (p : CommandProvider) (allowlist : Option (List String)) :
    Later r (r.register p allowlist).2 := by
  unfold CommandRegistry.register
  split_ifs
  all_goals try exact .refl r
  refine ⟨fun {_ k} h => ⟨k, h, .refl k⟩, fun {_ k} h => .inl ⟨k, h, .refl k⟩, fun _ h => h,
    le_refl _, Nat.le_succ _, le_refl _, fun hq hout hin => ?_, fun _ h => h, fun _ h => h⟩
  rcases List.mem_cons.1 hin with rfl | hin
  · exact absurd hq (lt_irrefl _)
  · exact hout hin

theorem Later.unregister (id owner : String) : Later r (r.unregister id owner).2 := by
  unfold CommandRegistry.unregister
  split
  · exact .refl r
  split
  · exact .refl r
  · exact .of_same rfl rfl rfl rfl rfl (fun _ h => List.mem_of_mem_filter h) (fun _ h => h)
      fun _ h => h

theorem Later.withdraw (module : String) : Later r (r.withdraw module) :=
  .of_same rfl rfl rfl rfl rfl (fun _ h => List.mem_of_mem_filter h) (fun _ h => h) fun _ h => h

theorem Later.refuse (completer : Nat) (status : CommandStatus) :
    Later r (r.refuse completer status) := by
  refine ⟨fun {_ k} h => ⟨k, h, .refl k⟩, fun {_ k} h => .inl ⟨k, h, .refl k⟩, fun _ h => ?_,
    le_refl _, le_refl _, le_refl _, fun _ h => h, fun _ h => h,
    fun _ h => List.mem_cons_of_mem _ h⟩
  rw [refuse_underWay]
  split
  · rfl
  · exact h

theorem Later.enter {q : CommandRequest} {completer : Nat} {p : RegisteredCommand}
    (hbound : ∀ c k, r.calls c = some k → c < r.nextCallId)
    (hunderWay : r.underWay completer ≠ none) : Later r (r.enter q completer p) := by
  refine ⟨fun {c k} hk => ⟨k, ?_, .refl k⟩, fun {c k'} hk' => ?_, fun _ h => ?_, Nat.le_succ _,
    le_refl _, le_refl _, fun _ h => h, fun hc hout hin => ?_, fun _ h => h⟩
  · rw [enter_calls, if_neg (hbound c k hk).ne, hk]
  · rw [enter_calls] at hk'
    split at hk'
    · rw [← Option.some.inj hk']
      exact .inr hunderWay
    · exact .inl ⟨k', hk', .refl k'⟩
  · rw [enter_underWay]
    split
    · rfl
    · exact h
  · rcases List.mem_cons.1 hin with rfl | hin
    · exact absurd hc (lt_irrefl _)
    · exact hout hin

end Later

/-! ## What holds of the tables -/

/-- Who may complete a call. -/
def CompletedBy.Fits (r : CommandRegistry τ ρ) (k : PendingCall τ) : CompletedBy → Prop
  | owner name => name = k.via.provider.owner
  | registry => k.via ∉ r.providers

/-- How often a `done` was entered. -/
def startsOf (history : List (CommandEvent ρ)) (completer : Nat) : Nat :=
  history.countP fun e =>
    match e with
    | .started _ other _ _ => other = completer
    | _ => false

/-- What an event says of the tables. -/
def CommandEvent.Ok (r : CommandRegistry τ ρ) : CommandEvent ρ → Prop
  | answered d status _ => d < r.nextCompleter ∧ r.underWay d = none ∧
      (status ≠ .ok → ∀ c k, r.calls c = some k → k.completer ≠ d)
  | entered c owner => ∃ k, r.calls c = some k ∧ k.via.provider.owner = owner
  | completed c by_ _ => ∃ k, r.calls c = some k ∧ k.finished = true ∧ by_.Fits r k
  | started c d caller result => ∃ k, r.calls c = some k ∧ k.completer = d ∧ k.caller = caller ∧
      k.finished = true ∧ ∃ by_, .completed c by_ result ∈ r.history
  | delivered c => c < r.nextCallId ∧ c ∉ r.pending
  | cancelled c caller => ∃ k, r.calls c = some k ∧ k.caller = caller ∧ k.cancelled = true
  | cancelReturned c _ status => status = .ok → c < r.nextCallId ∧ c ∉ r.pending
  | removed _ | reopened _ => True

/-- The invariant of the tables. -/
structure RegistryOk (r : CommandRegistry τ ρ) : Prop where
  serials : ∀ p ∈ r.providers, p.serial < r.nextSerial
  ids : (r.providers.map fun p => p.provider.id).Nodup
  vias : ∀ {c k}, r.calls c = some k → k.via.serial < r.nextSerial
  bound : ∀ {c k}, r.calls c = some k → c < r.nextCallId
  known : ∀ {c}, c ∈ r.pending → ∃ k, r.calls c = some k
  posted : ∀ {c}, c ∈ r.posted → ∃ k, r.calls c = some k
  completers : ∀ {c k}, r.calls c = some k → k.completer < r.nextCompleter ∧
    r.underWay k.completer = none ∧ ∀ d, k.done = some d → d = k.completer
  distinct : ∀ {c c' k k'}, r.calls c = some k → r.calls c' = some k' →
    k.completer = k'.completer → c = c'
  underWay : ∀ {d}, r.underWay d ≠ none → d < r.nextCompleter
  events : ∀ e ∈ r.history, e.Ok r
  once : ∀ d, startsOf r.history d ≤ 1
  unstarted : ∀ {c k}, r.calls c = some k → k.finished = false → startsOf r.history k.completer = 0

section Tables

variable {r r' : CommandRegistry τ ρ}

theorem CompletedBy.Fits.later {k k' : PendingCall τ} {by_ : CompletedBy} (hgrown : Grown k k')
    (hvia : k.via.serial < r.nextSerial) (h : by_.Fits r k) (hlater : Later r r') :
    by_.Fits r' k' := by
  cases by_ with
  | owner name => exact (h : name = _).trans (congrArg (fun p => p.provider.owner) hgrown.via.symm)
  | registry =>
    show k'.via ∉ r'.providers
    rw [hgrown.via]
    exact hlater.gone hvia h

/-- An event stays true. -/
theorem CommandEvent.Ok.later {e : CommandEvent ρ} (hr : RegistryOk r) (h : e.Ok r)
    (hlater : Later r r') : e.Ok r' := by
  cases e with
  | answered d status call =>
    obtain ⟨hd, hunder, hrefused⟩ := h
    refine ⟨hd.trans_le hlater.nextCompleter, hlater.settled hd hunder, fun hstatus c k' hk' heq => ?_⟩
    rcases hlater.fresh hk' with ⟨k, hk, hgrown⟩ | hnew
    · exact hrefused hstatus c k hk (hgrown.completer ▸ heq)
    · exact hnew (heq ▸ hunder)
  | entered c owner =>
    obtain ⟨k, hk, howner⟩ := h
    obtain ⟨k', hk', hgrown⟩ := hlater.calls hk
    exact ⟨k', hk', hgrown.via ▸ howner⟩
  | completed c by_ result =>
    obtain ⟨k, hk, hfinished, hby⟩ := h
    obtain ⟨k', hk', hgrown⟩ := hlater.calls hk
    exact ⟨k', hk', hgrown.finished hfinished, hby.later hgrown (hr.vias hk) hlater⟩
  | started c d caller result =>
    obtain ⟨k, hk, hcompleter, hcaller, hfinished, by_, hby⟩ := h
    obtain ⟨k', hk', hgrown⟩ := hlater.calls hk
    exact ⟨k', hk', hgrown.completer.trans hcompleter, hgrown.caller.trans hcaller,
      hgrown.finished hfinished, by_, hlater.history hby⟩
  | delivered c => exact ⟨h.1.trans_le hlater.nextCallId, hlater.left h.1 h.2⟩
  | cancelled c caller =>
    obtain ⟨k, hk, hcaller, hcancelled⟩ := h
    obtain ⟨k', hk', hgrown⟩ := hlater.calls hk
    exact ⟨k', hk', hgrown.caller.trans hcaller, hgrown.cancelled hcancelled⟩
  | cancelReturned c own status =>
    exact fun hok => ⟨(h hok).1.trans_le hlater.nextCallId, hlater.left (h hok).1 (h hok).2⟩
  | removed module => exact trivial
  | reopened module => exact trivial

theorem lookup_eq_none {id : String} (h : r.lookup id = none) :
    id ∉ r.providers.map fun p => p.provider.id := by
  intro hin
  obtain ⟨p, hp, hid⟩ := List.mem_map.1 hin
  exact absurd (decide_eq_true hid) (List.find?_eq_none.1 h p hp)

/-- A provider that a lookup of its id does not give is not registered. -/
theorem not_mem_of_lookup (hids : (r.providers.map fun p => p.provider.id).Nodup)
    {p : RegisteredCommand} (h : r.lookup p.provider.id ≠ some p) : p ∉ r.providers := by
  intro hp
  refine h ?_
  cases hfind : r.lookup p.provider.id with
  | none => exact absurd (List.mem_map_of_mem hp) (lookup_eq_none hfind)
  | some q =>
    have hq : q ∈ r.providers := List.mem_of_find?_eq_some hfind
    have hid : q.provider.id = p.provider.id := by simpa using List.find?_some hfind
    rw [List.inj_on_of_nodup_map hids hq hp hid]

theorem lookup_mem {id : String} {p : RegisteredCommand} (h : r.lookup id = some p) :
    p ∈ r.providers :=
  List.mem_of_find?_eq_some h

end Tables

/-! ## Each change keeps the tables -/

section Changes

variable {r : CommandRegistry τ ρ}

/-- An event that is true, and is not the start of a `done`. -/
theorem RegistryOk.log (hr : RegistryOk r) {e : CommandEvent ρ} (he : e.Ok (r.log e))
    (hstarts : ∀ d, startsOf (e :: r.history) d = startsOf r.history d) : RegistryOk (r.log e) where
  serials := hr.serials
  ids := hr.ids
  vias := hr.vias
  bound := hr.bound
  known := hr.known
  posted := hr.posted
  completers := hr.completers
  distinct := hr.distinct
  underWay := hr.underWay
  events := List.forall_mem_cons.2 ⟨he, fun old hold => (hr.events old hold).later hr (.log e)⟩
  once := fun d => (hstarts d).symm ▸ hr.once d
  unstarted := fun hk hfinished => (hstarts _).symm ▸ hr.unstarted hk hfinished

/-- A record changes. -/
theorem RegistryOk.modify (hr : RegistryOk r) {call : Nat} {change : PendingCall τ → PendingCall τ}
    (hchange : ∀ k, r.calls call = some k → Grown k (change k)) :
    RegistryOk (r.modify call change) := by
  have hlater : Later r (r.modify call change) := .modify hchange
  have hold : ∀ {c k'}, (r.modify call change).calls c = some k' →
      ∃ k, r.calls c = some k ∧ Grown k k' := by
    intro c k' hk'
    obtain ⟨k, hk, rfl⟩ := modify_some.1 hk'
    refine ⟨k, hk, ?_⟩
    split
    · next hc => exact hchange k (hc ▸ hk)
    · exact .refl k
  refine ⟨hr.serials, hr.ids, fun hk' => ?_, fun hk' => ?_, fun hc => ?_, fun hc => ?_, fun hk' => ?_,
    fun hk hk' heq => ?_, hr.underWay, fun e he => (hr.events e he).later hr hlater, hr.once,
    fun hk' hfinished => ?_⟩
  · obtain ⟨k, hk, hgrown⟩ := hold hk'
    exact hgrown.via ▸ hr.vias hk
  · obtain ⟨k, hk, -⟩ := hold hk'
    exact hr.bound hk
  · obtain ⟨k, hk⟩ := hr.known hc
    obtain ⟨k', hk', -⟩ := hlater.calls hk
    exact ⟨k', hk'⟩
  · obtain ⟨k, hk⟩ := hr.posted hc
    obtain ⟨k', hk', -⟩ := hlater.calls hk
    exact ⟨k', hk'⟩
  · obtain ⟨k, hk, hgrown⟩ := hold hk'
    obtain ⟨hnumber, hunder, hdone⟩ := hr.completers hk
    rw [hgrown.completer]
    refine ⟨hnumber, hunder, fun d hd => ?_⟩
    rcases hgrown.done with heq | hnone
    · exact hdone d (heq ▸ hd)
    · rw [hnone] at hd
      cases hd
  · obtain ⟨k₁, hk₁, hgrown₁⟩ := hold hk
    obtain ⟨k₂, hk₂, hgrown₂⟩ := hold hk'
    exact hr.distinct hk₁ hk₂ (hgrown₁.completer ▸ hgrown₂.completer ▸ heq)
  · obtain ⟨k, hk, hgrown⟩ := hold hk'
    rw [hgrown.completer]
    refine hr.unstarted hk (Bool.eq_false_iff.2 fun htrue => ?_)
    rw [hgrown.finished htrue] at hfinished
    cases hfinished

theorem RegistryOk.erase (hr : RegistryOk r) (call : Nat) : RegistryOk (r.erase call) where
  serials := hr.serials
  ids := hr.ids
  vias := hr.vias
  bound := hr.bound
  known := fun hc => hr.known (List.mem_of_mem_filter hc)
  posted := hr.posted
  completers := hr.completers
  distinct := hr.distinct
  underWay := hr.underWay
  events := fun e he => (hr.events e he).later hr (.erase call)
  once := hr.once
  unstarted := hr.unstarted

/-- A `done` is entered that was not entered before. -/
theorem RegistryOk.logStart (hr : RegistryOk r) {call completer : Nat} {caller : String}
    {result : RawResult ρ}
    (he : (CommandEvent.started call completer caller result).Ok
      (r.log (.started call completer caller result)))
    (hzero : startsOf r.history completer = 0) :
    RegistryOk (r.log (.started call completer caller result)) := by
  have hcount : ∀ d, startsOf (r.log (.started call completer caller result)).history d
      = startsOf r.history d + if completer = d then 1 else 0 := by
    intro d
    show startsOf (.started call completer caller result :: r.history) d = _
    rw [startsOf, List.countP_cons]
    simp [startsOf]
  refine ⟨hr.serials, hr.ids, hr.vias, hr.bound, hr.known, hr.posted, hr.completers, hr.distinct,
    hr.underWay, List.forall_mem_cons.2 ⟨he, fun old hold => (hr.events old hold).later hr (.log _)⟩,
    fun d => ?_, fun {c k} hk hfinished => ?_⟩
  · rw [hcount]
    split
    · next hd => rw [← hd, hzero]
    · exact hr.once d
  · have hne : completer ≠ k.completer := by
      intro heq
      obtain ⟨k', hk', hcompleter, -, hfinished', -⟩ := he
      obtain rfl := hr.distinct hk hk' (heq.symm.trans hcompleter.symm)
      rw [Option.some.inj (hk.symm.trans hk'), hfinished'] at hfinished
      cases hfinished
    rw [hcount, if_neg hne]
    exact hr.unstarted hk hfinished

/-- Fewer providers, and other closed modules. -/
theorem RegistryOk.narrow (hr : RegistryOk r) {keep : RegisteredCommand → Bool}
    {closed : List String} : RegistryOk { r with providers := r.providers.filter keep, closed } where
  serials := fun p hp => hr.serials p (List.mem_of_mem_filter hp)
  ids := (List.filter_sublist.map _).nodup hr.ids
  vias := hr.vias
  bound := hr.bound
  known := hr.known
  posted := hr.posted
  completers := hr.completers
  distinct := hr.distinct
  underWay := hr.underWay
  events := fun e he => (hr.events e he).later hr
    (.of_same rfl rfl rfl rfl rfl (fun _ h => List.mem_of_mem_filter h) (fun _ h => h) fun _ h => h)
  once := hr.once
  unstarted := hr.unstarted

theorem RegistryOk.unregister (hr : RegistryOk r) (id owner : String) :
    RegistryOk (r.unregister id owner).2 := by
  unfold CommandRegistry.unregister
  split
  · exact hr
  split
  · exact hr
  · exact hr.narrow

theorem RegistryOk.withdraw (hr : RegistryOk r) (module : String) :
    RegistryOk (r.withdraw module) :=
  hr.narrow

theorem RegistryOk.register (hr : RegistryOk r) (p : CommandProvider)
    (allowlist : Option (List String)) : RegistryOk (r.register p allowlist).2 := by
  have hlater : Later r (r.register p allowlist).2 := .register p allowlist
  unfold CommandRegistry.register at hlater ⊢
  split_ifs at hlater ⊢ with _ _ _ _ _ hfree
  all_goals try exact hr
  refine ⟨fun q hq => ?_, ?_, fun hk => (hr.vias hk).trans (Nat.lt_succ_self _), hr.bound, hr.known,
    hr.posted, hr.completers, hr.distinct, hr.underWay,
    fun e he => (hr.events e he).later hr hlater, hr.once, hr.unstarted⟩
  · rcases List.mem_cons.1 hq with rfl | hq
    · exact Nat.lt_succ_self _
    · exact (hr.serials q hq).trans (Nat.lt_succ_self _)
  · rw [List.map_cons, List.nodup_cons]
    exact ⟨lookup_eq_none (Option.not_isSome_iff_eq_none.1 hfree), hr.ids⟩

theorem RegistryOk.reopen (hr : RegistryOk r) (module : String) :
    RegistryOk { r with closed := r.closed.filter fun other => other ≠ module
                        history := .reopened module :: r.history } :=
  let closed := r.closed.filter fun other => other ≠ module
  have hopen : RegistryOk { r with closed } := ⟨hr.serials, hr.ids, hr.vias, hr.bound, hr.known,
    hr.posted, hr.completers, hr.distinct, hr.underWay, fun e he => (hr.events e he).later hr
      (.of_same rfl rfl rfl rfl rfl (fun _ h => h) (fun _ h => h) fun _ h => h), hr.once,
    hr.unstarted⟩
  hopen.log (e := .reopened module) trivial fun _ => rfl

/-- The completer of an `Invoke` that is refused belongs to no call. -/
theorem RegistryOk.refuse (hr : RegistryOk r) {completer : Nat} {status : CommandStatus}
    (hunder : r.underWay completer ≠ none) : RegistryOk (r.refuse completer status) := by
  have hlater : Later r (r.refuse completer status) := .refuse completer status
  have hapart : ∀ {c k}, r.calls c = some k → k.completer ≠ completer := by
    rintro c k hk rfl
    exact hunder (hr.completers hk).2.1
  refine ⟨hr.serials, hr.ids, hr.vias, hr.bound, hr.known, hr.posted, fun hk => ?_, hr.distinct,
    fun {d} hd => hr.underWay (d := d) fun hnone => hd ?_, ?_, hr.once, hr.unstarted⟩
  · obtain ⟨hnumber, hnone, hdone⟩ := hr.completers hk
    exact ⟨hnumber, hlater.settled hnumber hnone, hdone⟩
  · rw [refuse_underWay, hnone, ite_self]
  · refine List.forall_mem_cons.2 ⟨⟨hr.underWay hunder, ?_, fun _ c k hk => hapart hk⟩,
      fun e he => (hr.events e he).later hr hlater⟩
    rw [refuse_underWay, if_pos rfl]

/-- A call enters the table, with the completer of its `Invoke`. -/
theorem RegistryOk.enter (hr : RegistryOk r) {q : CommandRequest} {completer : Nat}
    {p : RegisteredCommand} (hunder : r.underWay completer ≠ none) (hp : p.serial < r.nextSerial) :
    RegistryOk (r.enter q completer p) := by
  have hlater : Later r (r.enter q completer p) := .enter (fun c k h => hr.bound h) hunder
  have hapart : ∀ {c k}, r.calls c = some k → k.completer ≠ completer := by
    rintro c k hk rfl
    exact hunder (hr.completers hk).2.1
  have hcases : ∀ {c k'}, (r.enter q completer p).calls c = some k' →
      (c = r.nextCallId ∧
        k' = ⟨q.caller.module, p, completer, false, false, some completer, none⟩) ∨
      r.calls c = some k' := by
    intro c k' hk'
    rw [enter_calls] at hk'
    split at hk'
    · next hc => exact .inl ⟨hc, (Option.some.inj hk').symm⟩
    · exact .inr hk'
  have hgone : startsOf r.history completer = 0 := by
    refine List.countP_eq_zero.2 fun e he => ?_
    split
    · next c d caller result =>
      obtain ⟨k, hk, hd, -⟩ := hr.events _ he
      exact fun heq => hapart hk (hd.trans (of_decide_eq_true heq))
    · exact Bool.false_ne_true
  refine ⟨hr.serials, hr.ids, fun hk' => ?_, fun hk' => ?_, fun hc => ?_, fun hc => ?_, fun hk' => ?_,
    fun hk hk' heq => ?_, fun {d} hd => hr.underWay (d := d) fun hnone => hd ?_,
    fun e he => (hr.events e he).later hr hlater, hr.once, fun hk' hfinished => ?_⟩
  · rcases hcases hk' with ⟨-, rfl⟩ | hk
    · exact hp
    · exact hr.vias hk
  · rcases hcases hk' with ⟨rfl, -⟩ | hk
    · exact Nat.lt_succ_self _
    · exact (hr.bound hk).trans (Nat.lt_succ_self _)
  · rcases List.mem_cons.1 hc with rfl | hc
    · exact ⟨_, enter_calls.trans (if_pos rfl)⟩
    · obtain ⟨k, hk⟩ := hr.known hc
      obtain ⟨k', hk', -⟩ := hlater.calls hk
      exact ⟨k', hk'⟩
  · obtain ⟨k, hk⟩ := hr.posted hc
    obtain ⟨k', hk', -⟩ := hlater.calls hk
    exact ⟨k', hk'⟩
  · rcases hcases hk' with ⟨-, rfl⟩ | hk
    · exact ⟨hr.underWay hunder, enter_underWay.trans (if_pos rfl),
        fun d hd => (Option.some.inj hd).symm⟩
    · obtain ⟨hnumber, hnone, hdone⟩ := hr.completers hk
      exact ⟨hnumber, hlater.settled hnumber hnone, hdone⟩
  · rcases hcases hk with ⟨rfl, rfl⟩ | hk
    · rcases hcases hk' with ⟨rfl, -⟩ | hk'
      · rfl
      · exact absurd heq.symm (hapart hk')
    · rcases hcases hk' with ⟨rfl, rfl⟩ | hk'
      · exact absurd heq (hapart hk)
      · exact hr.distinct hk hk' heq
  · rw [enter_underWay, hnone, ite_self]
  · rcases hcases hk' with ⟨-, rfl⟩ | hk
    · exact hgone
    · exact hr.unstarted hk hfinished

/-- Something more is posted, or less. -/
theorem RegistryOk.repost (hr : RegistryOk r) {posted : List Nat}
    (h : ∀ c ∈ posted, ∃ k, r.calls c = some k) : RegistryOk { r with posted } :=
  ⟨hr.serials, hr.ids, hr.vias, hr.bound, hr.known, fun hc => h _ hc, hr.completers, hr.distinct,
    hr.underWay, fun e he => (hr.events e he).later hr
      (.of_same rfl rfl rfl rfl rfl (fun _ h => h) (fun _ h => h) fun _ h => h), hr.once,
    hr.unstarted⟩

end Changes

/-! ## What holds of a frame -/

/-- What a frame knows of the tables. -/
def CommandFrame.Known (r : CommandRegistry τ ρ) : CommandFrame ρ → Prop
  | invokeCheck _ _ p | invokeAsking _ _ p | invokeEnter _ _ p => p.serial < r.nextSerial
  | invokeReturn d c => ∃ k, r.calls c = some k ∧ k.completer = d
  | runCheck c | runLookup c | runEnter c | running c => ∃ k, r.calls c = some k
  | finishFind c provider by_ _ =>
    match by_ with
    | .owner name => name = provider
    | .registry => ∃ k, r.calls c = some k ∧ k.via.provider.owner = provider ∧ k.via ∉ r.providers
  | deliverLock c by_ _ | deliverErase c by_ _ => ∃ k, r.calls c = some k ∧ by_.Fits r k
  | deliverDecide c by_ _ => c ∉ r.pending ∧ ∃ k, r.calls c = some k ∧ by_.Fits r k
  | deliverStart c done result => c ∉ r.pending ∧ ∃ k, r.calls c = some k ∧ k.finished = true ∧
      (∀ d, done = some d → d = k.completer) ∧ ∃ by_, .completed c by_ result ∈ r.history
  | calling c | deliverEnd c => c ∉ r.pending ∧ ∃ k, r.calls c = some k
  | cancelMark c caller => ∃ k, r.calls c = some k ∧ k.caller = caller
  | cancelLock c | cancelClear c | cancelErase c =>
    ∃ k, r.calls c = some k ∧ k.cancelled = true
  | _ => True

/-- What holds of a frame of thread `t` with `depth` frames below it. -/
structure FrameOk (r : CommandRegistry τ ρ) (t : τ) (depth : Nat) (f : CommandFrame ρ) : Prop where
  mine : ∀ d, f.completer? = some d → r.underWay d = some (t, depth)
  known : f.Known r

section Frames

variable {r r' : CommandRegistry τ ρ} {f : CommandFrame ρ}

theorem CommandFrame.Known.later (hr : RegistryOk r) (h : f.Known r) (hlater : Later r r') :
    f.Known r' := by
  have hcall : ∀ {c}, (∃ k, r.calls c = some k) → ∃ k, r'.calls c = some k := by
    rintro c ⟨k, hk⟩
    obtain ⟨k', hk', -⟩ := hlater.calls hk
    exact ⟨k', hk'⟩
  have hout : ∀ {c}, c ∉ r.pending → (∃ k, r.calls c = some k) → c ∉ r'.pending := by
    rintro c hc ⟨k, hk⟩
    exact hlater.left (hr.bound hk) hc
  have hfits : ∀ {c} {by_ : CompletedBy}, (∃ k, r.calls c = some k ∧ by_.Fits r k) →
      ∃ k, r'.calls c = some k ∧ by_.Fits r' k := by
    rintro c by_ ⟨k, hk, hby⟩
    obtain ⟨k', hk', hgrown⟩ := hlater.calls hk
    exact ⟨k', hk', hby.later hgrown (hr.vias hk) hlater⟩
  have hmarked : ∀ {c}, (∃ k, r.calls c = some k ∧ k.cancelled = true) →
      ∃ k, r'.calls c = some k ∧ k.cancelled = true := by
    rintro c ⟨k, hk, hcancelled⟩
    obtain ⟨k', hk', hgrown⟩ := hlater.calls hk
    exact ⟨k', hk', hgrown.cancelled hcancelled⟩
  cases f with
  | invokeCheck q d p => exact lt_of_lt_of_le h hlater.nextSerial
  | invokeAsking q d p => exact lt_of_lt_of_le h hlater.nextSerial
  | invokeEnter q d p => exact lt_of_lt_of_le h hlater.nextSerial
  | invokeReturn d c =>
    obtain ⟨k, hk, hd⟩ := h
    obtain ⟨k', hk', hgrown⟩ := hlater.calls hk
    exact ⟨k', hk', hgrown.completer.trans hd⟩
  | runCheck c => exact hcall h
  | runLookup c => exact hcall h
  | runEnter c => exact hcall h
  | running c => exact hcall h
  | finishFind c provider by_ result =>
    cases by_ with
    | owner name => exact h
    | registry =>
      obtain ⟨k, hk, howner, hgone⟩ := h
      obtain ⟨k', hk', hgrown⟩ := hlater.calls hk
      refine ⟨k', hk', hgrown.via ▸ howner, ?_⟩
      rw [hgrown.via]
      exact hlater.gone (hr.vias hk) hgone
  | deliverLock c by_ result => exact hfits h
  | deliverErase c by_ result => exact hfits h
  | deliverDecide c by_ result =>
    obtain ⟨hc, k, hk, hby⟩ := h
    exact ⟨hout hc ⟨k, hk⟩, hfits ⟨k, hk, hby⟩⟩
  | deliverStart c done result =>
    obtain ⟨hc, k, hk, hfinished, hdone, by_, hby⟩ := h
    obtain ⟨k', hk', hgrown⟩ := hlater.calls hk
    exact ⟨hout hc ⟨k, hk⟩, k', hk', hgrown.finished hfinished,
      fun d hd => (hdone d hd).trans hgrown.completer.symm, by_, hlater.history hby⟩
  | calling c => exact ⟨hout h.1 h.2, hcall h.2⟩
  | deliverEnd c => exact ⟨hout h.1 h.2, hcall h.2⟩
  | cancelMark c caller =>
    obtain ⟨k, hk, hcaller⟩ := h
    obtain ⟨k', hk', hgrown⟩ := hlater.calls hk
    exact ⟨k', hk', hgrown.caller.trans hcaller⟩
  | cancelLock c => exact hmarked h
  | cancelClear c => exact hmarked h
  | cancelErase c => exact hmarked h
  | _ => exact trivial

end Frames

end GpgFrontend
