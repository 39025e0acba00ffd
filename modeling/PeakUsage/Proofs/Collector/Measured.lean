import PeakUsage.Proofs.Collector.Repeated
import PeakUsage.Proofs.Inventory.Siblings
import PeakUsage.Proofs.Peaks.Measured

/-! Where the samples of a scrape come from. A figure is measured for the time at which the row was
listed that it was fetched with, and is then reported for whichever row has its key while it is
kept. -/
namespace PeakUsage.Collector
open Program

variable {π : Type} {p : Provider π}

/-! ### The figures of a session -/

/-- The lookups of an operation that the latch lets through. -/
def letThrough (p : Provider π) (l : Leg π Collector Operation) : List (Leg π Collector Lookup) :=
  (l.item.lookups p l.start).filter fun k => !k.start.state.latch.isSet

/-- The lookups of a session that are let through. -/
def sessionLookups (p : Provider π) (settings : CollectorSettings) (environment : String)
    (now : Nat) (turns : List (Turn π Operation)) : List (Leg π Collector Lookup) :=
  (play p Operation.program now (new settings environment) turns).flatMap (letThrough p)

theorem letThrough_gets (p : Provider π) (l : Leg π Collector Operation) :
    letThrough p l = (gets p l).flatMap (letThrough p) := by
  obtain ⟨op, w⟩ := l
  cases op with
  | resources => rfl
  | lookup q => exact (List.append_nil _).symm
  | scrape =>
    have hgets : gets p ⟨.scrape, w⟩ = ⟨.resources, w⟩ ::
        (scrapeLegs p w).map fun m => ⟨.lookup m.item, m.start⟩ := rfl
    have hlisting : letThrough p ⟨.resources, w⟩ = [] := rfl
    rw [hgets, List.flatMap_cons, hlisting, List.nil_append, List.flatMap_map]
    have hsame : scrapeLegs p w = (scrapeLegs p w).flatMap fun m => [m] :=
      (List.flatMap_singleton' _).symm
    change (scrapeLegs p w).filter _ = _
    conv_lhs => rw [hsame, List.filter_flatMap]
    rfl

/-- What a question does to the figures is done by the lookups that are let through. -/
theorem chain_question {m : Leg π Collector Operation} (hget : m.item.IsGet) :
    Chain p Peaks.Lookup.program m.start.clock.now m.start.state.peaks
      ((letThrough p m).flatMap (figureLegs p)) (legOutcome p Operation.program m).clock.now
      (legOutcome p Operation.program m).state.peaks := by
  obtain ⟨op, w⟩ := m
  have hnow := now_le_runFrom p w op.program
  rw [legOutcome]
  dsimp only
  cases op with
  | scrape => exact False.elim hget
  | resources =>
    have hpeaks : (Operation.resources.program.runFrom p w).state.peaks = w.state.peaks := by
      rw [Operation.program, runFrom_bind_pure]
      exact resources_peaks p w
    rw [hpeaks]
    exact .nil hnow
  | lookup q =>
    have hmoment : ((Operation.lookup q).program.runFrom p w).moment =
        (q.program.runFrom p w).moment := moment_bind_pure _ _
    change Chain p Peaks.Lookup.program _ _ _
      ((Operation.lookup q).program.runFrom p w).moment.clock.now
      ((Operation.lookup q).program.runFrom p w).moment.state.peaks
    rw [hmoment]
    rcases moment_lookup p w q with ⟨hset, h⟩ | ⟨hunset, latch, h⟩ <;> rw [h]
    · have hnone : letThrough p ⟨.lookup q, w⟩ = [] := by
        simp [letThrough, Operation.lookups, hset]
      rw [hnone]
      exact .nil (Nat.le_refl _)
    · have hone : letThrough p ⟨.lookup q, w⟩ = [⟨q, w⟩] := by
        simp [letThrough, Operation.lookups, hunset]
      rw [hone, List.flatMap_singleton]
      exact Peaks.chain_lookupLegs p ⟨q.call, w.map (·.peaks)⟩

theorem chain_letThrough (p : Provider π) (l : Leg π Collector Operation) :
    Chain p Peaks.Lookup.program l.start.clock.now l.start.state.peaks
      ((letThrough p l).flatMap (figureLegs p)) (legOutcome p Operation.program l).clock.now
      (legOutcome p Operation.program l).state.peaks := by
  have hquestions := (chain_gets p l).project (k := fun s : Collector => s.peaks)
    (fun m hm => chain_question (isGet_of_mem_gets hm))
  rw [letThrough_gets, List.flatMap_assoc]
  exact hquestions

section
variable {settings : CollectorSettings} {environment : String} {now : Nat}
  {turns : List (Turn π Operation)}

/-- The lookups of figures in a session take over from one another. -/
theorem chain_sessionFigures (p : Provider π) (settings : CollectorSettings)
    (environment : String) (now : Nat) (turns : List (Turn π Operation)) :
    ∃ later s, Chain p Peaks.Lookup.program now
      (Peaks.new settings.scrapeInterval settings.lookback)
      ((sessionLookups p settings environment now turns).flatMap (figureLegs p)) later s := by
  have hsession := (chain_play p Operation.program now (new settings environment) turns).project
    (k := fun s : Collector => s.peaks) (fun l _ => chain_letThrough p l)
  rw [sessionLookups, List.flatMap_assoc]
  exact ⟨_, _, hsession⟩

theorem Lookup.call_resource (q : Lookup) : q.call.resource = q.resource := by
  unfold Lookup.call
  split <;> rfl

/-- The queries of a lookup end when its row was listed. -/
theorem stop_of_mem_figureLegs {k : Leg π Collector Lookup} {m : Leg π Peaks Peaks.Lookup}
    (hm : m ∈ figureLegs p k) (lookback : Nat) :
    ∀ q ∈ m.item.plan lookback, q.stop = k.item.resource.collectedAt := by
  have hitem : m.item ∈ k.item.call.lookups := item_mem_of_mem_relay p _ hm
  rw [← k.item.call_resource]
  exact Peaks.Call.stop_of_mem_lookups hitem lookback

/-- A figure that a lookup finds was measured by it or by an earlier one of the session, for the row
of that lookup, and is kept since. -/
theorem exists_measured {earlier later : List (Leg π Collector Lookup)}
    {k : Leg π Collector Lookup}
    (hsplit : sessionLookups p settings environment now turns = earlier ++ k :: later)
    {m : Leg π Peaks Peaks.Lookup} (hm : m ∈ figureLegs p k) {v : Float}
    (hv : (legOutcome p Peaks.Lookup.program m).result = .ok (.ok v)) :
    ∃ k' ∈ earlier ++ [k], ∃ m' ∈ figureLegs p k', m'.item.key = m.item.key ∧
      Peaks.Measured p k'.item.resource.collectedAt m' v ∧
      m.start.clock.now ≤
        (legOutcome p Peaks.Lookup.program m').clock.now + settings.scrapeInterval := by
  obtain ⟨before, after, hlegs⟩ := List.append_of_mem hm
  obtain ⟨ending, s, hchain⟩ := chain_sessionFigures p settings environment now turns
  have hfigures : (sessionLookups p settings environment now turns).flatMap (figureLegs p) =
      (earlier.flatMap (figureLegs p) ++ before) ++ m ::
        (after ++ later.flatMap (figureLegs p)) := by
    rw [hsplit, List.flatMap_append, List.flatMap_cons, hlegs]
    simp only [List.append_assoc, List.cons_append]
  rw [hfigures] at hchain
  obtain ⟨-, hfetched⟩ := Peaks.exists_fetched_of_chain hchain
  cases hget : m.start.state.cache.get? m.start.clock.now m.item.key with
  | some u =>
    have hkept := Peaks.runFrom_lookup_of_some p hget m.item.plan
    have hresult : (legOutcome p Peaks.Lookup.program m).result = .ok (.ok u) :=
      congrArg Outcome.result hkept
    obtain rfl := Except.ok.inj (Except.ok.inj (hresult.symm.trans hv))
    obtain ⟨m', hm', hkey, hfetch, hlasts⟩ := hfetched _ _ hget
    have hsource : ∃ k' ∈ earlier ++ [k], m' ∈ figureLegs p k' := by
      rcases List.mem_append.mp hm' with h | h
      · obtain ⟨k', hk', h⟩ := List.mem_flatMap.mp h
        exact ⟨k', List.mem_append_left _ hk', h⟩
      · refine ⟨k, List.mem_append_right _ List.mem_cons_self, ?_⟩
        rw [hlegs]
        exact List.mem_append_left _ h
    obtain ⟨k', hk', hmem⟩ := hsource
    exact ⟨k', hk', m', hmem, hkey, hfetch.measured (stop_of_mem_figureLegs hmem), hlasts⟩
  | none =>
    have hasked := Peaks.not_silent_lookup_of_none p hget (m.item.plan_ne_nil _)
    have hfetch : Peaks.Fetched p m v := ⟨hv, hasked⟩
    have hnow := now_le_runFrom p m.start m.item.program
    refine ⟨k, List.mem_append_right _ List.mem_cons_self, m, hm, rfl,
      hfetch.measured (stop_of_mem_figureLegs hm), ?_⟩
    exact Nat.le_trans hnow (Nat.le_add_right _ _)

end

/-! ### The row of a figure -/

/-- The figure is that of a streaming cluster, made up of those of its brokers. -/
def Lookup.FansOut (q : Lookup) : Prop := q.call.FansOut

theorem Lookup.call_key (q : Lookup) : q.call.key = ⟨q.figure, q.key⟩ := by
  obtain ⟨figure, key, r⟩ := q
  cases figure <;> rfl

theorem Lookup.FansOut.level_eq {q : Lookup} (h : q.FansOut) : q.resource.level = .cluster := by
  obtain ⟨figure, key, r⟩ := q
  cases figure with
  | memory => exact h.elim
  | cpu => exact h.2

theorem Lookup.FansOut.usageKey_eq {q : Lookup} (h : q.FansOut) :
    q.resource.usageKey = q.resource.identifier := by
  simp only [Resource.usageKey, h.level_eq]

/-- A figure of the one is kept under the same key as one of the other. -/
def Lookup.SharesKey (q q' : Lookup) : Prop :=
  ∃ m ∈ q.call.lookups, ∃ m' ∈ q'.call.lookups, m'.key = m.key

theorem Lookup.SharesKey.symm {q q' : Lookup} (h : q.SharesKey q') : q'.SharesKey q := by
  obtain ⟨m, hm, m', hm', hkey⟩ := h
  exact ⟨m', hm', m, hm, hkey.symm⟩

/-- Two lookups that share a figure and are both made under the keys of their rows are made with the
same row, if both rows are listed. -/
theorem resource_eq_of_listed {rs : List Resource}
    (hlt : rs.Pairwise fun a b => a.usageKey < b.usageKey) {q q' : Lookup}
    (hq : q.key = q.resource.usageKey) (hq' : q'.key = q'.resource.usageKey)
    (hfans : q'.FansOut ↔ q.FansOut) (hr : q.resource ∈ rs) (hr' : q'.resource ∈ rs)
    (hshares : q.SharesKey q') : q'.resource = q.resource := by
  obtain ⟨m, hm, m', hm', hkey⟩ := hshares
  have husage : q'.resource.usageKey = q.resource.usageKey := by
    by_cases hfan : q.FansOut
    · obtain ⟨id, -, hid⟩ := Peaks.Call.key_of_fansOut hfan hm
      obtain ⟨id', -, hid'⟩ := Peaks.Call.key_of_fansOut (hfans.mpr hfan) hm'
      rw [hid, hid', Lookup.call_resource, Lookup.call_resource] at hkey
      rw [hfan.usageKey_eq, (hfans.mpr hfan).usageKey_eq]
      exact cluster_eq_of_brokerKey (FigureKey.mk.inj hkey).2
    · rw [Peaks.Call.key_of_not_fansOut hfan hm, Lookup.call_key,
        Peaks.Call.key_of_not_fansOut (fun h => hfan (hfans.mp h)) hm', Lookup.call_key] at hkey
      rw [← hq, ← hq']
      exact (FigureKey.mk.inj hkey).2
  rcases eq_or_of_pairwise hlt hr' hr with h | h | h
  · exact h
  · rw [husage] at h
    exact absurd h (String.lt_irrefl _)
  · rw [husage] at h
    exact absurd h (String.lt_irrefl _)

/-- A lookup with a cluster shares a figure with one for a broker only if the broker is among those
of the cluster. -/
theorem brokerOf_of_sharesKey {q q' : Lookup} (hfans : q.FansOut)
    (hlevel : q'.resource.level = .broker) (hq' : q'.key = q'.resource.usageKey)
    (hshares : q.SharesKey q') : Inventory.BrokerOf q'.resource q.resource := by
  obtain ⟨m, hm, m', hm', hkey⟩ := hshares
  have hsingle : ¬ q'.FansOut := fun h => absurd (hlevel.symm.trans h.level_eq) nofun
  obtain ⟨id, hid, hbroker⟩ := Peaks.Call.key_of_fansOut hfans hm
  rw [Lookup.call_resource] at hid hbroker
  rw [hbroker, Peaks.Call.key_of_not_fansOut hsingle hm', Lookup.call_key] at hkey
  exact ⟨hlevel, hfans.level_eq, id, hid, hq'.symm.trans (FigureKey.mk.inj hkey).2⟩

/-! ### The samples of a scrape -/

/-- The value of a lookup, made up of the figures that it found: the greatest of them for a
streaming cluster, the only one otherwise. -/
def Yields (p : Provider π) (k : Leg π Collector Lookup) (v : Float) : Prop :=
  let found := Peaks.figures p ⟨k.item.call, k.start.map (·.peaks)⟩
  (k.item.FansOut → v = Number.greatest 0.0 found) ∧ (¬ k.item.FansOut → found = [v])

theorem unset_of_found {k : Leg π Collector Lookup} {v : Float} (h : found? p k = some v) :
    k.start.state.latch.isSet = false := by
  cases hset : k.start.state.latch.isSet with
  | false => rfl
  | true =>
    rw [found?, legOutcome, Lookup.program_eq, runFrom_guarded_of_set hset] at h
    exact absurd h.symm (Option.some_ne_none v)

/-- A lookup that is let through has the result of its call. -/
theorem result_of_unset {k : Leg π Collector Lookup} (hunset : k.start.state.latch.isSet = false) :
    (legOutcome p Lookup.program k).result =
      (legOutcome p Peaks.Call.program ⟨k.item.call, k.start.map (·.peaks)⟩).result := by
  rw [legOutcome, Lookup.program_eq, result_guarded_of_unset hunset]
  exact runFrom_inPeaks.2

/-- A value that was found for anything but a cluster is whole. -/
theorem ok_of_found {k : Leg π Collector Lookup} (hfans : ¬ k.item.FansOut) {v : Float}
    (h : found? p k = some v) : (legOutcome p Lookup.program k).result = .ok (.ok v) := by
  have hresult := result_of_unset (p := p) (unset_of_found h)
  cases hx : (legOutcome p Lookup.program k).result with
  | error f =>
    rw [found?, hx] at h
    exact absurd h.symm (Option.some_ne_none v)
  | ok x =>
    rw [found?, hx] at h
    cases x with
    | ok u =>
      obtain rfl := Option.some.inj h
      rfl
    | error e =>
      have hnone := Peaks.partialPeak_of_not_fansOut (c := ⟨k.item.call, k.start.map (·.peaks)⟩)
        hfans (hresult.symm.trans hx)
      exact absurd (h.symm.trans hnone) (Option.some_ne_none v)

/-- What is found for a cluster is the greatest of what is found for its brokers. -/
theorem found?_of_fansOut {k : Leg π Collector Lookup} (hfans : k.item.FansOut)
    (hunset : k.start.state.latch.isSet = false) (hhalted : halted p k = false) :
    found? p k = some (Number.greatest 0.0
      (Peaks.figures p ⟨k.item.call, k.start.map (·.peaks)⟩)) := by
  have hresult := result_of_unset (p := p) hunset
  cases hx : (legOutcome p Lookup.program k).result with
  | error f => simp [halted, hx] at hhalted
  | ok x =>
    rw [found?, hx]
    rcases Peaks.peak_of_fansOut (c := ⟨k.item.call, k.start.map (·.peaks)⟩) hfans
      (hresult.symm.trans hx) with rfl | ⟨e, rfl, he⟩
    · rfl
    · exact he

theorem halted_of_found {k : Leg π Collector Lookup} {v : Float} (h : found? p k = some v) :
    halted p k = false := by
  cases hhalted : halted p k with
  | false => rfl
  | true => exact absurd (h.symm.trans (found?_of_halted hhalted)) (Option.some_ne_none v)

theorem yields_of_found {k : Leg π Collector Lookup} {v : Float} (h : found? p k = some v) :
    Yields p k v := by
  have hunset := unset_of_found h
  constructor
  · intro hfans
    exact Option.some.inj (h.symm.trans (found?_of_fansOut hfans hunset (halted_of_found h)))
  · intro hfans
    exact Peaks.figures_of_not_fansOut (c := ⟨k.item.call, k.start.map (·.peaks)⟩) hfans
      ((result_of_unset hunset).symm.trans (ok_of_found hfans h))

/-! ### The latch in a scrape -/

theorem unset_of_ok {k : Leg π Collector Lookup} {v : Float}
    (h : (legOutcome p Lookup.program k).result = .ok (.ok v)) :
    (legOutcome p Lookup.program k).state.latch.isSet = false := by
  rw [legOutcome, Lookup.program_eq] at h ⊢
  obtain ⟨hunset, -, hsame⟩ := of_guarded_ok h
  rw [hsame, inPeaks, runFrom_within isPart_peaks]
  exact hunset

/-- An engine that has a memory figure has no clusters made up of brokers. -/
theorem not_fansOut_of_reportsMemory {r : Resource} (h : r.engine.reportsMemory = true)
    (w : Moment π Collector) : ¬ (cpuLeg r w).item.FansOut := by
  rintro ⟨hengine, -⟩
  have hkafka : r.engine = .kafka := hengine
  rw [hkafka] at h
  exact absurd h (by decide)

variable {w : Moment π Collector}

/-- A CPU lookup that sets the latch is not followed by one for the memory figure: only a partial
figure comes with a failure, and only clusters of brokers have those. -/
theorem unset_of_mem_visitLegs {r : Resource} (hw : w.state.latch.isSet = false)
    {l : Leg π Collector Lookup} (hl : l ∈ visitLegs p r w) :
    l.start.state.latch.isSet = false := by
  unfold visitLegs at hl
  rcases List.mem_cons.mp hl with rfl | hl
  · exact hw
  · split at hl
    · next hmore =>
      obtain rfl := List.mem_singleton.mp hl
      obtain ⟨hfound, hmemory⟩ := Bool.and_eq_true_iff.mp hmore
      obtain ⟨v, hv⟩ := Option.isSome_iff_exists.mp hfound
      exact unset_of_ok (ok_of_found (not_fansOut_of_reportsMemory hmemory w) hv)
    · exact absurd hl List.not_mem_nil

/-- All lookups of a scrape are let through. -/
theorem unset_of_mem_scrapeLegs {l : Leg π Collector Lookup} (hl : l ∈ scrapeLegs p w) :
    l.start.state.latch.isSet = false := by
  obtain ⟨rs, hrs⟩ := exists_scrapeLegs_eq_walk p w
  rw [hrs] at hl
  obtain ⟨r, -, v, hv, hvisit⟩ := exists_visit_of_mem_walk hl
  exact unset_of_mem_visitLegs hv hvisit

/-! ### Sessions -/

section
variable {settings : CollectorSettings} {environment : String} {now : Nat}
  {turns : List (Turn π Operation)} {l : Leg π Collector Operation}

theorem scrape_of_report {rep : Report}
    (h : (legOutcome p Operation.program l).result = .ok (.report rep)) :
    l.item = .scrape ∧ (scrape.runFrom p l.start).result = .ok rep := by
  obtain ⟨op, w⟩ := l
  rw [legOutcome] at h
  cases op with
  | resources =>
    rw [Operation.program, runFrom_bind] at h
    obtain ⟨a, -, ha⟩ := Outcome.exists_of_andThen_ok h
    exact Answer.noConfusion (Except.ok.inj ha)
  | lookup q =>
    rw [Operation.program, runFrom_bind] at h
    obtain ⟨a, -, ha⟩ := Outcome.exists_of_andThen_ok h
    exact Answer.noConfusion (Except.ok.inj ha)
  | scrape =>
    rw [Operation.program, runFrom_bind] at h
    obtain ⟨a, hscrape, ha⟩ := Outcome.exists_of_andThen_ok h
    obtain rfl := Answer.report.inj (Except.ok.inj ha)
    exact ⟨rfl, hscrape⟩

/-- Every sample is made up of figures that were measured for the time a row was listed at: the row
that the figure was fetched with, by the lookup of the sample or by an earlier one of the session
for the same figure, which ended no longer ago than figures are kept. That row is the sample's own
unless it has been replaced since. The figures of brokers are shared between the rows of the brokers
and of their cluster, which were listed at the same time. -/
theorem samples_measured
    (hl : l ∈ play p Operation.program now (new settings environment) turns) {rep : Report}
    (hrep : (legOutcome p Operation.program l).result = .ok (.report rep)) {x : Sample}
    (hx : x ∈ rep.samples) :
    ∃ rs earlier k later, (resources.runFrom p l.start).result = .ok (.ok rs) ∧
      sessionLookups p settings environment now turns = earlier ++ k :: later ∧
      k ∈ scrapeLegs p l.start ∧ k.item = ⟨x.figure, x.identifier, x.resource⟩ ∧
      Yields p k x.value ∧
      ∀ m ∈ figureLegs p k, ∀ v, (legOutcome p Peaks.Lookup.program m).result = .ok (.ok v) →
        ∃ k' ∈ earlier ++ [k], ∃ m' ∈ figureLegs p k', m'.item.key = m.item.key ∧
          Peaks.Measured p k'.item.resource.collectedAt m' v ∧
          m.start.clock.now ≤
            (legOutcome p Peaks.Lookup.program m').clock.now + settings.scrapeInterval ∧
          (k'.item.key = k'.item.resource.usageKey → k'.item.resource ∈ rs →
            ((k'.item.FansOut ↔ k.item.FansOut) → k'.item.resource = x.resource) ∧
            (k'.item.FansOut ∧ x.resource.level = .broker ∨
                k.item.FansOut ∧ k'.item.resource.level = .broker →
              k'.item.resource.collectedAt = x.resource.collectedAt)) := by
  obtain ⟨hitem, hscrape⟩ := scrape_of_report hrep
  have hkeyed : l.start.state.inventory.Keyed :=
    inventory_of_play (fun _ => (Inventory.resources_keeps Inventory.stable_keyed).runFrom p)
      (Inventory.keyed_new _ _) l hl
  have haligned : l.start.state.inventory.Aligned :=
    inventory_of_play (fun _ => Inventory.Aligned.resources) (Inventory.aligned_new _ _) l hl
  obtain ⟨rs, hlist, k, hk, hleg, hfound⟩ := (reported_scrape hscrape).1.exists_leg hx
  have hwalk := hk
  rw [scrapeLegs_of_listed hlist] at hwalk
  obtain ⟨hkey, hrow⟩ := key_of_mem_walk hwalk
  have hlt := Inventory.pairwise_of_runFrom_resources hkeyed (of_resources_ok hlist)
  have hthrough : k ∈ letThrough p l := by
    rw [letThrough, hitem, List.mem_filter, unset_of_found hfound]
    exact ⟨hk, rfl⟩
  obtain ⟨earlier, later, hsplit⟩ : ∃ earlier later,
      sessionLookups p settings environment now turns = earlier ++ k :: later :=
    List.append_of_mem (List.mem_flatMap.mpr ⟨l, hl, hthrough⟩)
  refine ⟨rs, earlier, k, later, hlist, hsplit, hk, hleg, yields_of_found hfound, ?_⟩
  intro m hm u hu
  obtain ⟨k', hk', m', hm', hsame, hmeasured, hlasts⟩ := exists_measured hsplit hm hu
  refine ⟨k', hk', m', hm', hsame, hmeasured, hlasts, fun hown hlisted => ?_⟩
  have hshares : k.item.SharesKey k'.item :=
    ⟨m.item, item_mem_of_mem_relay p _ hm, m'.item, item_mem_of_mem_relay p _ hm', hsame⟩
  have hresource : k.item.resource = x.resource := congrArg Lookup.resource hleg
  rw [← hresource]
  refine ⟨fun hfans => ?_, ?_⟩
  · exact resource_eq_of_listed hlt hkey hown hfans hrow hlisted hshares
  · rintro (⟨hfans, hlevel⟩ | ⟨hfans, hlevel⟩)
    · have hbroker := brokerOf_of_sharesKey hfans hlevel hkey hshares.symm
      exact (Inventory.collectedAt_eq_of_listed hkeyed haligned (of_resources_ok hlist) hrow
        hlisted hbroker).symm
    · have hbroker := brokerOf_of_sharesKey hfans hlevel hown hshares
      exact Inventory.collectedAt_eq_of_listed hkeyed haligned (of_resources_ok hlist) hlisted hrow
        hbroker

end

/-! ### A row that is replaced while its figure is kept -/

/-- Lists an instance and has a figure for it. -/
def instanceProvider : Provider Unit := .steady 0 fun
  | .list .documentInstance => .ok [⟨"dev-orders", "db.r6g.large", "docdb", ∅⟩]
  | .list _ => .ok []
  | .statistics _ => .ok [⟨⟨0, 0⟩, some 4.0⟩]

/-- The instance is listed, scraped, and scraped again when its row is no longer kept. -/
def listedThenScraped : List (Turn Unit Operation) :=
  [⟨.resources, 0, ⟨0, 0⟩, ()⟩, ⟨.scrape, 5, ⟨0, 5⟩, ()⟩, ⟨.scrape, 7, ⟨0, 12⟩, ()⟩]

/-- What is kept is kept for ten units of time. -/
def instanceSession : List (Leg Unit Collector Operation) :=
  play instanceProvider Operation.program 0 (new ⟨10, 60, ∅, "dev"⟩ "dev") listedThenScraped

def instanceLookups : List (Leg Unit Collector Lookup) :=
  sessionLookups instanceProvider ⟨10, 60, ∅, "dev"⟩ "dev" 0 listedThenScraped

/-- The samples in what an operation answers. -/
def samplesOf : Except ClockFault Answer → List Sample
  | .ok (.report rep) => rep.samples
  | _ => []

theorem exists_report_of_mem_samplesOf {x : Sample} {result : Except ClockFault Answer}
    (hx : x ∈ samplesOf result) : ∃ rep, result = .ok (.report rep) ∧ x ∈ rep.samples := by
  unfold samplesOf at hx
  split at hx
  · exact ⟨_, rfl, hx⟩
  · exact absurd hx List.not_mem_nil

theorem exists_sample_relisted :
    ∃ l ∈ instanceSession, ∃ rep,
      (legOutcome instanceProvider Operation.program l).result = .ok (.report rep) ∧
        ∃ x ∈ rep.samples, x.resource.collectedAt = ⟨0, 12⟩ := by
  have hany : (instanceSession.any fun l =>
      (samplesOf (legOutcome instanceProvider Operation.program l).result).any fun x =>
        x.resource.collectedAt = ⟨0, 12⟩) = true := by decide +kernel
  obtain ⟨l, hl, hsamples⟩ := List.any_eq_true.mp hany
  obtain ⟨x, hx, hcollected⟩ := List.any_eq_true.mp hsamples
  obtain ⟨rep, hrep, hmem⟩ := exists_report_of_mem_samplesOf hx
  exact ⟨l, hl, rep, hrep, x, hmem, of_decide_eq_true hcollected⟩

/-- When a call that asks for statistics ends its query. -/
def stop? : Happening → Option Timestamp
  | .asked (.statistics q) => some q.stop
  | _ => none

/-- Only the row that was listed first is asked about. -/
theorem eq_of_measured_instanceLookups {k : Leg Unit Collector Lookup} (hk : k ∈ instanceLookups)
    {m : Leg Unit Peaks Peaks.Lookup} (hm : m ∈ figureLegs instanceProvider k) {time : Timestamp}
    {v : Float} (h : Peaks.Measured instanceProvider time m v) : time = ⟨0, 0⟩ := by
  have hall : (instanceLookups.all fun k => (figureLegs instanceProvider k).all fun m =>
      (legOutcome instanceProvider Peaks.Lookup.program m).trace.all fun g =>
        (stop? g).all (· = ⟨0, 0⟩)) = true := by decide +kernel
  obtain ⟨-, series, hne, hstop, htrace, -⟩ := h
  have htraceAll := List.all_eq_true.mp (List.all_eq_true.mp hall k hk) m hm
  rw [htrace] at htraceAll
  obtain ⟨a, rest, rfl⟩ := List.exists_cons_of_ne_nil hne
  have hfirst := List.all_eq_true.mp htraceAll (.asked (.statistics a.1)) List.mem_cons_self
  have hstart : a.1.stop = ⟨0, 0⟩ := of_decide_eq_true hfirst
  exact (hstop a List.mem_cons_self).symm.trans hstart

theorem exists_figure_instanceSession {l : Leg Unit Collector Operation}
    (hl : l ∈ instanceSession) {k : Leg Unit Collector Lookup}
    (hk : k ∈ scrapeLegs instanceProvider l.start) :
    ∃ m ∈ figureLegs instanceProvider k, ∃ v,
      (legOutcome instanceProvider Peaks.Lookup.program m).result = .ok (.ok v) := by
  have hall : (instanceSession.all fun l => (scrapeLegs instanceProvider l.start).all fun k =>
      (figureLegs instanceProvider k).any fun m =>
        (Peaks.figure? (legOutcome instanceProvider Peaks.Lookup.program m).result).isSome) =
      true := by decide +kernel
  have hany := List.all_eq_true.mp (List.all_eq_true.mp hall l hl) k hk
  obtain ⟨m, hm, hsome⟩ := List.any_eq_true.mp hany
  obtain ⟨v, hv⟩ := Option.isSome_iff_exists.mp hsome
  exact ⟨m, hm, v, Peaks.figure?_eq_some.mp hv⟩

/-- The figure of the second scrape was measured for the row that the first listing had found. -/
theorem samples_measured_relisted :
    ∃ l ∈ instanceSession, ∃ rep,
      (legOutcome instanceProvider Operation.program l).result = .ok (.report rep) ∧
        ∃ x ∈ rep.samples, x.resource.collectedAt = ⟨0, 12⟩ ∧
          ∃ k ∈ scrapeLegs instanceProvider l.start, Yields instanceProvider k x.value ∧
            ∃ m ∈ figureLegs instanceProvider k, ∃ v,
              (legOutcome instanceProvider Peaks.Lookup.program m).result = .ok (.ok v) ∧
                ∃ k' ∈ instanceLookups, ∃ m' ∈ figureLegs instanceProvider k',
                  m'.item.key = m.item.key ∧ k'.item.resource.collectedAt = ⟨0, 0⟩ ∧
                    Peaks.Measured instanceProvider ⟨0, 0⟩ m' v := by
  obtain ⟨l, hl, rep, hrep, x, hx, hcollected⟩ := exists_sample_relisted
  obtain ⟨rs, earlier, k, later, -, hsplit, hk, -, hyields, hsource⟩ :=
    samples_measured hl hrep hx
  obtain ⟨m, hm, v, hv⟩ := exists_figure_instanceSession hl hk
  obtain ⟨k', hk', m', hm', hkey, hmeasured, -⟩ := hsource m hm v hv
  have hlookup : k' ∈ instanceLookups := by
    rw [instanceLookups, hsplit, List.append_cons]
    exact List.mem_append_left _ hk'
  have hfirst := eq_of_measured_instanceLookups hlookup hm' hmeasured
  rw [hfirst] at hmeasured
  exact ⟨l, hl, rep, hrep, x, hx, hcollected, k, hk, hyields, m, hm, v, hv, k', hlookup, m', hm',
    hkey, hfirst, hmeasured⟩

/-- So a sample can show a time at which nothing was measured. -/
theorem exists_sample_of_older_row :
    ¬ ∀ (settings : CollectorSettings) (environment : String) (p : Provider Unit) (now : Nat)
      (turns : List (Turn Unit Operation)),
      ∀ l ∈ play p Operation.program now (new settings environment) turns, ∀ rep,
        (legOutcome p Operation.program l).result = .ok (.report rep) → ∀ x ∈ rep.samples,
          ∃ k ∈ scrapeLegs p l.start, Yields p k x.value ∧ ∀ m ∈ figureLegs p k, ∀ v,
            (legOutcome p Peaks.Lookup.program m).result = .ok (.ok v) →
              ∃ k' ∈ sessionLookups p settings environment now turns, ∃ m' ∈ figureLegs p k',
                m'.item.key = m.item.key ∧ Peaks.Measured p x.resource.collectedAt m' v := by
  intro h
  obtain ⟨l, hl, rep, hrep, x, hx, hcollected⟩ := exists_sample_relisted
  obtain ⟨k, hk, -, hsource⟩ := h ⟨10, 60, ∅, "dev"⟩ "dev" _ 0 _ l hl rep hrep x hx
  obtain ⟨m, hm, v, hv⟩ := exists_figure_instanceSession hl hk
  obtain ⟨k', hk', m', hm', -, hmeasured⟩ := hsource m hm v hv
  have hfirst := eq_of_measured_instanceLookups hk' hm' hmeasured
  rw [hcollected] at hfirst
  exact absurd hfirst (by decide)

end PeakUsage.Collector
