import PeakUsage.Exporter.Service
import PeakUsage.Proofs.Collector.Refusals
import PeakUsage.Proofs.Exporter.Outputs
import PeakUsage.Proofs.Health

/-! Readiness and health over whole runs: not ready before the first scrape has completed, and from
then on ready and healthy as long as the latch is not set. -/
namespace PeakUsage.Exporter
open Program

variable {π : Type}

/-! ### What readers find -/

/-- A scrape that goes through to the end. -/
def Completed (p : Provider π) (l : Leg π Exporter Unit) : Prop :=
  ∃ rep, (legOutcome p cycles l).result = .ok rep

/-- What a reader can find of the registry while a call is under way: while its scrape waits or
when that halts, and between any two of the writes behind it. -/
inductive Underway (p : Provider π) (l : Leg π Exporter Unit) : Health → Prop
  | scraping (limit : Nat) (h : ∀ rep,
      (cycle.runUntil p limit l.start.memory l.start.clock l.start.state).progress ≠ .finished rep) :
      Underway p l
        (cycle.runUntil p limit l.start.memory l.start.clock l.start.state).state.outlets.health
  | judging (rep : Report) (hrep : (legOutcome p cycles l).result = .ok rep)
      (written : List (String × ComponentHealth))
      (hwritten : written <+: rep.verdicts (legOutcome p cycles l).clock.wall.second) :
      Underway p l (l.start.state.outlets.health.updates written)

/-- What it can find during some of the calls or when one of them has ended. -/
def Visible (p : Provider π) (legs : List (Leg π Exporter Unit)) (h : Health) : Prop :=
  ∃ l ∈ legs, Underway p l h ∨ h = (legOutcome p cycles l).state.outlets.health

section
variable {p : Provider π} {l : Leg π Exporter Unit}

/-- As long as a scrape has not completed nothing is written. -/
theorem outlets_of_unfinished {limit : Nat} {m : π} {c : Clock} {x : Exporter}
    (h : ∀ rep, (cycle.runUntil p limit m c x).progress ≠ .finished rep) :
    (cycle.runUntil p limit m c x).state.outlets = x.outlets := by
  let writing (rep : Report) : Program Exporter Report := do
    let c ← clock
    modify fun s => { s with outlets := s.outlets.write s.environment c.wall rep }
    pure rep
  have hwriting : ∀ rep m c s,
      ∃ b, ((writing rep).runUntil p limit m c s).progress = .finished b :=
    fun rep _ _ _ => ⟨rep, rfl⟩
  have hscrape : (inCollector Collector.scrape).Keeps fun s => s.outlets = x.outlets := by
    refine keeps_within ?_ _
    exact fun _ _ hs => hs
  have hcycle : cycle = inCollector Collector.scrape >>= writing := rfl
  rw [hcycle] at h ⊢
  rw [state_runUntil_bind hwriting h]
  exact hscrape.runUntil p limit m c rfl

/-- What is found while a call is under way is the registry it has started with and some of what its
report says. -/
theorem Underway.exists_written {h : Health} (hu : Underway p l h) :
    ∃ written, h = l.start.state.outlets.health.updates written ∧ (written = [] ∨
      ∃ rep, (legOutcome p cycles l).result = .ok rep ∧
        written <+: rep.verdicts (legOutcome p cycles l).clock.wall.second) := by
  cases hu with
  | scraping limit h =>
    exact ⟨[], congrArg Outlets.health (outlets_of_unfinished h), .inl rfl⟩
  | judging rep hrep written hwritten => exact ⟨written, rfl, .inr ⟨rep, hrep, hwritten⟩⟩

theorem Underway.ready_eq {h : Health} (hu : Underway p l h) :
    h.ready = l.start.state.outlets.health.ready := by
  obtain ⟨written, rfl, -⟩ := hu.exists_written
  exact Health.ready_updates _ written

/-! ### One call -/

theorem report_of_completed {rep : Report} (h : (legOutcome p cycles l).result = .ok rep) :
    (Collector.scrape.runFrom p (l.start.map (·.collector))).result = .ok rep ∧
      (legOutcome p cycles l).state.outlets.health =
        Outlets.judge l.start.state.outlets.health
          (legOutcome p cycles l).clock.wall.second rep ∧
      (legOutcome p cycles l).state.collector.latch.isSet = rep.fetchDisabled := by
  have hscrape : (Collector.scrape.runFrom p (l.start.map (·.collector))).result = .ok rep :=
    (result_cycle p l.start).symm.trans h
  have hlatch := (Collector.reported_scrape hscrape).2
  rw [legOutcome, cycles, runFrom_cycle_of_ok hscrape]
  exact ⟨hscrape, rfl, hlatch.symm⟩

theorem report_of_set (h : l.start.state.collector.latch.isSet = true) :
    (Collector.scrape.runFrom p (l.start.map (·.collector))).result =
      .ok ⟨0, [], 0, none, true, 0⟩ := by
  have hset : (l.start.map fun x : Exporter => x.collector).state.latch.isSet = true := h
  rw [Collector.runFrom_scrape_of_set hset]

/-- A call that halts writes nothing, and leaves the latch unset. -/
theorem of_not_completed (h : ¬ Completed p l) :
    (legOutcome p cycles l).state.outlets = l.start.state.outlets ∧
      l.start.state.collector.latch.isSet = false ∧
      (legOutcome p cycles l).state.collector.latch.isSet = false := by
  have hresult : (legOutcome p cycles l).result = _ := result_cycle p l.start
  cases hscrape : (Collector.scrape.runFrom p (l.start.map (·.collector))).result with
  | ok rep => exact absurd ⟨rep, hresult.trans hscrape⟩ h
  | error f =>
    have hunset := Collector.unset_of_halted_scrape hscrape
    have hstart : l.start.state.collector.latch.isSet = false := by
      cases hset : l.start.state.collector.latch.isSet with
      | false => rfl
      | true =>
        rw [report_of_set hset] at hscrape
        exact absurd hscrape.symm (error_ne_ok f _)
    rw [legOutcome, cycles, runFrom_cycle_of_error hscrape]
    exact ⟨rfl, hstart, hunset⟩

/-! ### What failed -/

/-- The errors of a report besides that of its listing are the lookups that failed. -/
theorem lookupErrors_eq {w : Moment π Collector} {rep : Report}
    (h : Collector.Reported p w rep) :
    rep.lookupErrors = (Collector.scrapeLegs p w).countP (Collector.failed p) := by
  cases h with
  | listed rs hlist hfit hinstances hsamples herrors hfailure =>
    rw [Report.lookupErrors, herrors, hfailure]
    rfl
  | unlisted e hlist hinstances hsamples herrors hfailure =>
    rw [Report.lookupErrors, herrors, hfailure, Collector.scrapeLegs_of_unlisted hlist]
    cases e.isDisabled <;> rfl

/-- What a completed call has found amiss. -/
theorem degraded_iff {rep : Report} (hrep : (legOutcome p cycles l).result = .ok rep) :
    let w := l.start.map (·.collector)
    let h := (legOutcome p cycles l).state.outlets.health
    (h.Shows Health.inventory .degraded ↔
      ∃ e, (Collector.resources.runFrom p w).result = .ok (.error e) ∧ e.isDisabled = false) ∧
    (h.Shows Health.metricSource .degraded ↔
      ∃ k ∈ Collector.scrapeLegs p w, Collector.failed p k = true) := by
  intro w h
  obtain ⟨hscrape, hjudge, -⟩ := report_of_completed hrep
  have hreported := (Collector.reported_scrape hscrape).1
  constructor
  · rw [← hreported.isSome_listingFailure, ← Outlets.shows_judge_inventory, ← hjudge]
  · rw [← List.countP_pos_iff, ← lookupErrors_eq hreported, ← Outlets.shows_judge_metricSource,
      ← hjudge]

/-- A scrape that has no list looks nothing up. -/
theorem not_both_degraded {rep : Report} (hrep : (legOutcome p cycles l).result = .ok rep) :
    let h := (legOutcome p cycles l).state.outlets.health
    ¬ (h.Shows Health.inventory .degraded ∧ h.Shows Health.metricSource .degraded) := by
  rintro h ⟨hinventory, hmetrics⟩
  obtain ⟨hlisting, hlookups⟩ := degraded_iff hrep
  obtain ⟨e, he, -⟩ := hlisting.mp hinventory
  obtain ⟨k, hk, -⟩ := hlookups.mp hmetrics
  rw [Collector.scrapeLegs_of_unlisted he] at hk
  exact absurd hk List.not_mem_nil

/-! ### Behind a completed call -/

/-- No components are registered but those of the exporter. -/
def Named (h : Health) : Prop := ∀ name ∈ h.components, name ∈ Health.names

theorem named_cycle (hstart : Named l.start.state.outlets.health) :
    Named (legOutcome p cycles l).state.outlets.health := by
  by_cases hcompleted : Completed p l
  · obtain ⟨rep, hrep⟩ := hcompleted
    obtain ⟨-, hjudge, -⟩ := report_of_completed hrep
    rw [hjudge]
    intro name hname
    exact (Outlets.mem_judge.mp hname).elim (hstart name) id
  · rw [(of_not_completed hcompleted).1]
    exact hstart

/-- The registry is ready and tells whether the latch is set. -/
structure Tells (x : Exporter) : Prop where
  ready : x.outlets.health.ready = true
  names : ∀ name, name ∈ x.outlets.health.components ↔ name ∈ Health.names
  operational : x.outlets.health.overall.isOperational = !x.collector.latch.isSet
  tripped : x.collector.latch.isSet = true →
    x.outlets.health.Shows Health.fetchLatch .unhealthy

theorem tells_of_completed (hstart : Named l.start.state.outlets.health) (h : Completed p l) :
    Tells (legOutcome p cycles l).state := by
  obtain ⟨rep, hrep⟩ := h
  obtain ⟨-, hjudge, hlatch⟩ := report_of_completed hrep
  constructor
  · rw [hjudge]
    exact congrArg Health.ready Outlets.judge_eq
  · intro name
    rw [hjudge, Outlets.mem_judge]
    exact or_iff_right_of_imp (hstart name)
  · rw [hjudge, hlatch]
    exact Outlets.isOperational_judge hstart
  · intro hset
    rw [hjudge]
    exact Outlets.shows_judge_fetchLatch.mpr (hlatch.symm.trans hset)

theorem Tells.cycle (h : Tells l.start.state) : Tells (legOutcome p cycles l).state := by
  by_cases hcompleted : Completed p l
  · exact tells_of_completed (fun name hname => (h.names name).mp hname) hcompleted
  · obtain ⟨houtlets, hstart, hend⟩ := of_not_completed hcompleted
    have hoperational := h.operational
    rw [hstart] at hoperational
    constructor
    · rw [houtlets]
      exact h.ready
    · rw [houtlets]
      exact h.names
    · rw [houtlets, hend]
      exact hoperational
    · intro hset
      exact absurd (hend.symm.trans hset) nofun

theorem Tells.status_readyz {x : Exporter} (h : Tells x) :
    (Http.respond x.outlets "GET" "/readyz").status =
      if x.collector.latch.isSet then 503 else 200 := by
  rw [Health.status_readyz, h.ready, h.operational]
  cases x.collector.latch.isSet <;> rfl

theorem Tells.status_healthz {x : Exporter} (h : Tells x) :
    (Http.respond x.outlets "GET" "/healthz").status =
      if x.collector.latch.isSet then 503 else 200 := by
  rw [Health.status_healthz, h.operational]
  cases x.collector.latch.isSet <;> rfl

/-! ### Behind the latch -/

/-- The latch is set, and the registry says so. -/
structure Tripped (x : Exporter) : Prop where
  isSet : x.collector.latch.isSet = true
  shows : x.outlets.health.Shows Health.fetchLatch .unhealthy

/-- Behind the latch every report says that it is set. -/
theorem Tripped.fetchDisabled (h : Tripped l.start.state) {rep : Report}
    (hrep : (legOutcome p cycles l).result = .ok rep) : rep.fetchDisabled = true := by
  obtain ⟨hscrape, -, -⟩ := report_of_completed hrep
  rw [report_of_set h.isSet] at hscrape
  obtain rfl := Except.ok.inj hscrape
  rfl

theorem Tripped.cycle (h : Tripped l.start.state) : Tripped (legOutcome p cycles l).state := by
  by_cases hcompleted : Completed p l
  · obtain ⟨rep, hrep⟩ := hcompleted
    obtain ⟨-, hjudge, hlatch⟩ := report_of_completed hrep
    refine ⟨hlatch.trans (h.fetchDisabled hrep), ?_⟩
    rw [hjudge]
    exact Outlets.shows_judge_fetchLatch.mpr (h.fetchDisabled hrep)
  · have hunset := (of_not_completed hcompleted).2.1
    exact absurd (hunset.symm.trans h.isSet) nofun

/-- Writing down a report that says so leaves the latch unhealthy all the time. -/
theorem Tripped.underway (h : Tripped l.start.state) {seen : Health} (hu : Underway p l seen) :
    seen.Shows Health.fetchLatch .unhealthy := by
  obtain ⟨written, rfl, rfl | ⟨rep, hrep, more, hmore⟩⟩ := hu.exists_written
  · exact h.shows
  · cases written with
    | nil => exact h.shows
    | cons verdict written =>
      have hnodup : ((verdict :: written).map (·.1)).Nodup := by
        have hall := Outlets.nodup_verdicts (legOutcome p cycles l).clock.wall.second rep
        rw [← hmore, List.map_append] at hall
        exact (List.nodup_append.mp hall).1
      -- the latch is written first
      obtain ⟨rfl, -⟩ := List.cons.inj hmore
      refine ⟨_, Health.getElem?_updates_of_mem hnodup List.mem_cons_self, ?_⟩
      rw [h.fetchDisabled hrep]
      rfl

theorem Tripped.visible {x y : Exporter} (hx : Tripped x) {now later : Nat}
    {legs : List (Leg π Exporter Unit)} (hchain : Chain p cycles now x legs later y) {seen : Health}
    (hseen : Visible p legs seen) : seen.Shows Health.fetchLatch .unhealthy := by
  obtain ⟨m, hm, hvisible⟩ := hseen
  have hstart : Tripped m.start.state :=
    hchain.forall_start_keeps (I := fun _ => Tripped) (fun _ _ _ _ hs => hs)
      (fun _ w hw => hw.cycle (l := ⟨(), w⟩)) hx m hm
  rcases hvisible with hu | rfl
  · exact hstart.underway hu
  · exact hstart.cycle.shows

/-! ### Whole runs -/

/-- When the exporter starts it registers its components, and is not ready. -/
theorem health_opening {w : Moment π Exporter} (hempty : w.state.outlets.health = .empty) :
    let x := (Service.opening.runFrom p w).state
    Named x.outlets.health ∧ x.outlets.health.ready = false := by
  intro x
  have hhealth : x.outlets.health =
      [Health.inventory, Health.metricSource, Health.fetchLatch].foldl
        (fun h name => h.setHealthy w.clock.wall.second name) .empty := by
    rw [← hempty]
    rfl
  have hupdates : x.outlets.health = Health.empty.updates
      (Health.names.map fun name => (name, ⟨.healthy, none, w.clock.wall.second⟩)) := hhealth
  rw [hupdates]
  constructor
  · intro name hname
    rcases (Health.mem_updates _ _).mp hname with hold | hnew
    · exact absurd hold Std.ExtTreeMap.not_mem_empty
    · simpa using hnew
  · exact Health.ready_updates _ _

section
variable {now : Nat} {x : Exporter} {turns : List (Turn π Unit)}

theorem unready_ending (hx : x.outlets.health.ready = false)
    (hnone : ∀ l ∈ play p cycles now x turns, ¬ Completed p l) :
    (ending p cycles now x turns).2.outlets.health.ready = false := by
  refine (chain_play p cycles now x turns).keeps
    (I := fun _ (s : Exporter) => s.outlets.health.ready = false) (fun _ _ _ _ hs => hs)
    (fun l hl hs => ?_) hx
  rw [(of_not_completed (hnone l hl)).1]
  exact hs

theorem tells_ending (hx : Named x.outlets.health)
    (hsome : ∃ l ∈ play p cycles now x turns, Completed p l) :
    Tells (ending p cycles now x turns).2 := by
  obtain ⟨l, hl, hcompleted⟩ := hsome
  have hchain := chain_play p cycles now x turns
  obtain ⟨before, after, hsplit⟩ := List.append_of_mem hl
  rw [hsplit] at hchain
  have hstart : Named l.start.state.outlets.health :=
    hchain.start_keeps (I := fun _ (s : Exporter) => Named s.outlets.health)
      (fun _ _ _ _ hs => hs) (fun _ _ hm => named_cycle hm) hx
  exact hchain.end_keeps (I := fun _ => Tells) (fun _ _ _ _ hs => hs) (fun _ _ hm => hm.cycle)
    (tells_of_completed hstart hcompleted)

end

/-- Before the first call has completed the exporter is not ready, whatever a reader finds. From then
on there are three components, and the exporter is ready and healthy exactly while the latch is not
set; once it is neither it stays so, also while later calls are under way. A completed call leaves
the inventory degraded if its listing failed and the metric source if one of its lookups did. -/
theorem readiness_follows_latch (p : Provider π) {w : Moment π Exporter}
    (hempty : w.state.outlets.health = .empty) (now : Nat) (turns : List (Turn π Unit)) :
    let x := (Service.opening.runFrom p w).state
    let legs := play p cycles now x turns
    let y := (ending p cycles now x turns).2
    let readyz := (Http.respond y.outlets "GET" "/readyz").status
    let healthz := (Http.respond y.outlets "GET" "/healthz").status
    ((∀ l ∈ legs, ¬ Completed p l) →
      readyz = 503 ∧ ∀ l : Leg π Exporter Unit, l.start.state = y → ∀ flag, Underway p l flag →
        ∀ later : Health, (flag.seen later).Answers "/readyz" 503) ∧
    ((∃ l ∈ legs, Completed p l) →
      (∀ name, name ∈ y.outlets.health.components ↔ name ∈ Health.names) ∧
      (readyz = 200 ↔ y.collector.latch.isSet = false) ∧
      (healthz = 200 ↔ y.collector.latch.isSet = false) ∧
      (y.collector.latch.isSet = true → readyz = 503 ∧ healthz = 503) ∧
      (readyz = 503 → healthz = 503 → ∀ (began : Nat) (more : List (Turn π Unit)) (later : Health),
        Visible p (play p cycles began y more) later → later.Answers "/healthz" 503 ∧
          ∀ flag : Health, (flag.seen later).Answers "/readyz" 503)) ∧
    ∀ l ∈ legs, ∀ rep, (legOutcome p cycles l).result = .ok rep →
      let v := l.start.map (·.collector)
      let h := (legOutcome p cycles l).state.outlets.health
      (h.Shows Health.inventory .degraded ↔
        ∃ e, (Collector.resources.runFrom p v).result = .ok (.error e) ∧ e.isDisabled = false) ∧
      (h.Shows Health.metricSource .degraded ↔
        ∃ k ∈ Collector.scrapeLegs p v, Collector.failed p k = true) ∧
      ¬ (h.Shows Health.inventory .degraded ∧ h.Shows Health.metricSource .degraded) := by
  intro x legs y readyz healthz
  obtain ⟨hnamed, hunready⟩ := health_opening (p := p) hempty
  refine ⟨fun hnone => ?_, fun hsome => ?_, fun l _ rep hrep => ?_⟩
  · have hready : y.outlets.health.ready = false := unready_ending hunready hnone
    constructor
    · exact Health.answers_of_unready hready y.outlets.health y.outlets rfl
    · intro l hl flag hu later
      apply Health.answers_of_unready
      rw [hu.ready_eq, hl]
      exact hready
  · have htells : Tells y := tells_ending hnamed hsome
    have hreadyz : readyz = if y.collector.latch.isSet then 503 else 200 := htells.status_readyz
    have hhealthz : healthz = if y.collector.latch.isSet then 503 else 200 := htells.status_healthz
    rw [hreadyz, hhealthz]
    refine ⟨htells.names, ?_⟩
    cases hset : y.collector.latch.isSet with
    | false => simp
    | true =>
      have htripped : Tripped y := ⟨hset, htells.tripped hset⟩
      rw [if_pos rfl]
      refine ⟨by decide, by decide, fun _ => ⟨rfl, rfl⟩, fun _ _ began more later hlater => ?_⟩
      exact Health.answers_of_unhealthy (htripped.visible (chain_play p cycles began y more) hlater)
  · obtain ⟨hinventory, hmetrics⟩ := degraded_iff hrep
    exact ⟨hinventory, hmetrics, not_both_degraded hrep⟩

end

/-! ### An exporter whose first call sets the latch -/

/-- The exporter with its components registered. -/
def openedExporter : Exporter :=
  (Service.opening.runFrom Collector.mixedProvider ⟨(), ⟨0, ⟨0, 0⟩⟩, unusedExporter⟩).state

def afterTwoCycles : Exporter := (ending Collector.mixedProvider cycles 0 openedExporter twoCycles).2

theorem completed_twoCycles :
    ∃ l ∈ play Collector.mixedProvider cycles 0 openedExporter twoCycles,
      Completed Collector.mixedProvider l := by
  have hany : ((play Collector.mixedProvider cycles 0 openedExporter twoCycles).any fun l =>
      (legOutcome Collector.mixedProvider cycles l).result.toOption.isSome) = true := by
    decide +kernel
  obtain ⟨l, hl, hsome⟩ := List.any_eq_true.mp hany
  cases hresult : (legOutcome Collector.mixedProvider cycles l).result with
  | ok rep => exact ⟨l, hl, rep, hresult⟩
  | error f =>
    rw [hresult] at hsome
    exact absurd hsome nofun

theorem isSet_twoCycles : afterTwoCycles.collector.latch.isSet = true := by decide +kernel

/-- It is neither ready nor healthy again, whatever a reader finds during later calls. -/
theorem readiness_follows_latch_set :
    unusedExporter.outlets.health = .empty ∧
      (Http.respond afterTwoCycles.outlets "GET" "/readyz").status = 503 ∧
      (Http.respond afterTwoCycles.outlets "GET" "/healthz").status = 503 ∧
      ∀ (began : Nat) (more : List (Turn Unit Unit)) (later : Health),
        Visible Collector.mixedProvider
            (play Collector.mixedProvider cycles began afterTwoCycles more) later →
          later.Answers "/healthz" 503 ∧
            ∀ flag : Health, (flag.seen later).Answers "/readyz" 503 := by
  have hempty : unusedExporter.outlets.health = .empty := rfl
  have hcompleted := completed_twoCycles
  have hset := isSet_twoCycles
  rw [afterTwoCycles] at hset ⊢
  rw [openedExporter] at hcompleted hset ⊢
  obtain ⟨-, hbehind, -⟩ := readiness_follows_latch Collector.mixedProvider
    (w := ⟨(), ⟨0, ⟨0, 0⟩⟩, unusedExporter⟩) hempty 0 twoCycles
  obtain ⟨-, -, -, hclosed, hlater⟩ := hbehind hcompleted
  obtain ⟨hreadyz, hhealthz⟩ := hclosed hset
  exact ⟨hempty, hreadyz, hhealthz, hlater hreadyz hhealthz⟩

end PeakUsage.Exporter
