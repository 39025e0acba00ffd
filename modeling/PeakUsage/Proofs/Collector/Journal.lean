import PeakUsage.Proofs.Collector.Balance
import PeakUsage.Proofs.Collector.Measured

/-! What a scrape writes to the log. Every failure that it counts is logged once, nothing that is not
counted is, and the setting of the latch is logged when it happens. -/
namespace PeakUsage

/-- What is logged of a failure that counts. -/
def Event.ofFailure (r : Resource) (figure : Figure) (e : Failure) : Event :=
  match e.partialPeak with
  | some v => .partialBrokers r v e
  | none => .figureFailed r figure e

namespace Inventory
open Program

variable {π : Type} {p : Provider π} {w : Moment π Inventory}

/-- The resources cannot be listed only because a family could not be. -/
theorem listing_of_resources {e : Failure}
    (h : (resources.runFrom p w).result = .ok (.error e)) :
    ∃ family cause, e = .listing family cause := by
  cases hstale : w.state.needsRefresh w.clock.now with
  | false =>
    rw [runFrom_resources_of_fresh p hstale] at h
    exact absurd (Except.ok.inj h).symm (error_ne_ok e _)
  | true =>
    rw [runFrom_resources_of_stale p hstale] at h
    obtain ⟨x, hx, hnext⟩ := Outcome.exists_of_andThen_ok h
    cases x with
    | ok n => exact absurd (Except.ok.inj hnext).symm (error_ne_ok e _)
    | error e' =>
      obtain rfl := Except.error.inj (Except.ok.inj hnext)
      rw [refresh, runFrom_clock_bind, runFrom_bind] at hx
      obtain ⟨count, hcount, hcopy⟩ := Outcome.exists_of_andThen_ok hx
      obtain rfl := Except.ok.inj hcopy
      exact listing_of_listFrom hcount

end Inventory

namespace Peaks
open Program

variable {π : Type} {p : Provider π}

/-- A call fails because of brokers or of a metric, or because the engine has no such figure. -/
theorem error_of_call {c : Leg π Peaks Call} {e : Failure}
    (h : (legOutcome p Call.program c).result = .ok (.error e)) :
    (∃ cluster count peak failures, e = .brokers cluster count peak failures) ∨
      (∃ key metric cause, e = .metric key metric cause) ∨
      ∃ key r, c.item = .memory key r ∧ r.engine.profile.memoryMetric = none ∧
        e = .unsupported .memory r.engine.name := by
  by_cases hfans : c.item.FansOut
  · obtain ⟨outcomes, -, hcombine⟩ := exists_outcomes_of_fansOut hfans h
    rw [combine] at hcombine
    split at hcombine
    · exact absurd hcombine.symm (error_ne_ok e _)
    · exact .inl ⟨_, _, _, _, (Except.error.inj hcombine).symm⟩
  · exact .inr (error_of_not_fansOut hfans h)

end Peaks

namespace Collector
open Program

variable {π α β : Type} {p : Provider π} {w : Moment π Collector}

/-! ### Listings and lookups -/

/-- What is logged of an outcome that is watched while the latch is not set. -/
def latching : Except ClockFault (Except Failure α) → List Event
  | .ok (.error e) => if e.isAuth then [.fetchLatched e] else []
  | _ => []

theorem events_guarded_of_unset {q : Program Collector (Except Failure α)} (hq : Plain q)
    (h : w.state.latch.isSet = false) :
    events ((guarded q).runFrom p w).trace =
      events (q.runFrom p w).trace ++ latching ((guarded q).runFrom p w).result := by
  rw [result_guarded_of_unset h, runFrom_guarded_of_unset h]
  cases hx : (q.runFrom p w).result with
  | error f =>
    rw [Outcome.andThen, hx]
    exact (List.append_nil _).symm
  | ok x =>
    rw [Outcome.andThen_eq_of_ok hx, Outcome.after_trace, events_append]
    cases x with
    | ok a => rfl
    | error e =>
      -- `q` has left the latch alone, so that the failure alone decides
      have htrips : (q.runFrom p w).state.latch.trips e = e.isAuth := by
        rw [Latch.trips, (hq.latch_eq p w).1, h]
        exact Bool.and_true _
      simp only [Outcome.moment_state, htrips, latching]
      split <;> rfl

/-- A lookup that is let through logs nothing but that it sets the latch. -/
theorem events_lookup {k : Leg π Collector Lookup} (hunset : k.start.state.latch.isSet = false) :
    events (legOutcome p Lookup.program k).trace =
      latching (legOutcome p Lookup.program k).result := by
  have hplain : Plain (inPeaks k.item.call.program) := plain_inPeaks fun _ => k.item.logs
  have hsilent : events ((inPeaks k.item.call.program).runFrom p k.start).trace = [] :=
    k.item.logs.within.events_eq_nil p k.start
  rw [legOutcome, Lookup.program_eq, events_guarded_of_unset hplain hunset, hsilent,
    List.nil_append]

/-- It does not say that it was refused. -/
theorem isDisabled_of_unset {k : Leg π Collector Lookup}
    (hunset : k.start.state.latch.isSet = false) {e : Failure}
    (h : (legOutcome p Lookup.program k).result = .ok (.error e)) : e.isDisabled = false := by
  rw [result_of_unset hunset] at h
  rcases Peaks.error_of_call h with ⟨_, _, _, _, rfl⟩ | ⟨_, _, _, rfl⟩ | ⟨_, _, -, -, rfl⟩ <;> rfl

/-! ### Visits and walks -/

theorem events_record_error (rep : Report) (r : Resource) (figure : Figure) {e : Failure}
    (he : e.isDisabled = false) :
    events ((record rep r figure (.error e)).runFrom p w).trace = [.ofFailure r figure e] := by
  cases h : e.partialPeak with
  | some v =>
    simp only [record, Event.ofFailure, h]
    rfl
  | none =>
    simp only [record, Event.ofFailure, h, he]
    rfl

/-- What is logged of an outcome that is recorded. -/
def recording (r : Resource) (figure : Figure) :
    Except ClockFault (Except Failure Float) → List Event
  | .ok (.error e) => [.ofFailure r figure e]
  | _ => []

/-- What is logged of a lookup whose outcome is recorded. -/
def legEvents (p : Provider π) (k : Leg π Collector Lookup) : List Event :=
  latching (legOutcome p Lookup.program k).result ++
    recording k.item.resource k.item.figure (legOutcome p Lookup.program k).result

theorem events_lookup_record (rep : Report) {r : Resource} {figure : Figure}
    (hunset : w.state.latch.isSet = false) :
    events (((⟨figure, r.usageKey, r⟩ : Lookup).program >>= record rep r figure).runFrom p w).trace =
      legEvents p ⟨⟨figure, r.usageKey, r⟩, w⟩ := by
  let k : Leg π Collector Lookup := ⟨⟨figure, r.usageKey, r⟩, w⟩
  have hevents := events_lookup (p := p) (k := k) hunset
  have ho : k.item.program.runFrom p w = legOutcome p Lookup.program k := rfl
  rw [runFrom_bind, ho, legEvents, ← hevents]
  cases h : (legOutcome p Lookup.program k).result with
  | error f =>
    rw [Outcome.andThen, h]
    exact (List.append_nil _).symm
  | ok x =>
    rw [Outcome.andThen_eq_of_ok h, Outcome.after_trace, events_append]
    cases x with
    | ok v => rfl
    | error e => rw [events_record_error rep r figure (isDisabled_of_unset hunset h)]; rfl

/-- The events of a run that goes on behind lookups. -/
theorem Retraces.events_bind {legs : List (Leg π Collector Lookup)} {a : α}
    {q : Program Collector α} {f : α → Program Collector β}
    (hq : Retraces p legs w a (q.runFrom p w)) :
    events ((q >>= f).runFrom p w).trace = events (q.runFrom p w).trace ++
      if legs.any (halted p) then []
      else events ((f a).runFrom p (finish p Lookup.program legs w)).trace := by
  have hresult := hq.result
  split at hresult
  · next hhalt => rw [runFrom_bind_error hresult, if_pos hhalt, List.append_nil]
  · next hhalt =>
    rw [runFrom_bind_ok hresult, if_neg hhalt, Outcome.after_trace, events_append, hq.moment]

theorem events_visit (rep : Report) (r : Resource) (hunset : w.state.latch.isSet = false) :
    events ((visit rep r).runFrom p w).trace = (visitLegs p r w).flatMap (legEvents p) := by
  have hmore : events ((visitMemory r (extend p [cpuLeg r w] rep,
      (found? p (cpuLeg r w)).isSome)).runFrom p (finish p Lookup.program [cpuLeg r w] w)).trace =
        (memoryLegs p r w).flatMap (legEvents p) := by
    rw [visitMemory, memoryLegs]
    split
    · next hmemory =>
      -- it is made behind a figure only, and a figure does not set the latch
      have hmem : memoryLeg p r w ∈ visitLegs p r w := by
        rw [visitLegs, if_pos hmemory]
        exact List.mem_cons_of_mem _ List.mem_cons_self
      rw [trace_bind_pure, List.flatMap_singleton]
      exact events_lookup_record _ (unset_of_mem_visitLegs hunset hmem)
    · rfl
  rw [visit_eq, (retraces_lookup rep r .cpu w).events_bind, events_lookup_record rep hunset,
    visitLegs_eq, List.flatMap_append, List.flatMap_singleton]
  congr 1
  change (if [cpuLeg r w].any (halted p) then _ else _) = _
  split
  · rfl
  · exact hmore

theorem events_visitAll (rep : Report) (rs : List Resource) (w : Moment π Collector) :
    events ((visitAll rep rs).runFrom p w).trace = (walk p rs w).flatMap (legEvents p) := by
  induction rs generalizing rep w with
  | nil => rfl
  | cons r rest ih =>
    rw [visitAll, runFrom_state_bind, walk]
    cases hset : w.state.latch.isSet with
    | true => rfl
    | false =>
      simp only [Bool.false_eq_true, if_false]
      rw [(retraces_visit p rep r w).events_bind, events_visit rep r hset, List.flatMap_append, ih]
      split <;> rfl

/-! ### Scrapes -/

/-- What is logged of a listing that was let through. -/
def refreshing (stale : Bool) : Except ClockFault (Except Failure (List Resource)) → List Event
  | .ok (.ok rs) => if stale then [.inventoryRefreshed rs.length] else []
  | _ => []

theorem events_listing (p : Provider π) (w : Moment π Collector) :
    events (listing.runFrom p w).trace =
      refreshing (w.state.inventory.needsRefresh w.clock.now) (listing.runFrom p w).result := by
  have hsilent : events ((inInventory Inventory.resources).runFrom p w).trace = [] :=
    Inventory.resources_logs.within.events_eq_nil p w
  rw [listing, runFrom_clock_bind, runFrom_state_bind, runFrom_bind]
  cases hx : ((inInventory Inventory.resources).runFrom p w).result with
  | error f =>
    rw [Outcome.andThen, hx]
    exact hsilent
  | ok x =>
    rw [Outcome.andThen_eq_of_ok hx, Outcome.after_trace, events_append, hsilent, List.nil_append]
    cases x with
    | error e => rfl
    | ok rs =>
      dsimp only [refreshing]
      split <;> rfl

theorem events_resources (hunset : w.state.latch.isSet = false) :
    events (resources.runFrom p w).trace =
      refreshing (w.state.inventory.needsRefresh w.clock.now) (resources.runFrom p w).result ++
        latching (resources.runFrom p w).result := by
  rw [resources_eq_guarded, events_guarded_of_unset plain_listing hunset, events_listing,
    result_guarded_of_unset hunset]

theorem isDisabled_of_resources (hunset : w.state.latch.isSet = false) {e : Failure}
    (h : (resources.runFrom p w).result = .ok (.error e)) : e.isDisabled = false := by
  rw [resources_eq_guarded, result_guarded_of_unset hunset, listing, runFrom_clock_bind,
    runFrom_state_bind, runFrom_bind] at h
  obtain ⟨x, hx, hnext⟩ := Outcome.exists_of_andThen_ok h
  rw [inInventory, runFrom_within isPart_inventory] at hx
  cases x with
  | error e' =>
    obtain rfl := Except.error.inj (Except.ok.inj hnext)
    obtain ⟨family, cause, rfl⟩ := Inventory.listing_of_resources hx
    rfl
  | ok rs =>
    dsimp only at hnext
    split at hnext <;> exact absurd (Except.ok.inj hnext).symm (error_ne_ok e rs)

/-- A scrape that cannot list the resources says why. -/
theorem events_scrape_of_unlisted (hunset : w.state.latch.isSet = false) {e : Failure}
    (hlist : (resources.runFrom p w).result = .ok (.error e)) :
    events (scrape.runFrom p w).trace =
      latching (resources.runFrom p w).result ++ [.inventoryFailed e] := by
  rw [scrape, runFrom_clock_bind, runFrom_bind_ok hlist, Outcome.after_trace, events_append,
    events_resources hunset]
  simp only [hlist, isDisabled_of_resources hunset hlist]
  rfl

/-- One that can says what becomes of each lookup, and ends with the numbers of its report. -/
theorem events_scrape_of_listed {rs : List Resource} {rep : Report}
    (hlist : (resources.runFrom p w).result = .ok (.ok rs))
    (h : (scrape.runFrom p w).result = .ok rep) :
    events (scrape.runFrom p w).trace =
      refreshing (w.state.inventory.needsRefresh w.clock.now) (resources.runFrom p w).result ++
        (scrapeLegs p w).flatMap (legEvents p) ++
        [.scrapeComplete rep.instances rep.samples.length rep.errors
          (Nanos.millis rep.elapsed)] := by
  have hunset : w.state.latch.isSet = false := (of_guarded_ok hlist).1
  have hlatching : latching (resources.runFrom p w).result = [] := by rw [hlist]; rfl
  rw [scrape, runFrom_clock_bind, runFrom_bind_ok hlist] at h ⊢
  rw [Outcome.after_result, runFrom_bind] at h
  obtain ⟨found, hfound, hrep⟩ := Outcome.exists_of_andThen_ok h
  rw [Outcome.after_trace, events_append, events_resources hunset, hlatching, List.append_nil,
    runFrom_bind_ok hfound, Outcome.after_trace, events_append, events_visitAll,
    scrapeLegs_of_listed hlist, List.append_assoc]
  obtain rfl := Except.ok.inj hrep
  rfl

theorem reportsMemory_of_mem_visitLegs {r r' : Resource} {key : String}
    {k : Leg π Collector Lookup} (hk : k ∈ visitLegs p r' w) (hcall : k.item.call = .memory key r) :
    r.engine.reportsMemory = true := by
  unfold visitLegs at hk
  rcases List.mem_cons.mp hk with rfl | hk
  · exact absurd hcall nofun
  · split at hk
    · next hmemory =>
      obtain rfl := List.mem_singleton.mp hk
      obtain ⟨-, rfl⟩ := Peaks.Call.memory.inj hcall
      exact (Bool.and_eq_true_iff.mp hmemory).2
    · exact absurd hk List.not_mem_nil

/-! ### Accounts -/

/-- How many failures are logged. -/
def faults (es : List Event) : Nat :=
  (named "inventory_refresh_failed" es).length + (named "usage_fetch_failed" es).length +
    (named "usage_partial_brokers" es).length

@[simp] theorem faults_append (a b : List Event) : faults (a ++ b) = faults a + faults b := by
  simp only [faults, named_append, List.length_append]
  omega

theorem faults_latching (x : Except ClockFault (Except Failure α)) : faults (latching x) = 0 := by
  unfold latching
  split
  · split <;> rfl
  · rfl

theorem faults_refreshing (stale : Bool) (x : Except ClockFault (Except Failure (List Resource))) :
    faults (refreshing stale x) = 0 := by
  unfold refreshing
  split
  · split <;> rfl
  · rfl

/-- A lookup that failed is logged once. -/
theorem faults_legEvents (k : Leg π Collector Lookup) :
    faults (legEvents p k) = if failed p k then 1 else 0 := by
  rw [legEvents, faults_append, faults_latching, Nat.zero_add, failed]
  cases (legOutcome p Lookup.program k).result with
  | error f => rfl
  | ok x =>
    cases x with
    | ok v => rfl
    | error e =>
      dsimp only [recording, Event.ofFailure]
      cases e.partialPeak <;> rfl

theorem faults_flatMap (legs : List (Leg π Collector Lookup)) :
    faults (legs.flatMap (legEvents p)) = legs.countP (failed p) := by
  induction legs with
  | nil => rfl
  | cons k rest ih =>
    rw [List.flatMap_cons, faults_append, faults_legEvents, ih, List.countP_cons, Nat.add_comm]

theorem name_of_mem_latching {x : Except ClockFault (Except Failure α)} {e : Event}
    (he : e ∈ latching x) : e.name = "fetch_disabled" := by
  unfold latching at he
  split at he
  · split at he
    · rw [List.mem_singleton.mp he]
      rfl
    · exact absurd he List.not_mem_nil
  · exact absurd he List.not_mem_nil

theorem name_of_mem_recording {r : Resource} {figure : Figure}
    {x : Except ClockFault (Except Failure Float)} {e : Event} (he : e ∈ recording r figure x) :
    e.name = "usage_fetch_failed" ∨ e.name = "usage_partial_brokers" := by
  unfold recording at he
  split at he
  · next cause =>
    rw [List.mem_singleton.mp he, Event.ofFailure]
    cases cause.partialPeak with
    | none => exact .inl rfl
    | some v => exact .inr rfl
  · exact absurd he List.not_mem_nil

/-- Nothing is logged of a lookup but that it failed and that it set the latch. -/
theorem named_flatMap_eq_nil {name : String}
    (h : name ∉ ["fetch_disabled", "usage_fetch_failed", "usage_partial_brokers"])
    (legs : List (Leg π Collector Lookup)) : named name (legs.flatMap (legEvents p)) = [] := by
  refine named_eq_nil fun e he hname => h ?_
  obtain ⟨k, -, hk⟩ := List.mem_flatMap.mp he
  rw [← hname]
  rcases List.mem_append.mp hk with hk | hk
  · simp [name_of_mem_latching hk]
  · rcases name_of_mem_recording hk with hk | hk <;> simp [hk]

/-- The log of a scrape bears out its report. -/
structure Accounted (p : Provider π) (w : Moment π Collector) (rep : Report) (es : List Event) :
    Prop where
  errors_eq : rep.errors = faults es
  inventoryFailed_eq : named "inventory_refresh_failed" es =
    (rep.listingFailure.map Event.inventoryFailed).toList
  of_listingFailure : rep.listingFailure.isSome = true →
    rep.errors = 1 ∧ rep.instances = 0 ∧ rep.samples = []
  complete_of_listed : ∀ rs, (resources.runFrom p w).result = .ok (.ok rs) →
    named "scrape_complete" es = [.scrapeComplete rep.instances rep.samples.length rep.errors
      (Nanos.millis rep.elapsed)]
  complete_of_unlisted : (∀ rs, (resources.runFrom p w).result ≠ .ok (.ok rs)) →
    named "scrape_complete" es = []
  skipped_eq : named "fetch_skipped" es = if w.state.latch.isSet then [.fetchSkipped] else []

theorem named_latching {name : String} (h : name ≠ "fetch_disabled")
    (x : Except ClockFault (Except Failure α)) : named name (latching x) = [] :=
  named_eq_nil fun _ he hname => h (hname.symm.trans (name_of_mem_latching he))

theorem named_refreshing {name : String} (h : name ≠ "inventory_refreshed") (stale : Bool)
    (x : Except ClockFault (Except Failure (List Resource))) :
    named name (refreshing stale x) = [] := by
  refine named_eq_nil fun e he hname => h (hname.symm.trans ?_)
  unfold refreshing at he
  split at he
  · split at he
    · rw [List.mem_singleton.mp he]
      rfl
    · exact absurd he List.not_mem_nil
  · exact absurd he List.not_mem_nil

section
variable {rep : Report}

theorem accounted_of_set (hset : w.state.latch.isSet = true)
    (h : (scrape.runFrom p w).result = .ok rep) :
    Accounted p w rep (events (scrape.runFrom p w).trace) := by
  rw [runFrom_scrape_of_set hset] at h ⊢
  obtain rfl := Except.ok.inj h
  refine ⟨rfl, rfl, nofun, fun rs hlist => ?_, fun _ => rfl, by rw [hset]; rfl⟩
  exact absurd (hset.symm.trans (of_guarded_ok hlist).1) nofun

theorem accounted_of_unlisted (hunset : w.state.latch.isSet = false) {e : Failure}
    (hlist : (resources.runFrom p w).result = .ok (.error e))
    (h : (scrape.runFrom p w).result = .ok rep) :
    Accounted p w rep (events (scrape.runFrom p w).trace) := by
  have hdisabled := isDisabled_of_resources hunset hlist
  rw [events_scrape_of_unlisted hunset hlist]
  cases (reported_scrape h).1 with
  | listed rs hok => exact absurd (Except.ok.inj (hlist.symm.trans hok)) (error_ne_ok e rs)
  | unlisted e' hlist' hinstances hsamples herrors hfailure =>
    obtain rfl := Except.error.inj (Except.ok.inj (hlist.symm.trans hlist'))
    rw [hdisabled] at herrors hfailure
    constructor
    · rw [faults_append, faults_latching, herrors]
      rfl
    · rw [named_append, named_latching (by decide), hfailure]
      rfl
    · exact fun _ => ⟨herrors, hinstances, hsamples⟩
    · exact fun rs hok => absurd (Except.ok.inj (hlist.symm.trans hok)) (error_ne_ok e rs)
    · intro _
      rw [named_append, named_latching (by decide)]
      rfl
    · rw [named_append, named_latching (by decide), hunset]
      rfl

theorem accounted_of_listed {rs : List Resource}
    (hlist : (resources.runFrom p w).result = .ok (.ok rs))
    (h : (scrape.runFrom p w).result = .ok rep) :
    Accounted p w rep (events (scrape.runFrom p w).trace) := by
  have hunset : w.state.latch.isSet = false := (of_guarded_ok hlist).1
  rw [events_scrape_of_listed hlist h]
  cases (reported_scrape h).1 with
  | unlisted e hlist' => exact absurd (Except.ok.inj (hlist'.symm.trans hlist)) (error_ne_ok e rs)
  | listed rs' hlist' hfit hinstances hsamples herrors hfailure =>
    -- apart from the last line, only failures of lookups and the latch are told of
    have hnone : ∀ name, name ∉ ["inventory_refreshed", "fetch_disabled", "usage_fetch_failed",
        "usage_partial_brokers"] → ∀ es, named name
          (refreshing (w.state.inventory.needsRefresh w.clock.now) (resources.runFrom p w).result ++
            (scrapeLegs p w).flatMap (legEvents p) ++ es) = named name es := by
      intro name hname es
      rw [List.mem_cons, not_or] at hname
      rw [named_append, named_append, named_refreshing hname.1, named_flatMap_eq_nil hname.2]
      rfl
    constructor
    · rw [faults_append, faults_append, faults_refreshing, faults_flatMap, herrors, Nat.zero_add]
      rfl
    · rw [hnone _ (by decide), hfailure]
      rfl
    · intro hsome
      rw [hfailure] at hsome
      exact absurd hsome nofun
    · intro _ _
      rw [hnone _ (by decide)]
      rfl
    · exact fun hunlisted => absurd hlist (hunlisted rs)
    · rw [hnone _ (by decide), hunset]
      rfl

theorem accounted_scrape (h : (scrape.runFrom p w).result = .ok rep) :
    Accounted p w rep (events (scrape.runFrom p w).trace) := by
  cases hset : w.state.latch.isSet with
  | true => exact accounted_of_set hset h
  | false =>
    cases (reported_scrape h).1 with
    | unlisted e hlist => exact accounted_of_unlisted hset hlist h
    | listed rs hlist => exact accounted_of_listed hlist h

end

/-- The lookups of a scrape are not refused, and ask for no figure that the engine does not report. -/
theorem not_refused_of_mem_scrapeLegs {k : Leg π Collector Lookup} (hk : k ∈ scrapeLegs p w)
    {e : Failure} (h : (legOutcome p Lookup.program k).result = .ok (.error e)) :
    e.isDisabled = false ∧ ∀ figure engine, e ≠ .unsupported figure engine := by
  have hunset := unset_of_mem_scrapeLegs hk
  refine ⟨isDisabled_of_unset hunset h, ?_⟩
  rw [result_of_unset hunset] at h
  rcases Peaks.error_of_call h with ⟨_, _, _, _, rfl⟩ | ⟨_, _, _, rfl⟩ | ⟨key, r, hcall, hnone, rfl⟩
  · exact nofun
  · exact nofun
  · obtain ⟨rs, hrs⟩ := exists_scrapeLegs_eq_walk p w
    rw [hrs] at hk
    obtain ⟨r', -, v, -, hvisit⟩ := exists_visit_of_mem_walk hk
    have hmemory := reportsMemory_of_mem_visitLegs hvisit hcall
    rw [Engine.reportsMemory, hnone] at hmemory
    exact absurd hmemory nofun

/-! ### Sessions -/

/-- Every failure that a scrape counts is logged, and every failure that is logged is counted. The end
of a scrape that could list the resources is logged with the numbers of its report, and one that
was refused says so. The latch is logged when it is set, which happens once at most. -/
theorem accounted_session (settings : CollectorSettings) (environment : String) (p : Provider π)
    (now : Nat) (turns : List (Turn π Operation)) :
    let session := play p Operation.program now (new settings environment) turns
    (∀ l ∈ session, l.item = .scrape →
      (legOutcome p Operation.program l).result ≠ .error .pastHorizon →
        ∃ rep, (legOutcome p Operation.program l).result = .ok (.report rep) ∧
          Accounted p l.start rep (events (legOutcome p Operation.program l).trace) ∧
          ∀ k ∈ scrapeLegs p l.start, ∀ e,
            (legOutcome p Lookup.program k).result = .ok (.error e) →
              e.isDisabled = false ∧ ∀ figure engine, e ≠ .unsupported figure engine) ∧
      ((∃ l ∈ session, (legOutcome p Operation.program l).state.latch.isSet = true) →
        (named "fetch_disabled" (sessionEvents p session)).length = 1) ∧
      ((∀ l ∈ session, (legOutcome p Operation.program l).state.latch.isSet = false) →
        named "fetch_disabled" (sessionEvents p session) = []) := by
  intro session
  have hbalance := balanced_session p now (new settings environment) turns
  have hending := isSet_ending_iff p now (new settings environment) turns
  have hnew : (new settings environment).latch.isSet = false := rfl
  rw [hnew] at hbalance hending
  refine ⟨fun l hl hitem hfit => ?_, fun hset => ?_, fun hunset => ?_⟩
  · obtain ⟨op, w⟩ := l
    obtain rfl : op = .scrape := hitem
    obtain ⟨a, ha⟩ := exists_ok_of_ne_pastHorizon hfit
    rw [legOutcome, Operation.program, runFrom_bind] at ha
    obtain ⟨rep, hrep, -⟩ := Outcome.exists_of_andThen_ok ha
    refine ⟨rep, ?_, ?_, fun k hk e he => not_refused_of_mem_scrapeLegs hk he⟩
    · rw [legOutcome, Operation.program, runFrom_bind_pure, hrep]
      rfl
    · rw [legOutcome, Operation.program, trace_bind_pure]
      exact accounted_scrape hrep
  · rw [hending.mpr (.inr hset)] at hbalance
    exact hbalance
  · have hend : (ending p Operation.program now (new settings environment) turns).2.latch.isSet =
        false := by
      rw [← Bool.not_eq_true, hending]
      rintro (h | ⟨l, hl, h⟩)
      · exact Bool.false_ne_true h
      · exact Bool.false_ne_true ((hunset l hl).symm.trans h)
    rw [hend] at hbalance
    exact List.eq_nil_of_length_eq_zero hbalance

/-! ### Two scrapes in a row -/

def firstScrape : Leg Unit Collector Operation := ⟨.scrape, unused⟩

def secondScrape : Leg Unit Collector Operation :=
  let o := legOutcome mixedProvider Operation.program firstScrape
  ⟨.scrape, ⟨(), ⟨o.clock.now + 10, ⟨10, 0⟩⟩, o.state⟩⟩

theorem play_scrapes :
    play mixedProvider Operation.program 0 (new ⟨100, 60, ∅, "dev"⟩ "dev")
      [⟨.scrape, 0, ⟨0, 0⟩, ()⟩, ⟨.scrape, 10, ⟨10, 0⟩, ()⟩] = [firstScrape, secondScrape] := by
  simp only [play, firstScrape, secondScrape, legOutcome, unused]

theorem scrapes_ne_pastHorizon : ∀ l ∈ [firstScrape, secondScrape],
    (legOutcome mixedProvider Operation.program l).result ≠ .error .pastHorizon := by
  have hall : ([firstScrape, secondScrape].all fun l =>
      (legOutcome mixedProvider Operation.program l).result.toOption.isSome) = true := by
    decide +kernel
  intro l hl h
  have hl := List.all_eq_true.mp hall l hl
  rw [h] at hl
  exact absurd hl nofun

/-- The first counts three failures and logs as many, one of which sets the latch. The second is
refused, and says no more than that. -/
theorem accounted_session_mixed :
    (∀ l ∈ [firstScrape, secondScrape],
      (legOutcome mixedProvider Operation.program l).result ≠ .error .pastHorizon) ∧
      (∃ rep, (legOutcome mixedProvider Operation.program firstScrape).result =
        .ok (.report rep) ∧ rep.errors = 3 ∧ rep.listingFailure = none) ∧
      (∃ rep, (legOutcome mixedProvider Operation.program secondScrape).result =
        .ok (.report rep) ∧ rep.errors = 0 ∧ named "fetch_skipped"
          (events (legOutcome mixedProvider Operation.program secondScrape).trace) =
            [.fetchSkipped]) ∧
      (named "fetch_disabled" (sessionEvents mixedProvider [firstScrape, secondScrape])).length =
        1 := by
  obtain ⟨hscrapes, hset, -⟩ := accounted_session ⟨100, 60, ∅, "dev"⟩ "dev" mixedProvider 0
    [⟨.scrape, 0, ⟨0, 0⟩, ()⟩, ⟨.scrape, 10, ⟨10, 0⟩, ()⟩]
  rw [play_scrapes] at hscrapes hset
  have hfirst : firstScrape ∈ [firstScrape, secondScrape] := List.mem_cons_self
  have hsecond : secondScrape ∈ [firstScrape, secondScrape] :=
    List.mem_cons_of_mem _ List.mem_cons_self
  refine ⟨scrapes_ne_pastHorizon, ?_, ?_, hset ⟨secondScrape, hsecond, by decide +kernel⟩⟩
  · obtain ⟨rep, hrep, hlog, -⟩ :=
      hscrapes firstScrape hfirst rfl (scrapes_ne_pastHorizon _ hfirst)
    have hfaults : faults (events (legOutcome mixedProvider Operation.program firstScrape).trace) =
        3 := by decide +kernel
    have hlisted : (named "inventory_refresh_failed"
        (events (legOutcome mixedProvider Operation.program firstScrape).trace)).length = 0 := by
      decide +kernel
    rw [hlog.inventoryFailed_eq, Option.length_toList, Option.isSome_map] at hlisted
    refine ⟨rep, hrep, hlog.errors_eq.trans hfaults, ?_⟩
    simpa using hlisted
  · obtain ⟨rep, hrep, hlog, -⟩ :=
      hscrapes secondScrape hsecond rfl (scrapes_ne_pastHorizon _ hsecond)
    have hfaults : faults (events (legOutcome mixedProvider Operation.program secondScrape).trace) =
        0 := by decide +kernel
    have hskipped : secondScrape.start.state.latch.isSet = true := by decide +kernel
    refine ⟨rep, hrep, hlog.errors_eq.trans hfaults, ?_⟩
    rw [hlog.skipped_eq, hskipped]
    rfl

end Collector
end PeakUsage
