import PeakUsage.Http

/-! The registry of component health: how its components add up, what it makes HTTP answer, and how
a report is written to it. -/
namespace PeakUsage

namespace Status

theorem isOperational_worse (a b : Status) :
    (worse a b).isOperational = (a.isOperational && b.isOperational) := by
  cases a <;> cases b <;> rfl

theorem isOperational_worst (ss : List Status) :
    (worst ss).isOperational = ss.all (·.isOperational) := by
  have hfold : ∀ s, (ss.foldl worse s).isOperational =
      (s.isOperational && ss.all (·.isOperational)) := by
    induction ss with
    | nil => simp
    | cons t rest ih =>
      intro s
      rw [List.foldl_cons, ih, isOperational_worse, List.all_cons, Bool.and_assoc]
  exact hfold .healthy

end Status

namespace Health
variable {h : Health}

/-- The registry is operational as long as all of its components are. -/
theorem isOperational_overall_iff :
    h.overall.isOperational = true ↔
      ∀ (name : String) (c : ComponentHealth), h.components[name]? = some c →
        c.status.isOperational = true := by
  rw [overall, statusIn, Status.isOperational_worst, List.all_map, List.all_eq_true]
  constructor
  · intro hall name c hc
    exact hall (name, c) (Std.ExtTreeMap.mem_toList_iff_getElem?_eq_some.mpr hc)
  · rintro hall ⟨name, c⟩ hc
    exact hall name c (Std.ExtTreeMap.mem_toList_iff_getElem?_eq_some.mp hc)

theorem ready_readinessIn (order : List (String × ComponentHealth)) (ready : Bool) :
    (readinessIn order ready).ready = (ready && (statusIn order).isOperational) := by
  unfold readinessIn reasonIn
  cases ready <;> cases (statusIn order).isOperational <;> rfl

theorem ready_readiness : h.readiness.ready = (h.ready && h.overall.isOperational) :=
  ready_readinessIn h.components.toList h.ready

/-- A component has reported a state last. -/
def Shows (h : Health) (name : String) (s : Status) : Prop :=
  ∃ c, h.components[name]? = some c ∧ c.status = s

theorem not_operational_of_unhealthy {name : String} (hname : h.Shows name .unhealthy) :
    h.overall.isOperational = false := by
  obtain ⟨c, hc, hstatus⟩ := hname
  cases hoverall : h.overall.isOperational with
  | false => rfl
  | true =>
    have hoperational := isOperational_overall_iff.mp hoverall name c hc
    rw [hstatus] at hoperational
    exact absurd hoperational (by decide)

/-! ### What is answered -/

theorem route?_health : Http.route? (Http.pathOf "/healthz") = some .health := by decide

theorem route?_readiness : Http.route? (Http.pathOf "/readyz") = some .readiness := by decide

theorem status_healthz (o : Outlets) :
    (Http.respond o "GET" "/healthz").status =
      if o.health.overall.isOperational then 200 else 503 := by
  simp [Http.respond, route?_health, Http.get, Http.jsonResponse]

theorem status_readyz (o : Outlets) :
    (Http.respond o "GET" "/readyz").status =
      if o.health.ready && o.health.overall.isOperational then 200 else 503 := by
  simp [Http.respond, route?_readiness, Http.get, Http.jsonResponse, ready_readiness]

/-- How a path is answered when this is what a reader finds of the registry, whatever the other
outlets show. -/
def Answers (h : Health) (path : String) (status : Nat) : Prop :=
  ∀ o : Outlets, o.health = h → (Http.respond o "GET" path).status = status

/-- A reader of the readiness looks at the flag first and at the components later. -/
def seen (flag later : Health) : Health := ⟨later.components, flag.ready⟩

theorem answers_of_unready {flag : Health} (hflag : flag.ready = false) (later : Health) :
    (flag.seen later).Answers "/readyz" 503 := by
  intro o ho
  have hready : o.health.ready = false := (congrArg ready ho).trans hflag
  rw [status_readyz, hready]
  rfl

theorem answers_of_unhealthy {name : String} (hname : h.Shows name .unhealthy) :
    h.Answers "/healthz" 503 ∧ ∀ flag : Health, (flag.seen h).Answers "/readyz" 503 := by
  constructor
  · intro o ho
    rw [status_healthz, ho, not_operational_of_unhealthy hname]
    rfl
  · intro flag o ho
    have hshows : o.health.Shows name .unhealthy := by
      rw [ho]
      exact hname
    rw [status_readyz, not_operational_of_unhealthy hshows, Bool.and_false]
    rfl

/-! ### Writing to the registry -/

/-- Writes several components, one after another. -/
def updates (h : Health) (cs : List (String × ComponentHealth)) : Health :=
  cs.foldl (fun h c => h.update c.1 c.2) h

section
variable (h) (cs : List (String × ComponentHealth))

theorem ready_updates : (h.updates cs).ready = h.ready := by
  induction cs generalizing h with
  | nil => rfl
  | cons c rest ih => exact ih (h.update c.1 c.2)

theorem mem_updates {name : String} :
    name ∈ (h.updates cs).components ↔ name ∈ h.components ∨ name ∈ cs.map (·.1) := by
  induction cs generalizing h with
  | nil => simp [updates]
  | cons c rest ih =>
    have hrest : name ∈ ((h.update c.1 c.2).updates rest).components ↔ _ := ih (h.update c.1 c.2)
    have hmem : name ∈ (h.update c.1 c.2).components ↔ c.1 = name ∨ name ∈ h.components := by
      simp [update, Std.ExtTreeMap.mem_insert]
    rw [updates, List.foldl_cons, ← updates, hrest, hmem, List.map_cons, List.mem_cons]
    grind

variable {h cs}

theorem getElem?_updates_of_not_mem {name : String} (hname : name ∉ cs.map (·.1)) :
    (h.updates cs).components[name]? = h.components[name]? := by
  induction cs generalizing h with
  | nil => rfl
  | cons c rest ih =>
    rw [List.map_cons, List.mem_cons, not_or] at hname
    obtain ⟨hne, hrest⟩ := hname
    have hupdate : (h.update c.1 c.2).components[name]? = h.components[name]? := by
      simp [update, Std.ExtTreeMap.getElem?_insert, Ne.symm hne]
    exact (ih hrest).trans hupdate

theorem getElem?_updates_of_mem (hnodup : (cs.map (·.1)).Nodup) {name : String}
    {c : ComponentHealth} (hc : (name, c) ∈ cs) :
    (h.updates cs).components[name]? = some c := by
  induction cs generalizing h with
  | nil => exact absurd hc List.not_mem_nil
  | cons d rest ih =>
    obtain ⟨hnew, hrest⟩ := List.nodup_cons.mp (List.map_cons .. ▸ hnodup)
    rcases List.mem_cons.mp hc with rfl | hc
    · refine (getElem?_updates_of_not_mem hnew).trans ?_
      simp [update]
    · exact ih hrest hc

end

/-! ### What a report says -/

/-- The components that are registered when the exporter starts. -/
def names : List String := [inventory, metricSource, fetchLatch]

end Health

/-- What a report says of each component, in the order in which it is written down. -/
def Report.verdicts (time : Int) (rep : Report) : List (String × ComponentHealth) :=
  [(Health.fetchLatch,
      if rep.fetchDisabled then
        ⟨.unhealthy, some "provider rejected credentials, restart required", time⟩
      else ⟨.healthy, none, time⟩),
    (Health.inventory,
      match rep.listingFailure with
      | some e => ⟨.degraded, some e.text, time⟩
      | none => ⟨.healthy, none, time⟩),
    (Health.metricSource,
      if 0 < rep.lookupErrors then
        ⟨.degraded, some (Text.decimal rep.lookupErrors ++ " usage lookups failed"), time⟩
      else ⟨.healthy, none, time⟩)]

namespace Outlets
open Health
variable {h : Health} {time : Int} {rep : Report}

/-- A report is judged by writing what it says of the components; then the registry is ready. -/
theorem judge_eq : judge h time rep = (h.updates (rep.verdicts time)).setReady true := by
  obtain ⟨instances, samples, errors, failure, disabled, elapsed⟩ := rep
  unfold judge Report.verdicts updates
  cases disabled <;> cases failure <;> dsimp only <;> split <;> rfl

theorem nodup_verdicts (time : Int) (rep : Report) :
    ((rep.verdicts time).map (·.1)).Nodup := by
  change [fetchLatch, inventory, metricSource].Nodup
  decide

theorem getElem?_judge {name : String} {c : ComponentHealth} (hc : (name, c) ∈ rep.verdicts time) :
    (judge h time rep).components[name]? = some c := by
  rw [judge_eq]
  exact getElem?_updates_of_mem (nodup_verdicts time rep) hc

theorem shows_judge {name : String} {c : ComponentHealth} (hc : (name, c) ∈ rep.verdicts time)
    {s : Status} : (judge h time rep).Shows name s ↔ c.status = s := by
  constructor
  · rintro ⟨d, hd, hstatus⟩
    rw [getElem?_judge hc] at hd
    rwa [Option.some.inj hd]
  · intro hstatus
    exact ⟨c, getElem?_judge hc, hstatus⟩

/-- The latch is unhealthy when the report says that it is set. -/
theorem shows_judge_fetchLatch :
    (judge h time rep).Shows fetchLatch .unhealthy ↔ rep.fetchDisabled = true := by
  rw [shows_judge (List.mem_cons_self ..)]
  cases rep.fetchDisabled <;> simp

/-- The inventory is degraded when the report has a failed listing. -/
theorem shows_judge_inventory :
    (judge h time rep).Shows inventory .degraded ↔ rep.listingFailure.isSome = true := by
  rw [shows_judge (List.mem_cons_of_mem _ (List.mem_cons_self ..))]
  cases rep.listingFailure <;> simp

/-- The metric source is degraded when the report has lookups that failed. -/
theorem shows_judge_metricSource :
    (judge h time rep).Shows metricSource .degraded ↔ 0 < rep.lookupErrors := by
  rw [shows_judge (List.mem_cons_of_mem _ (List.mem_cons_of_mem _ (List.mem_cons_self ..)))]
  split <;> simp_all

theorem mem_verdicts (time : Int) (rep : Report) {name : String} :
    name ∈ (rep.verdicts time).map (·.1) ↔ name ∈ names := by
  change name ∈ [fetchLatch, inventory, metricSource] ↔ name ∈ [inventory, metricSource, fetchLatch]
  simp only [List.mem_cons, List.not_mem_nil]
  grind

/-- Judging a report adds the components of the exporter. -/
theorem mem_judge {name : String} :
    name ∈ (judge h time rep).components ↔ name ∈ h.components ∨ name ∈ names := by
  rw [judge_eq, ← mem_verdicts time rep]
  exact mem_updates h (rep.verdicts time)

/-- Of the components of the exporter only the latch can be unhealthy. -/
theorem isOperational_judge (hnamed : ∀ name ∈ h.components, name ∈ names) :
    (judge h time rep).overall.isOperational = !rep.fetchDisabled := by
  cases hdisabled : rep.fetchDisabled with
  | true => exact not_operational_of_unhealthy (shows_judge_fetchLatch.mpr hdisabled)
  | false =>
    refine isOperational_overall_iff.mpr fun name c hc => ?_
    have hmem : name ∈ (judge h time rep).components :=
      Std.ExtTreeMap.mem_iff_isSome_getElem?.mpr (by rw [hc]; rfl)
    have hname : name ∈ names := (mem_judge.mp hmem).elim (hnamed name) id
    obtain ⟨⟨_, d⟩, hd, rfl⟩ := List.mem_map.mp ((mem_verdicts time rep).mpr hname)
    obtain rfl : c = d := Option.some.inj (hc.symm.trans (getElem?_judge hd))
    simp only [Report.verdicts, hdisabled, Bool.false_eq_true, if_false, List.mem_cons,
      Prod.mk.injEq, List.not_mem_nil, or_false] at hd
    rcases hd with ⟨-, rfl⟩ | ⟨-, rfl⟩ | ⟨-, rfl⟩
    · rfl
    · cases rep.listingFailure <;> rfl
    · split <;> rfl

end Outlets
end PeakUsage
