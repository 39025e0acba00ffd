import PeakUsage.Proofs.Collector.Walk
import PeakUsage.Proofs.Heeding

/-! Once the credentials have been rejected no operation of a collector makes a call any more, with
one exception: a lookup of a cluster goes on to the brokers whose figures are not kept. -/
namespace PeakUsage.Collector
open Program

variable {π α : Type} {p : Provider π} {w : Moment π Collector}

/-! ### Single operations -/

/-- A run that makes no call behind a set latch and none after a rejection, which sets the latch. -/
structure Obeys (w : Moment π Collector) (o : Outcome π Collector α) : Prop where
  silent : w.state.latch.isSet = true → Silent o.trace
  quiet : Quiet o.trace
  latched : Rejected o.trace → o.state.latch.isSet = true

theorem exchanges_guarded {q : Program Collector (Except Failure α)}
    (h : w.state.latch.isSet = false) :
    exchanges ((guarded q).runFrom p w).trace = exchanges (q.runFrom p w).trace := by
  rw [runFrom_guarded_of_unset h]
  cases hx : (q.runFrom p w).result with
  | error f => rw [Outcome.andThen, hx]
  | ok x =>
    rw [Outcome.andThen_eq_of_ok hx, Outcome.after_trace, exchanges_append]
    cases x with
    | ok a => simp [exchanges]
    | error e =>
      dsimp only
      split <;> simp [exchanges, line, Happening.isLog]

/-- The latch sees to it that a program obeys which says of every rejection that it failed. -/
theorem obeys_guarded {q : Program Collector (Except Failure α)}
    (hq : w.state.latch.isSet = false → Quiet (q.runFrom p w).trace ∧
      (Rejected (q.runFrom p w).trace →
        ∃ x, (q.runFrom p w).result = .ok x ∧ SaysRejected x)) :
    Obeys w ((guarded q).runFrom p w) := by
  cases hset : w.state.latch.isSet with
  | true =>
    rw [runFrom_guarded_of_set hset]
    have hline : Silent [line w.state .fetchSkipped] := silent_cons.mpr ⟨rfl, silent_nil⟩
    exact ⟨fun _ => hline, hline.quiet, fun _ => hset⟩
  | false =>
    obtain ⟨hquiet, hfailed⟩ := hq hset
    refine ⟨fun h => absurd (hset.symm.trans h) nofun, ?_, fun hrejected => ?_⟩
    · rw [← quiet_exchanges, exchanges_guarded hset, quiet_exchanges]
      exact hquiet
    · rw [← rejected_exchanges, exchanges_guarded hset, rejected_exchanges] at hrejected
      obtain ⟨x, hx, hsays⟩ := hfailed hrejected
      obtain ⟨e, rfl, hauth⟩ := hsays.exists_error
      rw [runFrom_guarded_of_unset hset, Outcome.andThen_eq_of_ok hx]
      simp [Outcome.after, watched, Latch.after, hauth]

theorem obeys_guarded_of_heeds {q : Program Collector (Except Failure α)}
    (hq : q.Heeds SaysRejected) :
    Obeys w ((guarded q).runFrom p w) :=
  obeys_guarded fun _ => hq.runFrom p w

theorem obeys_resources : Obeys w (resources.runFrom p w) := by
  refine obeys_guarded_of_heeds fun c _ _ s => ?_
  refine (Inventory.resources_heeds.within).bind_ok (fun rs => ?_) fun _ => rfl
  change (if s.inventory.needsRefresh c.now then _ else _ : Program Collector _).Heeds _
  split
  · exact fun _ _ => trivial
  · exact trivial

/-! ### Lookups -/

/-- A lookup of a cluster that is let through makes no call after a rejection. -/
def Spares (p : Provider π) (l : Leg π Collector Lookup) : Prop :=
  l.start.state.latch.isSet = false → l.item.figure = .cpu → l.item.resource.engine = .kafka →
    l.item.resource.level = .cluster →
      Peaks.Spares p l.item.resource (l.start.map (·.peaks))

theorem runFrom_inPeaks {q : Program Peaks α} :
    ((inPeaks q).runFrom p w).trace = (q.runFrom p (w.map (·.peaks))).trace ∧
      ((inPeaks q).runFrom p w).result = (q.runFrom p (w.map (·.peaks))).result := by
  rw [inPeaks, runFrom_within isPart_peaks]
  exact ⟨rfl, rfl⟩

/-- The calls of a lookup of a cluster are those for its brokers. -/
theorem exchanges_clusterLookup {key : String} {r : Resource} (hengine : r.engine = .kafka)
    (hlevel : r.level = .cluster) (hunset : w.state.latch.isSet = false) :
    exchanges ((cpu key r).runFrom p w).trace =
      exchanges ((Peaks.clusterCpu r).runFrom p (w.map (·.peaks))).trace := by
  rw [cpu, exchanges_guarded hunset, Peaks.cpu_cluster key hengine hlevel, runFrom_inPeaks.1]

theorem obeys_lookup {l : Leg π Collector Lookup} (h : Spares p l) :
    Obeys l.start (legOutcome p Lookup.program l) := by
  obtain ⟨⟨figure, key, r⟩, w⟩ := l
  cases figure with
  | memory => exact obeys_guarded_of_heeds (Peaks.memory_heeds key r).within
  | cpu =>
    by_cases hcluster : r.engine = .kafka ∧ r.level = .cluster
    · obtain ⟨hengine, hlevel⟩ := hcluster
      refine obeys_guarded fun hunset => ?_
      have hspares : Peaks.Spares p r (w.map (·.peaks)) := h hunset rfl hengine hlevel
      rw [Peaks.cpu_cluster key hengine hlevel, runFrom_inPeaks.1, runFrom_inPeaks.2]
      exact ⟨(Peaks.quiet_clusterCpu_iff p _).mpr hspares, Peaks.saysRejected_clusterCpu p hspares⟩
    · exact obeys_guarded_of_heeds (Peaks.cpu_heeds key hcluster).within

theorem quiet_lookup_iff {l : Leg π Collector Lookup} :
    Quiet (legOutcome p Lookup.program l).trace ↔ Spares p l := by
  refine ⟨fun hquiet hunset hfigure hengine hlevel => ?_, fun h => (obeys_lookup h).quiet⟩
  obtain ⟨⟨figure, key, r⟩, w⟩ := l
  obtain rfl : figure = .cpu := hfigure
  have hcluster : Quiet ((cpu key r).runFrom p w).trace := hquiet
  rw [← quiet_exchanges, exchanges_clusterLookup hengine hlevel hunset, quiet_exchanges] at hcluster
  exact (Peaks.quiet_clusterCpu_iff p _).mp hcluster

/-! ### Walks and scrapes -/

/-- Along a walk the latch stays set. -/
theorem walk_latched (p : Provider π) (rs : List Resource) (w : Moment π Collector) :
    (walk p rs w).Pairwise fun a b =>
      (legOutcome p Lookup.program a).state.latch.isSet = true →
        b.start.state.latch.isSet = true := by
  refine walk_pairwise (S := fun _ _ => True) (fun r w => ?_) (fun a b hunset _ hset => ?_)
    (List.pairwise_of_forall fun _ _ => trivial) w
  · rcases visitLegs_cases p r w with h | h <;> rw [h]
    · exact List.pairwise_singleton ..
    · exact List.pairwise_pair.mpr fun hset => hset
  · exact absurd (hset.symm.trans hunset) nofun

theorem quiet_calls_walk_iff (p : Provider π) (rs : List Resource) (w : Moment π Collector) :
    Quiet (calls p (walk p rs w)) ↔ ∀ l ∈ walk p rs w, Spares p l := by
  rw [calls, Quiet, List.pairwise_flatMap]
  constructor
  · rintro ⟨hlegs, -⟩ l hl
    exact quiet_lookup_iff.mp (quiet_exchanges.mp (hlegs l hl))
  · intro hspares
    refine ⟨fun l hl => quiet_exchanges.mpr (quiet_lookup_iff.mpr (hspares l hl)), ?_⟩
    refine (walk_latched p rs w).imp_of_mem fun ha hb hab g hg x hx hrejection => ?_
    have hrejected := rejected_exchanges.mp ⟨g, hg, hrejection⟩
    have hset := hab ((obeys_lookup (hspares _ ha)).latched hrejected)
    exact silent_exchanges.mpr ((obeys_lookup (hspares _ hb)).silent hset) x hx

theorem isSet_of_rejected_walk {rs : List Resource} (hspares : ∀ l ∈ walk p rs w, Spares p l)
    (hrejected : Rejected (calls p (walk p rs w))) :
    (finish p Lookup.program (walk p rs w) w).state.latch.isSet = true := by
  obtain ⟨g, hg, hrejection⟩ := hrejected
  obtain ⟨l, hl, hgl⟩ := List.mem_flatMap.mp hg
  have hleg := rejected_exchanges.mp ⟨g, hgl, hrejection⟩
  exact isSet_finish_walk hl ((obeys_lookup (hspares l hl)).latched hleg)

/-- The lookups of a scrape; there are none when the listing fails. -/
def scrapeLegs (p : Provider π) (w : Moment π Collector) : List (Leg π Collector Lookup) :=
  match (resources.runFrom p w).result with
  | .ok (.ok rs) => walk p rs (resources.runFrom p w).moment
  | _ => []

/-- A scrape makes the calls of the listing and of its lookups. -/
theorem runFrom_scrape (p : Provider π) (w : Moment π Collector) :
    exchanges (scrape.runFrom p w).trace =
        exchanges (resources.runFrom p w).trace ++ calls p (scrapeLegs p w) ∧
      (scrape.runFrom p w).moment =
        finish p Lookup.program (scrapeLegs p w) (resources.runFrom p w).moment := by
  unfold scrapeLegs
  cases h : (resources.runFrom p w).result with
  | error f =>
    rw [scrape, runFrom_clock_bind, runFrom_bind_error h]
    exact ⟨(List.append_nil _).symm, rfl⟩
  | ok x =>
    cases x with
    | ok rs =>
      obtain ⟨o, ho, hretraces⟩ := retraces_scrape h
      rw [ho, Outcome.after_trace, exchanges_append, hretraces.exchanges]
      exact ⟨rfl, hretraces.moment⟩
    | error e =>
      rw [scrape, runFrom_clock_bind, runFrom_bind_ok h, Outcome.after_trace, exchanges_append,
        Outcome.after_moment]
      refine ⟨congrArg _ ?_, ?_⟩ <;> cases hdisabled : e.isDisabled <;> simp only [hdisabled]
      all_goals rfl

theorem exists_scrapeLegs_eq_walk (p : Provider π) (w : Moment π Collector) :
    ∃ rs, scrapeLegs p w = walk p rs (resources.runFrom p w).moment := by
  unfold scrapeLegs
  split
  · exact ⟨_, rfl⟩
  · exact ⟨[], rfl⟩

/-- Nothing is looked up when the listing leaves the latch set. -/
theorem scrapeLegs_of_set (h : (resources.runFrom p w).state.latch.isSet = true) :
    scrapeLegs p w = [] := by
  obtain ⟨rs, hrs⟩ := exists_scrapeLegs_eq_walk p w
  rw [hrs]
  exact walk_of_set h rs

theorem quiet_scrape_iff (p : Provider π) (w : Moment π Collector) :
    Quiet (scrape.runFrom p w).trace ↔ ∀ l ∈ scrapeLegs p w, Spares p l := by
  have hlisting : Obeys w (resources.runFrom p w) := obeys_resources
  have hwalk : Quiet (calls p (scrapeLegs p w)) ↔ ∀ l ∈ scrapeLegs p w, Spares p l := by
    obtain ⟨rs, hrs⟩ := exists_scrapeLegs_eq_walk p w
    rw [hrs]
    exact quiet_calls_walk_iff p rs _
  rw [← quiet_exchanges, (runFrom_scrape p w).1, quiet_append, quiet_exchanges,
    rejected_exchanges, hwalk]
  refine ⟨fun h => h.2.1, fun h => ⟨hlisting.quiet, h, fun hrejected => ?_⟩⟩
  rw [scrapeLegs_of_set (hlisting.latched hrejected)]
  exact silent_nil

theorem obeys_scrape (hspares : ∀ l ∈ scrapeLegs p w, Spares p l) :
    Obeys w (scrape.runFrom p w) := by
  have hlisting : Obeys w (resources.runFrom p w) := obeys_resources
  obtain ⟨htrace, hmoment⟩ := runFrom_scrape p w
  have hstate : (scrape.runFrom p w).state =
      (finish p Lookup.program (scrapeLegs p w) (resources.runFrom p w).moment).state :=
    congrArg Moment.state hmoment
  refine ⟨fun hset => ?_, (quiet_scrape_iff p w).mpr hspares, fun hrejected => ?_⟩
  · have hend := (resources_keeps stable_latched).runFrom p hset
    rw [← silent_exchanges, htrace, scrapeLegs_of_set hend, silent_append, silent_exchanges]
    exact ⟨hlisting.silent hset, silent_nil⟩
  · rw [← rejected_exchanges, htrace, rejected_append, rejected_exchanges] at hrejected
    rw [hstate]
    rcases hrejected with h | h
    · rw [scrapeLegs_of_set (hlisting.latched h)]
      exact hlisting.latched h
    · obtain ⟨rs, hrs⟩ := exists_scrapeLegs_eq_walk p w
      rw [hrs] at hspares h ⊢
      exact isSet_of_rejected_walk hspares h

/-! ### Sessions -/

/-- The lookups an operation consists of. -/
def Operation.lookups (p : Provider π) (w : Moment π Collector) :
    Operation → List (Leg π Collector Lookup)
  | .resources => []
  | .lookup q => [⟨q, w⟩]
  | .scrape => scrapeLegs p w

theorem quiet_operation_iff (p : Provider π) (op : Operation) (w : Moment π Collector) :
    Quiet (op.program.runFrom p w).trace ↔ ∀ l ∈ op.lookups p w, Spares p l := by
  cases op with
  | resources =>
    rw [Operation.program, runFrom_bind_pure]
    exact iff_of_true obeys_resources.quiet fun l hl => absurd hl List.not_mem_nil
  | lookup q =>
    rw [Operation.program, runFrom_bind_pure]
    have hlookup := quiet_lookup_iff (p := p) (l := ⟨q, w⟩)
    exact hlookup.trans (by simp [Operation.lookups])
  | scrape =>
    rw [Operation.program, runFrom_bind_pure]
    exact quiet_scrape_iff p w

theorem Obeys.bind_pure {q : Program Collector α} {β : Type} {g : α → β}
    (h : Obeys w (q.runFrom p w)) : Obeys w ((q >>= fun a => pure (g a)).runFrom p w) := by
  rw [runFrom_bind_pure]
  exact ⟨h.silent, h.quiet, h.latched⟩

theorem obeys_operation {op : Operation} (hspares : ∀ l ∈ op.lookups p w, Spares p l) :
    Obeys w (op.program.runFrom p w) := by
  cases op with
  | resources => exact obeys_resources.bind_pure
  | lookup q =>
    have hlookup : Obeys w (q.program.runFrom p w) :=
      obeys_lookup (hspares ⟨q, w⟩ List.mem_cons_self)
    exact hlookup.bind_pure
  | scrape => exact (obeys_scrape hspares).bind_pure

/-- In a session no call is made after the credentials have been rejected, in the same operation or
a later one, if and only if every lookup of a cluster under way at that moment finds the figures of
the brokers it has not come to yet. -/
theorem quiet_session_iff (p : Provider π) (now : Nat) (s : Collector)
    (turns : List (Turn π Operation)) :
    Quiet ((play p Operation.program now s turns).flatMap fun o =>
        (legOutcome p Operation.program o).trace) ↔
      ∀ o ∈ play p Operation.program now s turns,
        ∀ l ∈ o.item.lookups p o.start, Spares p l := by
  rw [Quiet, List.pairwise_flatMap]
  constructor
  · rintro ⟨hops, -⟩ o ho
    exact (quiet_operation_iff p o.item o.start).mp (hops o ho)
  · intro hspares
    refine ⟨fun o ho => (quiet_operation_iff p o.item o.start).mpr (hspares o ho), ?_⟩
    have hkept := play_pairwise p Operation.program (I := fun s : Collector => s.latch.isSet = true)
      (fun op _ => (operation_keeps stable_latched op).runFrom p) now s turns
    refine hkept.imp_of_mem fun ha hb hab g hg x hx hrejection => ?_
    have hset := hab ((obeys_operation (hspares _ ha)).latched ⟨g, hg, hrejection⟩)
    exact (obeys_operation (hspares _ hb)).silent hset x hx

/-! ### A cluster whose first broker rejects the credentials -/

def deniedProvider : Provider Unit := .steady 1 fun
  | .list _ => .ok []
  | .statistics q =>
    if q.dimension? brokerDimension = some "1" then .error ⟨some 403, "denied"⟩
    else .ok []

def twoBrokers : Resource where
  identifier := "dev-events"
  instanceClass := "kafka.m5.large"
  engine := .kafka
  level := .cluster
  dimension := "Cluster Name"
  brokerId := none
  brokerCount := 2
  collectedAt := ⟨0, 0⟩

def clusterTurn : Turn Unit Operation where
  op := .lookup ⟨.cpu, "dev-events", twoBrokers⟩
  pause := 0
  wall := ⟨0, 0⟩
  memory := ()

/-- The second broker is asked although the first has rejected the credentials. -/
theorem exists_call_after_rejection :
    ¬ ∀ (p : Provider Unit) (now : Nat) (settings : CollectorSettings) (environment : String)
      (turns : List (Turn Unit Operation)),
      Quiet ((play p Operation.program now (new settings environment) turns).flatMap fun o =>
        (legOutcome p Operation.program o).trace) := by
  intro h
  have hquiet := h deniedProvider 0 ⟨60, 60, ∅, "dev"⟩ "dev" [clusterTurn]
  exact absurd hquiet (by decide +kernel)

end PeakUsage.Collector
