import PeakUsage.Exporter.Service
import PeakUsage.Proofs.Collector.Maxima
import PeakUsage.Proofs.Gauges.Publication

/-! No figure that is kept, answered, reported or published is a NaN or below zero, whatever the
provider answers and however many tasks are under way. -/
namespace PeakUsage
open Program Number

namespace Gauges

/-- No series has such a value. -/
def Proper (usage : Std.ExtTreeMap Series Float) : Prop :=
  ∀ (s : Series) (v : Float), usage[s]? = some v → Nonnegative v

/-- Also between any two steps of a publication no series has such a value. -/
theorem Proper.steps {usage : Std.ExtTreeMap Series Float} (husage : Proper usage)
    {made : List Step} (hmade : ∀ s v, Step.set s v ∈ made → Nonnegative v) :
    Proper (made.foldl Step.apply usage) := by
  induction made generalizing usage with
  | nil => exact husage
  | cons step rest ih =>
    refine ih ?_ fun s v h => hmade s v (List.mem_cons_of_mem _ h)
    intro t v hv
    cases step with
    | set s u =>
      rw [getElem?_apply_set] at hv
      split at hv
      · obtain rfl := Option.some.inj hv
        exact hmade s u List.mem_cons_self
      · exact husage t v hv
    | remove s =>
      rw [getElem?_apply_remove] at hv
      split at hv
      · exact absurd hv nofun
      · exact husage t v hv

theorem Proper.publish {g : Gauges} (hg : Proper g.usage) (environment : String)
    {samples : List Sample} (hsamples : ∀ x ∈ samples, Nonnegative x.value) :
    Proper (g.publish environment samples).usage := by
  refine hg.steps fun s v h => ?_
  simp only [Gauges.steps, List.mem_append, List.mem_map, Step.set.injEq, reduceCtorEq, and_false,
    exists_false, or_false] at h
  obtain ⟨x, hx, -, rfl⟩ := h
  exact hsamples x hx

end Gauges

namespace Exporter

/-- Neither what is kept nor what is shown is such a figure. -/
structure Proper (s : Exporter) : Prop where
  collector : s.collector.Proper
  latest : ∀ x ∈ s.outlets.latest.samples, Nonnegative x.value
  usage : Gauges.Proper s.outlets.gauges.usage

/-- What an exporter is asked to do. -/
inductive Task where
  | opening
  | cycle
  | operation (op : Collector.Operation)

def Task.program : Task → Program Exporter (Option Collector.Answer)
  | .opening => do
    Service.opening
    pure none
  | .cycle => do
    let rep ← Exporter.cycle
    pure (some (.report rep))
  | .operation op => do
    let a ← inCollector op.program
    pure (some a)

theorem inCollector_delivers {α : Type} {P : α → Prop} {q : Program Collector α}
    (hq : q.Delivers Collector.Proper P) : (inCollector q).Delivers Proper P := by
  refine hq.within ?_ ?_
  · exact fun _ hs => hs.collector
  · exact fun _ _ ht hs => ⟨ht, hs.latest, hs.usage⟩

theorem cycle_delivers : Exporter.cycle.Delivers Proper Report.Proper :=
  (inCollector_delivers Collector.scrape_delivers).bind fun _ hrep _ _ _ _ _ hs =>
    ⟨⟨hs.collector, hrep, hs.usage.publish _ hrep⟩, hrep⟩

theorem opening_delivers : Service.opening.Delivers Proper fun _ => True :=
  fun _ _ _ _ _ _ _ _ hs => ⟨⟨hs.collector, hs.latest, hs.usage⟩, trivial⟩

theorem task_delivers (t : Task) :
    t.program.Delivers Proper fun x => ∀ a, x = some a → a.Proper := by
  cases t with
  | opening => exact opening_delivers.bind fun _ _ a ha => absurd ha nofun
  | cycle => exact cycle_delivers.bind fun rep hrep a ha => Option.some.inj ha ▸ hrep
  | operation op =>
    refine (inCollector_delivers (Collector.operation_delivers op)).bind fun a ha b hb => ?_
    exact Option.some.inj hb ▸ ha

/-- The peak of a series is the greatest of zero and its numbers that are no NaN: it does not depend
on their order, and more datapoints never lower it. So whatever providers answer, and however the
tasks under way take their steps, none that keeps figures, answers with them, reports them or shows
them ever has one that is a NaN or below zero. -/
theorem figures_proper (points : List Datapoint) :
    (∃ n, rank (Peaks.peakOf points) = some n ∧ IsGreatest (insert 0 (Peaks.maxima points)) n) ∧
      (∀ more : List Datapoint, points.Perm more →
        rank (Peaks.peakOf points) = rank (Peaks.peakOf more)) ∧
      (∀ more : List Datapoint, points ⊆ more →
        atMost (Peaks.peakOf points) (Peaks.peakOf more) = true) ∧
      (∀ (ttl lookback : Nat) (x : Shared Peaks (Except Failure Float)),
        Reached Peaks.Call.program (Peaks.new ttl lookback) x →
          x.state.Proper ∧ ∀ a, done a ∈ x.tasks → Peaks.ProperAnswer a) ∧
      (∀ (settings : CollectorSettings) (environment : String)
        (x : Shared Collector Collector.Answer),
        Reached Collector.Operation.program (Collector.new settings environment) x →
          x.state.Proper ∧ ∀ a, done a ∈ x.tasks → a.Proper) ∧
      ∀ (settings : CollectorSettings) (environment label journal : String)
        (x : Shared Exporter (Option Collector.Answer)),
        Reached Task.program ⟨.new settings environment, .empty, label, journal⟩ x →
          x.state.Proper ∧ ∀ a, done (some a) ∈ x.tasks → a.Proper := by
  refine ⟨Peaks.exists_rank_peakOf points, fun more => Peaks.rank_peakOf_perm,
    fun more => Peaks.atMost_peakOf, fun ttl lookback x hx => ?_,
    fun settings environment x hx => ?_, fun settings environment label journal x hx => ?_⟩
  · exact hx.delivers Peaks.Call.delivers (Peaks.proper_new ttl lookback)
  · exact hx.delivers Collector.operation_delivers (Collector.proper_new settings environment)
  · have hnew : Proper ⟨.new settings environment, .empty, label, journal⟩ := by
      refine ⟨Collector.proper_new settings environment,
        fun x hx => absurd hx List.not_mem_nil, fun s v hv => ?_⟩
      exact absurd (hv.symm.trans Std.ExtTreeMap.getElem?_empty) nofun
    obtain ⟨hstate, hanswers⟩ := hx.delivers task_delivers hnew
    exact ⟨hstate, fun a ha => hanswers _ ha a rfl⟩

/-! ### A series with everything in it -/

/-- A datapoint without a number, a NaN, a negative one, and two that count. -/
def mixedPoints : List Datapoint :=
  [none, some (0.0 / 0.0), some (-3.0), some 2.5, some 1.0].map fun x => ⟨⟨0, 0⟩, x⟩

def mixedRow : Resource where
  identifier := "dev-orders"
  instanceClass := "db.r6g.large"
  engine := .docdb
  level := .node
  dimension := "DBInstanceIdentifier"
  brokerId := none
  brokerCount := 0
  collectedAt := ⟨0, 0⟩

def mixedAnswers : Provider Unit := .steady 1 fun
  | .list _ => .ok []
  | .statistics _ => .ok mixedPoints

theorem result_mixed :
    ((Peaks.Call.cpu "dev-orders" mixedRow).program.runFrom mixedAnswers
      ⟨(), ⟨0, ⟨0, 0⟩⟩, Peaks.new 100 60⟩).result = .ok (.ok 2.5) := rfl

/-- The greatest number of the series is the figure, in whichever order it comes, and more points
leave it or raise it; a call that is answered with the series comes to it. -/
theorem figures_proper_mixed :
    rank (Peaks.peakOf mixedPoints) = rank (2.5 : Float) ∧
      rank (Peaks.peakOf mixedPoints) = rank (Peaks.peakOf mixedPoints.reverse) ∧
      atMost (Peaks.peakOf mixedPoints)
        (Peaks.peakOf (⟨⟨0, 0⟩, some (1.0 / 0.0)⟩ :: mixedPoints)) = true ∧
      ∃ x, Reached Peaks.Call.program (Peaks.new 100 60) x ∧ done (.ok (2.5 : Float)) ∈ x.tasks ∧
        x.state.Proper ∧ Nonnegative 2.5 := by
  obtain ⟨-, hperm, hmore, hreached, -⟩ := figures_proper mixedPoints
  refine ⟨by decide +kernel, hperm _ (List.reverse_perm _).symm,
    hmore _ (List.subset_cons_self ..), ?_⟩
  have hstart : Reached Peaks.Call.program (Peaks.new 100 60)
      ⟨Peaks.new 100 60, [(Peaks.Call.cpu "dev-orders" mixedRow).program]⟩ :=
    .move .initial (.start ..)
  obtain ⟨r, hx, hresult⟩ := Reached.runFrom mixedAnswers
    (w := ⟨(), ⟨0, ⟨0, 0⟩⟩, Peaks.new 100 60⟩) hstart
  obtain rfl := hresult _ result_mixed
  obtain ⟨hstate, hanswers⟩ := hreached _ _ _ hx
  exact ⟨_, hx, List.mem_cons_self, hstate, hanswers _ List.mem_cons_self⟩

end Exporter

end PeakUsage
