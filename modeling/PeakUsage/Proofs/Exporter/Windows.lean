import PeakUsage.Proofs.Asking
import PeakUsage.Proofs.Exporter.Maxima
import PeakUsage.Proofs.Peaks.Measured
import PeakUsage.Proofs.Time.Window

/-! The windows that figures are asked for: as long as set, as far as there are times. -/
namespace PeakUsage
open Program

/-- A query for the window of a length of time up to its end, as far as there are times. -/
structure MetricQuery.IsWindow (lookback : Nat) (q : MetricQuery) : Prop where
  start_eq : q.start = q.stop.back lookback
  start_exact : q.stop.InRange → ¬ q.stop.IsLeap →
    q.start = if Timestamp.earliest.nanos ≤ q.stop.nanos - lookback
      then .ofNanos (q.stop.nanos - lookback) else .earliest
  start_le : q.stop.InRange → q.start ≤ q.stop

/-- A longer window or one with an earlier end does not start later. -/
theorem MetricQuery.IsWindow.start_mono {d e : Nat} {q r : MetricQuery} (hq : q.IsWindow d)
    (hr : r.IsWindow e) (hqstop : q.stop.InRange) (hqleap : ¬ q.stop.IsLeap)
    (hrstop : r.stop.InRange) (hrleap : ¬ r.stop.IsLeap) (hle : d ≤ e) (hstop : r.stop ≤ q.stop) :
    r.start ≤ q.start := by
  have hback := Timestamp.saturates_back
  have hlength := hback.anti r.stop hrstop hrleap d e hle
  have hends := hback.mono r.stop q.stop hrstop hrleap hqstop hqleap hstop d
  rw [hr.start_eq, hq.start_eq]
  exact Timestamp.le_trans hlength hends

theorem Peaks.isWindow_query (lookback : Nat) (r : Resource) (metric : String)
    (broker : Option String) : (query lookback r metric broker).IsWindow lookback where
  start_eq := rfl
  start_exact h hleap := Timestamp.saturates_back.eq _ h hleap lookback
  start_le h := Timestamp.back_le h lookback

theorem Peaks.isWindow_of_mem_lookups (lookback : Nat) (c : Peaks.Call) :
    ∀ l ∈ c.lookups, ∀ q ∈ l.plan lookback, q.IsWindow lookback := by
  intro l hl q hq
  obtain ⟨metric, broker, rfl⟩ := Call.exists_query_of_mem_lookups hl hq
  exact isWindow_query lookback c.resource metric broker

/-! ### Tasks under way -/

theorem Peaks.isWindow_of_reached {ttl lookback : Nat} {x : Shared Peaks (Except Failure Float)}
    (hx : Reached Call.program (new ttl lookback) x) {q : MetricQuery}
    {k : Reply (.statistics q) → Program Peaks (Except Failure Float)}
    (hq : ask (.statistics q) k ∈ x.tasks) : q.IsWindow lookback := by
  have hnew : LooksBack lookback (new ttl lookback) := rfl
  exact hx.asks (fun c => c.asks (isWindow_of_mem_lookups lookback c)) hnew hq

theorem Collector.isWindow_of_reached {settings : CollectorSettings} {environment : String}
    {x : Shared Collector Answer} (hx : Reached Operation.program (new settings environment) x)
    {q : MetricQuery} {k : Reply (.statistics q) → Program Collector Answer}
    (hq : ask (.statistics q) k ∈ x.tasks) : q.IsWindow settings.lookback := by
  have hnew : LooksBack settings.lookback (new settings environment) := rfl
  have hcall := Peaks.isWindow_of_mem_lookups settings.lookback
  exact hx.asks (operation_asks hcall) hnew hq

namespace Exporter

def LooksBack (lookback : Nat) (s : Exporter) : Prop := s.collector.LooksBack lookback

theorem inCollector_asks {α : Type} {lookback : Nat} {P : MetricQuery → Prop}
    {q : Program Collector α} (hq : q.Asks (Collector.LooksBack lookback) P) :
    (inCollector q).Asks (LooksBack lookback) P := by
  refine hq.within ?_ ?_
  · exact fun _ hs => hs
  · exact fun _ _ ht _ => ht

theorem task_asks (lookback : Nat) (t : Task) :
    t.program.Asks (LooksBack lookback) (·.IsWindow lookback) := by
  have hcall := Peaks.isWindow_of_mem_lookups lookback
  cases t with
  | opening => exact fun _ _ _ _ _ _ _ _ hs => ⟨hs, trivial⟩
  | cycle =>
    have hcycle : Exporter.cycle.Asks (LooksBack lookback) (·.IsWindow lookback) :=
      (inCollector_asks (Collector.scrape_asks hcall)).bind fun _ _ _ _ _ _ hs => ⟨hs, trivial⟩
    exact hcycle.bind fun _ => trivial
  | operation op =>
    exact (inCollector_asks (Collector.operation_asks hcall op)).bind fun _ => trivial

theorem isWindow_of_reached {settings : CollectorSettings} {environment label journal : String}
    {x : Shared Exporter (Option Collector.Answer)}
    (hx : Reached Task.program ⟨.new settings environment, .empty, label, journal⟩ x)
    {q : MetricQuery} {k : Reply (.statistics q) → Program Exporter (Option Collector.Answer)}
    (hq : ask (.statistics q) k ∈ x.tasks) : q.IsWindow settings.lookback := by
  have hnew : LooksBack settings.lookback ⟨.new settings environment, .empty, label, journal⟩ := rfl
  exact hx.asks (task_asks settings.lookback) hnew hq

/-- Going back in time saturates at the first time there is, wherever the range of the spans ends.
Whatever tasks are under way, and however they take their steps, each of their queries is for the
window of the length that was set, which does not start after its end; of two windows the longer one
or that with an earlier end does not start later. -/
theorem windows_saturate {Span : Type} {a : Timestamp.Arithmetic Span} {length : Span → Nat}
    (ha : a.Exact length) :
    Timestamp.Saturates a.back ∧ Timestamp.calendar.Exact id ∧
      Timestamp.Saturates Timestamp.back ∧
      (∀ (d e : Nat) (q r : MetricQuery), q.IsWindow d → r.IsWindow e →
        q.stop.InRange → ¬ q.stop.IsLeap → r.stop.InRange → ¬ r.stop.IsLeap →
          d ≤ e → r.stop ≤ q.stop → r.start ≤ q.start) ∧
      (∀ (ttl lookback : Nat) (x : Shared Peaks (Except Failure Float)),
        Reached Peaks.Call.program (Peaks.new ttl lookback) x →
          ∀ q k, ask (.statistics q) k ∈ x.tasks → q.IsWindow lookback) ∧
      (∀ (settings : CollectorSettings) (environment : String)
        (x : Shared Collector Collector.Answer),
        Reached Collector.Operation.program (Collector.new settings environment) x →
          ∀ q k, ask (.statistics q) k ∈ x.tasks → q.IsWindow settings.lookback) ∧
      ∀ (settings : CollectorSettings) (environment label journal : String)
        (x : Shared Exporter (Option Collector.Answer)),
        Reached Task.program ⟨.new settings environment, .empty, label, journal⟩ x →
          ∀ q k, ask (.statistics q) k ∈ x.tasks → q.IsWindow settings.lookback := by
  refine ⟨ha.saturates, Timestamp.calendar_exact, Timestamp.saturates_back, ?_, ?_, ?_, ?_⟩
  · exact fun _ _ _ _ hq hr => hq.start_mono hr
  · exact fun _ _ _ hx _ _ hq => Peaks.isWindow_of_reached hx hq
  · exact fun _ _ _ hx _ _ hq => Collector.isWindow_of_reached hx hq
  · exact fun _ _ _ _ _ hx _ _ hq => isWindow_of_reached hx hq

/-! ### Lengths around that to the first time -/

/-- 2025-01-02T03:04:05Z. -/
def listed : Timestamp := ⟨1735787045, 0⟩

/-- From the first time there is until then. -/
def sinceFirst : Nat := Nanos.ofSeconds 8336337015845

/-- The longest length whose seconds are counted in 64 bits. -/
def longestLength : Nat := UInt64.size * Nanos.second - 1

def listedRow : Resource := { mixedRow with collectedAt := listed }

/-- A call for the figure of the row is about to ask for it. -/
theorem exists_reached_listedRow :
    ∃ x q k, Reached Peaks.Call.program (Peaks.new 100 longestLength) x ∧
      ask (.statistics q) k ∈ x.tasks ∧ q.stop = listed := by
  have hstart : Reached Peaks.Call.program (Peaks.new 100 longestLength)
      ⟨Peaks.new 100 longestLength, [(Peaks.Call.cpu "dev-orders" listedRow).program]⟩ :=
    .move .initial (.start ..)
  have hlook := hstart.move (.step [] [] (.look _ ⟨0, listed⟩ _))
  have hsave := hlook.move (.step [] [] (.save _ _ _))
  exact ⟨_, _, _, hsave, List.mem_cons_self, rfl⟩

/-- A length of a nanosecond less than that to the first time ends a nanosecond behind it; longer
ones all end there, also those that are too long for a span. -/
theorem windows_saturate_longest :
    Timestamp.calendar.Exact id ∧ listed.InRange ∧ ¬ listed.IsLeap ∧
      listed.back (sinceFirst - 1) = ⟨-8334601228800, 1⟩ ∧
      listed.back sinceFirst = .earliest ∧
      Timestamp.calendar.span? longestLength = none ∧
      listed.back longestLength = .earliest ∧
      listed.back longestLength ≤ listed.back 1 ∧
      ∃ x q k, Reached Peaks.Call.program (Peaks.new 100 longestLength) x ∧
        ask (.statistics q) k ∈ x.tasks ∧ q.start = .earliest ∧ q.stop = listed ∧
          q.start ≤ q.stop := by
  have hlisted : listed.InRange := by constructor <;> decide
  have hleap : ¬ listed.IsLeap := by decide
  obtain ⟨-, -, hback, -, hpeaks, -, -⟩ := windows_saturate Timestamp.calendar_exact
  have hnext : listed.back (sinceFirst - 1) = ⟨-8334601228800, 1⟩ :=
    (hback.eq listed hlisted hleap _).trans (by decide)
  have hfirst : listed.back sinceFirst = .earliest :=
    (hback.eq listed hlisted hleap _).trans (by decide)
  have hlongest : listed.back longestLength = .earliest :=
    (hback.eq listed hlisted hleap _).trans (by decide)
  refine ⟨Timestamp.calendar_exact, hlisted, hleap, hnext, hfirst, by decide, hlongest,
    hback.anti listed hlisted hleap 1 longestLength (by decide), ?_⟩
  obtain ⟨x, q, k, hx, hq, hstop⟩ := exists_reached_listedRow
  have hwindow := hpeaks 100 longestLength x hx q k hq
  refine ⟨x, q, k, hx, hq, ?_, hstop, hwindow.start_le (hstop ▸ hlisted)⟩
  rw [hwindow.start_eq, hstop]
  exact hlongest

end Exporter

end PeakUsage
