import PeakUsage.Proofs.Collector.Operations
import PeakUsage.Proofs.Peaks.Maxima

/-! No figure that a collector keeps, answers or reports is a NaN or below zero. -/
namespace PeakUsage
open Program Number

namespace Report

def Proper (rep : Report) : Prop := ∀ x ∈ rep.samples, Nonnegative x.value

theorem Proper.add {rep : Report} (h : rep.Proper) {x : Sample} (hx : Nonnegative x.value) :
    Proper { rep with samples := rep.samples ++ [x] } :=
  List.forall_mem_append.mpr ⟨h, List.forall_mem_singleton.mpr hx⟩

end Report

namespace Collector

def Proper (s : Collector) : Prop := s.peaks.Proper

def Answer.Proper : Answer → Prop
  | .listing _ => True
  | .figure x => Peaks.ProperAnswer x
  | .report rep => rep.Proper

theorem proper_new (settings : CollectorSettings) (environment : String) :
    (new settings environment).Proper :=
  Peaks.proper_new settings.scrapeInterval settings.lookback

theorem note_delivers (e : Event) : (note e).Delivers Proper fun _ => True := fun _ _ _ => trivial

theorem observe_delivers (e : Failure) : (observe e).Delivers Proper fun _ => True := by
  intro _ s _
  change (if s.latch.trips e then _ else _ : Program Collector Unit).Delivers _ _
  split
  · exact fun _ s hs => ⟨hs, note_delivers _⟩
  · exact trivial

theorem guarded_delivers {α : Type} {P : Except Failure α → Prop} (hdisabled : P (.error .disabled))
    {q : Program Collector (Except Failure α)} (hq : q.Delivers Proper P) :
    (guarded q).Delivers Proper P := by
  intro _ s _
  change (if s.latch.isSet then _ else _ : Program Collector (Except Failure α)).Delivers _ _
  split
  · exact (note_delivers _).bind fun _ _ => hdisabled
  · refine hq.bind fun x hx => ?_
    cases x with
    | ok a => exact hx
    | error e => exact (observe_delivers e).bind fun _ _ => hx

theorem resources_delivers : resources.Delivers Proper fun _ => True := by
  refine guarded_delivers trivial fun c _ _ _ s _ => ?_
  have hlisting : (inInventory Inventory.resources).Delivers Proper fun _ => True := by
    refine .of_keeps (keeps_within ?_ _)
    exact fun _ _ hs => hs
  refine hlisting.bind fun x _ => ?_
  cases x with
  | error e => exact trivial
  | ok rs =>
    change (if s.inventory.needsRefresh c.now then _ else _ : Program Collector _).Delivers _ _
    split
    · exact (note_delivers _).bind fun _ _ => trivial
    · exact trivial

theorem lookup_delivers (q : Lookup) : q.program.Delivers Proper Peaks.ProperAnswer := by
  have hcall (c : Peaks.Call) :
      (guarded (inPeaks c.program)).Delivers Proper Peaks.ProperAnswer := by
    refine guarded_delivers (fun v hv => absurd hv nofun) (c.delivers.within ?_ ?_)
    · exact fun _ hs => hs
    · exact fun _ _ ht _ => ht
  obtain ⟨figure, key, r⟩ := q
  cases figure with
  | cpu => exact hcall (.cpu key r)
  | memory => exact hcall (.memory key r)

theorem record_delivers {rep : Report} (hrep : rep.Proper) (r : Resource) (figure : Figure)
    {x : Except Failure Float} (hx : Peaks.ProperAnswer x) :
    (record rep r figure x).Delivers Proper fun y => y.1.Proper := by
  cases x with
  | ok v => exact hrep.add hx
  | error e =>
    unfold record
    dsimp only
    split
    · next v hv => exact (note_delivers _).bind fun _ _ => hrep.add (hx v hv)
    · split
      · exact (note_delivers _).bind fun _ _ => hrep
      · exact hrep

theorem visit_delivers {rep : Report} (hrep : rep.Proper) (r : Resource) :
    (visit rep r).Delivers Proper Report.Proper := by
  refine (lookup_delivers ⟨.cpu, r.usageKey, r⟩).bind fun x hx => ?_
  refine (record_delivers hrep r .cpu hx).bind fun (rep, found) hrep => ?_
  dsimp only
  split
  · refine (lookup_delivers ⟨.memory, r.usageKey, r⟩).bind fun x hx => ?_
    exact (record_delivers hrep r .memory hx).bind fun _ hrep => hrep
  · exact hrep

theorem visitAll_delivers {rep : Report} (hrep : rep.Proper) (rs : List Resource) :
    (visitAll rep rs).Delivers Proper Report.Proper := by
  induction rs generalizing rep with
  | nil => exact hrep
  | cons r rest ih =>
    intro _ s _
    change (if s.latch.isSet then _ else _ : Program Collector Report).Delivers _ _
    split
    · exact hrep
    · exact (visit_delivers hrep r).bind fun rep hrep => ih hrep

theorem scrape_delivers : scrape.Delivers Proper Report.Proper := by
  have hnone {rep : Report} (h : rep.samples = []) : rep.Proper := by
    intro x hx
    rw [h] at hx
    exact absurd hx List.not_mem_nil
  intro _ _ _
  refine resources_delivers.bind fun x _ => ?_
  cases x with
  | error e =>
    dsimp only
    split
    · exact (note_delivers _).bind fun _ _ _ _ _ _ _ _ => hnone (by split <;> rfl)
    · exact fun _ _ _ _ _ _ => hnone (by split <;> rfl)
  | ok rs =>
    exact (visitAll_delivers (hnone rfl) rs).bind fun _ hrep _ _ _ _ _ _ =>
      (note_delivers _).bind fun _ _ => hrep

theorem operation_delivers (op : Operation) : op.program.Delivers Proper Answer.Proper := by
  cases op with
  | resources => exact resources_delivers.bind fun _ _ => trivial
  | lookup q => exact (lookup_delivers q).bind fun _ hx => hx
  | scrape => exact scrape_delivers.bind fun _ hrep => hrep

end Collector

end PeakUsage
