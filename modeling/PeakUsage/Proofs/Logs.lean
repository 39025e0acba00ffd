import PeakUsage.Inventory
import PeakUsage.Peaks
import PeakUsage.Proofs.Runs

/-! What programs write to the log. The inventory and the figures write nothing. -/
namespace PeakUsage
namespace Program
variable {π σ τ α β : Type}

/-- Every line that a program logs is of a certain kind. -/
def Logs (S : LogEntry → Prop) : Program σ α → Prop
  | done _ => True
  | halt _ => True
  | look k => ∀ c s, (k c s).Logs S
  | save _ k => k.Logs S
  | log e k => S e ∧ k.Logs S
  | ask _ k => ∀ x, (k x).Logs S

section
variable {S : LogEntry → Prop} {q : Program σ α}

theorem Logs.bind {f : α → Program σ β} (hq : q.Logs S) (hf : ∀ a, (f a).Logs S) :
    (q >>= f).Logs S := by
  change (q.bind f).Logs S
  induction q with
  | done a => exact hf a
  | halt e => exact trivial
  | look k ih => exact fun c s => ih c s (hq c s)
  | save s k ih => exact ih hq
  | log e k ih => exact ⟨hq.1, ih hq.2⟩
  | ask r k ih => exact fun x => ih x (hq x)

theorem Logs.runFrom (hq : q.Logs S) (p : Provider π) (w : Moment π σ) :
    ∀ e, .logged e ∈ (q.runFrom p w).trace → S e := by
  intro e he
  induction q generalizing w with
  | done a => exact absurd he List.not_mem_nil
  | halt f => exact absurd he List.not_mem_nil
  | look k ih => exact ih _ _ (hq _ _) w he
  | save s k ih => exact ih hq { w with state := s } he
  | log e' k ih =>
    rw [runFrom_log, Outcome.after_trace, List.singleton_append] at he
    rcases List.mem_cons.mp he with h | h
    · obtain rfl := Happening.logged.inj h
      exact hq.1
    · exact ih hq.2 w h
  | ask r k ih =>
    rw [runFrom_ask, Outcome.after_trace] at he
    have hrest : .logged e ∈ ((k (w.reply p r)).runFrom p (w.answered p r)).trace := by
      simpa using he
    exact ih _ (hq _) (w.answered p r) hrest

theorem Logs.within {get : σ → τ} {put : τ → σ → σ} {q : Program τ α} (hq : q.Logs S) :
    (within get put q).Logs S := by
  induction q with
  | done a => exact trivial
  | halt e => exact trivial
  | look k ih => exact fun c s => ih c (get s) (hq c (get s))
  | save t k ih => exact fun c s => ih hq
  | log e k ih => exact ⟨hq.1, ih hq.2⟩
  | ask r k ih => exact fun x => ih x (hq x)

theorem each_logs {f : β → Program σ α} (hf : ∀ b, (f b).Logs S) (bs : List β) :
    (each f bs).Logs S := by
  induction bs with
  | nil => exact trivial
  | cons b rest ih => exact (hf b).bind fun _ => ih.bind fun _ => trivial

end

/-! ### Events -/

/-- The events among what happens. -/
def events (trace : List Happening) : List Event :=
  trace.filterMap fun
    | .logged e => some e.event
    | _ => none

@[simp] theorem events_append (a b : List Happening) : events (a ++ b) = events a ++ events b :=
  List.filterMap_append

theorem exists_of_mem_events {trace : List Happening} {e : Event} (he : e ∈ events trace) :
    ∃ entry : LogEntry, .logged entry ∈ trace ∧ entry.event = e := by
  obtain ⟨g, hg, hge⟩ := List.mem_filterMap.mp he
  cases g with
  | logged entry => exact ⟨entry, hg, Option.some.inj hge⟩
  | asked r => exact absurd hge nofun
  | answered r reply => exact absurd hge nofun

/-- A program that writes no line leaves no event. -/
theorem Logs.events_eq_nil {q : Program σ α} (hq : q.Logs fun _ => False) (p : Provider π)
    (w : Moment π σ) : events (q.runFrom p w).trace = [] := by
  rw [List.eq_nil_iff_forall_not_mem]
  intro e he
  obtain ⟨entry, hentry, -⟩ := exists_of_mem_events he
  exact hq.runFrom p w entry hentry

/-- The events of a certain name. -/
def named (name : String) (es : List Event) : List Event := es.filter (·.name = name)

@[simp] theorem named_append (name : String) (a b : List Event) :
    named name (a ++ b) = named name a ++ named name b :=
  List.filter_append ..

theorem named_eq_nil {name : String} {es : List Event} (h : ∀ e ∈ es, e.name ≠ name) :
    named name es = [] :=
  List.filter_eq_nil_iff.mpr fun e he => by simpa using h e he

end Program

open Program

variable {S : LogEntry → Prop}

namespace Inventory

theorem insertAll_logs (xs : List Placement) : (insertAll xs).Logs S := by
  induction xs with
  | nil => exact trivial
  | cons x rest ih =>
    refine Logs.bind (fun c s => ?_) fun _ => ih
    dsimp only
    split <;> exact trivial

theorem listFrom_logs (time : Timestamp) (families : List Family) :
    (listFrom time families).Logs S := by
  induction families generalizing time with
  | nil => exact trivial
  | cons family rest ih =>
    intro reply c s
    cases reply with
    | error e => exact trivial
    | ok rows => exact fun _ _ => (insertAll_logs _).bind fun _ => (ih _).bind fun _ => trivial

theorem refresh_logs : refresh.Logs S :=
  fun c _ => (listFrom_logs c.wall Family.all).bind fun _ _ _ => trivial

theorem resources_logs : resources.Logs S := by
  intro c _ _ s
  change (if s.needsRefresh c.now then _ else _ : Program Inventory _).Logs S
  split
  · refine refresh_logs.bind fun x => ?_
    cases x with
    | error e => exact trivial
    | ok n => exact fun _ _ => trivial
  · exact fun _ _ => trivial

end Inventory

namespace Peaks

theorem total_logs (key : FigureKey) (plan : List MetricQuery) (sum : Float) :
    (total key plan sum).Logs S := by
  induction plan generalizing sum with
  | nil => exact trivial
  | cons q rest ih =>
    intro reply
    cases reply with
    | error e => exact trivial
    | ok points => exact ih _

theorem lookup_logs (key : FigureKey) (plan : Nat → List MetricQuery) :
    (lookup key plan).Logs S := by
  intro c s
  dsimp only
  split
  · exact trivial
  · refine (total_logs key _ 0.0).bind fun x => ?_
    cases x with
    | error e => exact trivial
    | ok v =>
      refine Logs.bind (fun c s => ?_) fun _ => trivial
      dsimp only
      split <;> exact trivial

theorem cpu_logs (key : String) (r : Resource) : (cpu key r).Logs S := by
  unfold cpu
  split
  · exact (each_logs (fun _ => lookup_logs _ _) _).bind fun _ => trivial
  · exact lookup_logs _ _
  · exact lookup_logs _ _

theorem memory_logs (key : String) (r : Resource) : (memory key r).Logs S := by
  unfold memory
  split
  · exact trivial
  · exact lookup_logs _ _

end Peaks
end PeakUsage
