import PeakUsage.Proofs.Collector.Operations

/-! Where runs halt. A write halts when the clock cannot show its deadline, and nothing else
does. -/
namespace PeakUsage
namespace Program
variable {π σ τ α β : Type}

/-- Wherever a program halts, the reading of the clock and the state have a property. -/
def HaltsOnly (H : Nat → σ → Prop) : Program σ α → Nat → σ → Prop
  | done _, _, _ => True
  | halt _, now, s => H now s
  | look k, now, s => ∀ wall, (k ⟨now, wall⟩ s).HaltsOnly H now s
  | save t k, now, _ => k.HaltsOnly H now t
  | log _ k, now, s => k.HaltsOnly H now s
  | ask _ k, _, _ => ∀ x now s, (k x).HaltsOnly H now s

section
variable {H : Nat → σ → Prop} {q : Program σ α} {now : Nat} {s : σ}

theorem HaltsOnly.bind {f : α → Program σ β} (hq : q.HaltsOnly H now s)
    (hf : ∀ a now s, (f a).HaltsOnly H now s) : (q >>= f).HaltsOnly H now s := by
  change (q.bind f).HaltsOnly H now s
  induction q generalizing now s with
  | done a => exact hf a now s
  | halt e => exact hq
  | look k ih => exact fun wall => ih _ _ (hq wall)
  | save t k ih => exact ih hq
  | log e k ih => exact ih hq
  | ask r k ih => exact fun x now s => ih x (hq x now s)

theorem HaltsOnly.mono {H' : Nat → σ → Prop} (hH : ∀ now s, H now s → H' now s)
    (hq : q.HaltsOnly H now s) : q.HaltsOnly H' now s := by
  induction q generalizing now s with
  | done a => exact trivial
  | halt e => exact hH now s hq
  | look k ih => exact fun wall => ih _ _ (hq wall)
  | save t k ih => exact ih hq
  | log e k ih => exact ih hq
  | ask r k ih => exact fun x now s => ih x (hq x now s)

/-- A run that halts ends where the program may halt. -/
theorem HaltsOnly.runFrom {p : Provider π} {w : Moment π σ}
    (hq : q.HaltsOnly H w.clock.now w.state) {e : ClockFault}
    (h : (q.runFrom p w).result = .error e) :
    H (q.runFrom p w).clock.now (q.runFrom p w).state := by
  induction q generalizing w with
  | done a => exact absurd h.symm (error_ne_ok e a)
  | halt f => exact hq
  | look k ih => exact ih _ _ (hq w.clock.wall) h
  | save t k ih => exact ih (w := { w with state := t }) hq h
  | log e k ih => exact ih hq h
  | ask r k ih => exact ih _ (w := w.answered p r) (hq _ _ _) h

end

theorem HaltsOnly.within {get : σ → τ} {put : τ → σ → σ} (hget : ∀ t s, get (put t s) = t)
    {H : Nat → τ → Prop} {q : Program τ α} {now : Nat} {s : σ} (hq : q.HaltsOnly H now (get s)) :
    (within get put q).HaltsOnly (fun now s => H now (get s)) now s := by
  induction q generalizing now s with
  | done a => exact trivial
  | halt e => exact hq
  | look k ih => exact fun wall => ih _ _ (hq wall)
  | save t k ih =>
    intro wall
    have hk : k.HaltsOnly H now (get (put t s)) := by
      rw [hget]
      exact hq
    exact ih hk
  | log e k ih => exact ih hq
  | ask r k ih => exact fun x now s => ih x (hq x now (get s))

theorem each_haltsOnly {H : Nat → σ → Prop} {f : β → Program σ α}
    (hf : ∀ b now s, (f b).HaltsOnly H now s) (bs : List β) (now : Nat) (s : σ) :
    (each f bs).HaltsOnly H now s := by
  induction bs generalizing now s with
  | nil => exact trivial
  | cons b rest ih => exact (hf b now s).bind fun _ now s => (ih now s).bind fun _ _ _ => trivial

end Program

open Program

/-! ### The inventory -/

namespace Inventory

/-- The clock cannot show the deadline of a row written now. -/
def OutOfTime (now : Nat) (s : Inventory) : Prop := Nanos.horizon ≤ now + s.ttl

theorem insert_haltsOnly (key : String) (r : Resource) (now : Nat) (s : Inventory) :
    (insert key r).HaltsOnly OutOfTime now s := by
  intro wall
  simp only [Expiring.set_eq]
  by_cases h : now + s.ttl < Nanos.horizon
  · simp only [h, if_true]
    exact trivial
  · simp only [h, if_false]
    exact Nat.not_lt.mp h

theorem insertAll_haltsOnly (xs : List Placement) (now : Nat) (s : Inventory) :
    (insertAll xs).HaltsOnly OutOfTime now s := by
  induction xs generalizing now s with
  | nil => exact trivial
  | cons x rest ih => exact (insert_haltsOnly x.key x.resource now s).bind fun _ => ih

theorem listFrom_haltsOnly (time : Timestamp) (families : List Family) (now : Nat)
    (s : Inventory) : (listFrom time families).HaltsOnly OutOfTime now s := by
  induction families generalizing time now s with
  | nil => exact trivial
  | cons family rest ih =>
    intro reply _ _ _
    cases reply with
    | error e => exact trivial
    | ok rows =>
      intro _
      refine (insertAll_haltsOnly _ _ _).bind fun _ now s => ?_
      exact (ih _ now s).bind fun _ _ _ => trivial

theorem refresh_haltsOnly (now : Nat) (s : Inventory) : refresh.HaltsOnly OutOfTime now s :=
  fun wall => (listFrom_haltsOnly wall Family.all now s).bind fun _ _ _ _ => trivial

theorem resources_haltsOnly (now : Nat) (s : Inventory) : resources.HaltsOnly OutOfTime now s := by
  intro _ _
  change (if s.needsRefresh now then _ else _ : Program Inventory _).HaltsOnly OutOfTime now s
  split
  · refine (refresh_haltsOnly now s).bind fun x now s => ?_
    cases x with
    | error e => exact trivial
    | ok n => exact fun _ => trivial
  · exact fun _ => trivial

end Inventory

/-! ### The figures -/

namespace Peaks

/-- The clock cannot show the deadline of a figure written now. -/
def OutOfTime (now : Nat) (s : Peaks) : Prop := Nanos.horizon ≤ now + s.ttl

theorem keep_haltsOnly (key : FigureKey) (v : Float) (now : Nat) (s : Peaks) :
    (keep key v).HaltsOnly OutOfTime now s := by
  intro wall
  simp only [Expiring.set_eq]
  by_cases h : now + s.ttl < Nanos.horizon
  · simp only [h, if_true]
    exact trivial
  · simp only [h, if_false]
    exact Nat.not_lt.mp h

theorem total_haltsOnly {H : Nat → Peaks → Prop} (key : FigureKey) (plan : List MetricQuery)
    (sum : Float) (now : Nat) (s : Peaks) : (total key plan sum).HaltsOnly H now s := by
  induction plan generalizing sum now s with
  | nil => exact trivial
  | cons q rest ih =>
    intro reply now s
    cases reply with
    | error e => exact trivial
    | ok points => exact ih _ now s

theorem lookup_haltsOnly (key : FigureKey) (plan : Nat → List MetricQuery) (now : Nat)
    (s : Peaks) : (lookup key plan).HaltsOnly OutOfTime now s := by
  intro _
  dsimp only
  split
  · exact trivial
  · refine (total_haltsOnly key _ 0.0 now _).bind fun x now s => ?_
    cases x with
    | error e => exact trivial
    | ok v => exact (keep_haltsOnly key v now s).bind fun _ _ _ => trivial

theorem cpu_haltsOnly (key : String) (r : Resource) (now : Nat) (s : Peaks) :
    (cpu key r).HaltsOnly OutOfTime now s := by
  unfold cpu
  split
  · refine (each_haltsOnly (fun id => ?_) _ now s).bind fun _ _ _ => trivial
    exact lookup_haltsOnly _ _
  · exact lookup_haltsOnly _ _ now s
  · exact lookup_haltsOnly _ _ now s

theorem memory_haltsOnly (key : String) (r : Resource) (now : Nat) (s : Peaks) :
    (memory key r).HaltsOnly OutOfTime now s := by
  unfold memory
  split
  · exact trivial
  · exact lookup_haltsOnly _ _ now s

end Peaks

/-! ### The collector -/

namespace Collector

/-- The clock cannot show the deadline of a row or a figure written now. -/
def OutOfTime (now : Nat) (s : Collector) : Prop :=
  s.inventory.OutOfTime now ∨ s.peaks.OutOfTime now

theorem inInventory_haltsOnly {α : Type} {q : Program Inventory α}
    (hq : ∀ now s, q.HaltsOnly Inventory.OutOfTime now s) (now : Nat) (s : Collector) :
    (inInventory q).HaltsOnly OutOfTime now s :=
  (HaltsOnly.within (fun _ _ => rfl) (hq now s.inventory)).mono fun _ _ => .inl

theorem inPeaks_haltsOnly {α : Type} {q : Program Peaks α}
    (hq : ∀ now s, q.HaltsOnly Peaks.OutOfTime now s) (now : Nat) (s : Collector) :
    (inPeaks q).HaltsOnly OutOfTime now s :=
  (HaltsOnly.within (fun _ _ => rfl) (hq now s.peaks)).mono fun _ _ => .inr

section
variable {H : Nat → Collector → Prop}

theorem note_haltsOnly (e : Event) (now : Nat) (s : Collector) : (note e).HaltsOnly H now s :=
  fun _ => trivial

theorem observe_haltsOnly (e : Failure) (now : Nat) (s : Collector) :
    (observe e).HaltsOnly H now s := by
  intro _
  change (if s.latch.trips e then _ else _ : Program Collector Unit).HaltsOnly H now s
  split
  · exact fun _ _ => trivial
  · exact trivial

theorem guarded_haltsOnly {α : Type} {q : Program Collector (Except Failure α)} {now : Nat}
    {s : Collector} (hq : q.HaltsOnly H now s) : (guarded q).HaltsOnly H now s := by
  intro _
  change (if s.latch.isSet then _ else _ : Program Collector (Except Failure α)).HaltsOnly H now s
  split
  · exact (note_haltsOnly .fetchSkipped now s).bind fun _ _ _ => trivial
  · refine hq.bind fun x now s => ?_
    cases x with
    | ok a => exact trivial
    | error e => exact (observe_haltsOnly e now s).bind fun _ _ _ => trivial

theorem record_haltsOnly (rep : Report) (r : Resource) (figure : Figure)
    (x : Except Failure Float) (now : Nat) (s : Collector) :
    (record rep r figure x).HaltsOnly H now s := by
  cases x with
  | ok v => exact trivial
  | error e =>
    cases h : e.partialPeak with
    | some v =>
      simp only [record, h]
      exact (note_haltsOnly _ now s).bind fun _ _ _ => trivial
    | none =>
      simp only [record, h]
      split
      · exact (note_haltsOnly _ now s).bind fun _ _ _ => trivial
      · exact trivial

end

theorem resources_haltsOnly (now : Nat) (s : Collector) :
    resources.HaltsOnly OutOfTime now s := by
  refine guarded_haltsOnly fun _ _ => ?_
  refine (inInventory_haltsOnly Inventory.resources_haltsOnly now s).bind fun x later t => ?_
  cases x with
  | error e => exact trivial
  | ok rs =>
    change (if s.inventory.needsRefresh now then _ else _ : Program Collector _).HaltsOnly _ later t
    split
    · exact (note_haltsOnly _ later t).bind fun _ _ _ => trivial
    · exact trivial

theorem lookup_haltsOnly (q : Lookup) (now : Nat) (s : Collector) :
    q.program.HaltsOnly OutOfTime now s := by
  obtain ⟨figure, key, r⟩ := q
  cases figure with
  | cpu => exact guarded_haltsOnly (inPeaks_haltsOnly (Peaks.cpu_haltsOnly key r) now s)
  | memory => exact guarded_haltsOnly (inPeaks_haltsOnly (Peaks.memory_haltsOnly key r) now s)

theorem visit_haltsOnly (rep : Report) (r : Resource) (now : Nat) (s : Collector) :
    (visit rep r).HaltsOnly OutOfTime now s := by
  refine (lookup_haltsOnly ⟨.cpu, r.usageKey, r⟩ now s).bind fun x now s => ?_
  refine (record_haltsOnly rep r .cpu x now s).bind fun (rep, found) now s => ?_
  dsimp only
  split
  · refine (lookup_haltsOnly ⟨.memory, r.usageKey, r⟩ now s).bind fun x now s => ?_
    exact (record_haltsOnly rep r .memory x now s).bind fun _ _ _ => trivial
  · exact trivial

theorem visitAll_haltsOnly (rep : Report) (rs : List Resource) (now : Nat) (s : Collector) :
    (visitAll rep rs).HaltsOnly OutOfTime now s := by
  induction rs generalizing rep now s with
  | nil => exact trivial
  | cons r rest ih =>
    intro _
    change (if s.latch.isSet then _ else _ : Program Collector Report).HaltsOnly OutOfTime now s
    split
    · exact trivial
    · exact (visit_haltsOnly rep r now s).bind fun rep now s => ih rep now s

theorem scrape_haltsOnly (now : Nat) (s : Collector) : scrape.HaltsOnly OutOfTime now s := by
  intro _
  refine (resources_haltsOnly now s).bind fun x now s => ?_
  cases x with
  | error e =>
    dsimp only
    split
    · exact (note_haltsOnly _ now s).bind fun _ _ _ _ _ => trivial
    · exact fun _ _ => trivial
  | ok rs =>
    refine (visitAll_haltsOnly _ rs now s).bind fun rep now s => ?_
    exact fun _ _ => (note_haltsOnly _ now s).bind fun _ _ _ => trivial

theorem operation_haltsOnly (op : Operation) (now : Nat) (s : Collector) :
    op.program.HaltsOnly OutOfTime now s := by
  cases op with
  | resources => exact (resources_haltsOnly now s).bind fun _ _ _ => trivial
  | lookup q => exact (lookup_haltsOnly q now s).bind fun _ _ _ => trivial
  | scrape => exact (scrape_haltsOnly now s).bind fun _ _ _ => trivial

end Collector
end PeakUsage
