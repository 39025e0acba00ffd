import PeakUsage.Proofs.Collector.Operations
import PeakUsage.Proofs.Peaks.Lookups
import PeakUsage.Proofs.Tasks

/-! The queries that programs make, also when any number of them share one state and take their
steps in any order. -/
namespace PeakUsage
namespace Program
variable {π σ τ α β : Type}

/-- Every query a program makes has a property, and so has every state it saves, if the states it
finds have theirs. -/
def Asks (I : σ → Prop) (P : MetricQuery → Prop) : Program σ α → Prop
  | done _ => True
  | halt _ => True
  | look k => ∀ c s, I s → (k c s).Asks I P
  | save s k => I s ∧ k.Asks I P
  | log _ k => k.Asks I P
  | ask r k => (∀ q, r = .statistics q → P q) ∧ ∀ x, (k x).Asks I P

namespace Asks
variable {I : σ → Prop} {P : MetricQuery → Prop}

theorem bind {q : Program σ α} {f : α → Program σ β} (hq : q.Asks I P)
    (hf : ∀ a, (f a).Asks I P) : (q >>= f).Asks I P := by
  change (q.bind f).Asks I P
  induction q with
  | done a => exact hf a
  | halt e => exact trivial
  | look k ih => exact fun c s hs => ih c s (hq c s hs)
  | save s k ih => exact ⟨hq.1, ih hq.2⟩
  | log e k ih => exact ih hq
  | ask r k ih => exact ⟨hq.1, fun x => ih x (hq.2 x)⟩

theorem each {f : β → Program σ α} {bs : List β} (hf : ∀ b ∈ bs, (f b).Asks I P) :
    (each f bs).Asks I P := by
  induction bs with
  | nil => exact trivial
  | cons b rest ih =>
    refine (hf b List.mem_cons_self).bind fun _ => ?_
    exact (ih fun c hc => hf c (List.mem_cons_of_mem b hc)).bind fun _ => trivial

/-- What a program over a part asks, if what it saves of the part leaves the whole in order. -/
theorem within {get : σ → τ} {put : τ → σ → σ} {J : τ → Prop} (hget : ∀ s, I s → J (get s))
    (hput : ∀ t s, J t → I s → I (put t s)) {q : Program τ α} (hq : q.Asks J P) :
    (within get put q).Asks I P := by
  induction q with
  | done a => exact trivial
  | halt e => exact trivial
  | look k ih => exact fun c s hs => ih c (get s) (hq c (get s) (hget s hs))
  | save t k ih => exact fun c s hs => ⟨hput t s hq.1 hs, ih hq.2⟩
  | log e k ih => exact ih hq
  | ask r k ih => exact ⟨hq.1, fun x => ih x (hq.2 x)⟩

/-- What a run to the end has asked. -/
theorem runFrom {q : Program σ α} (hq : q.Asks I P) (p : Provider π) {w : Moment π σ}
    (hw : I w.state) {m : MetricQuery}
    (hm : .asked (.statistics m) ∈ (q.runFrom p w).trace) : P m := by
  induction q generalizing w with
  | done a => exact absurd hm List.not_mem_nil
  | halt e => exact absurd hm List.not_mem_nil
  | look k ih => exact ih _ _ (hq _ _ hw) hw hm
  | save s k ih => exact ih hq.2 (w := { w with state := s }) hq.1 hm
  | log e k ih =>
    rw [runFrom_log] at hm
    rcases List.mem_cons.mp hm with h | hm
    · exact absurd h nofun
    · exact ih hq hw hm
  | ask r k ih =>
    rw [runFrom_ask] at hm
    rcases List.mem_cons.mp hm with h | hm
    · exact hq.1 m (Happening.asked.inj h).symm
    · rcases List.mem_cons.mp hm with h | hm
      · exact absurd h nofun
      · exact ih _ (hq.2 _) (w := w.answered p r) hw hm

end Asks

section
variable {f : β → Program σ α} {I : σ → Prop} {P : MetricQuery → Prop}

theorem Advances.asks {s t : σ} {q r : Program σ α} (h : Advances s q t r) (hs : I s)
    (hq : q.Asks I P) : I t ∧ r.Asks I P := by
  cases h with
  | look c k => exact ⟨hs, hq c s hs⟩
  | save t k => exact hq
  | log e k => exact ⟨hs, hq⟩
  | ask r x k => exact ⟨hs, hq.2 x⟩

/-- Whatever tasks get to, a query that one of them is about to make has the property. -/
theorem Reached.asks (hf : ∀ b, (f b).Asks I P) {s : σ} (hs : I s) {x : Shared σ α}
    (hx : Reached f s x) {m : MetricQuery} {k : Reply (.statistics m) → Program σ α}
    (hm : ask (.statistics m) k ∈ x.tasks) : P m :=
  ((hx.forall_tasks hf Advances.asks hs).2 _ hm).1 m rfl

end

end Program

open Program

/-! ### The inventory -/

namespace Inventory
variable {P : MetricQuery → Prop}

theorem insertAll_asks (xs : List Placement) : (insertAll xs).Asks (fun _ => True) P := by
  induction xs with
  | nil => exact trivial
  | cons x rest ih =>
    refine Asks.bind (fun c s _ => ?_) fun _ => ih
    dsimp only
    split
    · exact ⟨trivial, trivial⟩
    · exact trivial

theorem listFrom_asks (time : Timestamp) (families : List Family) :
    (listFrom time families).Asks (fun _ => True) P := by
  induction families generalizing time with
  | nil => exact trivial
  | cons family rest ih =>
    refine ⟨nofun, fun reply _ _ _ => ?_⟩
    cases reply with
    | error e => exact trivial
    | ok rows => exact fun _ _ _ => (insertAll_asks _).bind fun _ => (ih _).bind fun _ => trivial

theorem refresh_asks : refresh.Asks (fun _ => True) P :=
  fun c _ _ => (listFrom_asks c.wall Family.all).bind fun _ _ _ _ => ⟨trivial, trivial⟩

/-- Looking at the resources makes no query. -/
theorem resources_asks : resources.Asks (fun _ => True) P := by
  intro c _ _ _ s _
  change (if s.needsRefresh c.now then _ else _ : Program Inventory _).Asks _ P
  split
  · refine refresh_asks.bind fun x => ?_
    cases x with
    | error e => exact trivial
    | ok n => exact fun _ _ _ => ⟨trivial, trivial⟩
  · exact fun _ _ _ => ⟨trivial, trivial⟩

end Inventory

/-! ### The figures -/

namespace Peaks
variable {P : MetricQuery → Prop} {lookback : Nat}

/-- The length of the window stays as it was set. -/
def LooksBack (lookback : Nat) (s : Peaks) : Prop := s.lookback = lookback

theorem keep_asks (key : FigureKey) (v : Float) : (keep key v).Asks (LooksBack lookback) P := by
  intro c s hs
  dsimp only
  split
  · exact ⟨hs, trivial⟩
  · exact trivial

theorem total_asks (key : FigureKey) {plan : List MetricQuery} (hplan : ∀ q ∈ plan, P q)
    (sum : Float) : (total key plan sum).Asks (LooksBack lookback) P := by
  induction plan generalizing sum with
  | nil => exact trivial
  | cons q rest ih =>
    have hq := hplan q List.mem_cons_self
    refine ⟨fun _ h => Request.statistics.inj h ▸ hq, fun reply => ?_⟩
    cases reply with
    | error e => exact trivial
    | ok points => exact ih (fun q hq => hplan q (List.mem_cons_of_mem _ hq)) _

/-- A lookup makes no queries but those of its plan. -/
theorem Lookup.asks (l : Lookup) (hplan : ∀ q ∈ l.plan lookback, P q) :
    l.program.Asks (LooksBack lookback) P := by
  intro c s hs
  dsimp only
  split
  · exact trivial
  · refine ⟨hs, Asks.bind ?_ fun x => ?_⟩
    · obtain rfl := hs
      exact total_asks l.key hplan 0.0
    · cases x with
      | error e => exact trivial
      | ok v => exact (keep_asks l.key v).bind fun _ => trivial

/-- A call makes no queries but those of its lookups. -/
theorem Call.asks (c : Call) (hplan : ∀ l ∈ c.lookups, ∀ q ∈ l.plan lookback, P q) :
    c.program.Asks (LooksBack lookback) P := by
  by_cases hfans : c.FansOut
  · obtain ⟨key, r, -, hlookups, hprogram⟩ := Call.of_fansOut hfans
    rw [hprogram]
    rw [hlookups] at hplan
    refine Asks.bind (Asks.each fun id hid => ?_) fun _ => trivial
    exact (brokerPart r id).asks (hplan _ (List.mem_map_of_mem hid))
  · rcases Call.of_not_fansOut hfans with ⟨l, hlookups, hprogram⟩ | ⟨-, e, hprogram⟩
    · rw [hprogram]
      exact l.asks (hplan l (by rw [hlookups]; exact List.mem_cons_self))
    · rw [hprogram]
      exact trivial

end Peaks

/-! ### The collector -/

namespace Collector
variable {P : MetricQuery → Prop} {lookback : Nat}

def LooksBack (lookback : Nat) (s : Collector) : Prop := s.peaks.LooksBack lookback

theorem note_asks (e : Event) : (note e).Asks (LooksBack lookback) P := fun _ _ _ => trivial

theorem observe_asks (e : Failure) : (observe e).Asks (LooksBack lookback) P := by
  intro _ s _
  change (if s.latch.trips e then _ else _ : Program Collector Unit).Asks _ P
  split
  · exact fun _ _ hs => ⟨hs, note_asks _⟩
  · exact trivial

theorem guarded_asks {α : Type} {q : Program Collector (Except Failure α)}
    (hq : q.Asks (LooksBack lookback) P) : (guarded q).Asks (LooksBack lookback) P := by
  intro _ s _
  change (if s.latch.isSet then _ else _ : Program Collector (Except Failure α)).Asks _ P
  split
  · exact (note_asks _).bind fun _ => trivial
  · refine hq.bind fun x => ?_
    cases x with
    | ok a => exact trivial
    | error e => exact (observe_asks e).bind fun _ => trivial

theorem record_asks (rep : Report) (r : Resource) (figure : Figure) (x : Except Failure Float) :
    (record rep r figure x).Asks (LooksBack lookback) P := by
  cases x with
  | ok v => exact trivial
  | error e =>
    unfold record
    dsimp only
    split
    · exact (note_asks _).bind fun _ => trivial
    · split
      · exact (note_asks _).bind fun _ => trivial
      · exact trivial

theorem resources_asks : resources.Asks (LooksBack lookback) P := by
  refine guarded_asks fun c _ _ _ s _ => ?_
  have hlisting : (inInventory Inventory.resources).Asks (LooksBack lookback) P := by
    refine Inventory.resources_asks.within ?_ ?_
    · exact fun _ _ => trivial
    · exact fun _ _ _ hs => hs
  refine hlisting.bind fun x => ?_
  cases x with
  | error e => exact trivial
  | ok rs =>
    change (if s.inventory.needsRefresh c.now then _ else _ : Program Collector _).Asks _ P
    split
    · exact (note_asks _).bind fun _ => trivial
    · exact trivial

section
variable (hcall : ∀ c : Peaks.Call, ∀ l ∈ c.lookups, ∀ q ∈ l.plan lookback, P q)
include hcall

theorem lookup_asks (q : Lookup) : q.program.Asks (LooksBack lookback) P := by
  have hfigure (c : Peaks.Call) : (guarded (inPeaks c.program)).Asks (LooksBack lookback) P := by
    refine guarded_asks ((c.asks (hcall c)).within ?_ ?_)
    · exact fun _ hs => hs
    · exact fun _ _ ht _ => ht
  obtain ⟨figure, key, r⟩ := q
  cases figure with
  | cpu => exact hfigure (.cpu key r)
  | memory => exact hfigure (.memory key r)

theorem visit_asks (rep : Report) (r : Resource) : (visit rep r).Asks (LooksBack lookback) P := by
  refine (lookup_asks hcall ⟨.cpu, r.usageKey, r⟩).bind fun x => ?_
  refine (record_asks rep r .cpu x).bind fun (rep, found) => ?_
  dsimp only
  split
  · refine (lookup_asks hcall ⟨.memory, r.usageKey, r⟩).bind fun x => ?_
    exact (record_asks rep r .memory x).bind fun _ => trivial
  · exact trivial

theorem visitAll_asks (rep : Report) (rs : List Resource) :
    (visitAll rep rs).Asks (LooksBack lookback) P := by
  induction rs generalizing rep with
  | nil => exact trivial
  | cons r rest ih =>
    intro _ s _
    change (if s.latch.isSet then _ else _ : Program Collector Report).Asks _ P
    split
    · exact trivial
    · exact (visit_asks hcall rep r).bind fun rep => ih rep

theorem scrape_asks : scrape.Asks (LooksBack lookback) P := by
  intro _ _ _
  refine resources_asks.bind fun x => ?_
  cases x with
  | error e =>
    dsimp only
    split
    · exact (note_asks _).bind fun _ _ _ _ _ _ _ => trivial
    · exact fun _ _ _ _ _ _ => trivial
  | ok rs =>
    exact (visitAll_asks hcall _ rs).bind fun _ _ _ _ _ _ _ => (note_asks _).bind fun _ => trivial

/-- An operation makes no queries but those of lookups. -/
theorem operation_asks (op : Operation) : op.program.Asks (LooksBack lookback) P := by
  cases op with
  | resources => exact resources_asks.bind fun _ => trivial
  | lookup q => exact (lookup_asks hcall q).bind fun _ => trivial
  | scrape => exact (scrape_asks hcall).bind fun _ => trivial

end

end Collector

end PeakUsage
