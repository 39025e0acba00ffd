import PeakUsage.Inventory
import PeakUsage.Proofs.Peaks.FanOut
import PeakUsage.Proofs.Rejection

/-! Listing the inventory and looking up a figure stop as soon as the credentials are rejected,
except for a lookup of a cluster, which goes on to its other brokers. -/
namespace PeakUsage
open Program

namespace Inventory

theorem insert_heeds (key : String) (r : Resource) : (insert key r).Heeds fun _ => False := by
  intro c s
  dsimp only
  split <;> exact trivial

theorem insertAll_heeds (xs : List Placement) : (insertAll xs).Heeds fun _ => False := by
  induction xs with
  | nil => exact trivial
  | cons x rest ih => exact (insert_heeds x.key x.resource).bind (fun _ => ih) nofun

theorem listFrom_heeds (time : Timestamp) (families : List Family) :
    (listFrom time families).Heeds SaysRejected := by
  induction families generalizing time with
  | nil => exact trivial
  | cons family rest ih =>
    intro reply
    cases reply with
    | error e => exact ⟨fun _ _ => trivial, fun hauth _ _ => hauth⟩
    | ok rows =>
      refine ⟨fun _ _ _ _ => (insertAll_heeds _).bind (fun _ => ?_) nofun, nofun⟩
      exact (ih _).bind_ok (fun _ => trivial) fun _ => rfl

theorem refresh_heeds : refresh.Heeds SaysRejected :=
  fun c _ => (listFrom_heeds c.wall Family.all).bind (fun _ _ _ => trivial) fun _ hx _ _ => hx

theorem resources_heeds : resources.Heeds SaysRejected := by
  intro c _ _ s
  change (if s.needsRefresh c.now then _ else _ : Program Inventory _).Heeds _
  split
  · exact refresh_heeds.bind_ok (fun _ _ _ => trivial) fun _ => rfl
  · exact fun _ _ => trivial

end Inventory

namespace Peaks

theorem keep_heeds (key : FigureKey) (value : Float) : (keep key value).Heeds fun _ => False := by
  intro c s
  dsimp only
  split <;> exact trivial

theorem total_heeds (key : FigureKey) (plan : List MetricQuery) (sum : Float) :
    (total key plan sum).Heeds SaysRejected := by
  induction plan generalizing sum with
  | nil => exact trivial
  | cons q rest ih =>
    intro reply
    cases reply with
    | error e => exact ⟨trivial, fun hauth => hauth⟩
    | ok points => exact ⟨ih _, nofun⟩

theorem lookup_heeds (key : FigureKey) (plan : Nat → List MetricQuery) :
    (lookup key plan).Heeds SaysRejected := by
  intro c s
  dsimp only
  split
  · exact trivial
  · refine (total_heeds key _ 0.0).bind_ok (fun v => ?_) fun _ => rfl
    exact (keep_heeds key v).bind (fun _ => trivial) nofun

theorem memory_heeds (key : String) (r : Resource) : (memory key r).Heeds SaysRejected := by
  unfold memory
  split
  · exact trivial
  · exact lookup_heeds _ _

theorem cpu_heeds (key : String) {r : Resource}
    (h : ¬ (r.engine = .kafka ∧ r.level = .cluster)) : (cpu key r).Heeds SaysRejected := by
  unfold cpu
  split
  · next hcombination hlevel =>
    refine absurd ⟨?_, hlevel⟩ h
    cases hengine : r.engine <;> simp_all [Engine.profile]
  · exact lookup_heeds _ _
  · exact lookup_heeds _ _

theorem brokerLookup_heeds (c : Resource) (id : Nat) : (brokerLookup c id).Heeds SaysRejected :=
  lookup_heeds _ _

/-! ### Clusters -/

section
variable {π : Type} (p : Provider π)

theorem runFrom_lookup_of_some {key : FigureKey} {w : Moment π Peaks} {v : Float}
    (h : w.state.cache.get? w.clock.now key = some v) (plan : Nat → List MetricQuery) :
    (lookup key plan).runFrom p w = ⟨.ok (.ok v), w.state, w.clock, w.memory, []⟩ := by
  rw [lookup, runFrom_look]
  simp only [h]
  rfl

theorem asked_lookup_of_none {key : FigureKey} {w : Moment π Peaks}
    (h : w.state.cache.get? w.clock.now key = none) {plan : Nat → List MetricQuery}
    (hplan : plan w.state.lookback ≠ []) :
    ∃ q ∈ plan w.state.lookback,
      .asked (.statistics q) ∈ ((lookup key plan).runFrom p w).trace := by
  obtain ⟨q, rest, hq⟩ := List.exists_cons_of_ne_nil hplan
  refine ⟨q, by rw [hq]; exact List.mem_cons_self, ?_⟩
  rw [lookup, runFrom_look]
  simp only [h, hq]
  exact List.mem_cons_self

theorem not_silent_lookup_of_none {key : FigureKey} {w : Moment π Peaks}
    (h : w.state.cache.get? w.clock.now key = none) {plan : Nat → List MetricQuery}
    (hplan : plan w.state.lookback ≠ []) : ¬ Silent ((lookup key plan).runFrom p w).trace := by
  obtain ⟨q, -, hq⟩ := asked_lookup_of_none p h hplan
  exact fun hsilent => absurd (hsilent _ hq) nofun

/-- No CPU figure comes without a query. -/
theorem cpuPlan_ne_nil (r : Resource) (broker : Option String) (lookback : Nat) :
    cpuPlan r broker lookback ≠ [] := by
  rw [cpuPlan]
  cases r.engine <;> simp [Engine.profile]

/-- Whether the figure of a broker is kept when its turn comes. -/
def isKept (c : Resource) (l : Leg π Peaks Nat) : Bool :=
  (l.start.state.cache.get? l.start.clock.now ⟨.cpu, brokerKey c.identifier l.item⟩).isSome

variable {c : Resource}

theorem legOutcome_of_isKept {l : Leg π Peaks Nat} (h : isKept c l = true) :
    ∃ v, legOutcome p (brokerLookup c) l =
      ⟨.ok (.ok v), l.start.state, l.start.clock, l.start.memory, []⟩ := by
  obtain ⟨v, hv⟩ := Option.isSome_iff_exists.mp h
  exact ⟨v, runFrom_lookup_of_some p hv _⟩

theorem silent_brokerLookup_iff (l : Leg π Peaks Nat) :
    Silent (legOutcome p (brokerLookup c) l).trace ↔ isKept c l = true := by
  constructor
  · intro hsilent
    cases hkept : isKept c l with
    | true => rfl
    | false =>
      have hnone := Option.isNone_iff_eq_none.mp (Option.isSome_eq_false_iff.mp hkept)
      exact absurd hsilent (not_silent_lookup_of_none p hnone (cpuPlan_ne_nil _ _ _))
  · intro hkept
    obtain ⟨v, hv⟩ := legOutcome_of_isKept p hkept
    rw [hv]
    exact silent_nil

/-- After a rejection at one broker, the figures of all later ones are kept already. -/
def Spares (c : Resource) (w : Moment π Peaks) : Prop :=
  (brokerLegs p c w).Pairwise fun a b =>
    Rejected (legOutcome p (brokerLookup c) a).trace → isKept c b = true

/-- A cluster lookup makes no call after a rejection if and only if there is no figure left to ask
for. -/
theorem quiet_clusterCpu_iff (w : Moment π Peaks) :
    Quiet ((clusterCpu c).runFrom p w).trace ↔ Spares p c w := by
  obtain ⟨htrace, -, -⟩ := runFrom_clusterCpu c p w
  rw [htrace, Quiet, List.pairwise_flatMap]
  constructor
  · rintro ⟨-, hpairs⟩
    refine hpairs.imp fun hab hrejected => (silent_brokerLookup_iff p _).mp ?_
    obtain ⟨g, hg, hrejection⟩ := hrejected
    exact fun x hx => hab g hg x hx hrejection
  · intro hspares
    refine ⟨fun l _ => ((brokerLookup_heeds c l.item).runFrom p l.start).1, ?_⟩
    refine hspares.imp fun hab g hg x hx hrejection => ?_
    exact (silent_brokerLookup_iff p _).mpr (hab ⟨g, hg, hrejection⟩) x hx

/-- Then none of the lookups halts: one before the rejection would have ended the cluster lookup,
one behind it writes nothing. -/
theorem ok_of_spares {w : Moment π Peaks} (hspares : Spares p c w) {a : Leg π Peaks Nat}
    (ha : a ∈ brokerLegs p c w) (hrejected : Rejected (legOutcome p (brokerLookup c) a).trace) :
    ∀ l ∈ brokerLegs p c w, ∃ x, (legOutcome p (brokerLookup c) l).result = .ok x := by
  have hlegs : (brokerLegs p c w).Pairwise _ :=
    relay_pairwise_ok p (brokerLookup c) (List.range' 1 c.brokerCount) w
  obtain ⟨before, behind, hsplit⟩ := List.append_of_mem ha
  rw [Spares, hsplit, List.pairwise_append, List.pairwise_cons] at hspares
  rw [hsplit, List.pairwise_append] at hlegs
  intro l hl
  rw [hsplit, List.mem_append, List.mem_cons] at hl
  rcases hl with hl | rfl | hl
  · exact hlegs.2.2 l hl a List.mem_cons_self
  · obtain ⟨e, he, -⟩ := ((brokerLookup_heeds c l.item).runFrom p l.start).2 hrejected
    exact ⟨_, he⟩
  · obtain ⟨v, hv⟩ := legOutcome_of_isKept p (hspares.2.1.1 l hl hrejected)
    exact ⟨_, congrArg Outcome.result hv⟩

/-- A cluster lookup that made no call after a rejection says that there was one. -/
theorem saysRejected_clusterCpu {w : Moment π Peaks} (hspares : Spares p c w)
    (hrejected : Rejected ((clusterCpu c).runFrom p w).trace) :
    ∃ x, ((clusterCpu c).runFrom p w).result = .ok x ∧ SaysRejected x := by
  obtain ⟨htrace, -, hresult⟩ := runFrom_clusterCpu c p w
  rw [htrace] at hrejected
  obtain ⟨g, hg, hrejection⟩ := hrejected
  obtain ⟨a, ha, hga⟩ := List.mem_flatMap.mp hg
  obtain ⟨y, hy, hsays⟩ := ((brokerLookup_heeds c a.item).runFrom p a.start).2 ⟨g, hga, hrejection⟩
  obtain ⟨e, rfl, hauth⟩ := hsays.exists_error
  obtain ⟨outcomes, houtcomes⟩ := exists_map_ok (ok_of_spares p hspares ha ⟨g, hga, hrejection⟩)
  have hmem : .error e ∈ outcomes := by
    have hmap := List.mem_map_of_mem (f := fun l => (legOutcome p (brokerLookup c) l).result) ha
    rw [houtcomes] at hmap
    obtain ⟨x, hx, hxe⟩ := List.mem_map.mp hmap
    exact Except.ok.inj (hxe.trans hy) ▸ hx
  rw [hresult, mapM_eq_ok houtcomes]
  refine ⟨_, congrArg _ (combine_of_error hmem), ?_⟩
  rw [SaysRejected, Failure.isAuth, Failure.anyAuth_eq_any, List.any_eq_true]
  exact ⟨e, List.mem_filterMap.mpr ⟨_, hmem, rfl⟩, hauth⟩

end

end Peaks
end PeakUsage
