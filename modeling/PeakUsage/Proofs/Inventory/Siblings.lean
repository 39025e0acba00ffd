import PeakUsage.Proofs.BrokerKeys
import PeakUsage.Proofs.Inventory.Listing

/-! A streaming cluster and its brokers. One row of the provider stands for all of them, so they are
written together, and wherever a cluster is found with a broker of it both were listed at one
time. -/
namespace PeakUsage.Inventory
open Program

/-- A broker under one of the keys that a cluster has for its brokers. -/
structure BrokerOf (b r : Resource) : Prop where
  broker : b.level = .broker
  cluster : r.level = .cluster
  key : ∃ id ∈ List.range' 1 r.brokerCount, b.usageKey = brokerKey r.identifier id

theorem BrokerOf.usageKey_eq {b r : Resource} (h : BrokerOf b r) : r.usageKey = r.identifier := by
  simp only [Resource.usageKey, h.cluster]

/-! ### What is written together -/

/-- Resources listed at one time. With a cluster the keys of its brokers are taken, and with a
broker the key of its cluster. -/
structure Together (time : Timestamp) (rs : List Resource) : Prop where
  collectedAt : ∀ r ∈ rs, r.collectedAt = time
  brokers : ∀ r ∈ rs, ∀ b, BrokerOf b r → ∃ x ∈ rs, x.usageKey = b.usageKey
  cluster : ∀ b ∈ rs, ∀ r, BrokerOf b r → ∃ x ∈ rs, x.usageKey = r.usageKey

section
variable {time : Timestamp}

theorem together_singleton {r : Resource} (htime : r.collectedAt = time)
    (hlevel : r.level ≠ .broker) (hcount : r.brokerCount = 0) : Together time [r] where
  collectedAt := by
    intro x hx
    obtain rfl := List.mem_singleton.mp hx
    exact htime
  brokers := by
    intro x hx b hb
    obtain rfl := List.mem_singleton.mp hx
    obtain ⟨id, hid, -⟩ := hb.key
    rw [hcount] at hid
    exact absurd hid List.not_mem_nil
  cluster := by
    intro x hx r hr
    obtain rfl := List.mem_singleton.mp hx
    exact absurd hr.broker hlevel

theorem together_streaming (row : StreamingRow) (time : Timestamp) :
    Together time (Family.streaming.resources time row) where
  collectedAt := fun _ hr => Family.collectedAt_of_mem_resources hr
  brokers := by
    intro r hr b hb
    obtain ⟨x, hx, rfl⟩ := List.mem_map.mp hr
    rcases List.mem_cons.mp hx with rfl | hx
    · obtain ⟨id, hid, hkey⟩ := hb.key
      refine ⟨row.toResource .broker (some id) time, ?_, hkey.symm⟩
      exact List.mem_map.mpr ⟨_, List.mem_cons_of_mem _ (List.mem_map_of_mem hid), rfl⟩
    · obtain ⟨id, -, rfl⟩ := List.mem_map.mp hx
      exact absurd hb.cluster nofun
  cluster := by
    intro b hb r hr
    obtain ⟨x, hx, rfl⟩ := List.mem_map.mp hb
    rcases List.mem_cons.mp hx with rfl | hx
    · exact absurd hr.broker nofun
    · obtain ⟨number, -, rfl⟩ := List.mem_map.mp hx
      obtain ⟨id, -, hkey⟩ := hr.key
      have hname : row.name = r.identifier := cluster_eq_of_brokerKey hkey
      refine ⟨row.toResource .cluster none time, ?_, ?_⟩
      · exact List.mem_map.mpr ⟨_, List.mem_cons_self, rfl⟩
      · rw [usageKey_streamingCluster, hname, hr.usageKey_eq]

theorem together_resources (time : Timestamp) (family : Family) (row : family.Row) :
    Together time (family.resources time row) := by
  cases family with
  | streaming => exact together_streaming row time
  | relationalInstance => exact together_singleton rfl nofun rfl
  | relationalCluster => exact together_singleton rfl nofun rfl
  | documentInstance => exact together_singleton rfl nofun rfl
  | documentCluster => exact together_singleton rfl nofun rfl
  | keyValueCache => exact together_singleton rfl nofun rfl

theorem Together.flatMap {α : Type} {rows : List α} {f : α → List Resource}
    (h : ∀ row ∈ rows, Together time (f row)) : Together time (rows.flatMap f) where
  collectedAt := by
    intro r hr
    obtain ⟨row, hrow, hr⟩ := List.mem_flatMap.mp hr
    exact (h row hrow).collectedAt r hr
  brokers := by
    intro r hr b hb
    obtain ⟨row, hrow, hr⟩ := List.mem_flatMap.mp hr
    obtain ⟨x, hx, hkey⟩ := (h row hrow).brokers r hr b hb
    exact ⟨x, List.mem_flatMap.mpr ⟨row, hrow, hx⟩, hkey⟩
  cluster := by
    intro b hb r hr
    obtain ⟨row, hrow, hb⟩ := List.mem_flatMap.mp hb
    obtain ⟨x, hx, hkey⟩ := (h row hrow).cluster b hb r hr
    exact ⟨x, List.mem_flatMap.mpr ⟨row, hrow, hx⟩, hkey⟩

theorem together_deployed (f : Filter) (time : Timestamp) (family : Family)
    (rows : List family.Row) : Together time (family.deployed f time rows) := by
  rw [Family.deployed, Family.included, List.map_flatMap]
  exact Together.flatMap fun row _ => together_resources time family row

end

/-! ### What the table has together -/

/-- Wherever the table has a broker with its cluster, both were listed at one time. -/
def Aligned (s : Inventory) : Prop :=
  ∀ e f : Expiring.Entry Resource, s.rows.entries[e.value.usageKey]? = some e →
    s.rows.entries[f.value.usageKey]? = some f → BrokerOf f.value e.value →
      f.value.collectedAt = e.value.collectedAt

theorem aligned_new (filter : Filter) (ttl : Nat) : (new filter ttl).Aligned := by
  intro e f he
  exact absurd he (by simp [new, Expiring.empty])

/-- An entry behind writes was written, or it was there before and its key is not among those
written. -/
theorem mem_or_of_recordAll {s : Inventory} {rs : List Resource} {now : Nat} {key : String}
    {e : Expiring.Entry Resource}
    (h : (s.recordAll (rs.map (Write.mk now))).rows.entries[key]? = some e) :
    e.value ∈ rs ∨ s.rows.entries[key]? = some e ∧ ∀ r ∈ rs, r.usageKey ≠ key := by
  rw [getElem?_recordAll_eq, overwritten] at h
  split at h
  · next x hx =>
    obtain rfl := Option.some.inj h
    obtain ⟨r, hr, rfl⟩ := List.mem_map.mp (mem_of_lastWrite _ hx)
    exact .inl hr
  · next hnone =>
    refine .inr ⟨h, fun r hr hkey => ?_⟩
    have hwrite : Write.mk now r ∈ (rs.map (Write.mk now)).reverse :=
      List.mem_reverse.mpr (List.mem_map_of_mem hr)
    exact List.find?_eq_none.mp hnone _ hwrite (decide_eq_true hkey)

namespace Aligned
variable {s : Inventory}

/-- Neither of the two is replaced without the other. -/
theorem recordAll (hs : s.Aligned) {time : Timestamp} {rs : List Resource} (hrs : Together time rs)
    (now : Nat) : (s.recordAll (rs.map (Write.mk now))).Aligned := by
  intro e f he hf hbroker
  rcases mem_or_of_recordAll he with he | ⟨he, hcluster⟩
  · rcases mem_or_of_recordAll hf with hf | ⟨-, hkept⟩
    · exact (hrs.collectedAt _ hf).trans (hrs.collectedAt _ he).symm
    · obtain ⟨x, hx, hkey⟩ := hrs.brokers _ he _ hbroker
      exact absurd hkey (hkept x hx)
  · rcases mem_or_of_recordAll hf with hf | ⟨hf, -⟩
    · obtain ⟨x, hx, hkey⟩ := hrs.cluster _ hf _ hbroker
      exact absurd hkey (hcluster x hx)
    · exact hs e f he hf hbroker

theorem swept (hs : s.Aligned) (now : Nat) : (s.swept now).Aligned := fun e f he hf =>
  hs e f (Expiring.getElem?_touchAll_of_some he) (Expiring.getElem?_touchAll_of_some hf)

/-! ### Runs -/

variable {π : Type} {p : Provider π} {w : Moment π Inventory}

theorem written (hw : w.state.Aligned) {time : Timestamp} {rs : List Resource}
    (hrs : Together time rs) : (written w rs).state.Aligned := by
  unfold Inventory.written
  split
  · exact hw.recordAll hrs w.clock.now
  · exact hw

/-- The brokers of a cluster do not come apart halfway through a listing: the rows of a family are
written with nothing in between. -/
theorem listFrom (hw : w.state.Aligned) (time : Timestamp) (families : List Family) :
    ((listFrom time families).runFrom p w).state.Aligned := by
  induction families generalizing time w with
  | nil => exact hw
  | cons family rest ih =>
    rw [runFrom_listFrom_cons]
    cases w.reply p (.list family) with
    | error e => exact hw
    | ok rows =>
      have hv : (w.answered p (.list family)).state.Aligned := hw
      refine Outcome.andThen_keeps (hv.written (together_deployed ..)) fun _ u hu => ?_
      exact Outcome.andThen_keeps (ih hu _) fun _ _ hv => hv

theorem refresh (hw : w.state.Aligned) : (refresh.runFrom p w).state.Aligned := by
  rw [Inventory.refresh, runFrom_clock_bind, runFrom_bind]
  exact Outcome.andThen_keeps (hw.listFrom w.clock.wall Family.all) fun _ _ hv => hv

theorem resources (hw : w.state.Aligned) : (resources.runFrom p w).state.Aligned := by
  cases hstale : w.state.needsRefresh w.clock.now with
  | false =>
    rw [runFrom_resources_of_fresh p hstale]
    exact hw.swept w.clock.now
  | true =>
    rw [runFrom_resources_of_stale p hstale]
    refine Outcome.andThen_keeps hw.refresh fun x v hv => ?_
    cases x with
    | error e => exact hv
    | ok n => exact hv.swept v.clock.now

end Aligned

/-- A cluster and a broker of it in one listing were listed at one time. -/
theorem collectedAt_eq_of_listed {π : Type} {p : Provider π} {w : Moment π Inventory}
    (hkeyed : w.state.Keyed) (haligned : w.state.Aligned) {rs : List Resource}
    (h : (resources.runFrom p w).result = .ok (.ok rs)) {b r : Resource} (hb : b ∈ rs)
    (hr : r ∈ rs) (hbroker : BrokerOf b r) : b.collectedAt = r.collectedAt := by
  have hrefresh : (refresh.runFrom p w).state.Keyed ∧ (refresh.runFrom p w).state.Aligned :=
    ⟨(refresh_keeps stable_keyed).runFrom p hkeyed, haligned.refresh⟩
  obtain ⟨s, now, ⟨hs, hsame⟩, rfl⟩ :=
    exists_served_of_resources (I := fun s => s.Keyed ∧ s.Aligned) hrefresh ⟨hkeyed, haligned⟩ h
  obtain ⟨d, _, hcluster, -⟩ := Expiring.get?_eq_some_iff.mp ((mem_served hs).mp hr)
  obtain ⟨d', _, hnumbered, -⟩ := Expiring.get?_eq_some_iff.mp ((mem_served hs).mp hb)
  exact hsame ⟨r, d⟩ ⟨b, d'⟩ hcluster hnumbered hbroker

end PeakUsage.Inventory
