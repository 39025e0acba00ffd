import PeakUsage.Inventory

/-! What is written of the rows of a provider: each resource under its usage key, and what it says
of brokers goes together. -/
namespace PeakUsage

/-- The resources a row stands for. -/
def Family.resources (time : Timestamp) (family : Family) (row : family.Row) : List Resource :=
  (family.placements time row).map (·.resource)

theorem Family.collectedAt_of_mem_resources {time : Timestamp} {family : Family} {row : family.Row}
    {r : Resource} (hr : r ∈ family.resources time row) : r.collectedAt = time := by
  obtain ⟨x, hx, rfl⟩ := List.mem_map.mp hr
  cases family with
  | streaming =>
    rcases List.mem_cons.mp hx with rfl | hx
    · rfl
    · obtain ⟨id, -, rfl⟩ := List.mem_map.mp hx
      rfl
  | _ =>
    obtain rfl := List.mem_singleton.mp hx
    rfl

/-- The resources of the deployment in a listing. -/
def Family.deployed (f : Inventory.Filter) (time : Timestamp) (family : Family)
    (rows : List family.Row) : List Resource :=
  (family.included f time rows).map (·.resource)

namespace Inventory

/-- Some row of the provider is written so. -/
def FromRow (x : Placement) : Prop :=
  ∃ (time : Timestamp) (family : Family) (row : family.Row), x ∈ family.placements time row

theorem fromRow_of_mem_included {filter : Filter} {time : Timestamp} {family : Family}
    {rows : List family.Row} {x : Placement} (h : x ∈ family.included filter time rows) :
    FromRow x := by
  obtain ⟨row, -, hx⟩ := List.mem_flatMap.mp h
  exact ⟨time, family, row, hx⟩

/-! ### Keys -/

theorem usageKey_streamingCluster (row : StreamingRow) (time : Timestamp) :
    (row.toResource .cluster none time).usageKey = row.name := rfl

theorem usageKey_broker (row : StreamingRow) (id : Nat) (time : Timestamp) :
    (row.toResource .broker (some id) time).usageKey = brokerKey row.name id := rfl

/-- Each family writes its resources under their usage keys. -/
theorem FromRow.usageKey_eq {x : Placement} (h : FromRow x) : x.resource.usageKey = x.key := by
  obtain ⟨time, family, row, hx⟩ := h
  cases family with
  | streaming =>
    rcases List.mem_cons.mp hx with rfl | hx
    · exact usageKey_streamingCluster row time
    · obtain ⟨id, -, rfl⟩ := List.mem_map.mp hx
      exact usageKey_broker row id time
  | relationalInstance =>
    obtain rfl := List.mem_singleton.mp hx
    rfl
  | relationalCluster =>
    obtain rfl := List.mem_singleton.mp hx
    rfl
  | documentInstance =>
    obtain rfl := List.mem_singleton.mp hx
    rfl
  | documentCluster =>
    obtain rfl := List.mem_singleton.mp hx
    rfl
  | keyValueCache =>
    obtain rfl := List.mem_singleton.mp hx
    rfl

/-! ### Brokers -/

/-- Brokers and nothing else have a number, one of those of their cluster, and only streaming
clusters have brokers. -/
structure Coherent (r : Resource) : Prop where
  broker_iff : r.level = .broker ↔ ∃ id, r.brokerId = some id
  numbered : ∀ id, r.brokerId = some id → r.engine = .kafka ∧ 1 ≤ id ∧ id ≤ r.brokerCount
  streaming : 0 < r.brokerCount → r.engine = .kafka ∧ r.dimension = "Cluster Name"

theorem coherent_of_no_brokers {r : Resource} (hlevel : r.level ≠ .broker)
    (hid : r.brokerId = none) (hcount : r.brokerCount = 0) : Coherent r where
  broker_iff := ⟨fun h => absurd h hlevel, fun ⟨_, h⟩ => absurd (hid.symm.trans h) nofun⟩
  numbered := fun _ h => absurd (hid.symm.trans h) nofun
  streaming := fun h => absurd hcount (Nat.ne_of_gt h)

theorem coherent_streamingCluster (row : StreamingRow) (time : Timestamp) :
    Coherent (row.toResource .cluster none time) where
  broker_iff := ⟨nofun, nofun⟩
  numbered := nofun
  streaming := fun _ => ⟨rfl, rfl⟩

theorem coherent_broker {row : StreamingRow} {id : Nat} (hid : id ∈ List.range' 1 row.brokerCount)
    (time : Timestamp) : Coherent (row.toResource .broker (some id) time) where
  broker_iff := ⟨fun _ => ⟨id, rfl⟩, fun _ => rfl⟩
  numbered := by
    intro number hnumber
    obtain rfl : id = number := Option.some.inj hnumber
    rw [List.mem_range'_1] at hid
    have hle : id ≤ row.brokerCount := by omega
    exact ⟨rfl, hid.1, hle⟩
  streaming := fun _ => ⟨rfl, rfl⟩

theorem FromRow.coherent {x : Placement} (h : FromRow x) : Coherent x.resource := by
  obtain ⟨time, family, row, hx⟩ := h
  cases family with
  | streaming =>
    rcases List.mem_cons.mp hx with rfl | hx
    · exact coherent_streamingCluster row time
    · obtain ⟨id, hid, rfl⟩ := List.mem_map.mp hx
      exact coherent_broker hid time
  | relationalInstance =>
    obtain rfl := List.mem_singleton.mp hx
    exact coherent_of_no_brokers nofun rfl rfl
  | relationalCluster =>
    obtain rfl := List.mem_singleton.mp hx
    exact coherent_of_no_brokers nofun rfl rfl
  | documentInstance =>
    obtain rfl := List.mem_singleton.mp hx
    exact coherent_of_no_brokers nofun rfl rfl
  | documentCluster =>
    obtain rfl := List.mem_singleton.mp hx
    exact coherent_of_no_brokers nofun rfl rfl
  | keyValueCache =>
    obtain rfl := List.mem_singleton.mp hx
    exact coherent_of_no_brokers nofun rfl rfl

end Inventory
end PeakUsage
