import PeakUsage.Proofs.Asking
import PeakUsage.Proofs.Text.Digits

/-! Brokers by their keys: no two share one, and a key tells which broker to ask about. -/
namespace PeakUsage.Peaks
open Program

variable {π : Type} {p : Provider π}

/-- What a key names is the number in digits, so it reads as the number. -/
theorem ofDigits_brokerOfKey (cluster : String) (id : Nat) :
    Text.ofDigits (brokerOfKey (brokerKey cluster id)).toList = id := by
  rw [brokerOfKey_brokerKey, Text.decimal, String.toList_ofList, Text.ofDigits_toDigits]

/-! ### Rows without a number -/

/-- An engine whose figures are not those of brokers is never asked about one. -/
theorem broker?_of_ne_kafka {r : Resource} (h : r.engine ≠ .kafka) (key : String) :
    broker? key r = none := by
  unfold broker?
  split
  · rfl
  · next hsum => cases hengine : r.engine <;> simp_all [Engine.profile]

/-- Under the key of a broker, its row is looked up alike with its number and without. -/
theorem cpu_asBroker_none (r : Resource) (id : Nat) :
    cpu (brokerKey r.identifier id) (asBroker r none) =
      cpu (brokerKey r.identifier id) (asBroker r (some id)) := by
  by_cases hengine : r.engine = .kafka
  · rw [cpu_asBroker hengine (.inr rfl), cpu_asBroker hengine (.inl rfl)]
  · have hcpu (number : Option Nat) : cpu (brokerKey r.identifier id) (asBroker r number) =
        (cpuPart (brokerKey r.identifier id) (asBroker r number) none).program := by
      have hother : (asBroker r number).engine ≠ .kafka := hengine
      rw [cpu_of_not_cluster _ fun h => hother h.1, broker?_of_ne_kafka hother]
    rw [hcpu none, hcpu (some id)]
    rfl

/-- A query for the cluster of a row, and for one broker of it. -/
def Selects (r : Resource) (id : Nat) (q : MetricQuery) : Prop :=
  q.dimensions = [⟨r.dimension, r.identifier⟩, ⟨brokerDimension, Text.decimal id⟩]

/-- The lookup of a broker asks about no other. -/
theorem selects_of_asked {r : Resource} {id : Nat} {w : Moment π Peaks} {q : MetricQuery}
    (hq : .asked (.statistics q) ∈ ((brokerLookup r id).runFrom p w).trace) : Selects r id q := by
  have hasks : (brokerPart r id).program.Asks (LooksBack w.state.lookback) (Selects r id) := by
    refine (brokerPart r id).asks fun q hq => ?_
    obtain ⟨metric, -, rfl⟩ := List.mem_map.mp hq
    rfl
  exact hasks.runFrom p rfl hq

/-- The last dash divides a key into the name of a cluster and the number of a broker, whatever
dashes and digits the name has. So no two brokers share a key, and a row without a number is looked
up under the key of its broker as the row with it is: its queries select the same broker, and there
is one unless the figure is kept. -/
theorem brokers_told_apart :
    (∀ (cluster other : String) (id number : Nat),
      brokerKey cluster id = brokerKey other number ↔ cluster = other ∧ id = number) ∧
    (∀ (cluster : String) (id : Nat),
      brokerOfKey (brokerKey cluster id) = Text.decimal id ∧
        Text.ofDigits (brokerOfKey (brokerKey cluster id)).toList = id) ∧
    ∀ (r : Resource) (id : Nat),
      let key := (asBroker r (some id)).usageKey
      key = brokerKey r.identifier id ∧
        cpu key (asBroker r none) = cpu key (asBroker r (some id)) ∧
        (r.engine = .kafka → ∀ {π : Type} (p : Provider π) (w : Moment π Peaks),
          let o := (cpu key (asBroker r none)).runFrom p w
          (∀ q, .asked (.statistics q) ∈ o.trace → Selects r id q) ∧
            (w.state.cache.get? w.clock.now ⟨.cpu, key⟩ = none →
              ∃ q, .asked (.statistics q) ∈ o.trace)) := by
  refine ⟨fun _ _ _ _ => brokerKey_eq_iff,
    fun cluster id => ⟨brokerOfKey_brokerKey cluster id, ofDigits_brokerOfKey cluster id⟩,
    fun r id => ?_⟩
  intro key
  refine ⟨rfl, cpu_asBroker_none r id, fun hengine π p w => ?_⟩
  intro o
  have ho : o = (brokerLookup r id).runFrom p w :=
    congrArg (·.runFrom p w) (cpu_asBroker hengine (.inr rfl))
  rw [ho]
  refine ⟨fun q hq => selects_of_asked hq, fun hget => ?_⟩
  obtain ⟨q, -, hq⟩ := asked_lookup_of_none p hget (cpuPlan_ne_nil r _ _)
  exact ⟨q, hq⟩

/-- A cluster with the key of a broker as its name. -/
def nestedCluster : Resource where
  identifier := brokerKey "dev" 1
  instanceClass := "kafka.m5.large"
  engine := .kafka
  level := .cluster
  dimension := "Cluster Name"
  brokerId := none
  brokerCount := 2
  collectedAt := ⟨0, 0⟩

/-- Its broker has a key of its own, and is asked about without its number, too. -/
theorem brokers_told_apart_nested :
    brokerKey (brokerKey "dev" 1) 2 ≠ brokerKey "dev" 12 ∧
      brokerOfKey (brokerKey (brokerKey "dev" 1) 2) = "2" ∧
      nestedCluster.engine = .kafka ∧
      ∃ q, .asked (.statistics q) ∈
          ((cpu "dev-1-2" (asBroker nestedCluster none)).runFrom
            (.steady 0 fun | .list _ => .ok [] | .statistics _ => .ok [])
            ⟨(), ⟨0, ⟨0, 0⟩⟩, new 100 60⟩).trace ∧
        q.dimensions = [⟨"Cluster Name", "dev-1"⟩, ⟨"Broker ID", "2"⟩] := by
  obtain ⟨hkeys, hnumber, hrows⟩ := brokers_told_apart
  refine ⟨fun h => absurd ((hkeys _ _ _ _).mp h).2 (by decide), (hnumber _ _).1, rfl, ?_⟩
  obtain ⟨-, -, hasked⟩ := hrows nestedCluster 2
  obtain ⟨hselects, hexists⟩ := hasked rfl
    (.steady 0 fun | .list _ => .ok [] | .statistics _ => .ok [])
    ⟨(), ⟨0, ⟨0, 0⟩⟩, new 100 60⟩
  obtain ⟨q, hq⟩ := hexists rfl
  exact ⟨q, hq, hselects q hq⟩

end PeakUsage.Peaks
