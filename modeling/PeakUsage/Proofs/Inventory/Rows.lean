import PeakUsage.Proofs.Inventory.Listing

/-! What the rows of an inventory have in common, whatever the provider listed and however often a
refresh stopped half way: each is kept under the key of its resource, and what a resource says of
brokers goes together. -/
namespace PeakUsage.Inventory
open Program

/-- Every row is kept under the key of its resource and says of brokers what goes together. -/
structure Consistent (s : Inventory) : Prop where
  keyed : s.Keyed
  coherent : ∀ (key : String) (e : Expiring.Entry Resource), s.rows.entries[key]? = some e →
    Coherent e.value

theorem consistent_new (filter : Filter) (ttl : Nat) : (new filter ttl).Consistent where
  keyed := keyed_new filter ttl
  coherent := fun _ _ he => absurd he (by simp [new, Expiring.empty])

namespace Consistent
variable {s : Inventory}

theorem put (hs : s.Consistent) {x : Placement} (hx : FromRow x) (d : Nat) :
    Consistent { s with rows := s.rows.put x.key x.resource d } where
  keyed := hs.keyed.put hx d
  coherent := by
    intro key e he
    change (s.rows.put x.key x.resource d).entries[key]? = some e at he
    rw [Expiring.getElem?_put] at he
    split at he
    · obtain rfl := Option.some.inj he
      exact hx.coherent
    · exact hs.coherent key e he

theorem swept (hs : s.Consistent) (now : Nat) : (s.swept now).Consistent where
  keyed := hs.keyed.swept now
  coherent := fun key e he => hs.coherent key e (Expiring.getElem?_touchAll_of_some he)

end Consistent

theorem stable_consistent : Stable Consistent where
  put := fun _ _ d hx hs => hs.put hx d
  swept := fun _ now hs => hs.swept now
  flag := fun _ _ hs => ⟨hs.keyed, hs.coherent⟩

variable {π : Type} {p : Provider π}

theorem Reachable.consistent {now : Nat} {s : Inventory} (h : Reachable p now s) : s.Consistent :=
  h.stable stable_consistent consistent_new

/-- An inventory as it is found between two operations, or by someone else while one waits for the
provider. -/
inductive Found (p : Provider π) : Inventory → Prop
  | between {now : Nat} {s : Inventory} (h : Reachable p now s) : Found p s
  | during {now : Nat} {s : Inventory} (h : Reachable p now s) (op : Operation) (limit : Nat)
      (memory : π) {c : Clock} (hnow : now ≤ c.now) :
      Found p (op.program.runUntil p limit memory c s).state

theorem Found.consistent {s : Inventory} (h : Found p s) : s.Consistent := by
  cases h with
  | between h => exact h.consistent
  | during h op limit memory hnow =>
    have hkeeps := operation_keeps stable_consistent op h.consistent
    exact hkeeps.runUntil p limit memory _ h.consistent

/-- Whenever an inventory is found, each of its rows is kept under the key of its resource and says
of brokers what goes together, and a look at it lists such resources in the order of their keys,
none twice. -/
theorem consistent_of_found {s : Inventory} (h : Found p s) :
    (∀ (key : String) (e : Expiring.Entry Resource), s.rows.entries[key]? = some e →
      e.value.usageKey = key ∧ Coherent e.value) ∧
    ∀ memory c, ∃ rs, (snapshot.runFrom p ⟨memory, c, s⟩).result = .ok rs ∧
      rs.Pairwise (fun a b => a.usageKey < b.usageKey) ∧ (rs.map (·.usageKey)).Nodup ∧
      ∀ r ∈ rs, Coherent r := by
  have hs := h.consistent
  refine ⟨fun key e he => ⟨hs.keyed key e he, hs.coherent key e he⟩, fun memory c => ?_⟩
  have hordered := served_pairwise_lt hs.keyed c.now
  refine ⟨s.served c.now, by rw [runFrom_snapshot], hordered, ?_, fun r hr => ?_⟩
  · exact List.pairwise_map.mpr (hordered.imp fun hlt => String.ne_of_lt hlt)
  · have hget := (mem_served hs.keyed).mp hr
    obtain ⟨d, g, he, -⟩ := Expiring.get?_eq_some_iff.mp hget
    exact hs.coherent _ _ he

/-! ### A cache named like a broker -/

/-- Lists a cache whose name is the key of a broker. Each answer takes a second. -/
def crowdedProvider : Provider Unit where
  latency := fun _ _ _ => Nanos.ofSeconds 1
  answer := fun memory _ r =>
    let reply : Reply r := match r with
      | .list .keyValueCache => .ok [⟨"dev-events-1", "cache.t4g.small", "redis"⟩]
      | .list .streaming => .ok [⟨"dev-events", "kafka.m5.large", 2⟩]
      | .list _ => .ok []
      | .statistics _ => .ok []
    (reply, memory)

def afterCrowdedLook : Nat × Inventory :=
  ending crowdedProvider Operation.program 0 (new ⟨∅, "dev"⟩ (Nanos.ofSeconds 20))
    [⟨.resources, 0, ⟨0, 0⟩, ()⟩]

/-- The cache was just written over the broker, and the answer with the brokers is awaited. -/
def crowded : Inventory :=
  (Operation.refresh.program.runUntil crowdedProvider (Nanos.ofSeconds 15) ()
    ⟨Nanos.ofSeconds 10, ⟨10, 0⟩⟩ afterCrowdedLook.2).state

theorem found_crowded : Found crowdedProvider crowded := by
  have hle : afterCrowdedLook.1 ≤ Nanos.ofSeconds 10 := by decide
  have hreach : Reachable crowdedProvider afterCrowdedLook.1 afterCrowdedLook.2 :=
    ⟨⟨∅, "dev"⟩, Nanos.ofSeconds 20, 0, _, Nat.le_refl _, rfl⟩
  exact .during hreach .refresh _ _ hle

def crowdingCache : Resource :=
  CacheRow.toResource ⟨"dev-events-1", "cache.t4g.small", "redis"⟩ ⟨15, 0⟩

def crowdedBroker : Resource :=
  StreamingRow.toResource ⟨"dev-events", "kafka.m5.large", 2⟩ .broker (some 2) ⟨6, 0⟩

theorem consistent_of_found_crowded :
    Found crowdedProvider crowded ∧
      crowded.rows.entries["dev-events-1"]? = some ⟨crowdingCache, Nanos.ofSeconds 35⟩ ∧
      crowdingCache.usageKey = "dev-events-1" ∧ Coherent crowdingCache ∧
      crowded.rows.entries["dev-events-2"]? = some ⟨crowdedBroker, Nanos.ofSeconds 26⟩ ∧
      crowdedBroker.usageKey = "dev-events-2" ∧ Coherent crowdedBroker := by
  have hcache :
      crowded.rows.entries["dev-events-1"]? = some ⟨crowdingCache, Nanos.ofSeconds 35⟩ := rfl
  have hbroker :
      crowded.rows.entries["dev-events-2"]? = some ⟨crowdedBroker, Nanos.ofSeconds 26⟩ := rfl
  obtain ⟨hrows, -⟩ := consistent_of_found found_crowded
  obtain ⟨hcacheKey, hcacheRow⟩ := hrows "dev-events-1" _ hcache
  obtain ⟨hbrokerKey, hbrokerRow⟩ := hrows "dev-events-2" _ hbroker
  exact ⟨found_crowded, hcache, hcacheKey, hcacheRow, hbroker, hbrokerKey, hbrokerRow⟩

end PeakUsage.Inventory
