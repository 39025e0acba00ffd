import PeakUsage.Proofs.Peaks.Freshness

/-! Figures that were found once and are still kept: the same call finds them again, asks for nothing
and changes nothing. -/
namespace PeakUsage.Peaks
open Program

variable {π : Type} {p : Provider π}

/-! ### What every lookup keeps -/

/-- A property that neither time nor a lookup ends. -/
structure Steady (p : Provider π) (I : Nat → Peaks → Prop) : Prop where
  lasting : Lasting I
  lookup : ∀ (q : Lookup) (w : Moment π Peaks), I w.clock.now w.state →
    I (q.program.runFrom p w).clock.now (q.program.runFrom p w).state

theorem Steady.call {I : Nat → Peaks → Prop} (hI : Steady p I) {c : Leg π Peaks Call}
    (hc : I c.start.clock.now c.start.state) :
    I (legOutcome p Call.program c).clock.now (legOutcome p Call.program c).state :=
  (chain_lookupLegs p c).keeps hI.lasting (fun m _ hm => hI.lookup m.item m.start hm) hc

theorem steady_kept (p : Provider π) (key : FigureKey) (v : Float) (due : Nat) :
    Steady p (Kept key v due) where
  lasting := lasting_kept key v due
  lookup := fun q _ hw => hw.runFrom q.key q.plan

/-- What does not depend on the cache stays as it is. -/
theorem steady_settings (p : Provider π) {I : Peaks → Prop}
    (hI : ∀ s cache, I s → I { s with cache := cache }) : Steady p fun _ => I where
  lasting := fun _ _ _ _ hs => hs
  lookup := fun q _ hw => lookup_keeps hI hw q.key q.plan

theorem steady_ttl (p : Provider π) (ttl : Nat) : Steady p fun _ s => s.ttl = ttl :=
  steady_settings p (I := (·.ttl = ttl)) fun _ _ hs => hs

/-- No figure outlives the cache, and none was written after now. -/
def Dated (now : Nat) (s : Peaks) : Prop := s.cache.Bounded (now + s.ttl)

theorem lasting_dated : Lasting Dated :=
  fun _ _ _ hle hs => hs.mono (Nat.add_le_add_right hle _)

theorem dated_new (ttl lookback now : Nat) : Dated now (new ttl lookback) :=
  Expiring.bounded_empty _

theorem Dated.removed {now : Nat} {s : Peaks} (h : Dated now s) (key : FigureKey) :
    Dated now (s.removed now key) :=
  Expiring.Bounded.touchAll h now [key]

theorem steady_dated (p : Provider π) : Steady p Dated where
  lasting := lasting_dated
  lookup := by
    intro q w hw
    have hnow := now_le_runFrom p w q.program
    have hremoved : (w.state.removed w.clock.now q.key).cache.Bounded
        ((q.program.runFrom p w).clock.now + w.state.ttl) :=
      (hw.removed q.key).mono (Nat.add_le_add_right hnow _)
    have hlooked := looked_lookup p q.key q.plan w
    change Looked _ _ (q.program.runFrom p w) at hlooked
    cases hlooked with
    | kept v hget ho =>
      rw [ho]
      exact hw
    | fetched v hget hresult hstate =>
      rw [hstate]
      exact hremoved.put q.key v
    | missing hget hresult hstate =>
      rw [hstate]
      exact hremoved

/-! ### Found figures -/

/-- A lookup that finds its figure leaves an entry for it. -/
theorem exists_entry_of_found {l : Leg π Peaks Lookup} {v : Float}
    (h : (legOutcome p Lookup.program l).result = .ok (.ok v)) :
    ∃ d, (legOutcome p Lookup.program l).state.cache.entries[l.item.key]? = some ⟨v, d⟩ := by
  have hlooked := looked_lookup p l.item.key l.item.plan l.start
  change Looked _ _ (legOutcome p Lookup.program l) at hlooked
  cases hlooked with
  | missing hget hresult hstate => exact absurd h (hresult v)
  | kept u hget ho =>
    rw [ho] at h ⊢
    obtain rfl := Except.ok.inj (Except.ok.inj h)
    obtain ⟨d, g, hd, -⟩ := Expiring.get?_eq_some_iff.mp hget
    exact ⟨d, hd⟩
  | fetched u hget hresult hstate =>
    obtain rfl := Except.ok.inj (Except.ok.inj (h.symm.trans hresult))
    rw [hstate]
    exact ⟨_, Expiring.getElem?_put_self ..⟩

/-- The entry that a lookup hit or wrote lasts until `due`. -/
def Outlasts (p : Provider π) (due : Nat) (l : Leg π Peaks Lookup) : Prop :=
  ∀ e : Expiring.Entry Float,
    (legOutcome p Lookup.program l).state.cache.entries[l.item.key]? = some e → due ≤ e.deadline

/-- Up to then its figure is kept. -/
theorem kept_of_found {l : Leg π Peaks Lookup} {v : Float} {due : Nat}
    (hdated : Dated l.start.clock.now l.start.state)
    (h : (legOutcome p Lookup.program l).result = .ok (.ok v)) (hdue : Outlasts p due l) :
    Kept l.item.key v due (legOutcome p Lookup.program l).clock.now
      (legOutcome p Lookup.program l).state := by
  obtain ⟨d, hd⟩ := exists_entry_of_found h
  have hle : due ≤ d := hdue _ hd
  have hbounded : Dated (legOutcome p Lookup.program l).clock.now
      (legOutcome p Lookup.program l).state := (steady_dated p).lookup l.item l.start hdated
  constructor
  · obtain ⟨g, hg, hdg⟩ := hbounded.entry_le _ _ hd
    exact Nat.le_trans hle (Nat.le_trans hdg (hbounded.deadline_le g hg))
  · intro later _ hlater
    exact hbounded.get?_eq_some_iff.mpr ⟨d, hd, Nat.le_trans hlater hle⟩

/-- What a lookup of a call found is kept behind the call. -/
theorem kept_of_mem_lookupLegs {c : Leg π Peaks Call} (hdated : Dated c.start.clock.now c.start.state)
    {m : Leg π Peaks Lookup} (hm : m ∈ lookupLegs p c) {v : Float}
    (h : (legOutcome p Lookup.program m).result = .ok (.ok v)) {due : Nat}
    (hdue : Outlasts p due m) :
    Kept m.item.key v due (legOutcome p Call.program c).clock.now
      (legOutcome p Call.program c).state := by
  obtain ⟨before, after, hsplit⟩ := List.append_of_mem hm
  have hchain := chain_lookupLegs p c
  rw [hsplit] at hchain
  have hstart : Dated m.start.clock.now m.start.state :=
    hchain.start_keeps lasting_dated
      (fun l _ hl => (steady_dated p).lookup l.item l.start hl) hdated
  exact hchain.end_keeps (lasting_kept m.item.key v due)
    (fun l _ hl => (steady_kept p m.item.key v due).lookup l.item l.start hl)
    (kept_of_found hstart h hdue)

/-! ### The same call again -/

/-- The figures that the lookups of a call found are served now. -/
def Served (p : Provider π) (c : Leg π Peaks Call) (w : Moment π Peaks) : Prop :=
  ∀ m ∈ lookupLegs p c, ∀ v, (legOutcome p Lookup.program m).result = .ok (.ok v) →
    w.state.cache.get? w.clock.now m.item.key = some v

/-- A cluster figure that is not partial comes from the figures of all brokers. -/
theorem of_clusterCpu_ok {r : Resource} {u : Moment π Peaks} {v : Float}
    (h : ((clusterCpu r).runFrom p u).result = .ok (.ok v)) :
    ∃ outcomes : List (Except Failure Float),
      (brokerLegs p r u).map (fun l => (legOutcome p (brokerLookup r) l).result) =
        outcomes.map .ok ∧
      combine r outcomes = .ok v ∧
      ∀ l ∈ brokerLegs p r u, ∃ x, (legOutcome p (brokerLookup r) l).result = .ok (.ok x) := by
  obtain ⟨outcomes, houtcomes, hcombine⟩ := exists_outcomes_of_clusterCpu h
  refine ⟨outcomes, houtcomes, hcombine, fun l hl => ?_⟩
  have hmem := List.mem_map_of_mem (f := fun l => (legOutcome p (brokerLookup r) l).result) hl
  rw [houtcomes] at hmem
  obtain ⟨outcome, houtcome, hleg⟩ := List.mem_map.mp hmem
  cases outcome with
  | ok x => exact ⟨x, hleg.symm⟩
  | error e =>
    rw [combine_of_error houtcome] at hcombine
    exact absurd hcombine (error_ne_ok _ v)

/-- The lookup of a broker is one of the lookups of the call for its cluster. -/
theorem mem_lookupLegs_of_broker {key : String} {r : Resource} (hengine : r.engine = .kafka)
    (hlevel : r.level = .cluster) {u : Moment π Peaks} {l : Leg π Peaks Nat}
    (hl : l ∈ brokerLegs p r u) :
    (⟨brokerPart r l.item, l.start⟩ : Leg π Peaks Lookup) ∈ lookupLegs p ⟨.cpu key r, u⟩ := by
  rw [lookupLegs, Call.lookups, if_pos ⟨hengine, hlevel⟩, relay_map]
  exact List.mem_map.mpr ⟨l, hl, rfl⟩

theorem runFrom_clusterCpu_of_served {key : String} {r : Resource} (hengine : r.engine = .kafka)
    (hlevel : r.level = .cluster) {u w : Moment π Peaks} {v : Float}
    (h : ((clusterCpu r).runFrom p u).result = .ok (.ok v))
    (hserved : Served p ⟨.cpu key r, u⟩ w) : (clusterCpu r).runFrom p w = stay w (.ok v) := by
  obtain ⟨outcomes, houtcomes, hcombine, hok⟩ := of_clusterCpu_ok h
  let ids := List.range' 1 r.brokerCount
  let found (id : Nat) : Except Failure Float :=
    .ok ((w.state.cache.get? w.clock.now ⟨.cpu, brokerKey r.identifier id⟩).getD 0)
  have hlegs : ∀ l ∈ brokerLegs p r u,
      (legOutcome p (brokerLookup r) l).result = .ok (found l.item) ∧
        (brokerLookup r l.item).runFrom p w = stay w (found l.item) := by
    intro l hl
    obtain ⟨x, hx⟩ := hok l hl
    have hget := hserved _ (mem_lookupLegs_of_broker hengine hlevel hl) x hx
    have hfound : found l.item = .ok x := congrArg (fun y => Except.ok (y.getD 0)) hget
    rw [hfound]
    exact ⟨hx, runFrom_lookup_of_some p hget _⟩
  have hitems : (brokerLegs p r u).map (·.item) = ids :=
    relay_items p (brokerLookup r) fun l hl => ⟨_, (hlegs l hl).1⟩
  have hsame : outcomes = ids.map found := by
    have hmap : (brokerLegs p r u).map (fun l => (legOutcome p (brokerLookup r) l).result) =
        (ids.map found).map .ok := by
      rw [← hitems, List.map_map, List.map_map]
      exact List.map_congr_left fun l hl => (hlegs l hl).1
    exact (List.map_inj_right fun _ _ => Except.ok.inj).mp (houtcomes.symm.trans hmap)
  have hbrokers : ∀ id ∈ ids, (brokerLookup r id).runFrom p w = stay w (found id) := by
    intro id hid
    rw [← hitems] at hid
    obtain ⟨l, hl, rfl⟩ := List.mem_map.mp hid
    exact (hlegs l hl).2
  have hcluster : clusterCpu r = each (brokerLookup r) ids >>= fun outcomes =>
      pure (combine r outcomes) := rfl
  rw [hcluster, runFrom_bind_pure, runFrom_each_of_stay p _ hbrokers, ← hsame]
  exact congrArg (stay w) hcombine

/-- A call that found its figure finds it again, wherever the figures of its lookups are served. -/
theorem runFrom_call_of_served {c : Leg π Peaks Call} {v : Float}
    (h : (legOutcome p Call.program c).result = .ok (.ok v)) {w : Moment π Peaks}
    (hserved : Served p c w) : c.item.program.runFrom p w = stay w (.ok v) := by
  obtain ⟨call, u⟩ := c
  by_cases hfans : call.FansOut
  · obtain ⟨key, r, rfl, -, hprogram⟩ := Call.of_fansOut hfans
    rw [legOutcome, hprogram] at h
    rw [hprogram]
    exact runFrom_clusterCpu_of_served hfans.1 hfans.2 h hserved
  · rcases Call.of_not_fansOut hfans with ⟨q, hlookups, hprogram⟩ | ⟨-, e, hprogram⟩
    · rw [legOutcome, hprogram] at h
      rw [hprogram]
      have hmem : (⟨q, u⟩ : Leg π Peaks Lookup) ∈ lookupLegs p ⟨call, u⟩ := by
        rw [lookupLegs, hlookups, relay_singleton]
        exact List.mem_singleton_self _
      exact runFrom_lookup_of_some p (hserved _ hmem v h) q.plan
    · rw [legOutcome, hprogram] at h
      exact absurd (Except.ok.inj h) (error_ne_ok e v)

end PeakUsage.Peaks
