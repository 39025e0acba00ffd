import PeakUsage.Peaks
import PeakUsage.Proofs.BrokerKeys
import PeakUsage.Proofs.Sequences

/-! The CPU figure of a streaming cluster comes from one lookup per broker: the lookups a caller
would make who asked for the brokers in order. -/
namespace PeakUsage.Peaks
open Program

/-- The failure a lookup ended with. -/
def failure? {α : Type} : Except Failure α → Option Failure
  | .error e => some e
  | .ok _ => none

/-- A cluster's broker as a resource, with its number or without. -/
def asBroker (c : Resource) (number : Option Nat) : Resource :=
  { c with level := .broker, brokerId := number }

/-- The lookup of one broker of a cluster. -/
def brokerLookup (c : Resource) (id : Nat) : Program Peaks (Except Failure Float) :=
  brokerCpu (brokerKey c.identifier id) c (Text.decimal id)

variable {π : Type} {c : Resource}

theorem cpu_cluster (key : String) (hengine : c.engine = .kafka) (hlevel : c.level = .cluster) :
    cpu key c = clusterCpu c := by
  simp [cpu, hengine, hlevel, Engine.profile]

/-- A broker without a number is found by its key, and asked for like the others. -/
theorem cpu_asBroker (hengine : c.engine = .kafka) {id : Nat} {number : Option Nat}
    (hnumber : number = some id ∨ number = none) :
    cpu (brokerKey c.identifier id) (asBroker c number) = brokerLookup c id := by
  have hcombination : (asBroker c number).engine.profile.combination = .brokerSum := by
    simp [asBroker, hengine, Engine.profile]
  unfold cpu
  rw [hcombination]
  rcases hnumber with rfl | rfl
  · rfl
  · change brokerCpu _ c (brokerOfKey (brokerKey c.identifier id)) = _
    rw [brokerOfKey_brokerKey]
    rfl

/-- The figure of a cluster in terms of the outcomes of its brokers. -/
theorem combine_of_ok (c : Resource) (values : List Float) :
    combine c (values.map .ok) = .ok (values.foldl Number.greater 0.0) := by
  have hvalues : (values.map Except.ok).filterMap (Except.toOption (ε := Failure)) = values := by
    simp [List.filterMap_map, Function.comp_def, Except.toOption]
  simp [combine, hvalues, List.filterMap_map, Number.greatest]

theorem combine_of_error {e : Failure} {outcomes : List (Except Failure Float)}
    (he : .error e ∈ outcomes) :
    combine c outcomes = .error (.brokers c.identifier c.brokerCount
      ((outcomes.filterMap Except.toOption).foldl Number.greater 0.0)
      (outcomes.filterMap failure?)) := by
  simp only [combine]
  split
  · next hnone =>
    rw [List.isEmpty_iff, List.filterMap_eq_nil_iff] at hnone
    exact absurd (hnone _ he) (by simp)
  · have hfailures : ∀ f : Except Failure Float → Option Failure, (∀ x, f x = failure? x) →
        outcomes.filterMap f = outcomes.filterMap failure? := fun f hf => by rw [funext hf]
    rw [hfailures _ fun x => by cases x <;> rfl]
    rfl

/-- The lookups of a cluster's brokers, in order. -/
def brokerLegs (p : Provider π) (c : Resource) (w : Moment π Peaks) : List (Leg π Peaks Nat) :=
  relay p (brokerLookup c) (List.range' 1 c.brokerCount) w

/-- The run of a cluster lookup, leg by leg. -/
theorem runFrom_clusterCpu (c : Resource) (p : Provider π) (w : Moment π Peaks) :
    let broker := brokerLookup c
    let legs := brokerLegs p c w
    let o := (clusterCpu c).runFrom p w
    o.trace = legs.flatMap (fun l => (legOutcome p broker l).trace) ∧
      o.moment = finish p broker legs w ∧
      o.result = (legs.mapM fun l => (legOutcome p broker l).result).map (combine c) := by
  intro broker legs o
  obtain ⟨htrace, hmoment, hresult⟩ := runFrom_each p broker (List.range' 1 c.brokerCount) w
  have ho : o = (each broker (List.range' 1 c.brokerCount) >>= fun outcomes =>
    pure (combine c outcomes)).runFrom p w := rfl
  rw [ho, show legs = relay p broker (List.range' 1 c.brokerCount) w from rfl]
  cases h : ((each broker (List.range' 1 c.brokerCount)).runFrom p w).result with
  | error e =>
    rw [runFrom_bind_error h, ← hresult, h]
    exact ⟨htrace, hmoment, rfl⟩
  | ok outcomes =>
    rw [runFrom_bind_ok h, ← hresult, h]
    refine ⟨?_, hmoment, rfl⟩
    simp [htrace]

/-- A cluster lookup that does not halt puts its result together from those of all brokers. -/
theorem exists_outcomes_of_clusterCpu {p : Provider π} {w : Moment π Peaks}
    {x : Except Failure Float} (h : ((clusterCpu c).runFrom p w).result = .ok x) :
    ∃ outcomes : List (Except Failure Float),
      (brokerLegs p c w).map (fun l => (legOutcome p (brokerLookup c) l).result) =
        outcomes.map .ok ∧
      combine c outcomes = x := by
  rw [(runFrom_clusterCpu c p w).2.2] at h
  cases hmap : (brokerLegs p c w).mapM fun l => (legOutcome p (brokerLookup c) l).result with
  | error f =>
    rw [hmap] at h
    exact absurd h (error_ne_ok f x)
  | ok outcomes =>
    rw [hmap] at h
    exact ⟨outcomes, map_eq_of_mapM_ok hmap, Except.ok.inj h⟩

/-- A cluster lookup leaves what the lookups of its brokers leave, made in order under their own
keys: the calls, the clocks and the kept figures. Its figure is the greatest of theirs, partial and
with their failures when some failed. -/
theorem cpu_cluster_eq_brokers (hengine : c.engine = .kafka) (hlevel : c.level = .cluster)
    (number : Nat → Option Nat) (hnumber : ∀ id, number id = some id ∨ number id = none)
    (key : String) (p : Provider π) (w : Moment π Peaks) :
    let broker := fun id => cpu (brokerKey c.identifier id) (asBroker c (number id))
    let legs := relay p broker (List.range' 1 c.brokerCount) w
    let o := (cpu key c).runFrom p w
    o.trace = legs.flatMap (fun l => (legOutcome p broker l).trace) ∧
      o.moment = finish p broker legs w ∧
      ((∀ l ∈ legs, (legOutcome p broker l).result ≠ .error .pastHorizon) →
        ∃ outcomes : List (Except Failure Float),
          legs.map (·.item) = List.range' 1 c.brokerCount ∧
          legs.map (fun l => (legOutcome p broker l).result) = outcomes.map .ok ∧
          (∀ values : List Float, outcomes = values.map .ok →
            o.result = .ok (.ok (values.foldl Number.greater 0.0))) ∧
          ((∃ e, .error e ∈ outcomes) →
            o.result = .ok (.error (.brokers c.identifier c.brokerCount
              ((outcomes.filterMap Except.toOption).foldl Number.greater 0.0)
              (outcomes.filterMap failure?))))) := by
  have hbroker : (fun id => cpu (brokerKey c.identifier id) (asBroker c (number id))) =
      brokerLookup c := funext fun id => cpu_asBroker hengine (hnumber id)
  rw [hbroker, cpu_cluster key hengine hlevel]
  intro broker legs o
  obtain ⟨htrace, hmoment, hresult⟩ := runFrom_clusterCpu c p w
  refine ⟨htrace, hmoment, fun hfit => ?_⟩
  have hok : ∀ l ∈ legs, ∃ a, (legOutcome p broker l).result = .ok a :=
    fun l hl => exists_ok_of_ne_pastHorizon (hfit l hl)
  obtain ⟨outcomes, houtcomes⟩ := exists_map_ok hok
  have hcombine : o.result = .ok (combine c outcomes) := by
    rw [hresult, show brokerLegs p c w = legs from rfl, mapM_eq_ok houtcomes]
    rfl
  refine ⟨outcomes, relay_items p broker hok, houtcomes, ?_, ?_⟩
  · rintro values rfl
    rw [hcombine, combine_of_ok]
  · rintro ⟨e, he⟩
    rw [hcombine, combine_of_error he]

/-! ### A cluster with one broker down -/

def threeBrokers : Resource where
  identifier := "events-1"
  instanceClass := "kafka.m5.large"
  engine := .kafka
  level := .cluster
  dimension := "Cluster Name"
  brokerId := none
  brokerCount := 3
  collectedAt := ⟨0, 0⟩

def secondBrokerDown : Provider Unit := .steady 5 fun
  | .list _ => .ok []
  | .statistics q =>
    if q.dimension? brokerDimension = some "2" then .error ⟨some 503, "busy"⟩
    else .ok [⟨⟨0, 0⟩, some 4.0⟩]

/-- The first broker is known by its key only. -/
def threeNumbers (id : Nat) : Option Nat := if id = 1 then none else some id

def threeLookups (id : Nat) : Program Peaks (Except Failure Float) :=
  cpu (brokerKey threeBrokers.identifier id) (asBroker threeBrokers (threeNumbers id))

def unasked : Moment Unit Peaks := ⟨(), ⟨0, ⟨0, 0⟩⟩, new 60 60⟩

theorem cpu_cluster_eq_brokers_partial :
    threeBrokers.engine = .kafka ∧ threeBrokers.level = .cluster ∧
      (∀ id, threeNumbers id = some id ∨ threeNumbers id = none) ∧
      ((cpu "events-1" threeBrokers).runFrom secondBrokerDown unasked).result =
        .ok (.error (.brokers "events-1" 3 8.0
          [.metric "events-1-2" "CpuSystem" ⟨some 503, "busy"⟩])) := by
  have hnumber : ∀ id, threeNumbers id = some id ∨ threeNumbers id = none := by
    intro id
    by_cases h : id = 1
    · exact .inr (if_pos h)
    · exact .inl (if_neg h)
  refine ⟨rfl, rfl, hnumber, ?_⟩
  let busy : Failure := .metric "events-1-2" "CpuSystem" ⟨some 503, "busy"⟩
  let expected : List (Except Failure Float) := [.ok 8.0, .error busy, .ok 8.0]
  have hlegs : (relay secondBrokerDown threeLookups (List.range' 1 3) unasked).map
      (fun l => (legOutcome secondBrokerDown threeLookups l).result) =
        [.ok (.ok 8.0), .ok (.error busy), .ok (.ok 8.0)] := by
    rfl
  obtain ⟨-, -, h⟩ := cpu_cluster_eq_brokers (c := threeBrokers) rfl rfl threeNumbers hnumber
    "events-1" secondBrokerDown unasked
  obtain ⟨found, -, hfound, -, hfailed⟩ :=
    h (ne_error_of_map_ok (show _ = expected.map Except.ok from hlegs) _)
  have heq : found = expected :=
    (List.map_inj_right fun _ _ => Except.ok.inj).mp (hfound.symm.trans hlegs)
  rw [hfailed ⟨busy, by simp [heq, expected]⟩, heq]
  rfl

end PeakUsage.Peaks
