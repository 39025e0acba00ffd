import PeakUsage.Proofs.Chains
import PeakUsage.Proofs.Expiring
import PeakUsage.Proofs.Heeding

/-! What one lookup of a figure finds and leaves, and the lookups that a call consists of. -/
namespace PeakUsage.Peaks
open Program

/-! ### One lookup -/

def written (s : Peaks) (key : FigureKey) (v : Float) (deadline : Nat) : Peaks :=
  { s with cache := s.cache.put key v deadline }

def removed (s : Peaks) (now : Nat) (key : FigureKey) : Peaks :=
  { s with cache := s.cache.touch now key }

variable {π : Type}

/-- What a lookup finds and leaves. -/
inductive Looked (key : FigureKey) (w : Moment π Peaks)
    (o : Outcome π Peaks (Except Failure Float)) : Prop
  | kept (v : Float) (hget : w.state.cache.get? w.clock.now key = some v)
      (ho : o = ⟨.ok (.ok v), w.state, w.clock, w.memory, []⟩)
  | fetched (v : Float) (hget : w.state.cache.get? w.clock.now key = none)
      (hresult : o.result = .ok (.ok v))
      (hstate : o.state =
        (w.state.removed w.clock.now key).written key v (o.clock.now + w.state.ttl))
  | missing (hget : w.state.cache.get? w.clock.now key = none)
      (hresult : ∀ v, o.result ≠ .ok (.ok v)) (hstate : o.state = w.state.removed w.clock.now key)

theorem total_keeps {I : Peaks → Prop} (key : FigureKey) (plan : List MetricQuery) (sum : Float) :
    (total key plan sum).Keeps I := by
  induction plan generalizing sum with
  | nil => exact trivial
  | cons q rest ih =>
    intro reply
    cases reply with
    | error e => exact trivial
    | ok points => exact ih _

theorem runFrom_keep (p : Provider π) (key : FigureKey) (v : Float) (w : Moment π Peaks) :
    (keep key v).runFrom p w =
      if w.clock.now + w.state.ttl < Nanos.horizon then
        ⟨.ok (), w.state.written key v (w.clock.now + w.state.ttl), w.clock, w.memory, []⟩
      else ⟨.error .pastHorizon, w.state, w.clock, w.memory, []⟩ := by
  rw [keep, runFrom_look, Expiring.set_eq]
  by_cases hfits : w.clock.now + w.state.ttl < Nanos.horizon
  · simp only [if_pos hfits]
    rfl
  · simp only [if_neg hfits]
    rfl

/-- What becomes of the total of a plan. -/
def settle (key : FigureKey) : Except Failure Float → Program Peaks (Except Failure Float)
  | .error e => pure (.error e)
  | .ok v => do
    keep key v
    pure (.ok v)

theorem runFrom_lookup_of_none (p : Provider π) {key : FigureKey} {w : Moment π Peaks}
    (hget : w.state.cache.get? w.clock.now key = none) (plan : Nat → List MetricQuery) :
    (lookup key plan).runFrom p w =
      (total key (plan w.state.lookback) 0.0 >>= settle key).runFrom p
        { w with state := w.state.removed w.clock.now key } := by
  rw [lookup, runFrom_look]
  simp only [hget]
  rfl

theorem looked_lookup (p : Provider π) (key : FigureKey) (plan : Nat → List MetricQuery)
    (w : Moment π Peaks) : Looked key w ((lookup key plan).runFrom p w) := by
  cases hget : w.state.cache.get? w.clock.now key with
  | some v => exact .kept v hget (runFrom_lookup_of_some p hget plan)
  | none =>
    let start : Moment π Peaks := { w with state := w.state.removed w.clock.now key }
    let sum := (total key (plan w.state.lookback) 0.0).runFrom p start
    -- adding up saves nothing, so the figure is gone until all queries have succeeded
    have hsum : sum.state = w.state.removed w.clock.now key :=
      (total_keeps (I := (· = start.state)) key _ 0.0).runFrom p rfl
    rw [runFrom_lookup_of_none p hget plan]
    cases hx : sum.result with
    | error f =>
      rw [runFrom_bind_error hx]
      exact .missing hget (fun _ => error_ne_ok _ _) hsum
    | ok x =>
      rw [runFrom_bind_ok hx]
      cases x with
      | error e => exact .missing hget (fun _ h => error_ne_ok e _ (Except.ok.inj h)) hsum
      | ok v =>
        rw [settle, runFrom_bind, runFrom_keep]
        split
        · refine .fetched v hget rfl ?_
          change sum.state.written key v (sum.clock.now + sum.state.ttl) = _
          rw [hsum]
          rfl
        · exact .missing hget (fun _ => error_ne_ok _ _) hsum

theorem lookup_keeps {I : Peaks → Prop} (hI : ∀ s cache, I s → I { s with cache := cache })
    {p : Provider π} {w : Moment π Peaks} (hw : I w.state) (key : FigureKey)
    (plan : Nat → List MetricQuery) : I ((lookup key plan).runFrom p w).state := by
  cases looked_lookup p key plan w with
  | kept v hget ho =>
    rw [ho]
    exact hw
  | fetched v hget hresult hstate =>
    rw [hstate]
    exact hI _ _ (hI _ _ hw)
  | missing hget hresult hstate =>
    rw [hstate]
    exact hI _ _ hw

/-! ### Calls and their lookups -/

/-- A lookup with the queries it takes when the figure is not kept. -/
structure Lookup where
  key : FigureKey
  plan : Nat → List MetricQuery
  plan_ne_nil : ∀ lookback, plan lookback ≠ []

def Lookup.program (q : Lookup) : Program Peaks (Except Failure Float) := lookup q.key q.plan

def cpuPart (key : String) (r : Resource) (broker : Option String) : Lookup where
  key := ⟨.cpu, key⟩
  plan := cpuPlan r broker
  plan_ne_nil := cpuPlan_ne_nil r broker

def memoryPart (key : String) (r : Resource) (metric : String) : Lookup where
  key := ⟨.memory, key⟩
  plan := fun lookback => [query lookback r metric none]
  plan_ne_nil := fun _ => List.cons_ne_nil _ _

def brokerPart (r : Resource) (id : Nat) : Lookup :=
  cpuPart (brokerKey r.identifier id) r (some (Text.decimal id))

/-- The broker a CPU figure is asked for, if it is one. -/
def broker? (key : String) (r : Resource) : Option String :=
  match r.engine.profile.combination with
  | .single => none
  | .brokerSum => some (match r.brokerId with
    | some id => Text.decimal id
    | none => brokerOfKey key)

inductive Call where
  | cpu (key : String) (r : Resource)
  | memory (key : String) (r : Resource)

namespace Call

def program : Call → Program Peaks (Except Failure Float)
  | .cpu key r => Peaks.cpu key r
  | .memory key r => Peaks.memory key r

/-- The figure is that of a streaming cluster. -/
def FansOut : Call → Prop
  | .cpu _ r => r.engine = .kafka ∧ r.level = .cluster
  | .memory _ _ => False

/-- The lookups a call consists of: one for each broker of a streaming cluster, and none when the
engine reports no such figure. -/
def lookups : Call → List Lookup
  | .cpu key r =>
    if r.engine = .kafka ∧ r.level = .cluster then
      (List.range' 1 r.brokerCount).map (brokerPart r)
    else [cpuPart key r (broker? key r)]
  | .memory key r => (r.engine.profile.memoryMetric.map (memoryPart key r)).toList

end Call

theorem cpu_of_not_cluster (key : String) {r : Resource}
    (h : ¬ (r.engine = .kafka ∧ r.level = .cluster)) :
    cpu key r = (cpuPart key r (broker? key r)).program := by
  obtain ⟨name, instanceClass, engine, level, dimension, number, count, time⟩ := r
  cases engine <;> cases level <;> first | rfl | simp at h

theorem Call.of_fansOut {c : Call} (h : c.FansOut) :
    ∃ key r, c = .cpu key r ∧ c.lookups = (List.range' 1 r.brokerCount).map (brokerPart r) ∧
      c.program = clusterCpu r := by
  cases c with
  | cpu key r => exact ⟨key, r, rfl, if_pos h, cpu_cluster key h.1 h.2⟩
  | memory key r => exact h.elim

/-- Any other call is one lookup, or fails at once. -/
theorem Call.of_not_fansOut {c : Call} (h : ¬ c.FansOut) :
    (∃ q, c.lookups = [q] ∧ c.program = q.program) ∨
      (c.lookups = [] ∧ ∃ e, c.program = done (.error e)) := by
  cases c with
  | cpu key r => exact .inl ⟨_, if_neg h, cpu_of_not_cluster key h⟩
  | memory key r =>
    cases hmetric : r.engine.profile.memoryMetric with
    | none =>
      refine .inr ⟨?_, .unsupported .memory r.engine.name, ?_⟩
      · simp only [Call.lookups, hmetric, Option.map_none, Option.toList_none]
      · simp only [Call.program, Peaks.memory, hmetric]
    | some metric =>
      refine .inl ⟨memoryPart key r metric, ?_, ?_⟩
      · simp only [Call.lookups, hmetric, Option.map_some, Option.toList_some]
      · simp only [Call.program, Peaks.memory, hmetric]
        rfl

section
variable {p : Provider π}

/-- The lookups of a call, each from where the one before stopped. -/
def lookupLegs (p : Provider π) (c : Leg π Peaks Call) : List (Leg π Peaks Lookup) :=
  relay p Lookup.program c.item.lookups c.start

/-- A run that consists of lookups and nothing else. -/
structure Consists (p : Provider π) (w : Moment π Peaks) (legs : List (Leg π Peaks Lookup))
    (o : Outcome π Peaks (Except Failure Float)) : Prop where
  trace : o.trace = legs.flatMap fun l => (legOutcome p Lookup.program l).trace
  moment : o.moment = finish p Lookup.program legs w

theorem consists_clusterCpu (p : Provider π) (w : Moment π Peaks) (r : Resource) :
    Consists p w (relay p Lookup.program ((List.range' 1 r.brokerCount).map (brokerPart r)) w)
      ((clusterCpu r).runFrom p w) := by
  obtain ⟨htrace, hmoment, -⟩ := runFrom_clusterCpu r p w
  rw [relay_map]
  constructor
  · rw [htrace, List.flatMap_map]
    rfl
  · rw [hmoment, finish, finish, List.foldl_map]
    rfl

variable {c : Leg π Peaks Call}

/-- A call does what its lookups do. -/
theorem consists_call (p : Provider π) (c : Leg π Peaks Call) :
    Consists p c.start (lookupLegs p c) (legOutcome p Call.program c) := by
  obtain ⟨call, w⟩ := c
  unfold lookupLegs legOutcome
  by_cases hfans : call.FansOut
  · obtain ⟨key, r, -, hlookups, hprogram⟩ := Call.of_fansOut hfans
    rw [hlookups, hprogram]
    exact consists_clusterCpu p w r
  · rcases Call.of_not_fansOut hfans with ⟨q, hlookups, hprogram⟩ | ⟨hlookups, e, hprogram⟩
    · rw [hlookups, hprogram, relay_singleton]
      exact ⟨(List.append_nil _).symm, rfl⟩
    · rw [hlookups, hprogram]
      exact ⟨rfl, rfl⟩

/-- A call that does not fan out also answers what its lookup finds. -/
theorem legOutcome_of_not_fansOut (hfans : ¬ c.item.FansOut) {l : Leg π Peaks Lookup}
    (hl : l ∈ lookupLegs p c) : legOutcome p Call.program c = legOutcome p Lookup.program l := by
  rw [lookupLegs] at hl
  rcases Call.of_not_fansOut hfans with ⟨q, hlookups, hprogram⟩ | ⟨hlookups, e, hprogram⟩
  · rw [hlookups, relay_singleton, List.mem_singleton] at hl
    rw [hl, legOutcome, legOutcome, hprogram]
  · rw [hlookups] at hl
    exact absurd hl List.not_mem_nil

theorem chain_lookupLegs (p : Provider π) (c : Leg π Peaks Call) :
    Chain p Lookup.program c.start.clock.now c.start.state (lookupLegs p c)
      (legOutcome p Call.program c).clock.now (legOutcome p Call.program c).state := by
  have hmoment : (legOutcome p Call.program c).moment = _ := (consists_call p c).moment
  have hchain := chain_relay p Lookup.program c.item.lookups c.start
  rw [lookupLegs] at hmoment
  rw [← hmoment] at hchain
  exact hchain

end

end PeakUsage.Peaks
