import PeakUsage.Proofs.Peaks.Freshness

/-! Where figures come from: the sum of the peaks in the answers to queries that all end when the
resource was listed. -/
namespace PeakUsage.Peaks
open Program

variable {π : Type} {p : Provider π}

/-! ### The answers behind a figure -/

/-- Queries that were answered with a series each. -/
def answers (series : List (MetricQuery × List Datapoint)) : List Happening :=
  series.flatMap fun a => [.asked (.statistics a.1), .answered (.statistics a.1) (.ok a.2)]

/-- The peaks of series, added up. -/
def sumOfPeaks (sum : Float) (series : List (MetricQuery × List Datapoint)) : Float :=
  series.foldl (fun sum a => sum + peakOf a.2) sum

/-- A lookup makes up its figure from the answers to queries that end at a certain time, of which
there is at least one. -/
def Measured (p : Provider π) (time : Timestamp) (l : Leg π Peaks Lookup) (v : Float) : Prop :=
  (legOutcome p Lookup.program l).result = .ok (.ok v) ∧
    ∃ series, series ≠ [] ∧ (∀ a ∈ series, a.1.stop = time) ∧
      (legOutcome p Lookup.program l).trace = answers series ∧ v = sumOfPeaks 0.0 series

theorem runFrom_total_ok {key : FigureKey} {plan : List MetricQuery} {sum v : Float}
    {w : Moment π Peaks} (h : ((total key plan sum).runFrom p w).result = .ok (.ok v)) :
    ∃ series : List (MetricQuery × List Datapoint), series.map (·.1) = plan ∧
      ((total key plan sum).runFrom p w).trace = answers series ∧ v = sumOfPeaks sum series := by
  induction plan generalizing sum w with
  | nil =>
    obtain rfl := Except.ok.inj (Except.ok.inj h)
    exact ⟨[], rfl, rfl, rfl⟩
  | cons q rest ih =>
    rw [total, runFrom_request_bind] at h ⊢
    cases hreply : w.reply p (.statistics q) with
    | error e =>
      rw [hreply] at h
      exact absurd (Except.ok.inj h) (error_ne_ok _ v)
    | ok points =>
      rw [hreply] at h
      obtain ⟨series, hplan, htrace, hv⟩ := ih h
      refine ⟨(q, points) :: series, ?_, ?_, hv⟩
      · rw [List.map_cons, hplan]
      · rw [Outcome.after_trace, htrace]
        rfl

/-- A total that fails ends with the first query that was refused, and says so of its metric. -/
theorem runFrom_total_error {key : FigureKey} {plan : List MetricQuery} {sum : Float}
    {w : Moment π Peaks} {e : Failure}
    (h : ((total key plan sum).runFrom p w).result = .ok (.error e)) :
    ∃ series q rest cause, plan = series.map (·.1) ++ q :: rest ∧
      ((total key plan sum).runFrom p w).trace = answers series ++
        [.asked (.statistics q), .answered (.statistics q) (.error cause)] ∧
      e = .metric key.key q.metric cause := by
  induction plan generalizing sum w with
  | nil => exact absurd (Except.ok.inj h).symm (error_ne_ok e sum)
  | cons q rest ih =>
    rw [total, runFrom_request_bind] at h ⊢
    cases hreply : w.reply p (.statistics q) with
    | error cause =>
      rw [hreply] at h
      exact ⟨[], q, rest, cause, rfl, rfl, (Except.error.inj (Except.ok.inj h)).symm⟩
    | ok points =>
      rw [hreply] at h
      obtain ⟨series, failed, behind, cause, hplan, htrace, he⟩ := ih h
      refine ⟨(q, points) :: series, failed, behind, cause, ?_, ?_, he⟩
      · rw [hplan]
        rfl
      · rw [Outcome.after_trace, htrace]
        rfl

/-- A lookup that has to ask answers what its queries add up to, and asks nothing else. -/
theorem of_lookup_ok {key : FigureKey} {plan : Nat → List MetricQuery} {w : Moment π Peaks}
    (hget : w.state.cache.get? w.clock.now key = none) {x : Except Failure Float}
    (h : ((lookup key plan).runFrom p w).result = .ok x) :
    let sum := (total key (plan w.state.lookback) 0.0).runFrom p
      { w with state := w.state.removed w.clock.now key }
    sum.result = .ok x ∧ ((lookup key plan).runFrom p w).trace = sum.trace := by
  intro sum
  rw [runFrom_lookup_of_none p hget, runFrom_bind] at h ⊢
  obtain ⟨y, hy, hx⟩ := Outcome.exists_of_andThen_ok h
  have hsum : sum.result = .ok y := hy
  rw [Outcome.andThen_eq_of_ok hy]
  cases y with
  | error e =>
    obtain rfl := Except.ok.inj hx
    exact ⟨hsum, List.append_nil _⟩
  | ok v =>
    rw [settle, runFrom_bind, runFrom_keep] at hx ⊢
    split at hx
    · next hfits =>
      obtain rfl := Except.ok.inj hx
      rw [if_pos hfits]
      exact ⟨hsum, List.append_nil _⟩
    · exact absurd hx (error_ne_ok _ x)

/-- A lookup that fails says so of its key and a metric. -/
theorem metric_of_lookup {l : Leg π Peaks Lookup} {e : Failure}
    (h : (legOutcome p Lookup.program l).result = .ok (.error e)) :
    ∃ metric cause, e = .metric l.item.key.key metric cause := by
  cases hget : l.start.state.cache.get? l.start.clock.now l.item.key with
  | some v =>
    have hkept := runFrom_lookup_of_some p hget l.item.plan
    have hresult : (legOutcome p Lookup.program l).result = .ok (.ok v) :=
      congrArg Outcome.result hkept
    exact absurd (Except.ok.inj (h.symm.trans hresult)) (error_ne_ok e v)
  | none =>
    obtain ⟨series, q, rest, cause, -, -, rfl⟩ := runFrom_total_error (of_lookup_ok hget h).1
    exact ⟨q.metric, cause, rfl⟩

/-- A figure that was fetched is measured for the time that its queries end at. -/
theorem Fetched.measured {l : Leg π Peaks Lookup} {v : Float} (h : Fetched p l v)
    {time : Timestamp} (hstop : ∀ lookback, ∀ q ∈ l.item.plan lookback, q.stop = time) :
    Measured p time l v := by
  obtain ⟨hresult, hasked⟩ := h
  have hget : l.start.state.cache.get? l.start.clock.now l.item.key = none := by
    cases hget : l.start.state.cache.get? l.start.clock.now l.item.key with
    | none => rfl
    | some u =>
      have hkept := runFrom_lookup_of_some p hget l.item.plan
      have htrace : (legOutcome p Lookup.program l).trace = [] := congrArg Outcome.trace hkept
      rw [htrace] at hasked
      exact absurd silent_nil hasked
  obtain ⟨hsum, htrace⟩ := of_lookup_ok hget hresult
  obtain ⟨series, hplan, hanswers, hv⟩ := runFrom_total_ok hsum
  refine ⟨hresult, series, ?_, ?_, htrace.trans hanswers, hv⟩
  · rintro rfl
    exact l.item.plan_ne_nil _ hplan.symm
  · intro a ha
    apply hstop l.start.state.lookback
    rw [← hplan]
    exact List.mem_map_of_mem ha

/-! ### The figure of a call -/

def Call.resource : Call → Resource
  | .cpu _ r => r
  | .memory _ r => r

/-- The queries of a call are for metrics of its resource, or of one broker of it. -/
theorem Call.exists_query_of_mem_lookups {c : Call} {l : Lookup} (hl : l ∈ c.lookups)
    {lookback : Nat} {q : MetricQuery} (hq : q ∈ l.plan lookback) :
    ∃ metric broker, q = query lookback c.resource metric broker := by
  have hcpu : ∀ key r broker, q ∈ (cpuPart key r broker).plan lookback →
      ∃ metric broker, q = query lookback r metric broker := by
    intro key r broker hq
    obtain ⟨metric, -, rfl⟩ := List.mem_map.mp hq
    exact ⟨metric, broker, rfl⟩
  cases c with
  | cpu key r =>
    rw [Call.lookups] at hl
    split at hl
    · obtain ⟨id, -, rfl⟩ := List.mem_map.mp hl
      exact hcpu _ r _ hq
    · obtain rfl := List.mem_singleton.mp hl
      exact hcpu _ r _ hq
  | memory key r =>
    obtain ⟨metric, -, rfl⟩ := Option.map_eq_some_iff.mp (Option.mem_toList.mp hl)
    obtain rfl := List.mem_singleton.mp hq
    exact ⟨metric, none, rfl⟩

/-- They end when the resource was listed. -/
theorem Call.stop_of_mem_lookups {c : Call} {q : Lookup} (hq : q ∈ c.lookups) (lookback : Nat) :
    ∀ x ∈ q.plan lookback, x.stop = c.resource.collectedAt := by
  intro x hx
  obtain ⟨metric, broker, rfl⟩ := Call.exists_query_of_mem_lookups hq hx
  rfl

def Call.key : Call → FigureKey
  | .cpu key _ => ⟨.cpu, key⟩
  | .memory key _ => ⟨.memory, key⟩

/-- A lookup of a call that does not fan out is kept under the key of the call. -/
theorem Call.key_of_not_fansOut {c : Call} (hfans : ¬ c.FansOut) {q : Lookup}
    (hq : q ∈ c.lookups) : q.key = c.key := by
  cases c with
  | cpu key r =>
    have hlookups : (Call.cpu key r).lookups = [cpuPart key r (broker? key r)] := if_neg hfans
    rw [hlookups] at hq
    obtain rfl := List.mem_singleton.mp hq
    rfl
  | memory key r =>
    obtain ⟨metric, -, rfl⟩ := Option.map_eq_some_iff.mp (Option.mem_toList.mp hq)
    rfl

/-- Those of a call that fans out are kept under the keys of the brokers. -/
theorem Call.key_of_fansOut {c : Call} (hfans : c.FansOut) {q : Lookup} (hq : q ∈ c.lookups) :
    ∃ id ∈ List.range' 1 c.resource.brokerCount,
      q.key = ⟨.cpu, brokerKey c.resource.identifier id⟩ := by
  obtain ⟨key, r, rfl, hlookups, -⟩ := Call.of_fansOut hfans
  rw [hlookups] at hq
  obtain ⟨id, hid, rfl⟩ := List.mem_map.mp hq
  exact ⟨id, hid, rfl⟩

/-- The figure in the result of a lookup. -/
def figure? : Except ClockFault (Except Failure Float) → Option Float
  | .ok (.ok v) => some v
  | _ => none

theorem figure?_eq_some {x : Except ClockFault (Except Failure Float)} {v : Float} :
    figure? x = some v ↔ x = .ok (.ok v) := by
  unfold figure?
  split <;> simp_all

/-- The figures that the lookups of a call found. -/
def figures (p : Provider π) (c : Leg π Peaks Call) : List Float :=
  (lookupLegs p c).filterMap fun l => figure? (legOutcome p Lookup.program l).result

/-- The result of a call that fans out is put together from those of its lookups. -/
theorem exists_outcomes_of_fansOut {c : Leg π Peaks Call} (hfans : c.item.FansOut)
    {x : Except Failure Float} (h : (legOutcome p Call.program c).result = .ok x) :
    ∃ outcomes : List (Except Failure Float),
      (lookupLegs p c).map (fun l => (legOutcome p Lookup.program l).result) =
        outcomes.map .ok ∧
      combine c.item.resource outcomes = x := by
  obtain ⟨call, w⟩ := c
  obtain ⟨key, r, rfl, hlookups, hprogram⟩ := Call.of_fansOut hfans
  rw [legOutcome, hprogram] at h
  obtain ⟨outcomes, houtcomes, hcombine⟩ := exists_outcomes_of_clusterCpu h
  refine ⟨outcomes, ?_, hcombine⟩
  rw [← houtcomes, lookupLegs, hlookups, relay_map, List.map_map]
  rfl

theorem figures_of_outcomes {c : Leg π Peaks Call} {outcomes : List (Except Failure Float)}
    (h : (lookupLegs p c).map (fun l => (legOutcome p Lookup.program l).result) =
      outcomes.map .ok) : figures p c = outcomes.filterMap Except.toOption := by
  have hfigures : figures p c =
      ((lookupLegs p c).map fun l => (legOutcome p Lookup.program l).result).filterMap figure? := by
    rw [figures, List.filterMap_map]
    rfl
  have hfigure : figure? ∘ Except.ok = Except.toOption := by
    funext x
    cases x <;> rfl
  rw [hfigures, h, List.filterMap_map, hfigure]

/-- The figure of a cluster, also one that is only partial, is the greatest of those found for its
brokers. -/
theorem peak_of_fansOut {c : Leg π Peaks Call} (hfans : c.item.FansOut) {x : Except Failure Float}
    (h : (legOutcome p Call.program c).result = .ok x) :
    x = .ok (Number.greatest 0.0 (figures p c)) ∨
      ∃ e, x = .error e ∧ e.partialPeak = some (Number.greatest 0.0 (figures p c)) := by
  obtain ⟨outcomes, houtcomes, rfl⟩ := exists_outcomes_of_fansOut hfans h
  rw [figures_of_outcomes houtcomes, combine]
  split
  · exact .inl rfl
  · exact .inr ⟨_, rfl, rfl⟩

/-- A call without a lookup fails because the engine reports no such figure. -/
theorem Call.program_of_lookups_nil {c : Call} (hfans : ¬ c.FansOut) (h : c.lookups = []) :
    ∃ key r, c = .memory key r ∧ r.engine.profile.memoryMetric = none ∧
      c.program = done (.error (.unsupported .memory r.engine.name)) := by
  cases c with
  | cpu key r =>
    have hlookups : (Call.cpu key r).lookups = [cpuPart key r (broker? key r)] := if_neg hfans
    exact absurd (hlookups.symm.trans h) (List.cons_ne_nil _ _)
  | memory key r =>
    cases hmetric : r.engine.profile.memoryMetric with
    | none =>
      refine ⟨key, r, rfl, hmetric, ?_⟩
      simp only [Call.program, Peaks.memory, hmetric]
    | some metric => simp [Call.lookups, hmetric] at h

/-- Any other call fails because of a metric, or because its engine does not report the figure. -/
theorem error_of_not_fansOut {c : Leg π Peaks Call} (hfans : ¬ c.item.FansOut) {e : Failure}
    (h : (legOutcome p Call.program c).result = .ok (.error e)) :
    (∃ key metric cause, e = .metric key metric cause) ∨
      ∃ key r, c.item = .memory key r ∧ r.engine.profile.memoryMetric = none ∧
        e = .unsupported .memory r.engine.name := by
  obtain ⟨call, w⟩ := c
  rcases Call.of_not_fansOut hfans with ⟨q, -, hprogram⟩ | ⟨hlookups, -⟩
  · rw [legOutcome, hprogram] at h
    obtain ⟨metric, cause, he⟩ := metric_of_lookup (l := ⟨q, w⟩) h
    exact .inl ⟨_, metric, cause, he⟩
  · obtain ⟨key, r, hcall, hmetric, hunsupported⟩ := Call.program_of_lookups_nil hfans hlookups
    rw [legOutcome, hunsupported] at h
    exact .inr ⟨key, r, hcall, hmetric, (Except.error.inj (Except.ok.inj h)).symm⟩

/-- It carries no figure then. -/
theorem partialPeak_of_not_fansOut {c : Leg π Peaks Call} (hfans : ¬ c.item.FansOut) {e : Failure}
    (h : (legOutcome p Call.program c).result = .ok (.error e)) : e.partialPeak = none := by
  rcases error_of_not_fansOut hfans h with ⟨key, metric, cause, rfl⟩ | ⟨key, r, -, -, rfl⟩ <;> rfl

/-- Otherwise its figure is that of its lookup. -/
theorem figures_of_not_fansOut {c : Leg π Peaks Call} (hfans : ¬ c.item.FansOut) {v : Float}
    (h : (legOutcome p Call.program c).result = .ok (.ok v)) : figures p c = [v] := by
  obtain ⟨call, w⟩ := c
  rcases Call.of_not_fansOut hfans with ⟨q, hlookups, hprogram⟩ | ⟨-, e, hprogram⟩
  · have hlegs : lookupLegs p ⟨call, w⟩ = [⟨q, w⟩] := by
      rw [lookupLegs, hlookups, relay_singleton]
    have hresult : (legOutcome p Lookup.program ⟨q, w⟩).result = .ok (.ok v) := by
      rw [← h, legOutcome, legOutcome, hprogram]
    rw [figures, hlegs, List.filterMap_cons, hresult]
    rfl
  · rw [legOutcome, hprogram] at h
    exact absurd (Except.ok.inj h) (error_ne_ok e v)

end PeakUsage.Peaks
