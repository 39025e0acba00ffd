import PeakUsage.Proofs.Peaks.Maxima
import PeakUsage.Proofs.Peaks.Measured

/-! What a lookup does that finds nothing kept. It makes its queries in order, up to the first that is
refused. A refusal leaves nothing behind; only a sum of all peaks is kept, and under its own key. -/
namespace PeakUsage.Peaks
open Program

variable {π : Type} {p : Provider π}

/-! ### What is left under one key -/

/-- A key has the given entry or none, the cache the given deadline, and all else is as before. -/
structure Differs (key : FigureKey) (entry : Option (Expiring.Entry Float))
    (deadline : Option Nat) (s t : Peaks) : Prop where
  ttl_eq : t.ttl = s.ttl
  lookback_eq : t.lookback = s.lookback
  deadline_eq : t.cache.deadline = deadline
  entry_eq : ∀ j, t.cache.entries[j]? = if j = key then entry else s.cache.entries[j]?

theorem differs_removed {s : Peaks} {now : Nat} {key : FigureKey}
    (hget : s.cache.get? now key = none) :
    Differs key none s.cache.deadline s (s.removed now key) := by
  refine ⟨rfl, rfl, Expiring.deadline_touch .., fun j => ?_⟩
  rw [removed, Expiring.touch, hget, if_neg (by simp), Std.ExtTreeMap.getElem?_erase]
  simp only [Std.LawfulEqOrd.compare_eq_iff_eq, eq_comm (a := key)]

theorem Differs.written {key : FigureKey} {entry : Option (Expiring.Entry Float)}
    {deadline : Option Nat} {s t : Peaks} (h : Differs key entry deadline s t) (v : Float)
    (later : Nat) : Differs key (some ⟨v, later⟩) (some later) s (t.written key v later) := by
  refine ⟨h.ttl_eq, h.lookback_eq, rfl, fun j => ?_⟩
  rw [Peaks.written, Expiring.getElem?_put, h.entry_eq]
  simp only [Std.LawfulEqOrd.compare_eq_iff_eq, eq_comm (a := key)]
  split <;> rfl

/-! ### A lookup that misses -/

def Misses (l : Leg π Peaks Lookup) : Prop :=
  l.start.state.cache.get? l.start.clock.now l.item.key = none

/-- What a lookup does that misses. The peak of a query is the greatest of zero and the maxima in its
answer that are numbers. -/
inductive Missed (l : Leg π Peaks Lookup) (o : Outcome π Peaks (Except Failure Float)) : Prop
  /-- The queries behind the one that was refused are not made. -/
  | refused (series : List (MetricQuery × List Datapoint)) (q : MetricQuery)
      (rest : List MetricQuery) (cause : Refusal)
      (hplan : l.item.plan l.start.state.lookback = series.map (·.1) ++ q :: rest)
      (htrace : o.trace = answers series ++
        [.asked (.statistics q), .answered (.statistics q) (.error cause)])
      (hresult : o.result = .ok (.error (.metric l.item.key.key q.metric cause)))
      (hstate : Differs l.item.key none l.start.state.cache.deadline l.start.state o.state)
  | fetched (series : List (MetricQuery × List Datapoint)) (deadline : Nat)
      (hplan : l.item.plan l.start.state.lookback = series.map (·.1))
      (htrace : o.trace = answers series)
      (hpeaks : ∀ a ∈ series, ∃ n, Number.rank (peakOf a.2) = some n ∧
        IsGreatest (insert 0 (maxima a.2)) n)
      (hsum : sumOfPeaks 0.0 series = (series.map fun a => peakOf a.2).foldl (· + ·) 0.0)
      (hresult : o.result = .ok (.ok (sumOfPeaks 0.0 series)))
      (hdeadline : deadline = o.clock.now + l.start.state.ttl)
      (hstate : Differs l.item.key (some ⟨sumOfPeaks 0.0 series, deadline⟩) (some deadline)
        l.start.state o.state)

theorem missed_lookup {l : Leg π Peaks Lookup} (hget : Misses l) {x : Except Failure Float}
    (h : (legOutcome p Lookup.program l).result = .ok x) :
    Missed l (legOutcome p Lookup.program l) := by
  have hlooked := looked_lookup p l.item.key l.item.plan l.start
  change Looked _ _ (legOutcome p Lookup.program l) at hlooked
  obtain ⟨hsum, htrace⟩ := of_lookup_ok hget h
  have hremoved := differs_removed hget
  cases hlooked with
  | kept v hkept ho => exact absurd (hkept.symm.trans hget) (Option.some_ne_none v)
  | fetched v _ hresult hstate =>
    obtain rfl := Except.ok.inj (h.symm.trans hresult)
    obtain ⟨series, hplan, hanswers, rfl⟩ := runFrom_total_ok hsum
    refine .fetched series _ hplan.symm (htrace.trans hanswers)
      (fun a _ => exists_rank_peakOf a.2) List.foldl_map.symm hresult rfl ?_
    rw [hstate]
    exact hremoved.written _ _
  | missing _ hresult hstate =>
    cases x with
    | ok v => exact absurd h (hresult v)
    | error e =>
      obtain ⟨series, q, rest, cause, hplan, hanswers, rfl⟩ := runFrom_total_error hsum
      refine .refused series q rest cause hplan (htrace.trans hanswers) h ?_
      rw [hstate]
      exact hremoved

/-! ### The lookups of a call -/

/-- The metrics behind the figure of a call, in the order of the engine's profile. -/
def Call.metrics : Call → List String
  | .cpu _ r => r.engine.profile.cpuMetrics
  | .memory _ r => r.engine.profile.memoryMetric.toList

theorem Call.metrics_of_mem_lookups {call : Call} {q : Lookup} (hq : q ∈ call.lookups)
    (lookback : Nat) : (q.plan lookback).map (·.metric) = call.metrics := by
  have hcpu : ∀ key r broker,
      ((cpuPart key r broker).plan lookback).map (·.metric) = r.engine.profile.cpuMetrics := by
    intro key r broker
    exact (List.map_map ..).trans (List.map_id _)
  cases call with
  | cpu key r =>
    rw [Call.lookups] at hq
    split at hq
    · obtain ⟨id, -, rfl⟩ := List.mem_map.mp hq
      exact hcpu _ r _
    · obtain rfl := List.mem_singleton.mp hq
      exact hcpu _ r _
  | memory key r =>
    obtain ⟨metric, hmetric, rfl⟩ := Option.map_eq_some_iff.mp (Option.mem_toList.mp hq)
    rw [Call.metrics, hmetric]
    rfl

/-- The lookups of a call have a key each. -/
theorem Call.pairwise_key_ne (call : Call) :
    call.lookups.Pairwise fun a b => a.key ≠ b.key := by
  cases call with
  | cpu key r =>
    rw [Call.lookups]
    split
    · refine List.pairwise_map.mpr ((List.nodup_range' ..).imp fun hne hkey => hne ?_)
      exact brokerKey_injective r.identifier (congrArg FigureKey.key hkey)
    · exact List.pairwise_singleton ..
  | memory key r => cases hmetric : r.engine.profile.memoryMetric <;> simp [Call.lookups, hmetric]

variable {c : Leg π Peaks Call}

/-- In a call that does not halt none of the lookups does. -/
theorem ok_of_mem_lookupLegs (hfit : (legOutcome p Call.program c).result ≠ .error .pastHorizon)
    {l : Leg π Peaks Lookup} (hl : l ∈ lookupLegs p c) :
    ∃ x, (legOutcome p Lookup.program l).result = .ok x := by
  obtain ⟨x, hx⟩ := exists_ok_of_ne_pastHorizon hfit
  by_cases hfans : c.item.FansOut
  · obtain ⟨outcomes, houtcomes, -⟩ := exists_outcomes_of_fansOut hfans hx
    exact exists_ok_of_ne_pastHorizon (ne_error_of_map_ok houtcomes .pastHorizon l hl)
  · exact ⟨x, (congrArg Outcome.result (legOutcome_of_not_fansOut hfans hl)).symm.trans hx⟩

/-- A lookup leaves the entries of all other keys. -/
theorem getElem?_lookup_of_ne (q : Lookup) (w : Moment π Peaks) {key : FigureKey}
    (hne : q.key ≠ key) :
    (q.program.runFrom p w).state.cache.entries[key]? = w.state.cache.entries[key]? := by
  have hlooked := looked_lookup p q.key q.plan w
  change Looked _ _ (q.program.runFrom p w) at hlooked
  cases hlooked with
  | kept v hget ho => rw [ho]
  | missing hget hresult hstate =>
    rw [hstate, (differs_removed hget).entry_eq, if_neg hne.symm]
  | fetched v hget hresult hstate =>
    rw [hstate, ((differs_removed hget).written v _).entry_eq, if_neg hne.symm]

theorem getElem?_chain_of_ne {now later : Nat} {s t : Peaks} {legs : List (Leg π Peaks Lookup)}
    (h : Chain p Lookup.program now s legs later t) {key : FigureKey}
    (hne : ∀ l ∈ legs, l.item.key ≠ key) : t.cache.entries[key]? = s.cache.entries[key]? :=
  h.keeps (I := fun _ u => u.cache.entries[key]? = s.cache.entries[key]?) (fun _ _ _ _ hu => hu)
    (fun l hl hu => (getElem?_lookup_of_ne l.item l.start (hne l hl)).trans hu) rfl

/-- Lookups that do not get in each other's way: each finds the entry that was under its key before
all of them, what it leaves there stays, and no other key is touched. -/
structure Apart (p : Provider π) (legs : List (Leg π Peaks Lookup)) (s t : Peaks) : Prop where
  start_eq : ∀ l ∈ legs,
    l.start.state.cache.entries[l.item.key]? = s.cache.entries[l.item.key]?
  end_eq : ∀ l ∈ legs, t.cache.entries[l.item.key]? =
    (legOutcome p Lookup.program l).state.cache.entries[l.item.key]?
  other_eq : ∀ key, (∀ l ∈ legs, l.item.key ≠ key) →
    t.cache.entries[key]? = s.cache.entries[key]?

theorem Apart.of_chain {now later : Nat} {s t : Peaks} {legs : List (Leg π Peaks Lookup)}
    (h : Chain p Lookup.program now s legs later t)
    (hkeys : legs.Pairwise fun a b => a.item.key ≠ b.item.key) : Apart p legs s t := by
  have hsplit : ∀ l ∈ legs, ∃ before after, legs = before ++ l :: after ∧
      (∀ m ∈ before, m.item.key ≠ l.item.key) ∧ ∀ m ∈ after, m.item.key ≠ l.item.key := by
    intro l hl
    obtain ⟨before, after, rfl⟩ := List.append_of_mem hl
    rw [List.pairwise_append, List.pairwise_cons] at hkeys
    exact ⟨before, after, rfl, fun m hm => hkeys.2.2 m hm l List.mem_cons_self,
      fun m hm => (hkeys.2.1.1 m hm).symm⟩
  refine ⟨fun l hl => ?_, fun l hl => ?_, fun key hne => getElem?_chain_of_ne h hne⟩
  all_goals
    obtain ⟨before, after, rfl, hbefore, hafter⟩ := hsplit l hl
    obtain ⟨middle, u, hchain, hrest⟩ := h.split
    cases hrest with
    | cons hle htail => ?_
  · exact getElem?_chain_of_ne hchain hbefore
  · exact getElem?_chain_of_ne htail hafter

/-- A lookup that misses makes its queries in the order of the engine's profile. It stops at the first
that is refused, says so of its key and metric, and leaves the cache as it was, without an expired
entry of its own. If none is refused, one entry is written, with the sum of all peaks. The lookups
of a cluster's brokers leave one another's entries alone, whichever of them fail. An engine that
reports no memory figure is not asked for one. -/
theorem missed_call (p : Provider π) (call : Call) (w : Moment π Peaks)
    (hfit : (call.program.runFrom p w).result ≠ .error .pastHorizon) :
    let legs := lookupLegs p ⟨call, w⟩
    let o := call.program.runFrom p w
    legs.map (·.item) = call.lookups ∧ Consists p w legs o ∧
      (¬ call.FansOut → ∀ l ∈ legs, o = legOutcome p Lookup.program l) ∧
      (∀ l ∈ legs, (l.item.plan l.start.state.lookback).map (·.metric) = call.metrics) ∧
      (∀ l ∈ legs, Misses l → Missed l (legOutcome p Lookup.program l)) ∧
      Apart p legs w.state o.state ∧
      ∀ key r, call = .memory key r → r.engine.profile.memoryMetric = none →
        o = stay w (.error (.unsupported .memory r.engine.name)) := by
  intro legs o
  let c : Leg π Peaks Call := ⟨call, w⟩
  have hok : ∀ l ∈ legs, ∃ x, (legOutcome p Lookup.program l).result = .ok x :=
    fun l hl => ok_of_mem_lookupLegs (c := c) hfit hl
  have hitems : legs.map (·.item) = call.lookups := relay_items p Lookup.program hok
  refine ⟨hitems, consists_call p c, fun hfans l hl => ?_, fun l hl => ?_, fun l hl hmiss => ?_,
    ?_, ?_⟩
  · exact legOutcome_of_not_fansOut (c := c) hfans hl
  · exact Call.metrics_of_mem_lookups (item_mem_of_mem_relay p Lookup.program hl) _
  · obtain ⟨x, hx⟩ := hok l hl
    exact missed_lookup hmiss hx
  · have hkeys := call.pairwise_key_ne
    rw [← hitems, List.pairwise_map] at hkeys
    exact .of_chain (chain_lookupLegs p c) hkeys
  · rintro key r rfl hnone
    have hprogram : (Call.memory key r).program =
        done (.error (.unsupported .memory r.engine.name)) := by
      simp only [Call.program, Peaks.memory, hnone]
    exact congrArg (fun q => q.runFrom p w) hprogram

/-! ### A broker that answers one of two queries -/

def secondBrokerHalfDown : Provider Unit := .steady 5 fun
  | .list _ => .ok []
  | .statistics q =>
    if q.dimension? brokerDimension = some "2" ∧ q.metric = "CpuUser" then
      .error ⟨some 503, "busy"⟩
    else .ok [⟨⟨0, 0⟩, some 4.0⟩]

/-- The peak that was found for the broker is not kept, those of the other brokers are. -/
theorem missed_call_halfDown :
    let call : Call := .cpu "events-1" threeBrokers
    let legs := lookupLegs secondBrokerHalfDown ⟨call, unasked⟩
    let o := call.program.runFrom secondBrokerHalfDown unasked
    o.result ≠ .error .pastHorizon ∧ legs.map (·.item.key.key) =
        ["events-1-1", "events-1-2", "events-1-3"] ∧
      (∀ l ∈ legs, Misses l → Missed l (legOutcome secondBrokerHalfDown Lookup.program l)) ∧
      o.state.cache.entries.keys.map (·.key) = ["events-1-1", "events-1-3"] := by
  intro call legs o
  have hfit : o.result ≠ .error .pastHorizon := by
    have hok : o.result.isOk = true := by decide +kernel
    intro h
    rw [h] at hok
    exact absurd hok nofun
  obtain ⟨-, -, -, -, hmissed, -, -⟩ := missed_call secondBrokerHalfDown call unasked hfit
  exact ⟨hfit, by decide +kernel, hmissed, by decide +kernel⟩

end PeakUsage.Peaks
