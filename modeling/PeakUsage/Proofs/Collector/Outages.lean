import PeakUsage.Proofs.Collector.Measured
import PeakUsage.Proofs.Peaks.Misses

/-! What a scrape makes of a streaming cluster none of whose brokers answers: the row is reported
like one that is idle. -/
namespace PeakUsage

namespace Peaks
open Program

variable {π : Type} {p : Provider π}

theorem Call.lookups_ne_nil (c : Call) (hfans : c.FansOut) (h : 0 < c.resource.brokerCount) :
    c.lookups ≠ [] := by
  obtain ⟨key, r, rfl, hlookups, -⟩ := Call.of_fansOut hfans
  have hcount : r.brokerCount ≠ 0 := Nat.ne_of_gt h
  rw [hlookups]
  simpa using hcount

/-- The figure of a cluster is whole if and only if no broker failed. -/
theorem combine_eq_error_iff {r : Resource} {outcomes : List (Except Failure Float)} :
    (∃ e, combine r outcomes = .error e) ↔ ∃ e, .error e ∈ outcomes := by
  constructor
  · rintro ⟨e, he⟩
    by_contra hnone
    have hok : ∀ x ∈ outcomes, ∃ v, id x = .ok v := by
      intro x hx
      cases x with
      | ok v => exact ⟨v, rfl⟩
      | error f => exact absurd ⟨f, hx⟩ hnone
    obtain ⟨values, hvalues⟩ := exists_map_ok hok
    rw [List.map_id] at hvalues
    rw [hvalues, combine_of_ok] at he
    exact error_ne_ok e _ he.symm
  · rintro ⟨e, he⟩
    exact ⟨_, combine_of_error he⟩

theorem error_of_fansOut_iff {c : Leg π Peaks Call} (hfans : c.item.FansOut)
    {x : Except Failure Float} (h : (legOutcome p Call.program c).result = .ok x) :
    (∃ e, x = .error e) ↔
      ∃ m ∈ lookupLegs p c, ∃ e, (legOutcome p Lookup.program m).result = .ok (.error e) := by
  obtain ⟨outcomes, houtcomes, rfl⟩ := exists_outcomes_of_fansOut hfans h
  have hmem : ∀ y, y ∈ outcomes ↔
      ∃ m ∈ lookupLegs p c, (legOutcome p Lookup.program m).result = .ok y := by
    intro y
    rw [← List.mem_map, houtcomes, List.mem_map]
    exact ⟨fun hy => ⟨y, hy, rfl⟩, fun ⟨z, hz, hzy⟩ => Except.ok.inj hzy ▸ hz⟩
  rw [combine_eq_error_iff]
  constructor
  · rintro ⟨e, he⟩
    obtain ⟨m, hm, hresult⟩ := (hmem _).mp he
    exact ⟨m, hm, e, hresult⟩
  · rintro ⟨m, hm, e, hresult⟩
    exact ⟨e, (hmem _).mpr ⟨m, hm, hresult⟩⟩

end Peaks

namespace Collector
open Program

variable {π : Type} {p : Provider π} {w : Moment π Collector}

/-- The row is that of a streaming cluster, and the cluster has brokers. -/
def Lookup.AsksBrokers (q : Lookup) : Prop := q.FansOut ∧ 0 < q.resource.brokerCount

/-- A figure was found for some broker, kept or fetched. -/
def Answered (p : Provider π) (k : Leg π Collector Lookup) : Prop :=
  ∃ m ∈ figureLegs p k, ∃ v, (legOutcome p Peaks.Lookup.program m).result = .ok (.ok v)

/-- Some broker failed. -/
def Faulty (p : Provider π) (k : Leg π Collector Lookup) : Prop :=
  ∃ m ∈ figureLegs p k, ∃ e, (legOutcome p Peaks.Lookup.program m).result = .ok (.error e)

/-- Only CPU figures are made up of those of brokers. -/
theorem Lookup.FansOut.figure_eq {q : Lookup} (h : q.FansOut) : q.figure = .cpu := by
  obtain ⟨figure, key, r⟩ := q
  cases figure with
  | cpu => rfl
  | memory => exact h.elim

variable {k : Leg π Collector Lookup}

theorem figures_eq_nil_iff :
    Peaks.figures p ⟨k.item.call, k.start.map (·.peaks)⟩ = [] ↔ ¬ Answered p k := by
  rw [Peaks.figures, List.filterMap_eq_nil_iff, Answered]
  constructor
  · rintro hnone ⟨m, hm, v, hv⟩
    exact Option.some_ne_none v ((Peaks.figure?_eq_some.mpr hv).symm.trans (hnone m hm))
  · intro hnone m hm
    cases hfigure : Peaks.figure? (legOutcome p Peaks.Lookup.program m).result with
    | none => rfl
    | some v => exact absurd ⟨m, hm, v, Peaks.figure?_eq_some.mp hfigure⟩ hnone

/-- The lookup of a cluster fails when one of its brokers does. -/
theorem failed_iff_faulty (hfans : k.item.FansOut) (hunset : k.start.state.latch.isSet = false)
    (hhalted : halted p k = false) : failed p k = true ↔ Faulty p k := by
  have hresult := result_of_unset (p := p) hunset
  cases hx : (legOutcome p Lookup.program k).result with
  | error f => simp [halted, hx] at hhalted
  | ok x =>
    have hiff := Peaks.error_of_fansOut_iff (c := ⟨k.item.call, k.start.map (·.peaks)⟩) hfans
      (hresult.symm.trans hx)
    rw [failed, hx]
    refine Iff.trans ?_ hiff
    cases x with
    | ok v => simp
    | error e => simp

/-- Brokers of which none answers have failed. -/
theorem faulty_of_not_answered (hasks : k.item.AsksBrokers)
    (hunset : k.start.state.latch.isSet = false) (hhalted : halted p k = false)
    (h : ¬ Answered p k) : Faulty p k := by
  let c : Leg π Peaks Peaks.Call := ⟨k.item.call, k.start.map (·.peaks)⟩
  have hfit : (legOutcome p Peaks.Call.program c).result ≠ .error .pastHorizon := by
    intro hhalt
    rw [halted, result_of_unset hunset] at hhalted
    simp [c, hhalt] at hhalted
  have hok : ∀ m ∈ figureLegs p k, ∃ x, (legOutcome p Peaks.Lookup.program m).result = .ok x :=
    fun m hm => Peaks.ok_of_mem_lookupLegs (c := c) hfit hm
  have hitems : (figureLegs p k).map (·.item) = k.item.call.lookups :=
    relay_items p Peaks.Lookup.program hok
  obtain ⟨m, rest, hlegs⟩ : ∃ m rest, figureLegs p k = m :: rest := by
    apply List.exists_cons_of_ne_nil
    intro hnil
    rw [hnil] at hitems
    exact k.item.call.lookups_ne_nil hasks.1 (k.item.call_resource ▸ hasks.2) hitems.symm
  have hm : m ∈ figureLegs p k := hlegs ▸ List.mem_cons_self
  obtain ⟨x, hx⟩ := hok m hm
  cases x with
  | ok v => exact absurd ⟨m, hm, v, hx⟩ h
  | error e => exact ⟨m, hm, e, hx⟩

/-! ### Reports -/

/-- The question that a sample answers. -/
def Lookup.ofSample (x : Sample) : Lookup := ⟨x.figure, x.identifier, x.resource⟩

/-- Clusters are reported from the brokers that answered, and are failures without a sample when none
did. -/
structure FromAnswers (p : Provider π) (w : Moment π Collector) (rep : Report) : Prop where
  answered : ∀ x ∈ rep.samples, (Lookup.ofSample x).AsksBrokers →
    ∃ k ∈ scrapeLegs p w, k.item = .ofSample x ∧ Answered p k
  outage : ∀ k ∈ scrapeLegs p w, k.item.AsksBrokers → ¬ Answered p k →
    failed p k = true ∧ ∀ x ∈ rep.samples, k.item ≠ .ofSample x

theorem Reported.halted_eq_false {rep : Report} (h : Reported p w rep) (hk : k ∈ scrapeLegs p w) :
    halted p k = false := by
  cases h with
  | listed rs hlist hfit => exact hfit k hk
  | unlisted e hlist =>
    rw [scrapeLegs_of_unlisted hlist] at hk
    exact absurd hk List.not_mem_nil

/-- What a lookup found is in the report. -/
theorem Reported.mem_samples {rep : Report} (h : Reported p w rep) (hk : k ∈ scrapeLegs p w)
    {v : Float} (hfound : found? p k = some v) :
    ⟨k.item.key, k.item.figure, v, k.item.resource⟩ ∈ rep.samples := by
  cases h with
  | listed rs hlist hfit hinstances hsamples =>
    rw [hsamples, List.mem_filterMap]
    exact ⟨k, hk, by rw [sample?, hfound]; rfl⟩
  | unlisted e hlist =>
    rw [scrapeLegs_of_unlisted hlist] at hk
    exact absurd hk List.not_mem_nil

/-- Every cluster that is looked up has a sample, with the greatest of the figures found for its
brokers and 0 if there is none, and counts as a failure when one of them failed. So the clusters
are reported from the brokers that answered exactly when each has one that did. -/
theorem fromAnswers_iff {rep : Report} (h : (scrape.runFrom p w).result = .ok rep) :
    (FromAnswers p w rep ↔ ∀ k ∈ scrapeLegs p w, k.item.AsksBrokers → Answered p k) ∧
      ∀ k ∈ scrapeLegs p w, k.item.FansOut →
        (failed p k = true ↔ Faulty p k) ∧
          ⟨k.item.key, .cpu, Number.greatest 0.0
            (Peaks.figures p ⟨k.item.call, k.start.map (·.peaks)⟩), k.item.resource⟩ ∈
              rep.samples ∧
          (k.item.AsksBrokers → ¬ Answered p k → failed p k = true ∧
            ⟨k.item.key, .cpu, 0.0, k.item.resource⟩ ∈ rep.samples) := by
  obtain ⟨hreported, -⟩ := reported_scrape h
  have hsample : ∀ k ∈ scrapeLegs p w, k.item.FansOut → ⟨k.item.key, .cpu, Number.greatest 0.0
      (Peaks.figures p ⟨k.item.call, k.start.map (·.peaks)⟩), k.item.resource⟩ ∈
        rep.samples := by
    intro k hk hfans
    have hfound := found?_of_fansOut hfans (unset_of_mem_scrapeLegs hk)
      (hreported.halted_eq_false hk)
    rw [← hfans.figure_eq]
    exact hreported.mem_samples hk hfound
  have hfailed : ∀ k ∈ scrapeLegs p w, k.item.FansOut → (failed p k = true ↔ Faulty p k) :=
    fun k hk hfans => failed_iff_faulty hfans (unset_of_mem_scrapeLegs hk)
      (hreported.halted_eq_false hk)
  refine ⟨⟨fun hanswers k hk hasks => ?_, fun hanswered => ⟨fun x hx hasks => ?_, ?_⟩⟩, ?_⟩
  · by_contra hnone
    obtain ⟨-, hmissing⟩ := hanswers.outage k hk hasks hnone
    refine hmissing _ (hsample k hk hasks.1) ?_
    rw [Lookup.ofSample, ← hasks.1.figure_eq]
  · obtain ⟨-, -, k, hk, hitem, -⟩ := hreported.exists_leg hx
    have hsame : k.item = .ofSample x := hitem
    exact ⟨k, hk, hsame, hanswered k hk (hsame ▸ hasks)⟩
  · exact fun k hk hasks hnone => absurd (hanswered k hk hasks) hnone
  · intro k hk hfans
    refine ⟨hfailed k hk hfans, hsample k hk hfans, fun hasks hnone => ⟨?_, ?_⟩⟩
    · exact (hfailed k hk hfans).mpr (faulty_of_not_answered hasks (unset_of_mem_scrapeLegs hk)
        (hreported.halted_eq_false hk) hnone)
    · have hzero := hsample k hk hfans
      rw [figures_eq_nil_iff.mpr hnone] at hzero
      exact hzero

/-! ### One broker of two, and none -/

/-- Whether the question is for a cluster that has brokers. -/
def Lookup.asksBrokers (q : Lookup) : Bool :=
  q.figure = .cpu && q.resource.engine = .kafka && q.resource.level = .cluster &&
    0 < q.resource.brokerCount

theorem Lookup.asksBrokers_iff {q : Lookup} : q.asksBrokers = true ↔ q.AsksBrokers := by
  obtain ⟨figure, key, r⟩ := q
  cases figure with
  | cpu => simp [asksBrokers, AsksBrokers, FansOut, Lookup.call, Peaks.Call.FansOut]
  | memory => simp [asksBrokers, AsksBrokers, FansOut, Lookup.call, Peaks.Call.FansOut]

def answered (p : Provider π) (k : Leg π Collector Lookup) : Bool :=
  (figureLegs p k).any fun m =>
    (Peaks.figure? (legOutcome p Peaks.Lookup.program m).result).isSome

theorem answered_iff : answered p k = true ↔ Answered p k := by
  simp only [answered, Answered, List.any_eq_true, Option.isSome_iff_exists, Peaks.figure?_eq_some]

/-- Of the two brokers that are asked for the cluster one is down. -/
theorem fromAnswers_mixed :
    ∃ rep, (scrape.runFrom mixedProvider unused).result = .ok rep ∧
      FromAnswers mixedProvider unused rep ∧
      ∃ k ∈ scrapeLegs mixedProvider unused, k.item.AsksBrokers ∧ Faulty mixedProvider k := by
  obtain ⟨rep, hrep⟩ := exists_ok_of_ne_pastHorizon scrape_unused
  obtain ⟨hiff, hclusters⟩ := fromAnswers_iff hrep
  have hall : ((scrapeLegs mixedProvider unused).all fun k =>
      !k.item.asksBrokers || answered mixedProvider k) = true := by decide +kernel
  have hany : ((scrapeLegs mixedProvider unused).any fun k =>
      k.item.asksBrokers && failed mixedProvider k) = true := by decide +kernel
  have hanswered : ∀ k ∈ scrapeLegs mixedProvider unused, k.item.AsksBrokers →
      Answered mixedProvider k := by
    intro k hk hasks
    have hk := List.all_eq_true.mp hall k hk
    rw [Lookup.asksBrokers_iff.mpr hasks] at hk
    exact answered_iff.mp hk
  obtain ⟨k, hk, hfailed⟩ := List.any_eq_true.mp hany
  rw [Bool.and_eq_true, Lookup.asksBrokers_iff] at hfailed
  exact ⟨rep, hrep, hiff.mpr hanswered, k, hk, hfailed.1,
    (hclusters k hk hfailed.1.1).1.mp hfailed.2⟩

/-- Lists a cluster of two brokers, and has no figure for either. -/
def brokersDown : Provider Unit := .steady 1 fun
  | .list .streaming => .ok [⟨"dev-events", "kafka.m5.large", 2⟩]
  | .list _ => .ok []
  | .statistics _ => .error ⟨some 503, "busy"⟩

/-- The cluster is reported though no lookup of a broker found anything in the whole scrape. -/
theorem exists_sample_without_answer :
    ¬ ∀ (settings : CollectorSettings) (environment : String) (p : Provider Unit) (now : Nat)
      (turns : List (Turn Unit Operation)),
      ∀ l ∈ play p Operation.program now (new settings environment) turns, ∀ rep,
        (legOutcome p Operation.program l).result = .ok (.report rep) → ∀ x ∈ rep.samples,
          (Lookup.ofSample x).AsksBrokers → ∃ k ∈ scrapeLegs p l.start,
            k.item.resource.identifier = x.resource.identifier ∧ Answered p k := by
  intro h
  let l : Leg Unit Collector Operation := ⟨.scrape, unused⟩
  have hany : ((samplesOf (legOutcome brokersDown Operation.program l).result).any fun x =>
      (Lookup.ofSample x).asksBrokers) = true := by decide +kernel
  have hnone : ((scrapeLegs brokersDown unused).any (answered brokersDown)) = false := by
    decide +kernel
  obtain ⟨x, hx, hasks⟩ := List.any_eq_true.mp hany
  obtain ⟨rep, hrep, hmem⟩ := exists_report_of_mem_samplesOf hx
  obtain ⟨k, hk, -, hanswered⟩ := h ⟨100, 60, ∅, "dev"⟩ "dev" brokersDown 0
    [⟨.scrape, 0, ⟨0, 0⟩, ()⟩] l List.mem_cons_self rep hrep x hmem
    (Lookup.asksBrokers_iff.mp hasks)
  have hfound : (scrapeLegs brokersDown unused).any (answered brokersDown) = true :=
    List.any_eq_true.mpr ⟨k, hk, answered_iff.mpr hanswered⟩
  exact absurd (hnone.symm.trans hfound) nofun

end Collector
end PeakUsage
