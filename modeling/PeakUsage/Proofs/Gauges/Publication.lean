import Mathlib.Data.List.Induction
import PeakUsage.Gauges

/-! What a publication leaves of the usage series: one for each series of its samples, with the
value of the last sample that has it, and none from before. -/
namespace PeakUsage.Gauges

/-- The value that the last sample of a series has. -/
def lastValue (environment : String) (samples : List Sample) (s : Series) : Option Float :=
  (samples.reverse.find? fun x => Series.ofSample environment x = s).map (·.value)

/-- The series that are there are those of the last publication. -/
def Remembered (g : Gauges) : Prop := ∀ s, s ∈ g.usage ↔ s ∈ g.published

/-- No series is there that the last publication did not set. -/
def Covered (g : Gauges) : Prop := ∀ s ∈ g.usage, s ∈ g.published

theorem Remembered.covered {g : Gauges} (hg : g.Remembered) : g.Covered := fun s => (hg s).mp

theorem covered_of_empty {g : Gauges} (husage : g.usage = ∅) : g.Covered :=
  fun s hs => absurd hs (by simp [husage])

section
variable (environment : String) (samples : List Sample) (usage : Std.ExtTreeMap Series Float)

theorem mem_seriesOf {s : Series} :
    s ∈ seriesOf environment samples ↔ ∃ x ∈ samples, Series.ofSample environment x = s := by
  simp [seriesOf, Std.ExtTreeMap.mem_ofList]

theorem isSome_lastValue {s : Series} :
    (lastValue environment samples s).isSome = true ↔ s ∈ seriesOf environment samples := by
  simp [lastValue, mem_seriesOf]

/-! ### The steps -/

theorem getElem?_apply_set (s t : Series) (v : Float) :
    ((Step.set s v).apply usage)[t]? = if s = t then some v else usage[t]? := by
  rw [Step.apply, Std.ExtTreeMap.getElem?_insert]
  simp only [Std.LawfulEqOrd.compare_eq_iff_eq]

theorem getElem?_apply_remove (s t : Series) :
    ((Step.remove s).apply usage)[t]? = if s = t then none else usage[t]? := by
  rw [Step.apply, Std.ExtTreeMap.getElem?_erase]
  simp only [Std.LawfulEqOrd.compare_eq_iff_eq]

/-- Setting the samples one by one leaves the last value of each of their series. -/
theorem getElem?_sets (s : Series) :
    ((samples.map fun x => Step.set (.ofSample environment x) x.value).foldl Step.apply usage)[s]? =
      (lastValue environment samples s).or usage[s]? := by
  induction samples using List.reverseRecOn with
  | nil => rfl
  | append_singleton samples x ih =>
    rw [List.map_append, List.foldl_append, List.map_singleton, List.foldl_cons, List.foldl_nil,
      getElem?_apply_set, ih]
    by_cases h : Series.ofSample environment x = s <;> simp [lastValue, h]

theorem getElem?_removes (gone : List Series) (s : Series) :
    ((gone.map Step.remove).foldl Step.apply usage)[s]? =
      if s ∈ gone then none else usage[s]? := by
  induction gone generalizing usage with
  | nil => rfl
  | cons t rest ih =>
    rw [List.map_cons, List.foldl_cons, ih, getElem?_apply_remove]
    by_cases h : t = s
    · simp [h]
    · simp [h, Ne.symm h]

end

/-! ### A publication -/

variable {g : Gauges} (environment : String) (samples : List Sample)

/-- After a publication a series has the value of its last sample, and no other series is there. -/
theorem getElem?_publish (hg : g.Covered) (s : Series) :
    (g.publish environment samples).usage[s]? = lastValue environment samples s := by
  rw [publish, steps, List.foldl_append, getElem?_removes, getElem?_sets]
  simp only [List.mem_filter, Std.ExtTreeMap.mem_keys, Bool.not_eq_true', ← Bool.not_eq_true,
    Std.ExtTreeMap.contains_iff_mem]
  have hsome := isSome_lastValue environment samples (s := s)
  cases hlast : lastValue environment samples s with
  | some v =>
    have hmem : s ∈ seriesOf environment samples := hsome.mp (by rw [hlast]; rfl)
    simp [hmem]
  | none =>
    have hmem : s ∉ seriesOf environment samples := by
      rw [← hsome, hlast]
      exact nofun
    rw [Option.none_or]
    by_cases hpublished : s ∈ g.published
    · rw [if_pos ⟨hpublished, hmem⟩]
    · rw [if_neg fun h => hpublished h.1, Std.ExtTreeMap.getElem?_eq_none]
      exact fun h => hpublished (hg s h)

theorem Covered.publish (hg : g.Covered) : (g.publish environment samples).Remembered := by
  intro s
  rw [Std.ExtTreeMap.mem_iff_isSome_getElem?, getElem?_publish environment samples hg]
  exact isSome_lastValue environment samples

theorem Remembered.publish (hg : g.Remembered) :
    (g.publish environment samples).Remembered :=
  hg.covered.publish environment samples

/-- The last sample of a series is the one that no other of the series comes after. -/
theorem lastValue_eq_some_iff {s : Series} {v : Float} :
    lastValue environment samples s = some v ↔
      ∃ before x after, samples = before ++ x :: after ∧ Series.ofSample environment x = s ∧
        x.value = v ∧ ∀ y ∈ after, Series.ofSample environment y ≠ s := by
  rw [lastValue, Option.map_eq_some_iff]
  simp only [List.find?_eq_some_iff_append, decide_eq_true_eq, Bool.not_eq_true',
    decide_eq_false_iff_not]
  constructor
  · rintro ⟨x, ⟨hs, after, before, hsamples, hafter⟩, rfl⟩
    refine ⟨before.reverse, x, after.reverse, ?_, hs, rfl, ?_⟩
    · rw [← List.reverse_inj, hsamples]
      simp
    · exact fun y hy => hafter y (List.mem_reverse.mp hy)
  · rintro ⟨before, x, after, rfl, hs, rfl, hafter⟩
    refine ⟨x, ⟨hs, after.reverse, before.reverse, ?_, ?_⟩, rfl⟩
    · simp
    · exact fun y hy => hafter y (List.mem_reverse.mp hy)

/-! ### Publications one after another -/

/-- What one publication is called with. -/
structure Publication where
  environment : String
  samples : List Sample

/-- What publications leave, each of what the one before left. -/
def publishAll (g : Gauges) (ps : List Publication) : Gauges :=
  ps.foldl (fun g x => g.publish x.environment x.samples) g

/-- No publication leaves a series that the next one could not remove. -/
theorem Covered.publishAll (hg : g.Covered) (ps : List Publication) :
    (g.publishAll ps).Covered := by
  induction ps generalizing g with
  | nil => exact hg
  | cons x rest ih => exact ih (hg.publish x.environment x.samples).covered

/-- Whatever was published before, after a publication the series that are there are those of its
samples, over both gauges. Each has the value of its last sample, and they are what is remembered. -/
theorem publishAll_exact {g : Gauges} (hg : g.usage = ∅) (ps : List Publication)
    (x : Publication) :
    let left := g.publishAll (ps ++ [x])
    (∀ s v, left.usage[s]? = some v ↔
      ∃ before y after, x.samples = before ++ y :: after ∧
        Series.ofSample x.environment y = s ∧ y.value = v ∧
        ∀ z ∈ after, Series.ofSample x.environment z ≠ s) ∧
      (∀ s, s ∈ left.usage ↔ ∃ y ∈ x.samples, Series.ofSample x.environment y = s) ∧
      ∀ s, s ∈ left.published ↔ s ∈ left.usage := by
  intro left
  have hbefore : (g.publishAll ps).Covered := (covered_of_empty hg).publishAll ps
  have hleft : left = (g.publishAll ps).publish x.environment x.samples := by
    rw [show left = g.publishAll (ps ++ [x]) from rfl, publishAll, List.foldl_append]
    rfl
  have hremembered : left.Remembered := hleft ▸ hbefore.publish x.environment x.samples
  refine ⟨fun s v => ?_, fun s => ?_, fun s => (hremembered s).symm⟩
  · rw [hleft, getElem?_publish x.environment x.samples hbefore]
    exact lastValue_eq_some_iff x.environment x.samples
  · rw [hremembered s, hleft]
    exact mem_seriesOf x.environment x.samples

/-! ### Samples without a series in common -/

/-- No two samples have a series in common. -/
def Distinct (environment : String) (samples : List Sample) : Prop :=
  samples.Pairwise fun x y => Series.ofSample environment x ≠ Series.ofSample environment y

variable {environment samples}

theorem Distinct.lastValue_eq_some_iff (h : Distinct environment samples) {s : Series}
    {v : Float} :
    lastValue environment samples s = some v ↔
      ∃ x ∈ samples, Series.ofSample environment x = s ∧ x.value = v := by
  rw [Gauges.lastValue_eq_some_iff]
  constructor
  · rintro ⟨before, x, after, rfl, hs, hv, -⟩
    exact ⟨x, List.mem_append_right _ List.mem_cons_self, hs, hv⟩
  · rintro ⟨x, hx, rfl, hv⟩
    obtain ⟨before, after, rfl⟩ := List.append_of_mem hx
    have hafter := (List.pairwise_cons.mp (List.pairwise_append.mp h).2.1).1
    exact ⟨before, x, after, rfl, rfl, hv, fun y hy => (hafter y hy).symm⟩

def peakSample (figure : Figure) (value : Float) (seconds : Int) : Sample where
  identifier := "sessions"
  figure := figure
  value := value
  resource := ⟨"sessions", "cache.t4g.small", .redis, .node, "CacheClusterId", none, 0, ⟨seconds, 0⟩⟩

/-- The row is listed again between the publications, and its CPU figure comes up twice. -/
def relabelled : Publication :=
  ⟨"dev", [peakSample .cpu 1.0 60, peakSample .memory 2.0 60, peakSample .cpu 3.0 60]⟩

theorem publishAll_exact_relabelled :
    let left := empty.publishAll ([⟨"dev", [peakSample .cpu 4.0 0, peakSample .memory 5.0 0]⟩] ++
      [relabelled])
    empty.usage = ∅ ∧ left.usage[Series.ofSample "dev" (peakSample .cpu 3.0 60)]? = some 3.0 ∧
      Series.ofSample "dev" (peakSample .cpu 4.0 0) ∉ left.usage ∧
      Series.ofSample "dev" (peakSample .memory 5.0 0) ∉ left.published := by
  obtain ⟨hvalue, hmem, hpublished⟩ := publishAll_exact (g := empty) rfl
    [⟨"dev", [peakSample .cpu 4.0 0, peakSample .memory 5.0 0]⟩] relabelled
  have hsplit : relabelled.samples = [peakSample .cpu 1.0 60, peakSample .memory 2.0 60] ++
      peakSample .cpu 3.0 60 :: [] := rfl
  have hlast := (hvalue (.ofSample "dev" (peakSample .cpu 3.0 60)) 3.0).mpr
    ⟨_, _, _, hsplit, rfl, rfl, fun y hy => absurd hy List.not_mem_nil⟩
  have hcpu := (hmem (.ofSample "dev" (peakSample .cpu 4.0 0))).not.mpr (by decide +kernel)
  have hmemory := (hmem (.ofSample "dev" (peakSample .memory 5.0 0))).not.mpr (by decide +kernel)
  exact ⟨rfl, hlast, hcpu, (hpublished _).not.mpr hmemory⟩

end PeakUsage.Gauges
