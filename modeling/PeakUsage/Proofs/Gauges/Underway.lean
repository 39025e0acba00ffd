import PeakUsage.Gauges.Exposition
import PeakUsage.Proofs.Gauges.Publication

/-! What a reader finds between any two steps of a publication: all series from before it or all
series of its samples, and nothing that is in neither. -/
namespace PeakUsage.Gauges

/-- The series of the last publication that one with these samples removes. -/
def gone (published : Std.ExtTreeMap Series Unit) (environment : String)
    (samples : List Sample) : List Series :=
  published.keys.filter fun s => !(seriesOf environment samples).contains s

/-- The steps of a publication, with the series that have gone removed in this order. -/
def course (environment : String) (samples : List Sample) (removals : List Series) : List Step :=
  (samples.map fun x => .set (.ofSample environment x) x.value) ++ removals.map .remove

/-- The gauges when some steps of a publication have been made. -/
def underway (g : Gauges) (made : List Step) : Gauges :=
  { g with usage := made.foldl Step.apply g.usage }

theorem steps_eq_course (published : Std.ExtTreeMap Series Unit) (environment : String)
    (samples : List Sample) :
    steps published environment samples =
      course environment samples (gone published environment samples) := rfl

section
variable {g : Gauges} {environment : String} {samples : List Sample} {removals : List Series}
  {made : List Step}

theorem mem_gone {s : Series} :
    s ∈ gone g.published environment samples ↔
      s ∈ g.published ∧ s ∉ seriesOf environment samples := by
  simp only [gone, List.mem_filter, Std.ExtTreeMap.mem_keys, Bool.not_eq_true', ← Bool.not_eq_true,
    Std.ExtTreeMap.contains_iff_mem]

theorem getElem?_underway (set : List Sample) (removed : List Series) (s : Series) :
    (g.underway (course environment set removed)).usage[s]? =
      if s ∈ removed then none else (lastValue environment set s).or g.usage[s]? := by
  rw [underway, course, List.foldl_append, getElem?_removes, getElem?_sets]

theorem mem_underway {set : List Sample} {removed : List Series} {s : Series} :
    s ∈ (g.underway (course environment set removed)).usage ↔
      s ∉ removed ∧ (s ∈ seriesOf environment set ∨ s ∈ g.usage) := by
  rw [Std.ExtTreeMap.mem_iff_isSome_getElem?, getElem?_underway, ← isSome_lastValue,
    Std.ExtTreeMap.mem_iff_isSome_getElem? (t := g.usage)]
  by_cases hs : s ∈ removed
  · simp [hs]
  · simp [hs, Option.isSome_or]

/-- Whatever the order of the removals, the same series are left. -/
theorem underway_course (horder : removals.Perm (gone g.published environment samples)) :
    (g.underway (course environment samples removals)).usage =
      (g.publish environment samples).usage := by
  refine Std.ExtTreeMap.ext_getElem? fun s => ?_
  have hsame : s ∈ removals ↔ s ∈ gone g.published environment samples := horder.mem_iff
  have hsteps : (g.publish environment samples).usage =
      (g.underway (course environment samples (gone g.published environment samples))).usage :=
    congrArg (fun made => (g.underway made).usage) (steps_eq_course ..)
  rw [hsteps, getElem?_underway, getElem?_underway]
  simp only [hsame]

/-! ### The two halves of a publication -/

/-- What has been made of a publication: some of the sets and no removal, or all sets and some of
the removals. -/
structure Partway (environment : String) (samples set : List Sample) (removed : List Series) :
    Prop where
  set_subset : set ⊆ samples
  not_removed : ∀ s ∈ seriesOf environment samples, s ∉ removed
  phase : removed = [] ∨ set = samples

theorem exists_partway (horder : removals.Perm (gone g.published environment samples))
    (h : made <+: course environment samples removals) :
    ∃ set removed, made = course environment set removed ∧
      Partway environment samples set removed := by
  obtain ⟨n, rfl⟩ : ∃ n, made = (course environment samples removals).take n :=
    ⟨_, List.prefix_iff_eq_take.mp h⟩
  refine ⟨samples.take n, removals.take (n - samples.length), ?_, ?_⟩
  · simp only [course, List.take_append, List.map_take, List.length_map]
  · constructor
    · exact List.take_subset ..
    · intro s hs hr
      exact (mem_gone.mp (horder.mem_iff.mp (List.mem_of_mem_take hr))).2 hs
    · rcases Nat.le_total n samples.length with hle | hle
      · exact .inl (by rw [Nat.sub_eq_zero_of_le hle, List.take_zero])
      · exact .inr (List.take_of_length_le hle)

namespace Partway
variable {set : List Sample} {removed : List Series} {s : Series}

theorem mem_seriesOf (h : Partway environment samples set removed)
    (hs : s ∈ seriesOf environment set) : s ∈ seriesOf environment samples := by
  obtain ⟨x, hx, rfl⟩ := (Gauges.mem_seriesOf environment set).mp hs
  exact (Gauges.mem_seriesOf environment samples).mpr ⟨x, h.set_subset hx, rfl⟩

/-- Before the first removal all old series are there, and from then on all new ones. -/
theorem old_or_new (h : Partway environment samples set removed) :
    let seen := (g.underway (course environment set removed)).usage
    (∀ s ∈ g.usage, s ∈ seen) ∨ ∀ s ∈ seriesOf environment samples, s ∈ seen := by
  intro seen
  rcases h.phase with rfl | rfl
  · exact .inl fun s hs => mem_underway.mpr ⟨List.not_mem_nil, .inr hs⟩
  · exact .inr fun s hs => mem_underway.mpr ⟨h.not_removed s hs, .inl hs⟩

theorem mem_of_both (h : Partway environment samples set removed) (hold : s ∈ g.usage)
    (hnew : s ∈ seriesOf environment samples) :
    s ∈ (g.underway (course environment set removed)).usage :=
  mem_underway.mpr ⟨h.not_removed s hnew, .inr hold⟩

theorem mem_of_mem_underway (h : Partway environment samples set removed)
    (hs : s ∈ (g.underway (course environment set removed)).usage) :
    s ∈ g.usage ∨ s ∈ seriesOf environment samples :=
  (mem_underway.mp hs).2.symm.imp_right h.mem_seriesOf

/-- A value is that from before or that of a sample. -/
theorem value_of_getElem? (h : Partway environment samples set removed) {v : Float}
    (hv : (g.underway (course environment set removed)).usage[s]? = some v) :
    g.usage[s]? = some v ∨
      ∃ y ∈ samples, Series.ofSample environment y = s ∧ y.value = v := by
  rw [getElem?_underway] at hv
  split at hv
  · exact absurd hv nofun
  · rcases Option.or_eq_some_iff.mp hv with hlast | ⟨-, hbefore⟩
    · obtain ⟨earlier, y, later, rfl, hs, hvalue, -⟩ :=
        (lastValue_eq_some_iff environment set).mp hlast
      exact .inr ⟨y, h.set_subset (by simp), hs, hvalue⟩
    · exact .inl hbefore

end Partway

/-! ### The lines a reader gets -/

theorem exists_mem_of_ne_empty {usage : Std.ExtTreeMap Series Float} (h : usage ≠ ∅) :
    ∃ s, s ∈ usage :=
  not_forall_not.mp (mt Std.ExtTreeMap.eq_empty_iff_forall_not_mem.mpr h)

theorem exists_line_of_mem {s : Series} (hs : s ∈ g.usage) : g.usageLines s.figure ≠ [] := by
  obtain ⟨v, hv⟩ := Option.isSome_iff_exists.mp (Std.ExtTreeMap.mem_iff_isSome_getElem?.mp hs)
  have hlisted : (s, v) ∈ g.usage.toList := Std.ExtTreeMap.mem_toList_iff_getElem?_eq_some.mpr hv
  have hline : line (usageName s.figure) (labels s) (Number.text v) ∈ g.usageLines s.figure :=
    List.mem_map.mpr ⟨(s, v), List.mem_filter.mpr ⟨hlisted, by simp⟩, rfl⟩
  exact List.ne_nil_of_mem hline

theorem mem_families_of_lines {f : Figure} (h : g.usageLines f ≠ []) :
    ⟨usageName f, usageHelp f, "gauge", g.usageLines f⟩ ∈ g.families := by
  have husage : g.usageFamily f = [⟨usageName f, usageHelp f, "gauge", g.usageLines f⟩] := by
    unfold usageFamily
    split
    · next hnil => exact absurd hnil h
    · rfl
  cases f <;> simp [families, husage]

/-- A usage gauge with at least one series is among the metrics a reader gets. -/
def ShowsUsage (g : Gauges) : Prop :=
  ∃ f ∈ g.families, f.samples ≠ [] ∧ ∃ figure, f.name = usageName figure

theorem showsUsage_of_mem {s : Series} (hs : s ∈ g.usage) : g.ShowsUsage :=
  ⟨_, mem_families_of_lines (exists_line_of_mem hs), exists_line_of_mem hs, s.figure, rfl⟩

end

/-! ### Between the steps -/

/-- A publication sets all values and then removes what has gone. Between any two of these steps, in
whichever order the series are removed, a reader finds all series from before it or all series of
its samples, and no others; those in both are there all the time. A series has the value from before
or that of one of its samples. So as long as there are series before and after, the gauges are never
found empty. -/
theorem all_old_or_all_new {g : Gauges} (hg : g.usage = ∅) (ps : List Publication)
    (x : Publication) {removals : List Series}
    (horder : removals.Perm (gone (g.publishAll ps).published x.environment x.samples))
    {made : List Step} (hmade : made <+: course x.environment x.samples removals) :
    let before := g.publishAll ps
    let after := before.publish x.environment x.samples
    let own := steps before.published x.environment x.samples
    let seen := before.underway made
    own = course x.environment x.samples (gone before.published x.environment x.samples) ∧
      after.usage = (before.underway own).usage ∧
      ((∀ s ∈ before.usage, s ∈ seen.usage) ∨ ∀ s ∈ after.usage, s ∈ seen.usage) ∧
      (∀ s ∈ seen.usage, s ∈ before.usage ∨ s ∈ after.usage) ∧
      (∀ s ∈ before.usage, s ∈ after.usage → s ∈ seen.usage) ∧
      (∀ s v, seen.usage[s]? = some v → before.usage[s]? = some v ∨
        ∃ y ∈ x.samples, Series.ofSample x.environment y = s ∧ y.value = v) ∧
      (before.usage ≠ ∅ → after.usage ≠ ∅ → seen.usage ≠ ∅ ∧ seen.ShowsUsage) ∧
      (made = course x.environment x.samples removals → seen.usage = after.usage) := by
  intro before after own seen
  have hafter : ∀ s, s ∈ after.usage ↔ s ∈ seriesOf x.environment x.samples :=
    ((covered_of_empty hg).publishAll ps).publish x.environment x.samples
  obtain ⟨set, removed, rfl, hpart⟩ := exists_partway horder hmade
  have hcover : (∀ s ∈ before.usage, s ∈ seen.usage) ∨ ∀ s ∈ after.usage, s ∈ seen.usage :=
    hpart.old_or_new.imp_right fun h s hs => h s ((hafter s).mp hs)
  refine ⟨steps_eq_course .., rfl, hcover, fun s hs => ?_, fun s hold hnew => ?_,
    fun s v => hpart.value_of_getElem?, fun hbefore hnew => ?_, fun hall => ?_⟩
  · exact (hpart.mem_of_mem_underway hs).imp_right (hafter s).mpr
  · exact hpart.mem_of_both hold ((hafter s).mp hnew)
  · obtain ⟨s, hs⟩ : ∃ s, s ∈ seen.usage := by
      rcases hcover with h | h
      · obtain ⟨s, hs⟩ := exists_mem_of_ne_empty hbefore
        exact ⟨s, h s hs⟩
      · obtain ⟨s, hs⟩ := exists_mem_of_ne_empty hnew
        exact ⟨s, h s hs⟩
    exact ⟨Std.ExtTreeMap.ne_empty_of_mem hs, showsUsage_of_mem hs⟩
  · rw [show seen = before.underway _ from rfl, hall]
    exact underway_course horder

/-! ### A row that is listed again, with its first series removed -/

def firstListed : Publication := ⟨"dev", [peakSample .cpu 4.0 0, peakSample .memory 5.0 0]⟩

def publishedFirst : Gauges := empty.publishAll [firstListed]

/-- The old series in the order opposite to that of their keys. -/
def relabelledRemovals : List Series :=
  (gone publishedFirst.published relabelled.environment relabelled.samples).reverse

/-- The three sets and the first removal. -/
def fourSteps : List Step :=
  (course relabelled.environment relabelled.samples relabelledRemovals).take 4

theorem all_old_or_all_new_relabelled :
    let seen := publishedFirst.underway fourSteps
    empty.usage = ∅ ∧
      relabelledRemovals.Perm
        (gone publishedFirst.published relabelled.environment relabelled.samples) ∧
      fourSteps <+: course relabelled.environment relabelled.samples relabelledRemovals ∧
      Series.ofSample "dev" (peakSample .memory 5.0 0) ∉ seen.usage ∧
      Series.ofSample "dev" (peakSample .cpu 3.0 60) ∈ seen.usage ∧
      Series.ofSample "dev" (peakSample .memory 2.0 60) ∈ seen.usage ∧ seen.ShowsUsage := by
  intro seen
  have horder : relabelledRemovals.Perm
      (gone publishedFirst.published relabelled.environment relabelled.samples) :=
    List.reverse_perm _
  have hmade : fourSteps <+: course relabelled.environment relabelled.samples relabelledRemovals :=
    List.take_prefix ..
  have hold : Series.ofSample "dev" (peakSample .memory 5.0 0) ∈ publishedFirst.usage := by
    decide +kernel
  have hcpu : Series.ofSample "dev" (peakSample .cpu 3.0 60) ∈
      (publishedFirst.publish relabelled.environment relabelled.samples).usage := by
    decide +kernel
  have hmemory : Series.ofSample "dev" (peakSample .memory 2.0 60) ∈
      (publishedFirst.publish relabelled.environment relabelled.samples).usage := by
    decide +kernel
  have hremoved : Series.ofSample "dev" (peakSample .memory 5.0 0) ∉ seen.usage := by
    decide +kernel
  obtain ⟨-, -, hcover, -, -, -, hshows, -⟩ :=
    all_old_or_all_new (g := empty) rfl [firstListed] relabelled horder hmade
  have hnew := hcover.resolve_left fun h => hremoved (h _ hold)
  have hseen := hshows (Std.ExtTreeMap.ne_empty_of_mem hold) (Std.ExtTreeMap.ne_empty_of_mem hcpu)
  exact ⟨rfl, horder, hmade, hremoved, hnew _ hcpu, hnew _ hmemory, hseen.2⟩

end PeakUsage.Gauges
