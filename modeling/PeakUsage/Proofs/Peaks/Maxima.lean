import PeakUsage.Proofs.Expiring
import PeakUsage.Proofs.Number.Nonnegative
import PeakUsage.Proofs.Peaks.Lookups
import PeakUsage.Proofs.Tasks

/-! Figures are true maxima: the peak of a series is the greatest of zero and its numbers, and so no
figure that is kept or answered is a NaN or below zero. -/
namespace PeakUsage.Peaks
open Number Program

/-! ### The peak of a series -/

/-- The numbers of a series, those that are no NaN, by their places in the order of all floats. -/
def maxima (points : List Datapoint) : Set Int := places (points.filterMap (·.maximum))

section
variable {points more : List Datapoint}

theorem maxima_mono (h : points ⊆ more) : maxima points ⊆ maxima more :=
  places_mono (List.filterMap_subset _ h)

/-- The peak is in the place of the greatest of zero and the numbers of the series. -/
theorem exists_rank_peakOf (points : List Datapoint) :
    ∃ n, rank (peakOf points) = some n ∧ IsGreatest (insert 0 (maxima points)) n :=
  exists_rank_greatest (by decide) _

theorem rank_peakOf_iff {n : Int} :
    rank (peakOf points) = some n ↔ IsGreatest (insert 0 (maxima points)) n := by
  obtain ⟨m, hm, hgreatest⟩ := exists_rank_peakOf points
  rw [hm, Option.some_inj]
  exact ⟨fun h => h ▸ hgreatest, hgreatest.unique⟩

theorem rank_peakOf_perm (h : points.Perm more) : rank (peakOf points) = rank (peakOf more) := by
  have hmaxima : maxima points = maxima more :=
    (maxima_mono h.subset).antisymm (maxima_mono h.symm.subset)
  obtain ⟨n, hn, hgreatest⟩ := exists_rank_peakOf points
  rw [hmaxima] at hgreatest
  rw [hn, rank_peakOf_iff.mpr hgreatest]

theorem atMost_peakOf (h : points ⊆ more) : atMost (peakOf points) (peakOf more) = true := by
  obtain ⟨m, hm, hmem, -⟩ := exists_rank_peakOf points
  obtain ⟨n, hn, -, hupper⟩ := exists_rank_peakOf more
  have hle : m ≤ n := hupper (Set.insert_subset_insert (maxima_mono h) hmem)
  rw [atMost, hm, hn]
  exact decide_eq_true hle

theorem nonnegative_peakOf (points : List Datapoint) : Nonnegative (peakOf points) :=
  nonnegative_greatest _

end

/-! ### Kept figures and answers -/

/-- No kept figure is a NaN or below zero, served or not. -/
def Proper (s : Peaks) : Prop :=
  ∀ (key : FigureKey) (e : Expiring.Entry Float), s.cache.entries[key]? = some e →
    Nonnegative e.value

/-- The value of an answer is no NaN and at least zero, also one that is only partial. -/
def ProperAnswer : Except Failure Float → Prop
  | .ok v => Nonnegative v
  | .error e => ∀ v, e.partialPeak = some v → Nonnegative v

theorem proper_new (ttl lookback : Nat) : (Peaks.new ttl lookback).Proper := by
  intro key e he
  exact absurd (he.symm.trans Std.ExtTreeMap.getElem?_empty) nofun

theorem Proper.touch {s : Peaks} (hs : s.Proper) (now : Nat) (key : FigureKey) :
    Proper { s with cache := s.cache.touch now key } :=
  fun k e he => hs k e (Expiring.getElem?_touch_of_some he)

theorem Proper.put {s : Peaks} (hs : s.Proper) {v : Float} (hv : Nonnegative v) (key : FigureKey)
    (deadline : Nat) : Proper { s with cache := s.cache.put key v deadline } := by
  intro k e he
  rw [Expiring.getElem?_put] at he
  split at he
  · obtain rfl := Option.some.inj he
    exact hv
  · exact hs k e he

theorem Proper.get? {s : Peaks} (hs : s.Proper) {now : Nat} {key : FigureKey} {v : Float}
    (h : s.cache.get? now key = some v) : Nonnegative v := by
  obtain ⟨_, _, he, -⟩ := Expiring.get?_eq_some_iff.mp h
  exact hs key _ he

theorem total_delivers (key : FigureKey) (plan : List MetricQuery) {sum : Float}
    (hsum : Nonnegative sum) : (total key plan sum).Delivers Proper ProperAnswer := by
  induction plan generalizing sum with
  | nil => exact hsum
  | cons q rest ih =>
    intro reply
    cases reply with
    | error e => exact fun v hv => absurd hv nofun
    | ok points => exact ih (hsum.add (nonnegative_peakOf points))

theorem keep_delivers (key : FigureKey) {v : Float} (hv : Nonnegative v) :
    (keep key v).Delivers Proper fun _ => True := by
  intro c s hs
  dsimp only
  rw [Expiring.set_eq]
  by_cases hfits : c.now + s.ttl < Nanos.horizon
  · rw [if_pos hfits]
    exact ⟨hs.put hv key _, trivial⟩
  · rw [if_neg hfits]
    exact trivial

theorem lookup_delivers (key : FigureKey) (plan : Nat → List MetricQuery) :
    (lookup key plan).Delivers Proper ProperAnswer := by
  intro c s hs
  dsimp only
  cases hget : s.cache.get? c.now key with
  | some v => exact hs.get? hget
  | none =>
    refine ⟨hs.touch c.now key, ?_⟩
    refine (total_delivers key (plan s.lookback) nonnegative_zero).bind fun x hx => ?_
    cases x with
    | error e => exact hx
    | ok v => exact (keep_delivers key hx).bind fun _ _ => hx

/-- What is put together from the figures of brokers is zero or the figure of one of them. -/
theorem combine_proper (r : Resource) (outcomes : List (Except Failure Float)) :
    ProperAnswer (combine r outcomes) := by
  unfold combine
  dsimp only
  split
  · exact nonnegative_greatest _
  · intro v hv
    obtain rfl := Option.some.inj hv
    exact nonnegative_greatest _

theorem clusterCpu_delivers (r : Resource) : (clusterCpu r).Delivers Proper ProperAnswer := by
  refine Delivers.bind (Delivers.each (P := ProperAnswer) fun id _ => ?_) fun outcomes _ =>
    combine_proper r outcomes
  exact lookup_delivers _ _

/-- Whatever a call finds and is answered, it keeps and answers such figures. -/
theorem Call.delivers (c : Call) : c.program.Delivers Proper ProperAnswer := by
  cases c with
  | cpu key r =>
    change (Peaks.cpu key r).Delivers _ _
    by_cases hcluster : r.engine = .kafka ∧ r.level = .cluster
    · rw [cpu_cluster key hcluster.1 hcluster.2]
      exact clusterCpu_delivers r
    · rw [cpu_of_not_cluster key hcluster]
      exact lookup_delivers _ _
  | memory key r =>
    change (Peaks.memory key r).Delivers _ _
    unfold Peaks.memory
    split
    · exact fun v hv => absurd hv nofun
    · exact lookup_delivers _ _

end PeakUsage.Peaks
