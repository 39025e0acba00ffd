import PeakUsage.Proofs.Collector.Latched

/-! What the report of a scrape says: how the listing went, what the lookups found, and whether the
latch is set by then. -/
namespace PeakUsage.Collector
open Program

variable {π : Type}

/-- Where a report comes from: from the lookups for the listed resources, or from a failed
listing. -/
inductive Reported (p : Provider π) (w : Moment π Collector) (rep : Report) : Prop
  | listed (rs : List Resource) (hlist : (resources.runFrom p w).result = .ok (.ok rs))
      (hfit : ∀ l ∈ scrapeLegs p w, halted p l = false)
      (hinstances : rep.instances = rs.length)
      (hsamples : rep.samples = (scrapeLegs p w).filterMap (sample? p))
      (herrors : rep.errors = (scrapeLegs p w).countP (failed p))
      (hfailure : rep.listingFailure = none)
  | unlisted (e : Failure) (hlist : (resources.runFrom p w).result = .ok (.error e))
      (hinstances : rep.instances = 0) (hsamples : rep.samples = [])
      (herrors : rep.errors = if e.isDisabled then 0 else 1)
      (hfailure : rep.listingFailure = if e.isDisabled then none else some e)

variable {p : Provider π} {w : Moment π Collector} {rep : Report}

theorem scrapeLegs_of_listed {rs : List Resource}
    (h : (resources.runFrom p w).result = .ok (.ok rs)) :
    scrapeLegs p w = walk p rs (resources.runFrom p w).moment := by
  simp only [scrapeLegs, h]

theorem scrapeLegs_of_unlisted {e : Failure}
    (h : (resources.runFrom p w).result = .ok (.error e)) : scrapeLegs p w = [] := by
  simp only [scrapeLegs, h]

/-- A scrape that does not halt reports what it did, and whether the latch is set behind it. -/
theorem reported_scrape (h : (scrape.runFrom p w).result = .ok rep) :
    Reported p w rep ∧ rep.fetchDisabled = (scrape.runFrom p w).state.latch.isSet := by
  cases hlist : (resources.runFrom p w).result with
  | error f =>
    rw [scrape, runFrom_clock_bind, runFrom_bind_error hlist] at h
    exact absurd h (error_ne_ok f rep)
  | ok x =>
    cases x with
    | error e =>
      rw [scrape, runFrom_clock_bind, runFrom_bind_ok hlist] at h ⊢
      cases hdisabled : e.isDisabled <;> simp only [hdisabled] at h ⊢
      all_goals
        obtain rfl := Except.ok.inj h
        exact ⟨.unlisted e hlist rfl rfl (by rw [hdisabled]; rfl) (by rw [hdisabled]; rfl), rfl⟩
    | ok rs =>
      obtain ⟨o, ho, hretraces⟩ := retraces_scrape hlist
      have hlegs := scrapeLegs_of_listed hlist
      rw [← hlegs] at hretraces
      rw [ho, Outcome.after_result, hretraces.result] at h
      cases hhalt : (scrapeLegs p w).any (halted p) with
      | true =>
        rw [hhalt] at h
        exact absurd h (error_ne_ok _ rep)
      | false =>
        rw [hhalt] at h
        obtain rfl := Except.ok.inj h
        have hstate : o.state = _ := congrArg Moment.state hretraces.moment
        rw [ho, Outcome.after_state, hstate]
        refine ⟨.listed rs hlist ?_ rfl (List.nil_append _) (Nat.zero_add _) rfl, rfl⟩
        simpa using hhalt

namespace Reported

/-- A report has the failure of a listing that failed before the latch was set. -/
theorem isSome_listingFailure (h : Reported p w rep) :
    rep.listingFailure.isSome = true ↔
      ∃ e, (resources.runFrom p w).result = .ok (.error e) ∧ e.isDisabled = false := by
  cases h with
  | listed rs hlist hfit hinstances hsamples herrors hfailure =>
    rw [hfailure]
    constructor
    · exact fun h => absurd h nofun
    · rintro ⟨e, he, -⟩
      exact absurd (Except.ok.inj (he.symm.trans hlist)) (error_ne_ok e rs)
  | unlisted e hlist hinstances hsamples herrors hfailure =>
    rw [hfailure]
    constructor
    · intro h
      cases hdisabled : e.isDisabled with
      | false => exact ⟨e, hlist, hdisabled⟩
      | true => simp [hdisabled] at h
    · rintro ⟨d, hd, hdisabled⟩
      obtain rfl : d = e := Except.error.inj (Except.ok.inj (hd.symm.trans hlist))
      simp [hdisabled]

/-- Every sample is what a lookup of the scrape found. -/
theorem exists_leg (h : Reported p w rep) {x : Sample} (hx : x ∈ rep.samples) :
    ∃ rs, (resources.runFrom p w).result = .ok (.ok rs) ∧ ∃ l ∈ scrapeLegs p w,
      l.item = ⟨x.figure, x.identifier, x.resource⟩ ∧ found? p l = some x.value := by
  cases h with
  | unlisted e hlist hinstances hsamples =>
    rw [hsamples] at hx
    exact absurd hx List.not_mem_nil
  | listed rs hlist hfit hinstances hsamples =>
    rw [hsamples] at hx
    obtain ⟨l, hl, hlx⟩ := List.mem_filterMap.mp hx
    obtain ⟨v, hfound, rfl⟩ := Option.map_eq_some_iff.mp hlx
    exact ⟨rs, hlist, l, hl, rfl, hfound⟩

/-- No two samples have key and figure in common. -/
theorem pairwise (h : Reported p w rep) (hw : w.state.inventory.Keyed) :
    rep.samples.Pairwise fun a b => ¬ (a.identifier = b.identifier ∧ a.figure = b.figure) := by
  cases h with
  | unlisted e hlist hinstances hsamples =>
    rw [hsamples]
    exact List.Pairwise.nil
  | listed rs hlist hfit hinstances hsamples =>
    rw [hsamples, scrapeLegs_of_listed hlist]
    exact samples_pairwise (Inventory.pairwise_of_runFrom_resources hw (of_resources_ok hlist)) _

end Reported

end PeakUsage.Collector
