import PeakUsage.Proofs.Collector.Parts
import PeakUsage.Proofs.Collector.Reports
import PeakUsage.Proofs.Inventory.Relisted

/-! A scrape that follows one without errors is served from what that one hit or wrote, as long as
none of it has passed its deadline: it makes no call, changes nothing and reports the same. -/
namespace PeakUsage.Collector
open Program

variable {π α : Type} {p : Provider π}

/-! ### The same walk again -/

/-- The lookup found its figure, and finds it again from `w` on, without a call or a change. -/
def Repeats (p : Provider π) (w : Moment π Collector) (l : Leg π Collector Lookup) : Prop :=
  ∃ v, (legOutcome p Lookup.program l).result = .ok (.ok v) ∧
    l.item.program.runFrom p w = stay w (.ok v)

/-- The same lookup from another moment on. -/
def again (w : Moment π Collector) (l : Leg π Collector Lookup) : Leg π Collector Lookup :=
  ⟨l.item, w⟩

section
variable {u w : Moment π Collector} {l : Leg π Collector Lookup}

namespace Repeats
variable (h : Repeats p w l)
include h

theorem legOutcome_again : ∃ v, (legOutcome p Lookup.program l).result = .ok (.ok v) ∧
    legOutcome p Lookup.program (again w l) = stay w (.ok v) := h

theorem found?_eq : found? p (again w l) = found? p l := by
  obtain ⟨v, hl, hw⟩ := h.legOutcome_again
  rw [found?, found?, hl, hw]
  rfl

theorem isSome_found? : (found? p l).isSome = true := by
  obtain ⟨v, hl, -⟩ := h
  rw [found?, hl]
  rfl

theorem sample?_eq : sample? p (again w l) = sample? p l := by
  rw [sample?, h.found?_eq]
  rfl

theorem failed_eq_false : failed p (again w l) = false := by
  obtain ⟨v, -, hw⟩ := h.legOutcome_again
  rw [failed, hw]
  rfl

theorem halted_eq_false : halted p (again w l) = false := by
  obtain ⟨v, -, hw⟩ := h.legOutcome_again
  rw [halted, hw]
  rfl

theorem moment_eq : (legOutcome p Lookup.program (again w l)).moment = w := by
  obtain ⟨v, -, hw⟩ := h.legOutcome_again
  rw [hw]
  rfl

theorem trace_eq_nil : (legOutcome p Lookup.program (again w l)).trace = [] := by
  obtain ⟨v, -, hw⟩ := h.legOutcome_again
  rw [hw]
  rfl

end Repeats

theorem finish_again {legs : List (Leg π Collector Lookup)} (h : ∀ l ∈ legs, Repeats p w l) :
    finish p Lookup.program (legs.map (again w)) w = w := by
  induction legs with
  | nil => rfl
  | cons l rest ih =>
    have hl := (h l List.mem_cons_self).moment_eq
    have hrest := ih fun m hm => h m (List.mem_cons_of_mem l hm)
    rw [List.map_cons, finish, List.foldl_cons, hl]
    exact hrest

theorem any_halted_again {legs : List (Leg π Collector Lookup)} (h : ∀ l ∈ legs, Repeats p w l) :
    (legs.map (again w)).any (halted p) = false := by
  rw [List.any_map, List.any_eq_false]
  intro l hl
  rw [Function.comp_apply, (h l hl).halted_eq_false]
  exact Bool.false_ne_true

theorem visitLegs_again {r : Resource} (h : ∀ l ∈ visitLegs p r u, Repeats p w l) :
    visitLegs p r w = (visitLegs p r u).map (again w) := by
  have hcpu : Repeats p w (cpuLeg r u) := h _ List.mem_cons_self
  have hsecond : memoryLeg p r w = again w (memoryLeg p r u) :=
    congrArg (Leg.mk (Lookup.mk .memory r.usageKey r)) hcpu.moment_eq
  have hfound : (found? p (cpuLeg r w)).isSome = true :=
    (congrArg Option.isSome hcpu.found?_eq).trans hcpu.isSome_found?
  rw [visitLegs, visitLegs, hfound, hcpu.isSome_found?, hsecond]
  cases r.engine.reportsMemory <;> rfl

/-- Repeated lookups add the samples that were found the first time, and no error. -/
theorem extend_again {legs : List (Leg π Collector Lookup)} (h : ∀ l ∈ legs, Repeats p w l)
    (rep : Report) :
    extend p (legs.map (again w)) rep =
      { rep with samples := rep.samples ++ legs.filterMap (sample? p) } := by
  have hsamples : (legs.map (again w)).filterMap (sample? p) = legs.filterMap (sample? p) := by
    rw [List.filterMap_map]
    exact List.filterMap_congr fun l hl => (h l hl).sample?_eq
  have herrors : (legs.map (again w)).countP (failed p) = 0 := by
    rw [List.countP_map, List.countP_eq_zero]
    intro l hl
    rw [Function.comp_apply, (h l hl).failed_eq_false]
    exact Bool.false_ne_true
  rw [extend, hsamples, herrors]
  rfl

/-- A walk whose lookups are all repeated makes the same lookups, each where it starts itself. -/
theorem walk_again {rs : List Resource} (hunset : w.state.latch.isSet = false)
    (hend : (finish p Lookup.program (walk p rs u) u).state.latch.isSet = false)
    (hfit : (walk p rs u).any (halted p) = false)
    (h : ∀ l ∈ walk p rs u, Repeats p w l) : walk p rs w = (walk p rs u).map (again w) := by
  induction rs generalizing u with
  | nil => rfl
  | cons r rest ih =>
    cases hset : u.state.latch.isSet with
    | true =>
      rw [walk_of_set hset] at hend
      exact absurd (hset.symm.trans hend) nofun
    | false =>
      simp only [walk, hset, hunset, Bool.false_eq_true, if_false] at hend hfit h ⊢
      rw [List.any_append, Bool.or_eq_false_iff] at hfit
      simp only [hfit.1, Bool.false_eq_true, if_false, finish_append] at hend hfit h ⊢
      have hvisit : ∀ l ∈ visitLegs p r u, Repeats p w l :=
        fun l hl => h l (List.mem_append_left _ hl)
      have hrest := ih hend hfit.2 fun l hl => h l (List.mem_append_right _ hl)
      rw [visitLegs_again hvisit, any_halted_again hvisit, finish_again hvisit, List.map_append]
      simp only [Bool.false_eq_true, if_false, hrest]

end

/-! ### Figures that are kept behind a scrape -/

/-- The lookups of figures that a lookup of a collector consists of. -/
def figureLegs (p : Provider π) (l : Leg π Collector Lookup) : List (Leg π Peaks Peaks.Lookup) :=
  Peaks.lookupLegs p ⟨l.item.call, l.start.map (·.peaks)⟩

/-- No row and no figure that a scrape hit or wrote has a deadline before `due`. The rows are those
that the listing leaves, which it has all listed. -/
structure Outlasts (p : Provider π) (w : Moment π Collector) (due : Nat) : Prop where
  rows : ∀ (key : String) (e : Expiring.Entry Resource),
    (resources.runFrom p w).state.inventory.rows.entries[key]? = some e → due ≤ e.deadline
  figures : ∀ l ∈ scrapeLegs p w, ∀ m ∈ figureLegs p l, Peaks.Outlasts p due m

section
variable {w : Moment π Collector}

/-- A lookup that found its figure was let through, and ran the figures. -/
theorem runFrom_lookup_of_found {q : Lookup} {v : Float}
    (h : (q.program.runFrom p w).result = .ok (.ok v)) :
    let o := q.call.program.runFrom p (w.map (·.peaks))
    o.result = .ok (.ok v) ∧ (q.program.runFrom p w).clock = o.clock ∧
      (q.program.runFrom p w).state.peaks = o.state := by
  rw [Lookup.program_eq] at h ⊢
  obtain ⟨-, hresult, hrun⟩ := of_guarded_ok h
  rw [hrun]
  rw [inPeaks, runFrom_within isPart_peaks] at hresult ⊢
  exact ⟨hresult, rfl, rfl⟩

/-- The figures that a walk found are kept at its end. -/
theorem kept_of_mem_walk {rs : List Resource} (hdated : Dated w.clock.now w.state)
    {l : Leg π Collector Lookup} (hl : l ∈ walk p rs w) {v : Float}
    (hfound : (legOutcome p Lookup.program l).result = .ok (.ok v))
    {m : Leg π Peaks Peaks.Lookup} (hm : m ∈ figureLegs p l) {x : Float}
    (hx : (legOutcome p Peaks.Lookup.program m).result = .ok (.ok x)) {due : Nat}
    (hdue : Peaks.Outlasts p due m) :
    let last := finish p Lookup.program (walk p rs w) w
    Peaks.Kept m.item.key x due last.clock.now last.state.peaks := by
  intro last
  obtain ⟨before, after, hsplit⟩ := List.append_of_mem hl
  have hchain := chain_walk p rs w
  rw [hsplit] at hchain
  have hstart : Dated l.start.clock.now l.start.state :=
    hchain.start_keeps lasting_dated (fun k _ hk => Dated.lookup hk k.item) hdated
  obtain ⟨-, hclock, hpeaks⟩ := runFrom_lookup_of_found hfound
  have hend : Peaks.Kept m.item.key x due (legOutcome p Lookup.program l).clock.now
      (legOutcome p Lookup.program l).state.peaks := by
    rw [legOutcome, hclock, hpeaks]
    exact Peaks.kept_of_mem_lookupLegs hstart.figures hm hx hdue
  have hsteady := Peaks.steady_kept p m.item.key x due
  have hlast := hchain.end_keeps
    (I := fun now (s : Collector) => Peaks.Kept m.item.key x due now s.peaks)
    (fun now later s => hsteady.lasting now later s.peaks)
    (fun k _ hk => lookup_peaks hsteady k.item hk) hend
  rw [← hsplit] at hlast
  exact hlast

/-! ### The same scrape again -/

theorem runFrom_guarded_of_stay {q : Program Collector (Except Failure α)} {a : α}
    (hunset : w.state.latch.isSet = false) (h : q.runFrom p w = stay w (.ok a)) :
    (guarded q).runFrom p w = stay w (.ok a) := by
  rw [runFrom_guarded_of_unset hunset, h]
  rfl

/-- A lookup finds its figure again wherever its figures are served. -/
theorem repeats_of_served {l : Leg π Collector Lookup} {v : Float}
    (h : (legOutcome p Lookup.program l).result = .ok (.ok v))
    (hunset : w.state.latch.isSet = false)
    (hserved : Peaks.Served p ⟨l.item.call, l.start.map (·.peaks)⟩ (w.map (·.peaks))) :
    Repeats p w l := by
  let call : Leg π Peaks Peaks.Call := ⟨l.item.call, l.start.map (·.peaks)⟩
  have hcall : (legOutcome p Peaks.Call.program call).result = .ok (.ok v) :=
    (runFrom_lookup_of_found h).1
  have hagain := Peaks.runFrom_call_of_served hcall hserved
  refine ⟨v, h, ?_⟩
  rw [Lookup.program_eq]
  exact runFrom_guarded_of_stay hunset (runFrom_within_of_stay isPart_peaks hagain)

/-- A listing lists again what the inventory still serves. -/
theorem runFrom_resources_of_listed {rs : List Resource} {now : Nat}
    (hunset : w.state.latch.isSet = false) (hlisted : Inventory.Listed rs now w.state.inventory)
    (hne : rs ≠ []) (hnow : now ≤ w.clock.now)
    (hdue : ∀ (key : String) (e : Expiring.Entry Resource),
      w.state.inventory.rows.entries[key]? = some e → w.clock.now ≤ e.deadline) :
    resources.runFrom p w = stay w (.ok rs) := by
  let v : Moment π Inventory := w.map (·.inventory)
  obtain ⟨hfresh, hrun⟩ := hlisted.runFrom_resources (p := p) (w := v) hne hnow hdue
  have hstale : w.state.inventory.needsRefresh w.clock.now = false := hfresh
  refine runFrom_guarded_of_stay hunset ?_
  rw [runFrom_clock_bind, runFrom_state_bind, runFrom_bind, inInventory,
    runFrom_within_of_stay isPart_inventory hrun, hstale]
  rfl

/-- A scrape whose listing and lookups all stay where they start only writes to the log. -/
theorem runFrom_scrape_of_stay {rs : List Resource}
    (hlist : resources.runFrom p w = stay w (.ok rs))
    (hfit : (walk p rs w).any (halted p) = false)
    (hfinish : finish p Lookup.program (walk p rs w) w = w)
    (htrace : ∀ l ∈ walk p rs w, (legOutcome p Lookup.program l).trace = []) :
    let o := scrape.runFrom p w
    Silent o.trace ∧ o.moment = w ∧
      o.result = .ok { extend p (walk p rs w) ⟨rs.length, [], 0, none, false, 0⟩ with
        fetchDisabled := w.state.latch.isSet
        elapsed := 0 } := by
  obtain ⟨tail, htail, hretraces⟩ := retraces_scrape (congrArg Outcome.result hlist)
  rw [hlist, stay_moment] at hretraces
  have hcalls : calls p (walk p rs w) = [] := by
    rw [calls, List.flatMap_eq_nil_iff]
    intro l hl
    rw [htrace l hl]
    rfl
  refine ⟨?_, ?_, ?_⟩
  · rw [htail, Outcome.after_trace, hlist, ← silent_exchanges, exchanges_append, hretraces.exchanges,
      hcalls]
    exact silent_nil
  · rw [htail, Outcome.after_moment, hretraces.moment, hfinish]
  · rw [htail, Outcome.after_result, hretraces.result, hfit, hfinish, Nat.sub_self]
    rfl

/-- A lookup that neither halted nor failed found its figure. -/
theorem exists_found {l : Leg π Collector Lookup} (hhalted : halted p l = false)
    (hfailed : failed p l = false) : ∃ v, (legOutcome p Lookup.program l).result = .ok (.ok v) := by
  cases hx : (legOutcome p Lookup.program l).result with
  | error f => simp [halted, hx] at hhalted
  | ok x =>
    cases x with
    | error e => simp [failed, hx] at hfailed
    | ok v => exact ⟨v, rfl⟩

/-- The report of a scrape without errors that left the latch unset and listed something. -/
theorem listed_of_no_errors {rep : Report} (h : Reported p w rep) (herrors : rep.errors = 0)
    (hinstances : 1 ≤ rep.instances) :
    ∃ rs, (resources.runFrom p w).result = .ok (.ok rs) ∧ rs ≠ [] ∧
      (∀ l ∈ scrapeLegs p w, ∃ v, (legOutcome p Lookup.program l).result = .ok (.ok v)) ∧
      rep = ⟨rs.length, (scrapeLegs p w).filterMap (sample? p), 0, none, rep.fetchDisabled,
        rep.elapsed⟩ := by
  obtain ⟨instances, samples, errors, failure, fetchDisabled, elapsed⟩ := rep
  cases h with
  | unlisted e hlist hzero =>
    dsimp only at hzero hinstances
    omega
  | listed rs hlist hfit hlength hsamples hcount hfailure =>
    dsimp only at herrors hinstances hlength hsamples hcount hfailure
    subst herrors hlength hsamples hfailure
    refine ⟨rs, hlist, List.ne_nil_of_length_pos hinstances, fun l hl => ?_, rfl⟩
    have hfailed : failed p l = false := by
      simpa using List.countP_eq_zero.mp hcount.symm l hl
    exact exists_found (hfit l hl) hfailed

theorem listed_of_resources_ok {rs : List Resource} (hdated : Dated w.clock.now w.state)
    (hlist : (resources.runFrom p w).result = .ok (.ok rs)) :
    Inventory.Listed rs (resources.runFrom p w).clock.now
      (resources.runFrom p w).state.inventory := by
  have hlisted : Inventory.Listed rs _ _ :=
    Inventory.listed_resources hdated.rows hdated.keyed (of_resources_ok hlist)
  change Inventory.Listed rs (resources.runFrom p w).moment.clock.now
    (resources.runFrom p w).moment.state.inventory
  rcases moment_resources p w with ⟨hset, -⟩ | ⟨-, latch, hmoment⟩
  · exact absurd (hset.symm.trans (of_guarded_ok hlist).1) nofun
  · rw [hmoment]
    exact hlisted

/-- A scrape leaves the rows that its listing left. -/
theorem inventory_scrape (p : Provider π) (w : Moment π Collector) :
    (resources.runFrom p w).clock.now ≤ (scrape.runFrom p w).clock.now ∧
      (scrape.runFrom p w).state.inventory = (resources.runFrom p w).state.inventory := by
  let start := (resources.runFrom p w).moment
  obtain ⟨rs, hrs⟩ := exists_scrapeLegs_eq_walk p w
  have hchain := chain_walk p rs start
  have hlast : (scrape.runFrom p w).moment = finish p Lookup.program (walk p rs start) start := by
    rw [(runFrom_scrape p w).2, hrs]
  rw [← hlast] at hchain
  exact ⟨hchain.now_le, hchain.keeps
    (I := fun _ (s : Collector) => s.inventory = start.state.inventory) (fun _ _ _ _ hs => hs)
    (fun l _ hl => (lookup_inventory p l.start l.item).trans hl) rfl⟩

/-- A moment behind a scrape, with nothing done in between, until `due`. -/
structure Follows (p : Provider π) (w v : Moment π Collector) (due : Nat) : Prop where
  state_eq : v.state = (scrape.runFrom p w).state
  now_le : (scrape.runFrom p w).clock.now ≤ v.clock.now
  le_due : v.clock.now ≤ due

namespace Follows
variable {v : Moment π Collector} {due : Nat} (h : Follows p w v due)
  (hdated : Dated w.clock.now w.state) (hdue : Outlasts p w due)
  (hunset : v.state.latch.isSet = false)
include h hdated hdue hunset

/-- The listing lists the same again. -/
theorem runFrom_resources {rs : List Resource}
    (hlist : (resources.runFrom p w).result = .ok (.ok rs)) (hne : rs ≠ []) :
    resources.runFrom p v = stay v (.ok rs) := by
  obtain ⟨hnow, hinventory⟩ := inventory_scrape p w
  rw [← h.state_eq] at hinventory
  refine runFrom_resources_of_listed hunset ?_ hne (hnow.trans h.now_le) fun key e he => ?_
  · rw [hinventory]
    exact listed_of_resources_ok hdated hlist
  · rw [hinventory] at he
    exact h.le_due.trans (hdue.rows key e he)

/-- The lookups that found their figures find them again. -/
theorem repeats {l : Leg π Collector Lookup} (hl : l ∈ scrapeLegs p w) {x : Float}
    (hx : (legOutcome p Lookup.program l).result = .ok (.ok x)) : Repeats p v l := by
  refine repeats_of_served hx hunset fun m hm y hy => ?_
  have hfigure : Peaks.Outlasts p due m := hdue.figures l hl m hm
  obtain ⟨rs, hrs⟩ := exists_scrapeLegs_eq_walk p w
  have hlast := (runFrom_scrape p w).2
  rw [hrs] at hl hlast
  have hkept := kept_of_mem_walk hdated.resources hl hx hm hy hfigure
  rw [← hlast] at hkept
  change v.state.peaks.cache.get? v.clock.now m.item.key = some y
  rw [h.state_eq]
  exact hkept.served v.clock.now h.now_le h.le_due

/-- The walk makes the same lookups again, if all of them found their figures. -/
theorem walk_eq {rs : List Resource} (hlist : (resources.runFrom p w).result = .ok (.ok rs))
    (hfound : ∀ l ∈ scrapeLegs p w, ∃ x, (legOutcome p Lookup.program l).result = .ok (.ok x)) :
    (∀ l ∈ scrapeLegs p w, Repeats p v l) ∧ walk p rs v = (scrapeLegs p w).map (again v) := by
  have hrepeats : ∀ l ∈ scrapeLegs p w, Repeats p v l := by
    intro l hl
    obtain ⟨x, hx⟩ := hfound l hl
    exact h.repeats hdated hdue hunset hl hx
  refine ⟨hrepeats, ?_⟩
  have hfit : (scrapeLegs p w).any (halted p) = false := by
    rw [List.any_eq_false]
    intro l hl
    obtain ⟨x, hx⟩ := hfound l hl
    simp [halted, hx]
  have hlast : (scrape.runFrom p w).moment = _ := (runFrom_scrape p w).2
  rw [scrapeLegs_of_listed hlist] at hlast hfit hrepeats ⊢
  refine walk_again hunset ?_ hfit hrepeats
  rw [← hlast, Outcome.moment_state, ← h.state_eq]
  exact hunset

end Follows

/-- A scrape without errors is repeated as long as nothing that it hit or wrote has passed its
deadline. -/
theorem runFrom_scrape_again {rep : Report} (hdated : Dated w.clock.now w.state)
    (hrep : (scrape.runFrom p w).result = .ok rep) (herrors : rep.errors = 0)
    (henabled : rep.fetchDisabled = false) (hinstances : 1 ≤ rep.instances) {due : Nat}
    (hdue : Outlasts p w due) {v : Moment π Collector} (hv : Follows p w v due) :
    let o := scrape.runFrom p v
    Silent o.trace ∧ o.moment = v ∧ o.result = .ok { rep with elapsed := 0 } := by
  intro o
  obtain ⟨hreported, hlatch⟩ := reported_scrape hrep
  obtain ⟨rs, hlist, hne, hfound, hreport⟩ := listed_of_no_errors hreported herrors hinstances
  have hunset : v.state.latch.isSet = false := by
    rw [hv.state_eq]
    exact hlatch.symm.trans henabled
  obtain ⟨hrepeats, hwalk⟩ := hv.walk_eq hdated hdue hunset hlist hfound
  have hstay : ∀ l ∈ walk p rs v, (legOutcome p Lookup.program l).trace = [] := by
    intro l hl
    rw [hwalk] at hl
    obtain ⟨m, hm, rfl⟩ := List.mem_map.mp hl
    exact (hrepeats m hm).trace_eq_nil
  obtain ⟨hsilent, hmoment, hresult⟩ := runFrom_scrape_of_stay
    (hv.runFrom_resources hdated hdue hunset hlist hne)
    (by rw [hwalk]; exact any_halted_again hrepeats) (by rw [hwalk]; exact finish_again hrepeats)
    hstay
  refine ⟨hsilent, hmoment, ?_⟩
  rw [show o.result = _ from hresult, hwalk, extend_again hrepeats, hreport, henabled, hunset]
  rfl

/-! ### Any number of further scrapes -/

/-- The turns of a session of scrapes. -/
def scrapes (_ : Unit) : Program Collector Report := scrape

/-- After a scrape without errors every further scrape makes no call and gives the same report, as
long as no row and no figure that the first hit or wrote has passed its own deadline. -/
theorem scrape_repeated (settings : CollectorSettings) (environment : String) (p : Provider π)
    (began : Nat) (earlier : List (Turn π Operation)) {w : Moment π Collector}
    (hearlier : let e := ending p Operation.program began (new settings environment) earlier
      e.1 ≤ w.clock.now ∧ e.2 = w.state)
    {rep : Report} (hrep : (scrape.runFrom p w).result = .ok rep) (herrors : rep.errors = 0)
    (henabled : rep.fetchDisabled = false) (hinstances : 1 ≤ rep.instances) {due : Nat}
    (hdue : Outlasts p w due) (turns : List (Turn π Unit)) :
    let first := scrape.runFrom p w
    ∀ l ∈ play p scrapes first.clock.now first.state turns, l.start.clock.now ≤ due →
      Silent (legOutcome p scrapes l).trace ∧
        (legOutcome p scrapes l).result = .ok { rep with elapsed := 0 } := by
  intro first l hl hle
  have hdated : Dated w.clock.now w.state := by
    have hend := lasting_dated _ _ _ hearlier.1 (dated_ending settings environment p began earlier)
    rwa [hearlier.2] at hend
  have hagain : ∀ v : Moment π Collector, Follows p w v due →
      Silent (scrape.runFrom p v).trace ∧ (scrape.runFrom p v).moment = v ∧
        (scrape.runFrom p v).result = .ok { rep with elapsed := 0 } :=
    fun v hv => runFrom_scrape_again hdated hrep herrors henabled hinstances hdue hv
  -- until `due` the state stays as the first scrape left it
  let Untouched (now : Nat) (s : Collector) : Prop :=
    first.clock.now ≤ now ∧ (now ≤ due → s = first.state)
  have hchain := chain_play p scrapes first.clock.now first.state turns
  have huntouched : Untouched l.start.clock.now l.start.state := by
    refine hchain.forall_start_keeps (I := Untouched) ?_ ?_ ⟨Nat.le_refl _, fun _ => rfl⟩ l hl
    · exact fun now later s hlater hs => ⟨hs.1.trans hlater, fun h => hs.2 (hlater.trans h)⟩
    · intro _ v hv
      have hnow := now_le_runFrom p v scrape
      refine ⟨hv.1.trans hnow, fun hlast => ?_⟩
      have hstate : v.state = first.state := hv.2 (hnow.trans hlast)
      obtain ⟨-, hmoment, -⟩ := hagain v ⟨hstate, hv.1, hnow.trans hlast⟩
      exact (congrArg Moment.state hmoment).trans hstate
  obtain ⟨hsilent, -, hresult⟩ := hagain l.start ⟨huntouched.2 hle, huntouched.1, hle⟩
  exact ⟨hsilent, hresult⟩

end

/-! ### A cache and a cluster, scraped three times -/

/-- Lists a cache and a streaming cluster, and has a figure for each of them. -/
def healthyProvider : Provider Unit := .steady 1 fun
  | .list .keyValueCache => .ok [⟨"dev-cache", "cache.t4g.small", "redis"⟩]
  | .list .streaming => .ok [⟨"dev-events", "kafka.m5.large", 2⟩]
  | .list _ => .ok []
  | .statistics _ => .ok [⟨⟨0, 0⟩, some 4.0⟩]

theorem report_healthy :
    (scrape.runFrom healthyProvider unused).result.toOption.map
      (fun rep => (rep.instances, rep.errors, rep.fetchDisabled)) = some (4, 0, false) := by
  decide +kernel

/-- The cache is listed five units of time after the start, and a row is kept for a hundred. -/
theorem outlasts_healthy : Outlasts healthyProvider unused 105 where
  rows := by
    intro key e he
    have hall : (resources.runFrom healthyProvider unused).state.inventory.rows.entries.toList.all
        (fun x => 105 ≤ x.2.deadline) = true := by decide +kernel
    have hmem := Std.ExtTreeMap.mem_toList_iff_getElem?_eq_some.mpr he
    simpa using List.all_eq_true.mp hall _ hmem
  figures := by
    intro l hl m hm e he
    have hall : (scrapeLegs healthyProvider unused).all (fun l =>
        (figureLegs healthyProvider l).all fun m =>
          (legOutcome healthyProvider Peaks.Lookup.program m).state.cache.entries[m.item.key]?.all
            fun e => 105 ≤ e.deadline) = true := by decide +kernel
    have hentry := List.all_eq_true.mp (List.all_eq_true.mp hall l hl) m hm
    simpa [he] using hentry

def twoScrapes : List (Turn Unit Unit) := [⟨(), 10, ⟨10, 0⟩, ()⟩, ⟨(), 50, ⟨60, 0⟩, ()⟩]

/-- The scrapes behind the first. -/
def laterScrapes : List (Leg Unit Collector Unit) :=
  play healthyProvider scrapes (scrape.runFrom healthyProvider unused).clock.now
    (scrape.runFrom healthyProvider unused).state twoScrapes

theorem now_le_laterScrapes : ∀ l ∈ laterScrapes, l.start.clock.now ≤ 105 := by decide +kernel

theorem scrape_repeated_healthy :
    Outlasts healthyProvider unused 105 ∧ (∀ l ∈ laterScrapes, l.start.clock.now ≤ 105) ∧
      ∃ rep, (scrape.runFrom healthyProvider unused).result = .ok rep ∧ rep.instances = 4 ∧
        rep.errors = 0 ∧ rep.fetchDisabled = false ∧
        ∀ l ∈ laterScrapes, Silent (legOutcome healthyProvider scrapes l).trace ∧
          (legOutcome healthyProvider scrapes l).result = .ok { rep with elapsed := 0 } := by
  refine ⟨outlasts_healthy, now_le_laterScrapes, ?_⟩
  have hreport := report_healthy
  cases hrep : (scrape.runFrom healthyProvider unused).result with
  | error f =>
    rw [hrep] at hreport
    exact absurd hreport nofun
  | ok rep =>
    rw [hrep] at hreport
    obtain ⟨hinstances, herrors, hdisabled⟩ : rep.instances = 4 ∧ rep.errors = 0 ∧
        rep.fetchDisabled = false := by simpa [Except.toOption] using hreport
    have hone : 1 ≤ rep.instances := by omega
    have hagain := scrape_repeated ⟨100, 60, ∅, "dev"⟩ "dev" healthyProvider 0 [] (w := unused)
      ⟨Nat.le_refl 0, rfl⟩ hrep herrors hdisabled hone outlasts_healthy twoScrapes
    exact ⟨rep, rfl, hinstances, herrors, hdisabled,
      fun l hl => hagain l hl (now_le_laterScrapes l hl)⟩

end PeakUsage.Collector
