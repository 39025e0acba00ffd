import PeakUsage.Proofs.Chains
import PeakUsage.Proofs.Collector.Latched
import PeakUsage.Proofs.Logs

/-! The latch is set by the first question that fails with rejected credentials, and by nothing
else. From then on every operation is refused and changes nothing. -/
namespace PeakUsage.Collector
open Program

variable {π α : Type} {p : Provider π} {w : Moment π Collector}

/-! ### Programs that leave the latch alone -/

/-- Neither touches the latch nor logs that it was set. -/
structure Plain (q : Program Collector α) : Prop where
  keeps : ∀ latch environment, q.Keeps fun s => s.latch = latch ∧ s.environment = environment
  logs : q.Logs fun e => ∀ cause, e.event ≠ .fetchLatched cause

theorem plain_inPeaks {q : Program Peaks α} (hq : ∀ S, q.Logs S) : Plain (inPeaks q) where
  keeps := by
    intro latch environment
    refine keeps_within ?_ q
    exact fun _ _ hs => hs
  logs := (hq _).within

/-- What a listing does that is let through. -/
def listing : Program Collector (Except Failure (List Resource)) := do
  let c ← clock
  let s ← state
  let stale := s.inventory.needsRefresh c.now
  match ← inInventory Inventory.resources with
  | .error e => pure (.error e)
  | .ok rs =>
    if stale then note (.inventoryRefreshed rs.length)
    pure (.ok rs)

theorem resources_eq_guarded : resources = guarded listing := rfl

theorem plain_listing : Plain listing where
  keeps := by
    intro latch environment c _ _ _ s _
    have hinventory : (inInventory Inventory.resources).Keeps
        fun s => s.latch = latch ∧ s.environment = environment := by
      refine keeps_within ?_ _
      exact fun _ _ hs => hs
    refine hinventory.bind fun x => ?_
    cases x with
    | error e => exact trivial
    | ok rs =>
      change (if s.inventory.needsRefresh c.now then _ else _ : Program Collector _).Keeps _
      split
      · exact (note_keeps _).bind fun _ => trivial
      · exact trivial
  logs := by
    intro c _ _ s
    have hinventory : (inInventory Inventory.resources).Logs
        fun e => ∀ cause, e.event ≠ .fetchLatched cause := Inventory.resources_logs.within
    refine hinventory.bind fun x => ?_
    cases x with
    | error e => exact trivial
    | ok rs =>
      change (if s.inventory.needsRefresh c.now then _ else _ : Program Collector _).Logs _
      split
      · exact fun c s => ⟨nofun, trivial⟩
      · exact trivial

namespace Plain
variable {q : Program Collector α}

theorem latch_eq (hq : Plain q) (p : Provider π) (w : Moment π Collector) :
    (q.runFrom p w).state.latch = w.state.latch ∧
      (q.runFrom p w).state.environment = w.state.environment :=
  (hq.keeps w.state.latch w.state.environment).runFrom p ⟨rfl, rfl⟩

theorem line_not_mem (hq : Plain q) (p : Provider π) (w : Moment π Collector) (s : Collector)
    (e : Failure) : line s (.fetchLatched e) ∉ (q.runFrom p w).trace :=
  fun h => hq.logs.runFrom p w _ h e rfl

end Plain

/-! ### Listings and lookups -/

/-- The failure a listing or a lookup ended with. -/
def Answer.failure? : Answer → Option Failure
  | .listing (.error e) => some e
  | .figure (.error e) => some e
  | _ => none

namespace Operation

/-- What is answered once the latch is set. -/
def refusal : Operation → Answer
  | .resources => .listing (.error .disabled)
  | .lookup _ => .figure (.error .disabled)
  | .scrape => .report ⟨0, [], 0, none, true, 0⟩

/-- A question that passes the latch, and how its result is answered. -/
structure Through (op : Operation) (q : Program Collector (Except Failure α))
    (answer : Except Failure α → Answer) : Prop where
  program_eq : op.program = guarded q >>= fun x => pure (answer x)
  plain : Plain q
  failure_error : ∀ e, (answer (.error e)).failure? = some e
  failure_ok : ∀ a, (answer (.ok a)).failure? = none
  refusal_eq : op.refusal = answer (.error .disabled)

/-- A scrape passes the latch more than once. -/
def IsGet : Operation → Prop
  | .scrape => False
  | _ => True

theorem IsGet.exists_through {op : Operation} (h : op.IsGet) :
    ∃ (α : Type) (q : Program Collector (Except Failure α)) (answer : Except Failure α → Answer),
      op.Through q answer := by
  cases op with
  | scrape => exact h.elim
  | resources =>
    exact ⟨_, listing, .listing, rfl, plain_listing, fun _ => rfl, fun _ => rfl, rfl⟩
  | lookup q =>
    obtain ⟨figure, key, r⟩ := q
    cases figure with
    | cpu =>
      have hplain : Plain (inPeaks (Peaks.cpu key r)) := plain_inPeaks fun _ => Peaks.cpu_logs key r
      exact ⟨_, _, .figure, rfl, hplain, fun _ => rfl, fun _ => rfl, rfl⟩
    | memory =>
      have hplain : Plain (inPeaks (Peaks.memory key r)) :=
        plain_inPeaks fun _ => Peaks.memory_logs key r
      exact ⟨_, _, .figure, rfl, hplain, fun _ => rfl, fun _ => rfl, rfl⟩

end Operation

section
variable (p : Provider π) (l : Leg π Collector Operation)

def failure? : Option Failure :=
  match (legOutcome p Operation.program l).result with
  | .ok a => a.failure?
  | .error _ => none

/-- The operation failed because the credentials were rejected. -/
def Denied : Prop := ∃ e, failure? p l = some e ∧ e.isAuth = true

/-- Nothing is done and nothing changes; a line in the log says that the operation was refused. -/
def Refused : Prop :=
  legOutcome p Operation.program l =
    ⟨.ok l.item.refusal, l.start.state, l.start.clock, l.start.memory,
      [line l.start.state .fetchSkipped]⟩

end

theorem runFrom_scrape_of_set (h : w.state.latch.isSet = true) :
    scrape.runFrom p w =
      ⟨.ok ⟨0, [], 0, none, true, 0⟩, w.state, w.clock, w.memory, [line w.state .fetchSkipped]⟩ := by
  have hlisting : resources.runFrom p w = _ := runFrom_guarded_of_set h
  have hreport : (⟨0, [], 0, none, true, 0⟩ : Report) =
      ⟨0, [], 0, none, w.state.latch.isSet, w.clock.now - w.clock.now⟩ := by
    rw [h, Nat.sub_self]
  rw [scrape, runFrom_clock_bind, runFrom_bind, hlisting, hreport]
  rfl

variable {l : Leg π Collector Operation}

theorem refused_of_set (h : l.start.state.latch.isSet = true) : Refused p l := by
  obtain ⟨op, w⟩ := l
  change op.program.runFrom p w = _
  by_cases hget : op.IsGet
  · obtain ⟨α, q, answer, hthrough⟩ := hget.exists_through
    rw [hthrough.program_eq, runFrom_bind_pure, runFrom_guarded_of_set h, hthrough.refusal_eq]
    rfl
  · cases op with
    | resources => exact absurd trivial hget
    | lookup q => exact absurd trivial hget
    | scrape =>
      rw [Operation.program, runFrom_bind_pure, runFrom_scrape_of_set h]
      rfl

/-- A question that the latch lets through sets it if the credentials are rejected, and says so. -/
theorem latched_of_unset (hget : l.item.IsGet) (hunset : l.start.state.latch.isSet = false) :
    ((legOutcome p Operation.program l).state.latch.isSet = true ↔ Denied p l) ∧
      ∀ e, failure? p l = some e →
        (line l.start.state (.fetchLatched e) ∈ (legOutcome p Operation.program l).trace ↔
          e.isAuth = true) := by
  obtain ⟨op, w⟩ := l
  obtain ⟨α, q, answer, hthrough⟩ := hget.exists_through
  obtain ⟨hlatch, henvironment⟩ := hthrough.plain.latch_eq p w
  -- the question itself leaves the latch alone, so it is still unset when its failure is watched
  have hqunset : (q.runFrom p w).state.latch.isSet = false := by
    rw [hlatch]
    exact hunset
  rw [Denied, failure?, legOutcome, hthrough.program_eq, runFrom_bind_pure,
    runFrom_guarded_of_unset hunset]
  cases hx : (q.runFrom p w).result with
  | error f =>
    rw [Outcome.andThen, hx]
    simp [Except.map, hqunset]
  | ok x =>
    rw [Outcome.andThen_eq_of_ok hx]
    cases x with
    | ok a => simp [Except.map, hqunset, hthrough.failure_ok]
    | error e =>
      have hline := hthrough.plain.line_not_mem p w (q.runFrom p w).state e
      have hsame : line w.state (.fetchLatched e) =
          line (q.runFrom p w).state (.fetchLatched e) := by
        rw [line, line, henvironment]
      constructor
      · simp [Except.map, watched, Latch.after, hqunset, hthrough.failure_error]
      · intro cause hcause
        obtain rfl : e = cause := Option.some.inj ((hthrough.failure_error e).symm.trans hcause)
        rw [hsame]
        simp [hline, Latch.trips, hqunset]

/-- What a question makes of the latch, and when it says that it set it. -/
theorem latched_iff (hget : l.item.IsGet) :
    ((legOutcome p Operation.program l).state.latch.isSet = true ↔
        l.start.state.latch.isSet = true ∨ Denied p l) ∧
      ∀ e, failure? p l = some e →
        (line l.start.state (.fetchLatched e) ∈ (legOutcome p Operation.program l).trace ↔
          l.start.state.latch.trips e = true) := by
  cases hset : l.start.state.latch.isSet with
  | false =>
    obtain ⟨hlatched, hline⟩ := latched_of_unset (p := p) hget hset
    refine ⟨by simp [hlatched], fun e he => (hline e he).trans ?_⟩
    simp [Latch.trips, hset]
  | true =>
    have ho : legOutcome p Operation.program l = _ := refused_of_set hset
    rw [ho]
    refine ⟨by simp [hset], fun e _ => ?_⟩
    simp [line, Latch.trips, hset]

/-! ### The questions of an operation -/

/-- The questions an operation puts: a scrape puts one for the list and one for each figure. -/
def gets (p : Provider π) (l : Leg π Collector Operation) : List (Leg π Collector Operation) :=
  match l.item with
  | .scrape =>
    ⟨.resources, l.start⟩ :: (scrapeLegs p l.start).map fun m => ⟨.lookup m.item, m.start⟩
  | _ => [l]

theorem isGet_of_mem_gets {m : Leg π Collector Operation} (hm : m ∈ gets p l) : m.item.IsGet := by
  obtain ⟨op, w⟩ := l
  cases op with
  | resources => rw [List.mem_singleton.mp hm]; exact trivial
  | lookup q => rw [List.mem_singleton.mp hm]; exact trivial
  | scrape =>
    rcases List.mem_cons.mp hm with rfl | hm
    · exact trivial
    · obtain ⟨k, -, rfl⟩ := List.mem_map.mp hm
      exact trivial

theorem chain_visitLegs (p : Provider π) (r : Resource) (w : Moment π Collector) :
    let last := finish p Lookup.program (visitLegs p r w) w
    Chain p Lookup.program w.clock.now w.state (visitLegs p r w) last.clock.now last.state := by
  intro last
  rcases visitLegs_cases p r w with h | h <;> simp only [last, h]
  · exact .cons (l := cpuLeg r w) (Nat.le_refl _) (.nil (Nat.le_refl _))
  · refine .cons (l := cpuLeg r w) (Nat.le_refl _) ?_
    exact .cons (l := memoryLeg p r w) (Nat.le_refl _) (.nil (Nat.le_refl _))

/-- The lookups of a walk take over from one another. -/
theorem chain_walk (p : Provider π) (rs : List Resource) (w : Moment π Collector) :
    let last := finish p Lookup.program (walk p rs w) w
    Chain p Lookup.program w.clock.now w.state (walk p rs w) last.clock.now last.state := by
  intro last
  induction rs generalizing w with
  | nil => exact .nil (Nat.le_refl _)
  | cons r rest ih =>
    have hvisit := chain_visitLegs p r w
    simp only [last, walk]
    split
    · exact .nil (Nat.le_refl _)
    · rw [finish_append]
      refine hvisit.append ?_
      split
      · exact .nil (Nat.le_refl _)
      · exact ih _

theorem chain_gets (p : Provider π) (l : Leg π Collector Operation) :
    Chain p Operation.program l.start.clock.now l.start.state (gets p l)
      (legOutcome p Operation.program l).clock.now
      (legOutcome p Operation.program l).state := by
  obtain ⟨op, w⟩ := l
  cases op with
  | resources => exact .cons (l := ⟨Operation.resources, w⟩) (Nat.le_refl _) (.nil (Nat.le_refl _))
  | lookup q => exact .cons (l := ⟨Operation.lookup q, w⟩) (Nat.le_refl _) (.nil (Nat.le_refl _))
  | scrape =>
    let listing := resources.runFrom p w
    have hlisting : (Operation.resources.program.runFrom p w).moment = listing.moment :=
      moment_bind_pure _ _
    have hscrape : (Operation.scrape.program.runFrom p w).moment =
        finish p Lookup.program (scrapeLegs p w) listing.moment :=
      (moment_bind_pure _ _).trans (runFrom_scrape p w).2
    obtain ⟨rs, hrs⟩ := exists_scrapeLegs_eq_walk p w
    have hwalk := (chain_walk p rs listing.moment).map Operation.program Operation.lookup
      fun q w => moment_bind_pure _ _
    rw [← hrs, ← hscrape, ← hlisting] at hwalk
    exact .cons (l := ⟨Operation.resources, w⟩) (Nat.le_refl _) hwalk

/-- An operation makes the calls of its questions. -/
theorem exchanges_gets (p : Provider π) (l : Leg π Collector Operation) :
    exchanges (legOutcome p Operation.program l).trace =
      (gets p l).flatMap fun m => exchanges (legOutcome p Operation.program m).trace := by
  obtain ⟨op, w⟩ := l
  cases op with
  | resources => exact (List.append_nil _).symm
  | lookup q => exact (List.append_nil _).symm
  | scrape =>
    have hscrape : (Operation.scrape.program.runFrom p w).trace = (scrape.runFrom p w).trace :=
      trace_bind_pure _ _
    have hlisting : (Operation.resources.program.runFrom p w).trace =
        (resources.runFrom p w).trace := trace_bind_pure _ _
    have hlookup : ∀ m : Leg π Collector Lookup,
        (legOutcome p Operation.program ⟨.lookup m.item, m.start⟩).trace =
          (legOutcome p Lookup.program m).trace := fun m => trace_bind_pure _ _
    have hgets : gets p ⟨.scrape, w⟩ = ⟨.resources, w⟩ ::
        (scrapeLegs p w).map fun m => ⟨.lookup m.item, m.start⟩ := rfl
    rw [hgets, List.flatMap_cons, List.flatMap_map]
    simp only [hlookup]
    change exchanges (Operation.scrape.program.runFrom p w).trace =
      exchanges (Operation.resources.program.runFrom p w).trace ++ calls p (scrapeLegs p w)
    rw [hscrape, hlisting, (runFrom_scrape p w).1]

/-! ### Operations that halt -/

/-- A question that halts is not refused, and its failure is never watched. -/
theorem Plain.unset_of_halted {q : Program Collector (Except Failure α)} (hq : Plain q)
    {f : ClockFault} (h : ((guarded q).runFrom p w).result = .error f) :
    ((guarded q).runFrom p w).state.latch.isSet = false := by
  cases hset : w.state.latch.isSet with
  | true =>
    rw [runFrom_guarded_of_set hset] at h
    exact absurd h.symm (error_ne_ok f _)
  | false =>
    rw [runFrom_guarded_of_unset hset] at h ⊢
    cases hx : (q.runFrom p w).result with
    | error e =>
      rw [Outcome.andThen, hx]
      exact (congrArg Latch.isSet (hq.latch_eq p w).1).trans hset
    | ok x =>
      rw [Outcome.andThen_eq_of_ok hx] at h
      cases x <;> exact absurd h.symm (error_ne_ok f _)

theorem unset_of_halted_lookup {m : Leg π Collector Lookup} (h : halted p m = true) :
    (legOutcome p Lookup.program m).state.latch.isSet = false := by
  cases hresult : (legOutcome p Lookup.program m).result with
  | ok x => simp [halted, hresult] at h
  | error f =>
    obtain ⟨⟨figure, key, r⟩, w⟩ := m
    cases figure with
    | cpu => exact (plain_inPeaks fun _ => Peaks.cpu_logs key r).unset_of_halted hresult
    | memory => exact (plain_inPeaks fun _ => Peaks.memory_logs key r).unset_of_halted hresult

theorem unset_of_halted_visitLegs {r : Resource}
    (h : (visitLegs p r w).any (halted p) = true) :
    (finish p Lookup.program (visitLegs p r w) w).state.latch.isSet = false := by
  -- only the last lookup of a visit can halt, so the visit ends where that one does
  by_cases hmore : ((found? p (cpuLeg r w)).isSome && r.engine.reportsMemory) = true
  · have hlegs : visitLegs p r w = [cpuLeg r w, memoryLeg p r w] := by
      rw [visitLegs, if_pos hmore]
    have hcpu : halted p (cpuLeg r w) = false := by
      cases hhalt : halted p (cpuLeg r w) with
      | false => rfl
      | true => simp [found?_of_halted hhalt] at hmore
    rw [hlegs] at h ⊢
    refine unset_of_halted_lookup (m := memoryLeg p r w) ?_
    simpa [hcpu] using h
  · have hlegs : visitLegs p r w = [cpuLeg r w] := by
      rw [visitLegs, if_neg hmore]
    rw [hlegs] at h ⊢
    refine unset_of_halted_lookup (m := cpuLeg r w) ?_
    simpa using h

theorem unset_of_halted_walk {rs : List Resource}
    (h : (walk p rs w).any (halted p) = true) :
    (finish p Lookup.program (walk p rs w) w).state.latch.isSet = false := by
  induction rs generalizing w with
  | nil => exact absurd h nofun
  | cons r rest ih =>
    rw [walk] at h ⊢
    cases hset : w.state.latch.isSet with
    | true =>
      rw [hset] at h
      exact absurd h Bool.false_ne_true
    | false =>
      simp only [hset, Bool.false_eq_true, if_false] at h ⊢
      cases hvisit : (visitLegs p r w).any (halted p) with
      | true =>
        simp only [if_true, List.append_nil]
        exact unset_of_halted_visitLegs hvisit
      | false =>
        simp only [hvisit, Bool.false_eq_true, if_false, List.any_append, Bool.false_or,
          finish_append] at h ⊢
        exact ih h

/-- A scrape that halts leaves the latch unset. -/
theorem unset_of_halted_scrape {f : ClockFault} (h : (scrape.runFrom p w).result = .error f) :
    (scrape.runFrom p w).state.latch.isSet = false := by
  cases hlist : (resources.runFrom p w).result with
  | error e =>
    rw [scrape, runFrom_clock_bind, runFrom_bind_error hlist]
    exact plain_listing.unset_of_halted hlist
  | ok x =>
    cases x with
    | error e =>
      rw [scrape, runFrom_clock_bind, runFrom_bind_ok hlist] at h
      cases hdisabled : e.isDisabled <;> simp only [hdisabled] at h
      all_goals exact absurd h.symm (error_ne_ok f _)
    | ok rs =>
      obtain ⟨o, ho, hretraces⟩ := retraces_scrape hlist
      have hstate : o.state = _ := congrArg Moment.state hretraces.moment
      rw [ho, Outcome.after_result, hretraces.result] at h
      rw [ho, Outcome.after_state, hstate]
      apply unset_of_halted_walk
      cases hhalt : (walk p rs (resources.runFrom p w).moment).any (halted p) with
      | true => rfl
      | false =>
        rw [hhalt] at h
        exact absurd h.symm (error_ne_ok f _)

/-! ### Sessions -/

section
variable {now later : Nat} {s t : Collector} {legs : List (Leg π Collector Operation)}

/-- Behind a question that was denied the latch is set. -/
theorem isSet_of_denied (hchain : Chain p Operation.program now s legs later t)
    (hgets : ∀ m ∈ legs, m.item.IsGet) {m : Leg π Collector Operation} (hm : m ∈ legs)
    (hdenied : Denied p m) : t.latch.isSet = true := by
  obtain ⟨before, after, rfl⟩ := List.append_of_mem hm
  have hset := (latched_iff (hgets m hm)).1.mpr (.inr hdenied)
  refine hchain.end_keeps (I := fun _ (s : Collector) => s.latch.isSet = true)
    (fun _ _ _ _ hs => hs) (fun k hk hs => ?_) hset
  have hk : k.item.IsGet := hgets k (List.mem_append_right _ (List.mem_cons_of_mem _ hk))
  exact (latched_iff hk).1.mpr (.inl hs)

/-- The latch is set exactly when some question has been denied. -/
theorem isSet_iff_denied (hchain : Chain p Operation.program now s legs later t)
    (hgets : ∀ m ∈ legs, m.item.IsGet) (hs : s.latch.isSet = false) :
    t.latch.isSet = true ↔ ∃ m ∈ legs, Denied p m := by
  constructor
  · refine hchain.keeps (I := fun _ (s : Collector) => s.latch.isSet = true →
      ∃ m ∈ legs, Denied p m) (fun _ _ _ _ hs => hs) (fun m hm hstart hset => ?_) ?_
    · rcases (latched_iff (hgets m hm)).1.mp hset with h | h
      · exact hstart h
      · exact ⟨m, hm, h⟩
    · exact fun h => absurd (hs.symm.trans h) nofun
  · rintro ⟨m, hm, hdenied⟩
    exact isSet_of_denied hchain hgets hm hdenied

/-- A question starts with the latch set exactly when an earlier one was denied. -/
theorem isSet_start_iff {before after : List (Leg π Collector Operation)}
    {m : Leg π Collector Operation}
    (hchain : Chain p Operation.program now s (before ++ m :: after) later t)
    (hgets : ∀ k ∈ before ++ m :: after, k.item.IsGet) (hs : s.latch.isSet = false) :
    m.start.state.latch.isSet = true ↔ ∃ k ∈ before, Denied p k := by
  obtain ⟨middle, u, hbefore, hrest⟩ := hchain.split
  cases hrest with
  | cons hle hafter =>
    exact isSet_iff_denied hbefore (fun k hk => hgets k (List.mem_append_left _ hk)) hs

/-- Behind a question that was denied the latch is set whenever another one starts. -/
theorem isSet_pairwise (hchain : Chain p Operation.program now s legs later t)
    (hgets : ∀ m ∈ legs, m.item.IsGet) :
    legs.Pairwise fun a b => Denied p a → b.start.state.latch.isSet = true := by
  refine hchain.pairwise (I := fun a _ s => Denied p a → s.latch.isSet = true)
    (fun _ _ _ _ _ hs => hs) (fun m hm hdenied => ?_) (fun a m hm hstart hdenied => ?_)
  · exact (latched_iff (hgets m hm)).1.mpr (.inr hdenied)
  · exact (latched_iff (hgets m hm)).1.mpr (.inl (hstart hdenied))

end

/-- The latch is set exactly when some question has failed with rejected credentials, and stays so.
The first such failure trips it, as the log says, and no other does. From then on every question and
every scrape is refused: nothing is asked, and the collector stays as it is. -/
theorem latched_iff_denied (p : Provider π) (now : Nat) (settings : CollectorSettings)
    (environment : String) (turns more : List (Turn π Operation)) :
    let session := play p Operation.program now (new settings environment) turns
    let questions := session.flatMap (gets p)
    let isSet (turns : List (Turn π Operation)) : Bool :=
      (ending p Operation.program now (new settings environment) turns).2.latch.isSet
    (∀ l ∈ session, exchanges (legOutcome p Operation.program l).trace =
      (gets p l).flatMap fun m => exchanges (legOutcome p Operation.program m).trace) ∧
    (isSet turns = true ↔ ∃ m ∈ questions, Denied p m) ∧
    (isSet turns = true → isSet (turns ++ more) = true) ∧
    (∀ before m after, questions = before ++ m :: after → ∀ e, failure? p m = some e →
      (m.start.state.latch.trips e = true ↔ e.isAuth = true ∧ ∀ k ∈ before, ¬ Denied p k) ∧
      (line m.start.state (.fetchLatched e) ∈ (legOutcome p Operation.program m).trace ↔
        m.start.state.latch.trips e = true)) ∧
    (questions.Pairwise fun a b => Denied p a → Refused p b) ∧
    session.Pairwise fun a b => (∃ m ∈ gets p a, Denied p m) → Refused p b := by
  intro session questions isSet
  have hsession := chain_play p Operation.program now (new settings environment) turns
  have hchain := hsession.flatMap (chain_gets p)
  have hgets : ∀ m ∈ questions, m.item.IsGet := by
    intro m hm
    obtain ⟨l, -, hl⟩ := List.mem_flatMap.mp hm
    exact isGet_of_mem_gets hl
  have hkept : ∀ (op : Operation) (w : Moment π Collector), w.state.latch.isSet = true →
      (op.program.runFrom p w).state.latch.isSet = true :=
    fun op _ => (operation_keeps stable_latched op).runFrom p
  refine ⟨fun l _ => exchanges_gets p l, isSet_iff_denied hchain hgets rfl, fun hset => ?_,
    fun before m after hsplit e he => ?_, ?_, ?_⟩
  · change (ending p Operation.program now _ (turns ++ more)).2.latch.isSet = true
    rw [ending_append]
    exact ending_keeps p Operation.program (I := (·.latch.isSet = true)) hkept _ _ more hset
  · change Chain p Operation.program now _ questions _ _ at hchain
    have hm : m ∈ questions := hsplit ▸ List.mem_append_right _ List.mem_cons_self
    refine ⟨?_, (latched_iff (hgets m hm)).2 e he⟩
    rw [hsplit] at hchain hgets
    have hset := isSet_start_iff hchain hgets rfl
    rw [Latch.trips, Bool.and_eq_true, Bool.not_eq_true', ← Bool.not_eq_true, hset]
    exact and_congr_right fun _ => not_exists.trans (forall_congr' fun _ => not_and)
  · exact (isSet_pairwise hchain hgets).imp fun hset hdenied => refused_of_set (hset hdenied)
  · have hpairs := hsession.pairwise
      (I := fun a _ s => (∃ m ∈ gets p a, Denied p m) → s.latch.isSet = true)
      (fun _ _ _ _ _ hs => hs)
      (fun a _ hex => hex.elim fun _ hm =>
        isSet_of_denied (chain_gets p a) (fun _ => isGet_of_mem_gets) hm.1 hm.2)
      (fun a l _ hstart hdenied => hkept l.item l.start (hstart hdenied))
    exact hpairs.imp fun hset hdenied => refused_of_set (hset hdenied)

/-! ### A scrape behind a cluster lookup that was denied -/

def deniedLookup : Leg Unit Collector Operation :=
  ⟨.lookup ⟨.cpu, "dev-events", twoBrokers⟩, ⟨(), ⟨0, ⟨0, 0⟩⟩, new ⟨60, 60, ∅, "dev"⟩ "dev"⟩⟩

def scrapeTurn : Turn Unit Operation := ⟨.scrape, 10, ⟨10, 0⟩, ()⟩

def refusedScrape : Leg Unit Collector Operation :=
  let o := legOutcome deniedProvider Operation.program deniedLookup
  ⟨.scrape, ⟨(), ⟨o.clock.now + 10, ⟨10, 0⟩⟩, o.state⟩⟩

theorem play_scrapeTurn :
    play deniedProvider Operation.program 0 (new ⟨60, 60, ∅, "dev"⟩ "dev")
      [clusterTurn, scrapeTurn] = [deniedLookup, refusedScrape] := rfl

theorem denied_deniedLookup : Denied deniedProvider deniedLookup := ⟨_, rfl, by decide⟩

theorem latched_iff_denied_cluster :
    Denied deniedProvider deniedLookup ∧ Refused deniedProvider refusedScrape := by
  obtain ⟨-, -, -, -, -, hscrape⟩ := latched_iff_denied deniedProvider 0 ⟨60, 60, ∅, "dev"⟩ "dev"
    [clusterTurn, scrapeTurn] []
  rw [play_scrapeTurn, List.pairwise_pair] at hscrape
  have hgets : deniedLookup ∈ gets deniedProvider deniedLookup := List.mem_singleton_self _
  exact ⟨denied_deniedLookup, hscrape ⟨deniedLookup, hgets, denied_deniedLookup⟩⟩

end PeakUsage.Collector
