import PeakUsage.Proofs.Collector.Operations
import PeakUsage.Proofs.Rejection

/-! A scrape walks the listed resources in the order of their keys, up to where the latch is set. It
looks up the CPU figure of each, then its memory figure where there is one to look up, and reports
what these lookups find. -/
namespace PeakUsage.Collector
open Program

variable {π α β : Type}

/-- The value of an outcome, which may be partial. -/
def value? : Except Failure Float → Option Float
  | .ok v => some v
  | .error e => e.partialPeak

section
variable (p : Provider π) (l : Leg π Collector Lookup)

/-- The value a lookup yields. -/
def found? : Option Float :=
  match (legOutcome p Lookup.program l).result with
  | .ok x => value? x
  | .error _ => none

def failed : Bool :=
  match (legOutcome p Lookup.program l).result with
  | .ok (.error _) => true
  | _ => false

def halted : Bool :=
  match (legOutcome p Lookup.program l).result with
  | .ok _ => false
  | .error _ => true

def sample? : Option Sample :=
  (found? p l).map fun v => ⟨l.item.key, l.item.figure, v, l.item.resource⟩

end

def cpuLeg (r : Resource) (w : Moment π Collector) : Leg π Collector Lookup :=
  ⟨⟨.cpu, r.usageKey, r⟩, w⟩

def memoryLeg (p : Provider π) (r : Resource) (w : Moment π Collector) : Leg π Collector Lookup :=
  ⟨⟨.memory, r.usageKey, r⟩, (legOutcome p Lookup.program (cpuLeg r w)).moment⟩

/-- The lookups for one resource: its CPU figure, and its memory figure if the first yields a value
and the engine has one. -/
def visitLegs (p : Provider π) (r : Resource) (w : Moment π Collector) :
    List (Leg π Collector Lookup) :=
  cpuLeg r w ::
    if (found? p (cpuLeg r w)).isSome && r.engine.reportsMemory then [memoryLeg p r w] else []

/-- The lookups for several resources, one resource after another up to where the latch is set. -/
def walk (p : Provider π) : List Resource → Moment π Collector → List (Leg π Collector Lookup)
  | [], _ => []
  | r :: rest, w =>
    if w.state.latch.isSet then []
    else
      let legs := visitLegs p r w
      legs ++ if legs.any (halted p) then [] else walk p rest (finish p Lookup.program legs w)

/-- A report with what lookups found. -/
def extend (p : Provider π) (legs : List (Leg π Collector Lookup)) (rep : Report) : Report :=
  { rep with
    samples := rep.samples ++ legs.filterMap (sample? p)
    errors := rep.errors + legs.countP (failed p) }

/-! ### Runs that consist of lookups -/

/-- The calls of several lookups and the answers to them. -/
def calls (p : Provider π) (legs : List (Leg π Collector Lookup)) : List Happening :=
  legs.flatMap fun l => exchanges (legOutcome p Lookup.program l).trace

/-- A run makes the calls of lookups and no others, ends where they end, and has a given result
unless one of them halts. -/
structure Retraces (p : Provider π) (legs : List (Leg π Collector Lookup)) (w : Moment π Collector)
    (a : α) (o : Outcome π Collector α) : Prop where
  exchanges : exchanges o.trace = calls p legs
  moment : o.moment = finish p Lookup.program legs w
  result : o.result = if legs.any (halted p) then .error .pastHorizon else .ok a

variable {p : Provider π} {w : Moment π Collector}

/-- Nothing but lines in the log. -/
theorem retraces_nil (lines : List LogEntry) (a : α) :
    Retraces p [] w a ⟨.ok a, w.state, w.clock, w.memory, lines.map .logged⟩ where
  exchanges := List.filter_eq_nil_iff.mpr (by simp [Happening.isLog])
  moment := rfl
  result := rfl

theorem finish_append {p : Provider π} (legs more : List (Leg π Collector Lookup))
    (w : Moment π Collector) :
    finish p Lookup.program (legs ++ more) w =
      finish p Lookup.program more (finish p Lookup.program legs w) :=
  List.foldl_append

theorem Retraces.bind {legs more : List (Leg π Collector Lookup)} {a : α} {b : β}
    {q : Program Collector α} {f : α → Program Collector β}
    (hq : Retraces p legs w a (q.runFrom p w))
    (hf : Retraces p more (finish p Lookup.program legs w) b
      ((f a).runFrom p (finish p Lookup.program legs w))) :
    Retraces p (legs ++ if legs.any (halted p) then [] else more) w b ((q >>= f).runFrom p w) := by
  cases hhalt : legs.any (halted p) with
  | true =>
    have hresult := hq.result
    simp only [hhalt, if_true] at hresult
    rw [runFrom_bind_error hresult]
    simp only [if_true, List.append_nil]
    exact ⟨hq.exchanges, hq.moment, by simp [hhalt]⟩
  | false =>
    have hresult := hq.result
    simp only [hhalt, Bool.false_eq_true, if_false] at hresult
    rw [runFrom_bind_ok hresult, hq.moment]
    simp only [Bool.false_eq_true, if_false]
    refine ⟨?_, ?_, ?_⟩
    · rw [Outcome.after_trace, exchanges_append, hq.exchanges, hf.exchanges, calls, calls, calls,
        List.flatMap_append]
    · rw [Outcome.after_moment, hf.moment, finish_append]
    · rw [Outcome.after_result, hf.result, List.any_append, hhalt, Bool.false_or]

theorem runFrom_record (p : Provider π) (w : Moment π Collector) (rep : Report) (r : Resource)
    (figure : Figure) (x : Except Failure Float) :
    ∃ lines, exchanges lines = [] ∧
      (record rep r figure x).runFrom p w =
        ⟨.ok ({ rep with
            samples := rep.samples ++ ((value? x).map (⟨r.usageKey, figure, ·, r⟩)).toList
            errors := rep.errors + if x.toOption.isSome then 0 else 1 }, (value? x).isSome),
          w.state, w.clock, w.memory, lines⟩ := by
  cases x with
  | ok v => exact ⟨[], rfl, rfl⟩
  | error e =>
    cases h : e.partialPeak with
    | some v =>
      refine ⟨[line w.state (.partialBrokers r v e)], rfl, ?_⟩
      simp only [record, value?, h]
      rfl
    | none =>
      simp only [record, value?, h]
      cases e.isDisabled with
      | true => exact ⟨[], rfl, by simp [Except.toOption]⟩
      | false =>
        refine ⟨[line w.state (.figureFailed r figure e)], rfl, ?_⟩
        simp [runFrom_bind, runFrom_note, Outcome.andThen, Outcome.after, Outcome.moment,
          Except.toOption]

/-- A lookup with its outcome added to a report. -/
theorem retraces_lookup (rep : Report) (r : Resource) (figure : Figure) (w : Moment π Collector) :
    let l : Leg π Collector Lookup := ⟨⟨figure, r.usageKey, r⟩, w⟩
    Retraces p [l] w (extend p [l] rep, (found? p l).isSome)
      ((l.item.program >>= record rep r figure).runFrom p w) := by
  intro l
  have ho : l.item.program.runFrom p w = legOutcome p Lookup.program l := rfl
  rw [runFrom_bind, ho]
  cases h : (legOutcome p Lookup.program l).result with
  | error f =>
    have hhalt : [l].any (halted p) = true := by simp [halted, h]
    rw [Outcome.andThen, h]
    refine ⟨by simp [calls], rfl, ?_⟩
    rw [hhalt]
    cases f
    rfl
  | ok x =>
    obtain ⟨lines, hlines, hrecord⟩ :=
      runFrom_record p (legOutcome p Lookup.program l).moment rep r figure x
    rw [Outcome.andThen_eq_of_ok h, hrecord]
    have hhalt : [l].any (halted p) = false := by simp [halted, h]
    have hfound : found? p l = value? x := by simp [found?, h]
    have hsamples : [l].filterMap (sample? p) =
        ((value? x).map (⟨r.usageKey, figure, ·, r⟩)).toList := by
      rw [List.filterMap_cons, sample?, hfound]
      cases value? x <;> rfl
    have hcount : [l].countP (failed p) = if x.toOption.isSome then 0 else 1 := by
      rw [List.countP_singleton, failed, h]
      cases x <;> rfl
    refine ⟨by simp [calls, exchanges_append, hlines], rfl, ?_⟩
    rw [hhalt, extend, hsamples, hcount, hfound]
    rfl

theorem extend_nil (rep : Report) : extend p [] rep = rep := by
  simp [extend]

theorem extend_append (legs more : List (Leg π Collector Lookup)) (rep : Report) :
    extend p (legs ++ more) rep = extend p more (extend p legs rep) := by
  simp [extend, List.countP_append, Nat.add_assoc]

theorem found?_of_halted {l : Leg π Collector Lookup} (h : halted p l = true) :
    found? p l = none := by
  unfold halted at h
  unfold found?
  split at h <;> simp_all

/-- A lookup that is made on a condition. -/
theorem retraces_lookup_if (condition : Bool) (rep : Report) (r : Resource) (figure : Figure)
    (w : Moment π Collector) :
    let item : Lookup := ⟨figure, r.usageKey, r⟩
    let legs : List (Leg π Collector Lookup) := if condition then [⟨item, w⟩] else []
    Retraces p legs w (extend p legs rep)
      ((if condition then item.program >>= record rep r figure >>= fun y => pure y.1
        else pure rep : Program Collector Report).runFrom p w) := by
  intro item legs
  cases condition with
  | false =>
    have hlegs : legs = [] := rfl
    rw [hlegs, extend_nil]
    exact retraces_nil [] rep
  | true =>
    have hboth := (retraces_lookup (p := p) rep r figure w).bind (f := fun y => pure y.1)
      (retraces_nil [] _)
    simp only [ite_self, List.append_nil] at hboth
    exact hboth

/-- What a visit goes on with behind the CPU figure. -/
def visitMemory (r : Resource) (x : Report × Bool) : Program Collector Report :=
  if x.2 && r.engine.reportsMemory then
    (⟨.memory, r.usageKey, r⟩ : Lookup).program >>= record x.1 r .memory >>= fun y => pure y.1
  else pure x.1

theorem visit_eq (rep : Report) (r : Resource) :
    visit rep r =
      (⟨.cpu, r.usageKey, r⟩ : Lookup).program >>= record rep r .cpu >>= visitMemory r := by
  unfold visitMemory
  simp only [Program.bind_assoc]
  rfl

/-- The lookup of the memory figure, where there is one to look up. -/
def memoryLegs (p : Provider π) (r : Resource) (w : Moment π Collector) :
    List (Leg π Collector Lookup) :=
  if (found? p (cpuLeg r w)).isSome && r.engine.reportsMemory then [memoryLeg p r w] else []

theorem visitLegs_eq (p : Provider π) (r : Resource) (w : Moment π Collector) :
    visitLegs p r w =
      [cpuLeg r w] ++ if [cpuLeg r w].any (halted p) then [] else memoryLegs p r w := by
  cases hhalt : [cpuLeg r w].any (halted p) with
  | false => rfl
  | true =>
    have hnone : found? p (cpuLeg r w) = none := found?_of_halted (by simpa using hhalt)
    simp [visitLegs, hnone]

/-- A visit makes the lookups for its resource. -/
theorem retraces_visit (p : Provider π) (rep : Report) (r : Resource) (w : Moment π Collector) :
    Retraces p (visitLegs p r w) w (extend p (visitLegs p r w) rep)
      ((visit rep r).runFrom p w) := by
  have hmore : Retraces p (memoryLegs p r w) (finish p Lookup.program [cpuLeg r w] w)
      (extend p (memoryLegs p r w) (extend p [cpuLeg r w] rep))
      ((visitMemory r (extend p [cpuLeg r w] rep, (found? p (cpuLeg r w)).isSome)).runFrom p
        (finish p Lookup.program [cpuLeg r w] w)) :=
    retraces_lookup_if _ (extend p [cpuLeg r w] rep) r .memory (memoryLeg p r w).start
  have hboth : Retraces p
      ([cpuLeg r w] ++ if [cpuLeg r w].any (halted p) then [] else memoryLegs p r w) w
      (extend p (memoryLegs p r w) (extend p [cpuLeg r w] rep))
      (((⟨.cpu, r.usageKey, r⟩ : Lookup).program >>= record rep r .cpu >>=
        visitMemory r).runFrom p w) :=
    (retraces_lookup rep r .cpu w).bind hmore
  rw [← visitLegs_eq, ← extend_append, ← visit_eq] at hboth
  exact hboth

/-- Visiting resources makes the lookups of the walk. -/
theorem retraces_visitAll (p : Provider π) (rep : Report) (rs : List Resource)
    (w : Moment π Collector) :
    Retraces p (walk p rs w) w (extend p (walk p rs w) rep) ((visitAll rep rs).runFrom p w) := by
  induction rs generalizing rep w with
  | nil =>
    rw [walk, extend_nil]
    exact retraces_nil [] rep
  | cons r rest ih =>
    rw [visitAll, runFrom_state_bind, walk]
    cases hset : w.state.latch.isSet with
    | true =>
      simp only [if_true, extend_nil]
      exact retraces_nil [] rep
    | false =>
      simp only [Bool.false_eq_true, if_false]
      have hboth := (retraces_visit p rep r w).bind (f := fun rep => visitAll rep rest)
        (ih (extend p (visitLegs p r w) rep) (finish p Lookup.program (visitLegs p r w) w))
      cases hhalt : (visitLegs p r w).any (halted p) with
      | true =>
        simp only [hhalt, if_true, List.append_nil] at hboth ⊢
        exact ⟨hboth.exchanges, hboth.moment, by simp [hboth.result, hhalt]⟩
      | false =>
        simp only [hhalt, Bool.false_eq_true, if_false] at hboth ⊢
        rwa [extend_append]

/-! ### The lookups of a walk -/

theorem visitLegs_cases (p : Provider π) (r : Resource) (w : Moment π Collector) :
    visitLegs p r w = [cpuLeg r w] ∨ visitLegs p r w = [cpuLeg r w, memoryLeg p r w] := by
  unfold visitLegs
  split
  · exact .inr rfl
  · exact .inl rfl

theorem key_of_mem_visitLegs {r : Resource} {l : Leg π Collector Lookup}
    (hl : l ∈ visitLegs p r w) : l.item.key = r.usageKey ∧ l.item.resource = r := by
  rcases visitLegs_cases p r w with h | h <;> rw [h] at hl <;>
    simp only [List.mem_cons, List.not_mem_nil, or_false] at hl
  · rw [hl]
    exact ⟨rfl, rfl⟩
  · rcases hl with rfl | rfl
    · exact ⟨rfl, rfl⟩
    · exact ⟨rfl, rfl⟩

/-- A walk consists of visits that start with the latch not set. -/
theorem exists_visit_of_mem_walk {rs : List Resource} {l : Leg π Collector Lookup}
    (hl : l ∈ walk p rs w) :
    ∃ r ∈ rs, ∃ v : Moment π Collector, v.state.latch.isSet = false ∧ l ∈ visitLegs p r v := by
  induction rs generalizing w with
  | nil => exact absurd hl List.not_mem_nil
  | cons r rest ih =>
    rw [walk] at hl
    split at hl
    · exact absurd hl List.not_mem_nil
    · next hunset =>
      rcases List.mem_append.mp hl with hl | hl
      · exact ⟨r, List.mem_cons_self, w, eq_false_of_ne_true hunset, hl⟩
      · split at hl
        · exact absurd hl List.not_mem_nil
        · obtain ⟨r', hr', hvisit⟩ := ih hl
          exact ⟨r', List.mem_cons_of_mem _ hr', hvisit⟩

theorem key_of_mem_walk {rs : List Resource} {l : Leg π Collector Lookup}
    (hl : l ∈ walk p rs w) : l.item.key = l.item.resource.usageKey ∧ l.item.resource ∈ rs := by
  obtain ⟨r, hr, v, -, hvisit⟩ := exists_visit_of_mem_walk hl
  obtain ⟨hkey, rfl⟩ := key_of_mem_visitLegs hvisit
  exact ⟨hkey, hr⟩

theorem walk_of_set {w : Moment π Collector} (h : w.state.latch.isSet = true)
    (rs : List Resource) : walk p rs w = [] := by
  cases rs with
  | nil => rfl
  | cons r rest => rw [walk, if_pos h]

/-- Once the latch is set it is set at the end of the visit. -/
theorem isSet_finish_visitLegs {r : Resource} {l : Leg π Collector Lookup}
    (hl : l ∈ visitLegs p r w)
    (hset : (legOutcome p Lookup.program l).state.latch.isSet = true) :
    (finish p Lookup.program (visitLegs p r w) w).state.latch.isSet = true := by
  rcases visitLegs_cases p r w with h | h <;> rw [h] at hl ⊢ <;>
    simp only [List.mem_cons, List.not_mem_nil, or_false] at hl
  · rw [hl] at hset
    exact hset
  · rcases hl with rfl | rfl
    · exact (lookup_keeps stable_latched _).runFrom p (w := (memoryLeg p r w).start) hset
    · exact hset

theorem isSet_finish_walk {rs : List Resource} {l : Leg π Collector Lookup}
    (hl : l ∈ walk p rs w) (hset : (legOutcome p Lookup.program l).state.latch.isSet = true) :
    (finish p Lookup.program (walk p rs w) w).state.latch.isSet = true := by
  induction rs generalizing w with
  | nil => exact absurd hl List.not_mem_nil
  | cons r rest ih =>
    rw [walk] at hl ⊢
    split at hl
    · exact absurd hl List.not_mem_nil
    · next hunset =>
      rw [if_neg hunset]
      simp only [finish_append] at hl ⊢
      rcases List.mem_append.mp hl with hl | hl
      · have hend := isSet_finish_visitLegs hl hset
        rw [walk_of_set hend, ite_self]
        exact hend
      · split at hl
        · exact absurd hl List.not_mem_nil
        · next hhalt =>
          rw [if_neg hhalt]
          exact ih hl

/-- A relation holds along a walk if it holds within each visit, and from one visit to a later one
where the latch is not set. -/
theorem walk_pairwise {S : Resource → Resource → Prop}
    {R : Leg π Collector Lookup → Leg π Collector Lookup → Prop}
    (hvisit : ∀ r w, (visitLegs p r w).Pairwise R)
    (hnext : ∀ a b, (legOutcome p Lookup.program a).state.latch.isSet = false →
      S a.item.resource b.item.resource → R a b)
    {rs : List Resource} (hrs : rs.Pairwise S) (w : Moment π Collector) :
    (walk p rs w).Pairwise R := by
  induction rs generalizing w with
  | nil => exact List.Pairwise.nil
  | cons r rest ih =>
    obtain ⟨hr, hrest⟩ := List.pairwise_cons.mp hrs
    rw [walk]
    split
    · exact List.Pairwise.nil
    · refine List.pairwise_append.mpr ⟨hvisit r w, ?_, fun a ha b hb => ?_⟩
      · split
        · exact List.Pairwise.nil
        · exact ih hrest _
      · split at hb
        · exact absurd hb List.not_mem_nil
        · refine hnext a b ?_ ?_
          · cases hset : (legOutcome p Lookup.program a).state.latch.isSet with
            | false => rfl
            | true =>
              rw [walk_of_set (isSet_finish_visitLegs ha hset)] at hb
              exact absurd hb List.not_mem_nil
          · rw [(key_of_mem_visitLegs ha).2]
            exact hr _ (key_of_mem_walk hb).2

/-- How one lookup of a walk comes before another: as the CPU figure of the same resource, or for a
resource with a smaller key and with the latch not set behind it. -/
def Precedes (p : Provider π) (a b : Leg π Collector Lookup) : Prop :=
  (a.item.resource = b.item.resource ∧ a.item.figure = .cpu ∧ b.item.figure = .memory) ∨
    (a.item.resource.usageKey < b.item.resource.usageKey ∧
      (legOutcome p Lookup.program a).state.latch.isSet = false)

theorem walk_precedes {rs : List Resource}
    (hlt : rs.Pairwise fun a b => a.usageKey < b.usageKey) (w : Moment π Collector) :
    (walk p rs w).Pairwise (Precedes p) := by
  refine walk_pairwise (fun r w => ?_) (fun a b hunset hkey => .inr ⟨hkey, hunset⟩) hlt w
  rcases visitLegs_cases p r w with h | h <;> rw [h]
  · exact List.pairwise_singleton ..
  · exact List.pairwise_pair.mpr (.inl ⟨rfl, rfl, rfl⟩)

/-- The resources whose CPU figure is looked up. -/
def visited (legs : List (Leg π Collector Lookup)) : List Resource :=
  (legs.filter (·.item.figure = .cpu)).map (·.item.resource)

theorem visited_append (legs more : List (Leg π Collector Lookup)) :
    visited (legs ++ more) = visited legs ++ visited more := by
  simp [visited]

theorem visited_visitLegs (p : Provider π) (r : Resource) (w : Moment π Collector) :
    visited (visitLegs p r w) = [r] := by
  rcases visitLegs_cases p r w with h | h <;> rw [h] <;> rfl

/-- A walk leaves no resource out before the last it gets to. -/
theorem visited_walk_prefix (p : Provider π) (rs : List Resource) (w : Moment π Collector) :
    visited (walk p rs w) <+: rs := by
  induction rs generalizing w with
  | nil => exact List.nil_prefix
  | cons r rest ih =>
    rw [walk]
    split
    · exact List.nil_prefix
    · rw [visited_append, visited_visitLegs, List.singleton_append]
      refine List.cons_prefix_cons.mpr ⟨rfl, ?_⟩
      split
      · exact List.nil_prefix
      · exact ih _

/-- It gets to all of them unless a lookup halts or sets the latch. -/
theorem visited_walk_eq {rs : List Resource} {w : Moment π Collector}
    (hhalt : (walk p rs w).any (halted p) = false)
    (hunset : (finish p Lookup.program (walk p rs w) w).state.latch.isSet = false) :
    visited (walk p rs w) = rs := by
  induction rs generalizing w with
  | nil => rfl
  | cons r rest ih =>
    cases hset : w.state.latch.isSet with
    | true =>
      rw [walk_of_set hset] at hunset
      exact absurd (hset.symm.trans hunset) nofun
    | false =>
      simp only [walk, hset, Bool.false_eq_true, if_false, List.any_append,
        Bool.or_eq_false_iff] at hhalt hunset ⊢
      simp only [hhalt.1, Bool.false_eq_true, if_false, finish_append] at hhalt hunset ⊢
      rw [visited_append, visited_visitLegs, ih hhalt.2 hunset]
      rfl

/-! ### Scrapes -/

/-- Listed resources come from the inventory. -/
theorem of_resources_ok {rs : List Resource}
    (h : (resources.runFrom p w).result = .ok (.ok rs)) :
    (Inventory.resources.runFrom p (w.map (·.inventory))).result = .ok (.ok rs) := by
  obtain ⟨-, hresult, -⟩ := of_guarded_ok h
  rw [runFrom_clock_bind, runFrom_state_bind, runFrom_bind] at hresult
  obtain ⟨x, hx, hnext⟩ := Outcome.exists_of_andThen_ok hresult
  rw [inInventory, runFrom_within isPart_inventory] at hx
  rw [show (Inventory.resources.runFrom p (w.map (·.inventory))).result = _ from hx]
  cases x with
  | error e => exact absurd (Except.ok.inj hnext) nofun
  | ok listed =>
    dsimp only at hnext
    split at hnext
    · exact congrArg _ (congrArg _ (Except.ok.inj (Except.ok.inj hnext)))
    · exact congrArg _ (congrArg _ (Except.ok.inj (Except.ok.inj hnext)))

/-- In a session resources are listed in the order of their keys. -/
theorem pairwise_of_resources_ok (settings : CollectorSettings) (environment : String)
    (now : Nat) (turns : List (Turn π Operation))
    (hstate : w.state = (ending p Operation.program now (new settings environment) turns).2)
    {rs : List Resource} (hlist : (resources.runFrom p w).result = .ok (.ok rs)) :
    rs.Pairwise fun a b => a.usageKey < b.usageKey := by
  have hkeyed : w.state.inventory.Keyed := by
    rw [hstate]
    exact ending_keeps p _ (I := fun s : Collector => s.inventory.Keyed)
      (fun op _ => (operation_keeps stable_keyed op).runFrom p) _ _ _ (Inventory.keyed_new _ _)
  exact Inventory.pairwise_of_runFrom_resources hkeyed (of_resources_ok hlist)

/-- A scrape whose listing succeeds walks the listed resources. -/
theorem retraces_scrape {rs : List Resource}
    (hlist : (resources.runFrom p w).result = .ok (.ok rs)) :
    let start := (resources.runFrom p w).moment
    let legs := walk p rs start
    let last := finish p Lookup.program legs start
    ∃ o, scrape.runFrom p w = o.after (resources.runFrom p w).trace ∧
      Retraces p legs start
        { extend p legs ⟨rs.length, [], 0, none, false, 0⟩ with
          fetchDisabled := last.state.latch.isSet
          elapsed := last.clock.now - w.clock.now } o := by
  intro start legs last
  rw [scrape, runFrom_clock_bind, runFrom_bind_ok hlist]
  refine ⟨_, rfl, ?_⟩
  let conclude (rep : Report) : Program Collector Report := do
    let s ← state
    let c ← clock
    let rep := { rep with fetchDisabled := s.latch.isSet, elapsed := c.now - w.clock.now }
    note (.scrapeComplete rep.instances rep.samples.length rep.errors (Nanos.millis rep.elapsed))
    pure rep
  have hwalk := (retraces_visitAll p ⟨rs.length, [], 0, none, false, 0⟩ rs start).bind
    (f := conclude) (retraces_nil [⟨last.state.environment, _⟩] _)
  simp only [ite_self, List.append_nil] at hwalk
  exact hwalk

theorem sample?_eq_some {l : Leg π Collector Lookup} {x : Sample} (h : sample? p l = some x) :
    x.identifier = l.item.key ∧ x.figure = l.item.figure := by
  obtain ⟨v, -, rfl⟩ := Option.map_eq_some_iff.mp h
  exact ⟨rfl, rfl⟩

/-- No two samples of a walk have key and figure in common. -/
theorem samples_pairwise {rs : List Resource}
    (hlt : rs.Pairwise fun a b => a.usageKey < b.usageKey) (w : Moment π Collector) :
    ((walk p rs w).filterMap (sample? p)).Pairwise fun a b =>
      ¬ (a.identifier = b.identifier ∧ a.figure = b.figure) := by
  refine List.pairwise_filterMap.mpr ((walk_precedes hlt w).imp_of_mem ?_)
  rintro a b ha hb hab x hx y hy ⟨hidentifier, hfigure⟩
  obtain ⟨hxkey, hxfigure⟩ := sample?_eq_some hx
  obtain ⟨hykey, hyfigure⟩ := sample?_eq_some hy
  rcases hab with ⟨-, hcpu, hmemory⟩ | ⟨hkey, -⟩
  · rw [hxfigure, hyfigure, hcpu, hmemory] at hfigure
    exact absurd hfigure nofun
  · rw [← (key_of_mem_walk ha).1, ← (key_of_mem_walk hb).1, ← hxkey, ← hykey, hidentifier] at hkey
    exact String.lt_irrefl _ hkey

/-- A lookup that leaves the latch set is for the last resource that is looked at. -/
theorem not_key_lt_of_isSet {rs : List Resource}
    (hlt : rs.Pairwise fun a b => a.usageKey < b.usageKey) {w : Moment π Collector}
    {l m : Leg π Collector Lookup} (hl : l ∈ walk p rs w) (hm : m ∈ walk p rs w)
    (hset : (legOutcome p Lookup.program l).state.latch.isSet = true) :
    ¬ l.item.key < m.item.key := by
  intro hkey
  rw [(key_of_mem_walk hl).1, (key_of_mem_walk hm).1] at hkey
  have hne : l.item.resource ≠ m.item.resource := by
    intro h
    rw [h] at hkey
    exact String.lt_irrefl _ hkey
  rcases eq_or_of_pairwise (walk_precedes hlt w) hl hm with rfl | h | h
  · exact hne rfl
  · rcases h with ⟨h, -⟩ | ⟨-, hunset⟩
    · exact hne h
    · exact absurd (hset.symm.trans hunset) nofun
  · rcases h with ⟨h, -⟩ | ⟨h, -⟩
    · exact hne h.symm
    · exact String.lt_asymm hkey h

/-- A scrape looks up the listed resources in the order of their keys, up to where the latch is set,
and reports what it finds, whatever was done with the collector before. -/
theorem scrape_eq_walk (settings : CollectorSettings) (environment : String) (p : Provider π)
    (now : Nat) (turns : List (Turn π Operation)) {w : Moment π Collector}
    (hstate : w.state = (ending p Operation.program now (new settings environment) turns).2)
    {rs : List Resource} (hlist : (resources.runFrom p w).result = .ok (.ok rs))
    (hfit : (scrape.runFrom p w).result ≠ .error .pastHorizon) :
    let listing := resources.runFrom p w
    let legs := walk p rs listing.moment
    let o := scrape.runFrom p w
    rs.Pairwise (fun a b => a.usageKey < b.usageKey) ∧
      visited legs <+: rs ∧
      (o.state.latch.isSet = false → visited legs = rs) ∧
      exchanges o.trace = exchanges listing.trace ++ calls p legs ∧
      o.moment = finish p Lookup.program legs listing.moment ∧
      ∃ rep, o.result = .ok rep ∧
        rep.instances = rs.length ∧
        rep.samples = legs.filterMap (sample? p) ∧
        rep.errors = legs.countP (failed p) ∧
        rep.samples.Pairwise (fun a b => ¬ (a.identifier = b.identifier ∧ a.figure = b.figure)) ∧
        ∀ l ∈ legs, (legOutcome p Lookup.program l).state.latch.isSet = true →
          ∀ x ∈ rep.samples, ¬ l.item.key < x.identifier := by
  intro listing legs o
  have hlt : rs.Pairwise fun a b => a.usageKey < b.usageKey :=
    pairwise_of_resources_ok settings environment now turns hstate hlist
  obtain ⟨tail, htail, hretraces⟩ := retraces_scrape hlist
  have ho : o = tail.after listing.trace := htail
  have hhalt : legs.any (halted p) = false := by
    cases h : legs.any (halted p) with
    | false => rfl
    | true =>
      rw [htail, Outcome.after_result, hretraces.result, h] at hfit
      exact absurd rfl hfit
  have hmoment : o.moment = finish p Lookup.program legs listing.moment := by
    rw [ho, Outcome.after_moment, hretraces.moment]
  have hlatch : o.state.latch = (finish p Lookup.program legs listing.moment).state.latch := by
    rw [← hmoment]
    rfl
  let last := finish p Lookup.program legs listing.moment
  let rep : Report :=
    { extend p legs ⟨rs.length, [], 0, none, false, 0⟩ with
      fetchDisabled := last.state.latch.isSet
      elapsed := last.clock.now - w.clock.now }
  have hresult : o.result = .ok rep := by
    rw [ho, Outcome.after_result, hretraces.result, hhalt]
    rfl
  have hsamples : rep.samples = legs.filterMap (sample? p) := List.nil_append _
  refine ⟨hlt, visited_walk_prefix p rs _, fun hunset => visited_walk_eq hhalt (hlatch ▸ hunset),
    ?_, hmoment, rep, hresult, rfl, hsamples, Nat.zero_add _, ?_, ?_⟩
  · rw [ho, Outcome.after_trace, exchanges_append, hretraces.exchanges]
  · rw [hsamples]
    exact samples_pairwise hlt listing.moment
  · intro l hl hset x hx
    rw [hsamples] at hx
    obtain ⟨m, hm, hxm⟩ := List.mem_filterMap.mp hx
    rw [(sample?_eq_some hxm).1]
    exact not_key_lt_of_isSet hlt hl hm hset

/-! ### A scrape that sets the latch -/

/-- Lists six resources; one broker is down, and the first database rejects the credentials. -/
def mixedProvider : Provider Unit := .steady 1 fun
  | .list .documentInstance =>
    .ok [⟨"dev-queue", "db.r6g.large", "docdb", ∅⟩, ⟨"dev-orders", "db.r6g.large", "docdb", ∅⟩]
  | .list .keyValueCache => .ok [⟨"dev-cache", "cache.t4g.small", "redis"⟩]
  | .list .streaming => .ok [⟨"dev-events", "kafka.m5.large", 2⟩]
  | .list _ => .ok []
  | .statistics q =>
    if q.dimension? brokerDimension = some "2" then .error ⟨some 503, "busy"⟩
    else if q.dimension? "DBInstanceIdentifier" = some "dev-orders" then .error ⟨some 403, "denied"⟩
    else .ok [⟨⟨0, 0⟩, some 4.0⟩]

def unused : Moment Unit Collector where
  memory := ()
  clock := ⟨0, ⟨0, 0⟩⟩
  state := new ⟨100, 60, ∅, "dev"⟩ "dev"

def databaseRow (name : String) : Resource where
  identifier := name
  instanceClass := "db.r6g.large"
  engine := .docdb
  level := .node
  dimension := "DBInstanceIdentifier"
  brokerId := none
  brokerCount := 0
  collectedAt := ⟨0, 3⟩

def streamingRow (level : Level) (broker : Option Nat) : Resource where
  identifier := "dev-events"
  instanceClass := "kafka.m5.large"
  engine := .kafka
  level := level
  dimension := "Cluster Name"
  brokerId := broker
  brokerCount := 2
  collectedAt := ⟨0, 6⟩

def cacheRow : Resource where
  identifier := "dev-cache"
  instanceClass := "cache.t4g.small"
  engine := .redis
  level := .cluster
  dimension := "CacheClusterId"
  brokerId := none
  brokerCount := 0
  collectedAt := ⟨0, 5⟩

def sixRows : List Resource :=
  [cacheRow, streamingRow .cluster none, streamingRow .broker (some 1),
    streamingRow .broker (some 2), databaseRow "dev-orders", databaseRow "dev-queue"]

theorem listing_unused : (resources.runFrom mixedProvider unused).result = .ok (.ok sixRows) := rfl

theorem scrape_unused : (scrape.runFrom mixedProvider unused).result ≠ .error .pastHorizon := by
  intro h
  have hok : (scrape.runFrom mixedProvider unused).result.toOption.isSome = true := by
    decide +kernel
  rw [h] at hok
  exact absurd hok nofun

theorem samples_unused :
    ((walk mixedProvider sixRows (resources.runFrom mixedProvider unused).moment).filterMap
      (sample? mixedProvider)).map (fun x => (x.identifier, x.figure, x.value)) =
      [("dev-cache", .cpu, 4.0), ("dev-cache", .memory, 4.0), ("dev-events", .cpu, 8.0),
        ("dev-events-1", .cpu, 8.0)] := rfl

theorem errors_unused :
    (walk mixedProvider sixRows (resources.runFrom mixedProvider unused).moment).countP
      (failed mixedProvider) = 3 := rfl

/-- A cluster without one of its brokers is reported, the broker itself is not, and the database
behind the one that rejects the credentials is not looked at. -/
theorem scrape_eq_walk_mixed :
    (resources.runFrom mixedProvider unused).result = .ok (.ok sixRows) ∧
      (scrape.runFrom mixedProvider unused).result ≠ .error .pastHorizon ∧
      ∃ rep, (scrape.runFrom mixedProvider unused).result = .ok rep ∧ rep.instances = 6 ∧
        rep.samples.map (fun x => (x.identifier, x.figure, x.value)) =
          [("dev-cache", .cpu, 4.0), ("dev-cache", .memory, 4.0), ("dev-events", .cpu, 8.0),
            ("dev-events-1", .cpu, 8.0)] ∧
        rep.errors = 3 := by
  obtain ⟨-, -, -, -, -, rep, hrep, hinstances, hsamples, herrors, -⟩ :=
    scrape_eq_walk ⟨100, 60, ∅, "dev"⟩ "dev" mixedProvider 0 [] (w := unused) rfl listing_unused
      scrape_unused
  refine ⟨listing_unused, scrape_unused, rep, hrep, hinstances, ?_, ?_⟩
  · rw [hsamples]
    exact samples_unused
  · rw [herrors]
    exact errors_unused

end PeakUsage.Collector
