import PeakUsage.Collector
import PeakUsage.Proofs.Inventory.Served
import PeakUsage.Proofs.Sequences

/-! The operations of a collector, what the latch makes of each, and what all of them keep. -/
namespace PeakUsage.Collector
open Program

/-- A question for one figure of a resource, kept under a key. -/
structure Lookup where
  figure : Figure
  key : String
  resource : Resource

def Lookup.program (q : Lookup) : Program Collector (Except Failure Float) :=
  match q.figure with
  | .cpu => cpu q.key q.resource
  | .memory => memory q.key q.resource

inductive Operation where
  | resources
  | lookup (q : Lookup)
  | scrape

inductive Answer where
  | listing (x : Except Failure (List Resource))
  | figure (x : Except Failure Float)
  | report (rep : Report)

def Operation.program : Operation → Program Collector Answer
  | .resources => do
    let x ← Collector.resources
    pure (.listing x)
  | .lookup q => do
    let x ← q.program
    pure (.figure x)
  | .scrape => do
    let rep ← Collector.scrape
    pure (.report rep)

theorem isPart_inventory :
    IsPart (·.inventory) fun (i : Inventory) (s : Collector) => { s with inventory := i } where
  get_put := fun _ _ => rfl
  put_get := fun _ => rfl
  put_put := fun _ _ _ => rfl

theorem isPart_peaks :
    IsPart (·.peaks) fun (f : Peaks) (s : Collector) => { s with peaks := f } where
  get_put := fun _ _ => rfl
  put_get := fun _ => rfl
  put_put := fun _ _ _ => rfl

/-! ### The latch -/

section
variable {π α : Type} (p : Provider π) (w : Moment π Collector)

/-- The line an event is written to the log as. -/
def line (s : Collector) (e : Event) : Happening := .logged ⟨s.environment, e⟩

theorem runFrom_note (e : Event) :
    (note e).runFrom p w = ⟨.ok (), w.state, w.clock, w.memory, [line w.state e]⟩ := rfl

/-- The state after a failure was watched. -/
def watched (s : Collector) (e : Failure) : Collector := { s with latch := s.latch.after e }

theorem runFrom_observe (e : Failure) :
    (observe e).runFrom p w =
      ⟨.ok (), watched w.state e, w.clock, w.memory,
        if w.state.latch.trips e then [line w.state (.fetchLatched e)] else []⟩ := by
  rw [observe, runFrom_state_bind]
  cases h : w.state.latch.trips e with
  | true => rfl
  | false =>
    have hset : (w.state.latch.isSet || e.isAuth) = w.state.latch.isSet := by
      simp only [Latch.trips, Bool.and_eq_false_iff, Bool.not_eq_false'] at h
      rcases h with h | h <;> simp [h]
    simp [watched, Latch.after, hset]

variable {p w} {q : Program Collector (Except Failure α)}

theorem runFrom_guarded_of_set (h : w.state.latch.isSet = true) :
    (guarded q).runFrom p w =
      ⟨.ok (.error .disabled), w.state, w.clock, w.memory, [line w.state .fetchSkipped]⟩ := by
  rw [guarded, runFrom_state_bind, h]
  rfl

theorem runFrom_guarded_of_unset (h : w.state.latch.isSet = false) :
    (guarded q).runFrom p w = (q.runFrom p w).andThen fun x v =>
      match x with
      | .ok a => ⟨.ok (.ok a), v.state, v.clock, v.memory, []⟩
      | .error e =>
        ⟨.ok (.error e), watched v.state e, v.clock, v.memory,
          if v.state.latch.trips e then [line v.state (.fetchLatched e)] else []⟩ := by
  rw [guarded, runFrom_state_bind, h]
  simp only [Bool.false_eq_true, if_false, runFrom_bind]
  congr 1
  funext x v
  cases x with
  | ok a => rfl
  | error e =>
    rw [runFrom_bind, runFrom_observe]
    simp [Outcome.andThen, Outcome.after, Outcome.moment]

/-- An operation that is let through has the result it has by itself. -/
theorem result_guarded_of_unset (h : w.state.latch.isSet = false) :
    ((guarded q).runFrom p w).result = (q.runFrom p w).result := by
  rw [runFrom_guarded_of_unset h]
  cases hx : (q.runFrom p w).result with
  | error f => rw [Outcome.andThen, hx]
  | ok x =>
    rw [Outcome.andThen_eq_of_ok hx]
    cases x <;> rfl

/-- An operation that succeeds is let through, and leaves the latch alone. -/
theorem of_guarded_ok {a : α} (h : ((guarded q).runFrom p w).result = .ok (.ok a)) :
    w.state.latch.isSet = false ∧ (q.runFrom p w).result = .ok (.ok a) ∧
      (guarded q).runFrom p w = q.runFrom p w := by
  cases hset : w.state.latch.isSet with
  | true =>
    rw [runFrom_guarded_of_set hset] at h
    exact absurd (Except.ok.inj h) nofun
  | false =>
    rw [runFrom_guarded_of_unset hset] at h ⊢
    obtain ⟨x, hx, hresult⟩ := Outcome.exists_of_andThen_ok h
    rw [Outcome.andThen_eq_of_ok hx]
    cases x with
    | error e => exact absurd (Except.ok.inj hresult) nofun
    | ok b =>
      obtain rfl := Except.ok.inj (Except.ok.inj hresult)
      refine ⟨rfl, hx, ?_⟩
      simp [Outcome.after, Outcome.moment, ← hx]

end

/-! ### What every operation keeps -/

/-- A property that every change of a collector keeps. -/
structure Stable (I : Collector → Prop) : Prop where
  inventory : (inInventory Inventory.resources).Keeps I
  peaks : ∀ s f, I s → I { s with peaks := f }
  latch : ∀ s e, I s → I (watched s e)

/-- The latch is never cleared. -/
theorem stable_latched : Stable (·.latch.isSet = true) where
  inventory := by
    refine keeps_within ?_ _
    exact fun _ _ hs => hs
  peaks := fun _ _ hs => hs
  latch := fun s e hs => by simp [watched, Latch.after, hs]

theorem stable_keyed : Stable (·.inventory.Keyed) where
  inventory := (Inventory.resources_keeps Inventory.stable_keyed).within fun _ _ => rfl
  peaks := fun _ _ hs => hs
  latch := fun _ _ hs => hs

theorem note_keeps {I : Collector → Prop} (e : Event) : (note e).Keeps I := fun _ _ _ => trivial

section
variable {I : Collector → Prop} (hI : Stable I)
include hI

theorem observe_keeps (e : Failure) : (observe e).Keeps I := by
  intro _ s _
  change (if s.latch.trips e then _ else _ : Program Collector Unit).Keeps I
  split
  · exact fun _ s hs => ⟨hI.latch s e hs, note_keeps _⟩
  · exact trivial

theorem guarded_keeps {α : Type} {q : Program Collector (Except Failure α)} (hq : q.Keeps I) :
    (guarded q).Keeps I := by
  intro _ s _
  change (if s.latch.isSet then _ else _ : Program Collector (Except Failure α)).Keeps I
  split
  · exact (note_keeps _).bind fun _ => trivial
  · refine hq.bind fun x => ?_
    cases x with
    | ok a => exact trivial
    | error e => exact (observe_keeps hI e).bind fun _ => trivial

theorem resources_keeps : resources.Keeps I := by
  refine guarded_keeps hI fun c _ _ _ s _ => hI.inventory.bind fun x => ?_
  cases x with
  | error e => exact trivial
  | ok rs =>
    change (if s.inventory.needsRefresh c.now then _ else _ : Program Collector _).Keeps I
    split
    · exact (note_keeps _).bind fun _ => trivial
    · exact trivial

theorem lookup_keeps (q : Lookup) : q.program.Keeps I := by
  obtain ⟨figure, key, r⟩ := q
  cases figure with
  | cpu => exact guarded_keeps hI (keeps_within (fun f s => hI.peaks s f) _)
  | memory => exact guarded_keeps hI (keeps_within (fun f s => hI.peaks s f) _)

omit hI in
theorem record_keeps (rep : Report) (r : Resource) (figure : Figure)
    (x : Except Failure Float) : (record rep r figure x).Keeps I := by
  cases x with
  | ok v => exact trivial
  | error e =>
    cases h : e.partialPeak with
    | some v =>
      simp only [record, h]
      exact (note_keeps _).bind fun _ => trivial
    | none =>
      simp only [record, h]
      split
      · exact (note_keeps _).bind fun _ => trivial
      · exact trivial

theorem visit_keeps (rep : Report) (r : Resource) : (visit rep r).Keeps I := by
  refine (lookup_keeps hI ⟨.cpu, r.usageKey, r⟩).bind fun x => ?_
  refine (record_keeps rep r .cpu x).bind fun (rep, found) => ?_
  dsimp only
  split
  · refine (lookup_keeps hI ⟨.memory, r.usageKey, r⟩).bind fun x => ?_
    exact (record_keeps rep r .memory x).bind fun _ => trivial
  · exact trivial

theorem visitAll_keeps (rep : Report) (rs : List Resource) : (visitAll rep rs).Keeps I := by
  induction rs generalizing rep with
  | nil => exact trivial
  | cons r rest ih =>
    intro _ s _
    change (if s.latch.isSet then _ else _ : Program Collector Report).Keeps I
    split
    · exact trivial
    · exact (visit_keeps hI rep r).bind fun rep => ih rep

theorem scrape_keeps : scrape.Keeps I := by
  intro _ _ _
  refine (resources_keeps hI).bind fun x => ?_
  cases x with
  | error e =>
    dsimp only
    split
    · exact (note_keeps _).bind fun _ _ _ _ _ _ _ => trivial
    · exact fun _ _ _ _ _ _ => trivial
  | ok rs =>
    exact (visitAll_keeps hI _ rs).bind fun _ _ _ _ _ _ _ => (note_keeps _).bind fun _ => trivial

/-- Every operation keeps such a property. -/
theorem operation_keeps (op : Operation) : op.program.Keeps I := by
  cases op with
  | resources => exact (resources_keeps hI).bind fun _ => trivial
  | lookup q => exact (lookup_keeps hI q).bind fun _ => trivial
  | scrape => exact (scrape_keeps hI).bind fun _ => trivial

end

end PeakUsage.Collector
