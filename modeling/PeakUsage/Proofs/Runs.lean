import PeakUsage.Program

/-! Laws of running a program to its end. A run starts at a moment and leaves one, so runs are put
together from the runs of their parts. -/
namespace PeakUsage

/-- A provider whose answers depend on the call alone, and which takes as long over each. -/
def Provider.steady (latency : Nat) (answer : (r : Request) → Reply r) : Provider Unit where
  latency := fun _ _ _ => latency
  answer := fun _ _ r => (answer r, ())

/-- Where a run starts or stops: the provider's memory, the clocks and the state. -/
structure Moment (π σ : Type) where
  memory : π
  clock : Clock
  state : σ

namespace Moment
variable {π σ τ : Type}

/-- The same moment of a part of the state. -/
def map (f : σ → τ) (w : Moment π σ) : Moment π τ := ⟨w.memory, w.clock, f w.state⟩

/-- The moment without the state. -/
def outside (w : Moment π σ) : Moment π Unit := w.map fun _ => ()

@[simp] theorem outside_clock (w : Moment π σ) : w.outside.clock = w.clock := rfl

/-- The reading of the clocks when the answer to a call arrives. -/
def arrival (p : Provider π) (r : Request) (w : Moment π σ) : Clock :=
  w.clock.advance (p.latency w.memory w.clock r)

/-- The answer to a call made now. -/
def reply (p : Provider π) (r : Request) (w : Moment π σ) : Reply r :=
  (p.answer w.memory (w.arrival p r) r).1

/-- The moment the answer to a call arrives. -/
def answered (p : Provider π) (r : Request) (w : Moment π σ) : Moment π σ :=
  ⟨(p.answer w.memory (w.arrival p r) r).2, w.arrival p r, w.state⟩

@[simp] theorem answered_state (p : Provider π) (r : Request) (w : Moment π σ) :
    (w.answered p r).state = w.state := rfl

theorem reply_outside (p : Provider π) (r : Request) (w : Moment π σ) :
    w.outside.reply p r = w.reply p r := rfl

theorem answered_outside (p : Provider π) (r : Request) (w : Moment π σ) :
    w.outside.answered p r = (w.answered p r).outside := rfl

theorem now_le_answered (p : Provider π) (r : Request) (w : Moment π σ) :
    w.clock.now ≤ (w.answered p r).clock.now := Nat.le_add_right _ _

end Moment

namespace Program
variable {π σ τ α β : Type}

theorem error_ne_ok {ε : Type} (e : ε) (a : α) : (.error e : Except ε α) ≠ .ok a := by
  intro h
  cases h

def Outcome.moment (o : Outcome π σ α) : Moment π σ := ⟨o.memory, o.clock, o.state⟩

/-- A run that gives its result at once, and changes nothing. -/
def stay (w : Moment π σ) (a : α) : Outcome π σ α := ⟨.ok a, w.state, w.clock, w.memory, []⟩

@[simp] theorem stay_moment (w : Moment π σ) (a : α) : (stay w a).moment = w := rfl

/-- The outcome with something that happened before it. -/
def Outcome.after (o : Outcome π σ α) (trace : List Happening) : Outcome π σ α :=
  { o with trace := trace ++ o.trace }

section
variable (o : Outcome π σ α) (trace : List Happening)

@[simp] theorem Outcome.after_result : (o.after trace).result = o.result := rfl
@[simp] theorem Outcome.after_moment : (o.after trace).moment = o.moment := rfl
@[simp] theorem Outcome.after_state : (o.after trace).state = o.state := rfl
@[simp] theorem Outcome.after_clock : (o.after trace).clock = o.clock := rfl
@[simp] theorem Outcome.after_trace : (o.after trace).trace = trace ++ o.trace := rfl
@[simp] theorem Outcome.moment_state : o.moment.state = o.state := rfl
@[simp] theorem Outcome.moment_clock : o.moment.clock = o.clock := rfl

end

/-- Goes on from where a run stopped, unless it stopped for good. -/
def Outcome.andThen (o : Outcome π σ α) (next : α → Moment π σ → Outcome π σ β) :
    Outcome π σ β :=
  match o.result with
  | .ok a => (next a o.moment).after o.trace
  | .error f => { o with result := .error f }

theorem Outcome.andThen_eq_of_ok {o : Outcome π σ α} {next : α → Moment π σ → Outcome π σ β}
    {a : α} (h : o.result = .ok a) : o.andThen next = (next a o.moment).after o.trace := by
  rw [Outcome.andThen, h]

/-- The outcome with its result changed. -/
def Outcome.map (g : α → β) (o : Outcome π σ α) : Outcome π σ β :=
  { o with result := o.result.map g }

theorem Outcome.map_id (o : Outcome π σ α) : o.map id = o := by
  unfold Outcome.map
  rw [Except.map_id]
  rfl

theorem Outcome.map_map {γ : Type} (o : Outcome π σ α) (g : α → β) (k : β → γ) :
    (o.map g).map k = o.map (k ∘ g) := by
  unfold Outcome.map
  cases o.result <;> rfl

theorem Outcome.map_after (o : Outcome π σ α) (trace : List Happening) (g : α → β) :
    (o.after trace).map g = (o.map g).after trace := rfl

theorem Outcome.after_after (o : Outcome π σ α) (trace later : List Happening) :
    (o.after later).after trace = o.after (trace ++ later) := by
  unfold Outcome.after
  rw [List.append_assoc]

/-- Going on to a changed result changes nothing else. -/
theorem Outcome.andThen_pure (o : Outcome π σ α) (g : α → β) :
    (o.andThen fun a v => ⟨.ok (g a), v.state, v.clock, v.memory, []⟩) = o.map g := by
  unfold Outcome.andThen Outcome.map
  cases o.result with
  | error e => rfl
  | ok a => simp [Outcome.after, Outcome.moment, Except.map]

/-- What went on without a halt did not halt before. -/
theorem Outcome.exists_of_andThen_ok {o : Outcome π σ α} {next : α → Moment π σ → Outcome π σ β}
    {b : β} (h : (o.andThen next).result = .ok b) :
    ∃ a, o.result = .ok a ∧ (next a o.moment).result = .ok b := by
  cases ho : o.result with
  | error f =>
    rw [Outcome.andThen, ho] at h
    exact absurd h (error_ne_ok f b)
  | ok a =>
    rw [Outcome.andThen_eq_of_ok ho] at h
    exact ⟨a, rfl, h⟩

theorem Outcome.mem_andThen {o : Outcome π σ α} {next : α → Moment π σ → Outcome π σ β}
    {g : Happening} (hg : g ∈ o.trace) : g ∈ (o.andThen next).trace := by
  cases h : o.result with
  | error f =>
    rw [Outcome.andThen, h]
    exact hg
  | ok a =>
    rw [Outcome.andThen_eq_of_ok h]
    exact List.mem_append_left _ hg

/-- A property of the state that a run leaves and any continuation keeps. -/
theorem Outcome.andThen_keeps {I : σ → Prop} {o : Outcome π σ α}
    {next : α → Moment π σ → Outcome π σ β} (ho : I o.state)
    (hnext : ∀ a (v : Moment π σ), I v.state → I (next a v).state) : I (o.andThen next).state := by
  cases h : o.result with
  | error f =>
    rw [Outcome.andThen, h]
    exact ho
  | ok a =>
    rw [Outcome.andThen_eq_of_ok h]
    exact hnext a o.moment ho

protected theorem bind_assoc {γ : Type} (q : Program σ α) (f : α → Program σ β)
    (g : β → Program σ γ) : q >>= f >>= g = q >>= fun a => f a >>= g := by
  change (q.bind f).bind g = q.bind fun a => (f a).bind g
  induction q with
  | done a => rfl
  | halt e => rfl
  | look k ih => exact congrArg look (funext fun c => funext fun s => ih c s)
  | save s k ih => exact congrArg (save s) ih
  | log e k ih => exact congrArg (log e) ih
  | ask r k ih => exact congrArg (ask r) (funext ih)

def runFrom (p : Provider π) (q : Program σ α) (w : Moment π σ) : Outcome π σ α :=
  q.run p w.memory w.clock w.state

section
variable (p : Provider π) (w : Moment π σ)

@[simp] theorem runFrom_done (a : α) :
    (done a : Program σ α).runFrom p w = ⟨.ok a, w.state, w.clock, w.memory, []⟩ := rfl

@[simp] theorem runFrom_pure (a : α) :
    (pure a : Program σ α).runFrom p w = ⟨.ok a, w.state, w.clock, w.memory, []⟩ := rfl

@[simp] theorem runFrom_halt (f : ClockFault) :
    (halt f : Program σ α).runFrom p w = ⟨.error f, w.state, w.clock, w.memory, []⟩ := rfl

theorem runFrom_look (k : Clock → σ → Program σ α) :
    (look k).runFrom p w = (k w.clock w.state).runFrom p w := rfl

theorem runFrom_log (e : LogEntry) (q : Program σ α) :
    (log e q).runFrom p w = (q.runFrom p w).after [.logged e] := rfl

theorem runFrom_ask (r : Request) (k : Reply r → Program σ α) :
    (ask r k).runFrom p w = ((k (w.reply p r)).runFrom p (w.answered p r)).after
      [.asked r, .answered r (w.reply p r)] := rfl

theorem runFrom_bind (q : Program σ α) (f : α → Program σ β) :
    (q >>= f).runFrom p w = (q.runFrom p w).andThen fun a v => (f a).runFrom p v := by
  change (q.bind f).runFrom p w = _
  induction q generalizing w with
  | done a => rfl
  | halt e => rfl
  | look k ih => exact ih _ _ w
  | save s k ih => exact ih { w with state := s }
  | log e k ih =>
    simp only [Program.bind, runFrom_log, ih, Outcome.andThen]
    split <;> simp_all [Outcome.after, Outcome.moment]
  | ask r k ih =>
    simp only [Program.bind, runFrom_ask, ih, Outcome.andThen]
    split <;> simp_all [Outcome.after, Outcome.moment]

variable {p w}

theorem runFrom_bind_ok {q : Program σ α} {f : α → Program σ β} {a : α}
    (h : (q.runFrom p w).result = .ok a) :
    (q >>= f).runFrom p w =
      ((f a).runFrom p (q.runFrom p w).moment).after (q.runFrom p w).trace := by
  rw [runFrom_bind, Outcome.andThen, h]

theorem runFrom_bind_error {q : Program σ α} {f : α → Program σ β} {e : ClockFault}
    (h : (q.runFrom p w).result = .error e) :
    (q >>= f).runFrom p w = { q.runFrom p w with result := .error e } := by
  rw [runFrom_bind, Outcome.andThen, h]

theorem runFrom_bind_pure (q : Program σ α) (g : α → β) :
    (q >>= fun a => pure (g a)).runFrom p w =
      { q.runFrom p w with result := (q.runFrom p w).result.map g } := by
  rw [runFrom_bind]
  exact (q.runFrom p w).andThen_pure g

theorem trace_bind_pure (q : Program σ α) (g : α → β) :
    ((q >>= fun a => pure (g a)).runFrom p w).trace = (q.runFrom p w).trace := by
  rw [runFrom_bind_pure]

theorem moment_bind_pure (q : Program σ α) (g : α → β) :
    ((q >>= fun a => pure (g a)).runFrom p w).moment = (q.runFrom p w).moment := by
  rw [runFrom_bind_pure]
  rfl

variable (p w)

theorem runFrom_state_bind (f : σ → Program σ α) :
    (state >>= f).runFrom p w = (f w.state).runFrom p w := rfl

theorem runFrom_clock_bind (f : Clock → Program σ α) :
    (clock >>= f).runFrom p w = (f w.clock).runFrom p w := rfl

theorem runFrom_modify_bind (g : σ → σ) (f : Unit → Program σ α) :
    (modify g >>= f).runFrom p w = (f ()).runFrom p { w with state := g w.state } := rfl

theorem runFrom_request_bind (r : Request) (f : Reply r → Program σ α) :
    (request r >>= f).runFrom p w = ((f (w.reply p r)).runFrom p (w.answered p r)).after
      [.asked r, .answered r (w.reply p r)] := rfl

theorem now_le_runFrom (q : Program σ α) : w.clock.now ≤ (q.runFrom p w).clock.now := by
  induction q generalizing w with
  | done a => exact Nat.le_refl _
  | halt e => exact Nat.le_refl _
  | look k ih => exact ih _ _ w
  | save s k ih => exact ih { w with state := s }
  | log e k ih => exact ih w
  | ask r k ih => exact Nat.le_trans (w.now_le_answered p r) (ih _ (w.answered p r))

end

/-! ### A part of the state -/

/-- Reading and replacing a part of the state do not get in each other's way. -/
structure IsPart (get : σ → τ) (put : τ → σ → σ) : Prop where
  get_put : ∀ t s, get (put t s) = t
  put_get : ∀ s, put (get s) s = s
  put_put : ∀ t u s, put t (put u s) = put t s

/-- A program over a part runs as it does alone, and the rest of the state stays as it is. -/
theorem runFrom_within {get : σ → τ} {put : τ → σ → σ} (hpart : IsPart get put)
    (p : Provider π) (q : Program τ α) (w : Moment π σ) :
    (within get put q).runFrom p w =
      { result := (q.runFrom p (w.map get)).result
        state := put (q.runFrom p (w.map get)).state w.state
        clock := (q.runFrom p (w.map get)).clock
        memory := (q.runFrom p (w.map get)).memory
        trace := (q.runFrom p (w.map get)).trace } := by
  induction q generalizing w with
  | done a => simp [within, Moment.map, hpart.put_get]
  | halt e => simp [within, Moment.map, hpart.put_get]
  | look k ih => exact ih _ _ w
  | save t k ih =>
    have hk := ih { w with state := put t w.state }
    simp only [Moment.map, hpart.get_put, hpart.put_put] at hk
    exact hk
  | log e k ih =>
    simp only [within, runFrom_log, ih, Outcome.after]
  | ask r k ih =>
    simp only [within, runFrom_ask, ih, Outcome.after]
    rfl

theorem runFrom_within_of_stay {get : σ → τ} {put : τ → σ → σ} (hpart : IsPart get put)
    {p : Provider π} {q : Program τ α} {w : Moment π σ} {a : α}
    (h : q.runFrom p (w.map get) = stay (w.map get) a) :
    (within get put q).runFrom p w = stay w a := by
  rw [runFrom_within hpart, h]
  simp [stay, Moment.map, hpart.put_get]

/-! ### What a program keeps -/

/-- Every state a program saves has a property, if the states it finds have it. -/
def Keeps (I : σ → Prop) : Program σ α → Prop
  | done _ => True
  | halt _ => True
  | look k => ∀ c s, I s → (k c s).Keeps I
  | save s k => I s ∧ k.Keeps I
  | log _ k => k.Keeps I
  | ask _ k => ∀ x, (k x).Keeps I

theorem Keeps.runFrom {I : σ → Prop} {q : Program σ α} (hq : q.Keeps I) (p : Provider π)
    {w : Moment π σ} (hw : I w.state) : I (q.runFrom p w).state := by
  induction q generalizing w with
  | done a => exact hw
  | halt e => exact hw
  | look k ih => exact ih _ _ (hq _ _ hw) hw
  | save s k ih => exact ih hq.2 (w := { w with state := s }) hq.1
  | log e k ih => exact ih hq hw
  | ask r k ih => exact ih _ (hq _) (w := w.answered p r) hw

theorem Keeps.bind {I : σ → Prop} {q : Program σ α} {f : α → Program σ β} (hq : q.Keeps I)
    (hf : ∀ a, (f a).Keeps I) : (q >>= f).Keeps I := by
  change (q.bind f).Keeps I
  induction q with
  | done a => exact hf a
  | halt e => exact trivial
  | look k ih => exact fun c s hs => ih c s (hq c s hs)
  | save s k ih => exact ⟨hq.1, ih hq.2⟩
  | log e k ih => exact ih hq
  | ask r k ih => exact fun x => ih x (hq x)

/-- A property of the part that a program over it keeps. -/
theorem Keeps.within {get : σ → τ} {put : τ → σ → σ} (hget : ∀ t s, get (put t s) = t)
    {I : τ → Prop} {q : Program τ α} (hq : q.Keeps I) :
    (within get put q).Keeps fun s => I (get s) := by
  induction q with
  | done a => exact trivial
  | halt e => exact trivial
  | look k ih => exact fun c s hs => ih c (get s) (hq c (get s) hs)
  | save t k ih => exact fun c s _ => ⟨by simpa only [hget] using hq.1, ih hq.2⟩
  | log e k ih => exact ih hq
  | ask r k ih => exact fun x => ih x (hq x)

/-- A property of the rest of the state is kept by any program over a part. -/
theorem keeps_within {get : σ → τ} {put : τ → σ → σ} {I : σ → Prop}
    (hput : ∀ t s, I s → I (put t s)) (q : Program τ α) : (within get put q).Keeps I := by
  induction q with
  | done a => exact trivial
  | halt e => exact trivial
  | look k ih => exact fun c s _ => ih c (get s)
  | save t k ih => exact fun c s hs => ⟨hput t s hs, ih⟩
  | log e k ih => exact ih
  | ask r k ih => exact fun x => ih x

/-- However far a program gets, the state has what it keeps. -/
theorem Keeps.runUntil {I : σ → Prop} {q : Program σ α} (hq : q.Keeps I) (p : Provider π)
    (limit : Nat) (m : π) (c : Clock) {s : σ} (hs : I s) : I (q.runUntil p limit m c s).state := by
  induction q generalizing m c s with
  | done a => exact hs
  | halt e => exact hs
  | look k ih => exact ih c s (hq c s hs) m c hs
  | save t k ih => exact ih hq.2 m c hq.1
  | log e k ih => exact ih hq m c hs
  | ask r k ih =>
    rw [Program.runUntil]
    dsimp only
    split
    · exact ih _ (hq _) _ _ hs
    · exact hs

/-- A program that is cut short before its last part, which waits for nothing, leaves what its first
part leaves. -/
theorem state_runUntil_bind {p : Provider π} {limit : Nat} {q : Program σ α} {f : α → Program σ β}
    (hf : ∀ a m c s, ∃ b, ((f a).runUntil p limit m c s).progress = .finished b) {m : π} {c : Clock}
    {s : σ} (h : ∀ b, ((q >>= f).runUntil p limit m c s).progress ≠ .finished b) :
    ((q >>= f).runUntil p limit m c s).state = (q.runUntil p limit m c s).state := by
  change ∀ b, ((q.bind f).runUntil p limit m c s).progress ≠ .finished b at h
  change ((q.bind f).runUntil p limit m c s).state = _
  induction q generalizing m c s with
  | done a =>
    obtain ⟨b, hb⟩ := hf a m c s
    exact absurd hb (h b)
  | halt e => rfl
  | look k ih => exact ih c s h
  | save t k ih => exact ih h
  | log e k ih => exact ih h
  | ask r k ih =>
    rw [Program.bind, Program.runUntil] at h ⊢
    rw [Program.runUntil]
    dsimp only at h ⊢
    split
    · next hdue =>
      rw [if_pos hdue] at h
      exact ih _ h
    · rfl

/-! ### What a program does to the state -/

/-- A property that time alone does not end. -/
def Lasting (I : Nat → σ → Prop) : Prop := ∀ now later s, now ≤ later → I now s → I later s

/-- Every state a program saves is a change of the state it found, made at that time. After an
answer it looks again before it saves. -/
def Steps (R : Nat → σ → σ → Prop) : Program σ α → Nat → σ → Prop
  | done _, _, _ => True
  | halt _, _, _ => True
  | look k, _, _ => ∀ c s, (k c s).Steps R c.now s
  | save t k, now, s => R now s t ∧ k.Steps R now t
  | log _ k, now, s => k.Steps R now s
  | ask _ k, _, _ => ∀ x now s, (k x).Steps R now s

section
variable {R : Nat → σ → σ → Prop} {q : Program σ α} {now : Nat} {s : σ}

theorem Steps.bind {f : α → Program σ β} (hq : q.Steps R now s)
    (hf : ∀ a now s, (f a).Steps R now s) : (q >>= f).Steps R now s := by
  change (q.bind f).Steps R now s
  induction q generalizing now s with
  | done a => exact hf a now s
  | halt e => exact trivial
  | look k ih => exact fun c s => ih c s (hq c s)
  | save t k ih => exact ⟨hq.1, ih hq.2⟩
  | log e k ih => exact ih hq
  | ask r k ih => exact fun x now s => ih x (hq x now s)

theorem Steps.keeps {I : σ → Prop} (hq : q.Steps R now s)
    (hI : ∀ now s t, R now s t → I s → I t) (hs : I s) : q.Keeps I := by
  induction q generalizing now s with
  | done a => exact trivial
  | halt e => exact trivial
  | look k ih => exact fun c s hs => ih c s (hq c s) hs
  | save t k ih =>
    have ht : I t := hI now s t hq.1 hs
    exact ⟨ht, ih hq.2 ht⟩
  | log e k ih => exact ih hq hs
  | ask r k ih => exact fun x => ih x (hq x now s) hs

/-- A lasting property that no change ends is there at the end of a run. -/
theorem Steps.runFrom {I : Nat → σ → Prop} (hlasting : Lasting I)
    (hI : ∀ now s t, R now s t → I now s → I now t) (p : Provider π) {w : Moment π σ}
    (hq : q.Steps R w.clock.now w.state) (hw : I w.clock.now w.state) :
    I (q.runFrom p w).clock.now (q.runFrom p w).state := by
  induction q generalizing w with
  | done a => exact hw
  | halt e => exact hw
  | look k ih => exact ih _ _ (hq w.clock w.state) hw
  | save t k ih =>
    have ht : I w.clock.now t := hI _ _ _ hq.1 hw
    exact ih (w := { w with state := t }) hq.2 ht
  | log e k ih => exact ih hq hw
  | ask r k ih =>
    have hlater : I (w.answered p r).clock.now w.state :=
      hlasting _ _ _ (w.now_le_answered p r) hw
    exact ih _ (w := w.answered p r) (hq _ _ _) hlater

end

end Program
end PeakUsage
