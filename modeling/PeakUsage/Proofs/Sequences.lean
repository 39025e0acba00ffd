import PeakUsage.Proofs.Exceptional
import PeakUsage.Proofs.Runs

/-! Programs run one after another: in one go, or as the operations of a session with time passing
between them. -/
namespace PeakUsage

/-- One of several programs run in order: which one, and where it starts. -/
structure Leg (π σ β : Type) where
  item : β
  start : Moment π σ

namespace Program
variable {π σ α β : Type}

def legOutcome (p : Provider π) (f : β → Program σ α) (l : Leg π σ β) : Outcome π σ α :=
  (f l.item).runFrom p l.start

/-- A run halts for one reason only. -/
theorem exists_ok_of_ne_pastHorizon {x : Except ClockFault α} (h : x ≠ .error .pastHorizon) :
    ∃ a, x = .ok a := by
  match x, h with
  | .ok a, _ => exact ⟨a, rfl⟩
  | .error .pastHorizon, h => exact absurd rfl h

theorem exists_map_ok {ε : Type} {g : β → Except ε α} {bs : List β}
    (h : ∀ b ∈ bs, ∃ a, g b = .ok a) : ∃ as : List α, bs.map g = as.map .ok := by
  induction bs with
  | nil => exact ⟨[], rfl⟩
  | cons b rest ih =>
    obtain ⟨a, ha⟩ := h b List.mem_cons_self
    obtain ⟨as, has⟩ := ih fun b hb => h b (List.mem_cons_of_mem _ hb)
    exact ⟨a :: as, by simp [ha, has]⟩

theorem ne_error_of_map_ok {ε : Type} {g : β → Except ε α} {bs : List β} {as : List α}
    (h : bs.map g = as.map .ok) (e : ε) : ∀ b ∈ bs, g b ≠ .error e := by
  intro b hb hg
  have hmem : g b ∈ as.map .ok := h ▸ List.mem_map_of_mem hb
  obtain ⟨a, -, ha⟩ := List.mem_map.mp hmem
  exact absurd (ha.trans hg) nofun

theorem eq_or_of_pairwise {R : α → α → Prop} {as : List α} (h : as.Pairwise R) {a b : α}
    (ha : a ∈ as) (hb : b ∈ as) : a = b ∨ R a b ∨ R b a := by
  obtain ⟨i, hi, rfl⟩ := List.mem_iff_getElem.mp ha
  obtain ⟨j, hj, rfl⟩ := List.mem_iff_getElem.mp hb
  rcases Nat.lt_trichotomy i j with hij | rfl | hij
  · exact .inr (.inl (List.pairwise_iff_getElem.mp h i j hi hj hij))
  · exact .inl rfl
  · exact .inr (.inr (List.pairwise_iff_getElem.mp h j i hj hi hij))

/-! ### In one go -/

/-- The programs run one after another, each from where the one before stopped; those behind one
that halts do not start. -/
def relay (p : Provider π) (f : β → Program σ α) : List β → Moment π σ → List (Leg π σ β)
  | [], _ => []
  | b :: rest, w =>
    ⟨b, w⟩ :: match ((f b).runFrom p w).result with
      | .ok _ => relay p f rest ((f b).runFrom p w).moment
      | .error _ => []

/-- Where a list of legs that starts at `w` ends. -/
def finish (p : Provider π) (f : β → Program σ α) (legs : List (Leg π σ β))
    (w : Moment π σ) : Moment π σ :=
  legs.foldl (fun _ l => (legOutcome p f l).moment) w

section
variable (p : Provider π) (f : β → Program σ α)

theorem relay_cons_ok {b : β} {rest : List β} {w : Moment π σ} {a : α}
    (h : ((f b).runFrom p w).result = .ok a) :
    relay p f (b :: rest) w = ⟨b, w⟩ :: relay p f rest ((f b).runFrom p w).moment := by
  rw [relay, h]

theorem relay_cons_error {b : β} {rest : List β} {w : Moment π σ} {e : ClockFault}
    (h : ((f b).runFrom p w).result = .error e) : relay p f (b :: rest) w = [⟨b, w⟩] := by
  rw [relay, h]

theorem relay_singleton (b : β) (w : Moment π σ) : relay p f [b] w = [⟨b, w⟩] := by
  cases h : ((f b).runFrom p w).result with
  | error e => exact relay_cons_error p f h
  | ok a => exact relay_cons_ok p f h

theorem relay_map {γ : Type} (k : γ → β) (cs : List γ) (w : Moment π σ) :
    relay p f (cs.map k) w =
      (relay p (fun c => f (k c)) cs w).map fun l => ⟨k l.item, l.start⟩ := by
  induction cs generalizing w with
  | nil => rfl
  | cons c rest ih =>
    cases h : ((f (k c)).runFrom p w).result with
    | error e =>
      rw [List.map_cons, relay_cons_error p f h, relay_cons_error p (fun c => f (k c)) h]
      rfl
    | ok a =>
      rw [List.map_cons, relay_cons_ok p f h, relay_cons_ok p (fun c => f (k c)) h, ih]
      rfl

/-- Running a program per item leaves what its legs leave. -/
theorem runFrom_each (bs : List β) (w : Moment π σ) :
    ((each f bs).runFrom p w).trace = (relay p f bs w).flatMap (fun l => (legOutcome p f l).trace) ∧
      ((each f bs).runFrom p w).moment = finish p f (relay p f bs w) w ∧
      ((each f bs).runFrom p w).result =
        (relay p f bs w).mapM fun l => (legOutcome p f l).result := by
  induction bs generalizing w with
  | nil => exact ⟨rfl, rfl, rfl⟩
  | cons b rest ih =>
    obtain ⟨htrace, hmoment, hresult⟩ := ih ((f b).runFrom p w).moment
    cases h : ((f b).runFrom p w).result with
    | error e =>
      rw [each, runFrom_bind_error h, relay_cons_error p f h]
      refine ⟨by simp [legOutcome], rfl, ?_⟩
      simp [legOutcome, h, bind, Except.bind]
    | ok a =>
      rw [each, runFrom_bind_ok h, relay_cons_ok p f h, List.flatMap_cons, List.mapM_cons]
      change _ ∧ _ = finish p f _ ((f b).runFrom p w).moment ∧
        _ = (((f b).runFrom p w).result >>= _)
      cases hr : ((each f rest).runFrom p ((f b).runFrom p w).moment).result with
      | error e =>
        rw [runFrom_bind_error hr, h, ← hresult, hr]
        exact ⟨congrArg _ htrace, hmoment, rfl⟩
      | ok as =>
        rw [runFrom_bind_ok hr, h, ← hresult, hr]
        refine ⟨?_, hmoment, rfl⟩
        simp [htrace, legOutcome]

/-- Programs that change nothing where they start all start there. -/
theorem runFrom_each_of_stay {g : β → α} {bs : List β} {w : Moment π σ}
    (h : ∀ b ∈ bs, (f b).runFrom p w = stay w (g b)) :
    (each f bs).runFrom p w = stay w (bs.map g) := by
  induction bs with
  | nil => rfl
  | cons b rest ih =>
    have hb := h b List.mem_cons_self
    have hrest := ih fun c hc => h c (List.mem_cons_of_mem b hc)
    rw [each, runFrom_bind_ok (congrArg Outcome.result hb), hb, stay_moment,
      runFrom_bind_ok (congrArg Outcome.result hrest), hrest]
    rfl

theorem item_mem_of_mem_relay {bs : List β} {w : Moment π σ} {l : Leg π σ β}
    (hl : l ∈ relay p f bs w) : l.item ∈ bs := by
  induction bs generalizing w with
  | nil => exact absurd hl List.not_mem_nil
  | cons b rest ih =>
    rw [relay] at hl
    rcases List.mem_cons.mp hl with rfl | hl
    · exact List.mem_cons_self
    · split at hl
      · exact List.mem_cons_of_mem _ (ih hl)
      · exact absurd hl List.not_mem_nil

/-- Only the last leg can halt. -/
theorem relay_pairwise_ok (bs : List β) (w : Moment π σ) :
    (relay p f bs w).Pairwise fun a _ => ∃ x, (legOutcome p f a).result = .ok x := by
  induction bs generalizing w with
  | nil => exact List.Pairwise.nil
  | cons b rest ih =>
    cases h : ((f b).runFrom p w).result with
    | error e =>
      rw [relay_cons_error p f h]
      exact List.pairwise_singleton ..
    | ok a =>
      rw [relay_cons_ok p f h]
      exact List.Pairwise.cons (fun _ _ => ⟨a, h⟩) (ih _)

/-- Without a halt every program has its leg. -/
theorem relay_items {bs : List β} {w : Moment π σ}
    (h : ∀ l ∈ relay p f bs w, ∃ a, (legOutcome p f l).result = .ok a) :
    (relay p f bs w).map (·.item) = bs := by
  induction bs generalizing w with
  | nil => rfl
  | cons b rest ih =>
    obtain ⟨a, ha⟩ := h ⟨b, w⟩ (by rw [relay]; exact List.mem_cons_self)
    have ha' : ((f b).runFrom p w).result = .ok a := ha
    rw [relay_cons_ok p f ha'] at h ⊢
    simp [ih fun l hl => h l (List.mem_cons_of_mem _ hl)]

end

/-! ### Sessions -/

/-- One operation of a session. Before it starts some time passes, the provider may change in any
way, and the wall clock may be set. -/
structure Turn (π β : Type) where
  op : β
  pause : Nat
  wall : Timestamp
  memory : π

/-- The operations of a session. One that halts leaves its state to the next. -/
def play (p : Provider π) (f : β → Program σ α) : Nat → σ → List (Turn π β) → List (Leg π σ β)
  | _, _, [] => []
  | now, s, t :: rest =>
    let w : Moment π σ := ⟨t.memory, ⟨now + t.pause, t.wall⟩, s⟩
    let o := (f t.op).runFrom p w
    ⟨t.op, w⟩ :: play p f o.clock.now o.state rest

/-- The reading of the clock and the state at the end of a session. -/
def ending (p : Provider π) (f : β → Program σ α) : Nat → σ → List (Turn π β) → Nat × σ
  | now, s, [] => (now, s)
  | now, s, t :: rest =>
    let o := (f t.op).runFrom p ⟨t.memory, ⟨now + t.pause, t.wall⟩, s⟩
    ending p f o.clock.now o.state rest

section
variable (p : Provider π) (f : β → Program σ α)

theorem ending_append (now : Nat) (s : σ) (turns more : List (Turn π β)) :
    ending p f now s (turns ++ more) =
      ending p f (ending p f now s turns).1 (ending p f now s turns).2 more := by
  induction turns generalizing now s with
  | nil => rfl
  | cons t rest ih => exact ih _ _

theorem play_items (now : Nat) (s : σ) (turns : List (Turn π β)) :
    (play p f now s turns).map (·.item) = turns.map (·.op) := by
  induction turns generalizing now s with
  | nil => rfl
  | cons t rest ih => exact congrArg (t.op :: ·) (ih _ _)

/-- What every operation keeps is kept by a session. -/
theorem ending_keeps {I : σ → Prop} (hI : ∀ b w, I w.state → I ((f b).runFrom p w).state)
    (now : Nat) (s : σ) (turns : List (Turn π β)) (hs : I s) : I (ending p f now s turns).2 := by
  induction turns generalizing now s with
  | nil => exact hs
  | cons t rest ih => exact ih _ _ (hI t.op _ hs)

theorem play_start_keeps {I : σ → Prop} (hI : ∀ b w, I w.state → I ((f b).runFrom p w).state)
    (now : Nat) (s : σ) (turns : List (Turn π β)) (hs : I s) :
    ∀ l ∈ play p f now s turns, I l.start.state := by
  induction turns generalizing now s with
  | nil => exact fun l hl => absurd hl List.not_mem_nil
  | cons t rest ih =>
    intro l hl
    rcases List.mem_cons.mp hl with rfl | hl
    · exact hs
    · exact ih _ _ (hI t.op _ hs) l hl

/-- What an operation brings about and all of them keep is there when any later one starts. -/
theorem play_pairwise {I : σ → Prop} (hI : ∀ b w, I w.state → I ((f b).runFrom p w).state)
    (now : Nat) (s : σ) (turns : List (Turn π β)) :
    (play p f now s turns).Pairwise fun a b => I (legOutcome p f a).state → I b.start.state := by
  induction turns generalizing now s with
  | nil => exact List.Pairwise.nil
  | cons t rest ih =>
    refine List.Pairwise.cons (fun b hb hstate => ?_) (ih _ _)
    exact play_start_keeps p f hI _ _ rest hstate b hb

end

end Program
end PeakUsage
