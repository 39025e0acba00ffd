import PeakUsage.Proofs.Runs

/-! Runs that make no call once the credentials have been rejected, and programs that see to this
by themselves. -/
namespace PeakUsage.Program

/-! ### What happens in a run -/

namespace Happening

def isCall : Happening → Bool
  | asked _ => true
  | answered _ _ => false
  | logged _ => false

def isLog : Happening → Bool
  | asked _ => false
  | answered _ _ => false
  | logged _ => true

/-- Whether an answer arrives that rejects the credentials. -/
def isRejection : Happening → Bool
  | asked _ => false
  | answered _ reply => Reply.isUnauthorized reply
  | logged _ => false

end Happening

/-- No call is made after the credentials have been rejected. -/
def Quiet (trace : List Happening) : Prop :=
  trace.Pairwise fun g h => g.isRejection = true → h.isCall = false

instance (trace : List Happening) : Decidable (Quiet trace) :=
  inferInstanceAs (Decidable (trace.Pairwise _))

/-- The credentials are rejected at some point. -/
def Rejected (trace : List Happening) : Prop := ∃ g ∈ trace, g.isRejection = true

def Silent (trace : List Happening) : Prop := ∀ g ∈ trace, g.isCall = false

/-- The calls and the answers to them. -/
def exchanges (trace : List Happening) : List Happening := trace.filter fun g => !g.isLog

section
variable {a b : List Happening} {g : Happening}

@[simp] theorem quiet_nil : Quiet [] := List.Pairwise.nil

@[simp] theorem not_rejected_nil : ¬ Rejected [] := by simp [Rejected]

@[simp] theorem silent_nil : Silent [] := by simp [Silent]

@[simp] theorem quiet_cons :
    Quiet (g :: a) ↔ (g.isRejection = true → Silent a) ∧ Quiet a := by
  rw [Quiet, List.pairwise_cons]
  exact and_congr_left fun _ => ⟨fun h hg x hx => h x hx hg, fun h x hx hg => h hg x hx⟩

@[simp] theorem rejected_cons :
    Rejected (g :: a) ↔ g.isRejection = true ∨ Rejected a := by
  simp [Rejected]

@[simp] theorem silent_cons : Silent (g :: a) ↔ g.isCall = false ∧ Silent a := by
  simp [Silent]

theorem quiet_append :
    Quiet (a ++ b) ↔ Quiet a ∧ Quiet b ∧ (Rejected a → Silent b) := by
  rw [Quiet, List.pairwise_append]
  refine and_congr_right fun _ => and_congr_right fun _ => ⟨?_, ?_⟩
  · rintro h ⟨g, hg, hrejected⟩ x hx
    exact h g hg x hx hrejected
  · intro h g hg x hx hrejected
    exact h ⟨g, hg, hrejected⟩ x hx

theorem rejected_append : Rejected (a ++ b) ↔ Rejected a ∨ Rejected b := by
  simp only [Rejected, List.mem_append, or_and_right, exists_or]

theorem silent_append : Silent (a ++ b) ↔ Silent a ∧ Silent b := by
  simp only [Silent, List.mem_append, or_imp, forall_and]

theorem Silent.quiet (h : Silent a) : Quiet a :=
  List.Pairwise.imp_of_mem (fun _ hb _ _ => h _ hb) (List.pairwise_of_forall fun _ _ => trivial)

theorem exchanges_append : exchanges (a ++ b) = exchanges a ++ exchanges b :=
  List.filter_append ..

/-- The log has no part in the order of calls and rejections. -/
theorem exchanges_iff :
    (Silent (exchanges a) ↔ Silent a) ∧ (Rejected (exchanges a) ↔ Rejected a) ∧
      (Quiet (exchanges a) ↔ Quiet a) := by
  induction a with
  | nil => simp [exchanges]
  | cons g a ih =>
    obtain ⟨hsilent, hrejected, hquiet⟩ := ih
    cases g <;> simp_all [exchanges, Happening.isLog, Happening.isCall, Happening.isRejection]

theorem silent_exchanges : Silent (exchanges a) ↔ Silent a := exchanges_iff.1

theorem rejected_exchanges : Rejected (exchanges a) ↔ Rejected a := exchanges_iff.2.1

theorem quiet_exchanges : Quiet (exchanges a) ↔ Quiet a := exchanges_iff.2.2

end

/-! ### Programs -/

variable {π σ τ α β : Type}

/-- A result that says that the credentials were rejected. -/
def SaysRejected : Except Failure α → Prop
  | .ok _ => False
  | .error e => e.isAuth = true

theorem SaysRejected.exists_error {x : Except Failure α} (h : SaysRejected x) :
    ∃ e, x = .error e ∧ e.isAuth = true := by
  cases x with
  | ok a => exact h.elim
  | error e => exact ⟨e, rfl, h⟩

/-- Makes no call, and ends with a result of a certain kind. -/
def Finishes (S : α → Prop) : Program σ α → Prop
  | done a => S a
  | halt _ => False
  | look k => ∀ c s, (k c s).Finishes S
  | save _ k => k.Finishes S
  | log _ k => k.Finishes S
  | ask _ _ => False

/-- From the first rejection on it makes no call, and ends with a result of a certain kind. -/
def Heeds (S : α → Prop) : Program σ α → Prop
  | done _ => True
  | halt _ => True
  | look k => ∀ c s, (k c s).Heeds S
  | save _ k => k.Heeds S
  | log _ k => k.Heeds S
  | ask _ k => ∀ x, (k x).Heeds S ∧ (Reply.isUnauthorized x = true → (k x).Finishes S)

section
variable {S : α → Prop} {T : β → Prop} {q : Program σ α} {f : α → Program σ β}

theorem Finishes.bind (hq : q.Finishes S) (hf : ∀ a, S a → (f a).Finishes T) :
    (q >>= f).Finishes T := by
  change (q.bind f).Finishes T
  induction q with
  | done a => exact hf a hq
  | halt e => exact hq.elim
  | look k ih => exact fun c s => ih c s (hq c s)
  | save s k ih => exact ih hq
  | log e k ih => exact ih hq
  | ask r k ih => exact hq.elim

theorem Heeds.bind (hq : q.Heeds S) (hf : ∀ a, (f a).Heeds T)
    (hS : ∀ a, S a → (f a).Finishes T) : (q >>= f).Heeds T := by
  change (q.bind f).Heeds T
  induction q with
  | done a => exact hf a
  | halt e => exact trivial
  | look k ih => exact fun c s => ih c s (hq c s)
  | save s k ih => exact ih hq
  | log e k ih => exact ih hq
  | ask r k ih => exact fun x => ⟨ih x (hq x).1, fun hx => ((hq x).2 hx).bind hS⟩

/-- Failures are passed on. -/
theorem Heeds.bind_ok {q : Program σ (Except Failure α)}
    {f : Except Failure α → Program σ (Except Failure β)} (hq : q.Heeds SaysRejected)
    (hok : ∀ a, (f (.ok a)).Heeds SaysRejected) (herror : ∀ e, f (.error e) = pure (.error e)) :
    (q >>= f).Heeds SaysRejected := by
  refine hq.bind (fun x => ?_) fun x hx => ?_
  · cases x with
    | ok a => exact hok a
    | error e =>
      rw [herror]
      exact trivial
  · obtain ⟨e, rfl, hauth⟩ := hx.exists_error
    rw [herror]
    exact hauth

/-- A run of such a program makes no call and has such a result. -/
theorem Finishes.runFrom (hq : q.Finishes S) (p : Provider π) (w : Moment π σ) :
    Silent (q.runFrom p w).trace ∧ ∃ a, (q.runFrom p w).result = .ok a ∧ S a := by
  induction q generalizing w with
  | done a => exact ⟨silent_nil, a, rfl, hq⟩
  | halt e => exact hq.elim
  | look k ih => exact ih _ _ (hq _ _) w
  | save s k ih => exact ih hq { w with state := s }
  | log e k ih =>
    obtain ⟨hsilent, hresult⟩ := ih hq w
    exact ⟨silent_cons.mpr ⟨rfl, hsilent⟩, hresult⟩
  | ask r k ih => exact hq.elim

/-- A run of a heeding program makes no call after a rejection, and shows that there was one. -/
theorem Heeds.runFrom (hq : q.Heeds S) (p : Provider π) (w : Moment π σ) :
    Quiet (q.runFrom p w).trace ∧
      (Rejected (q.runFrom p w).trace → ∃ a, (q.runFrom p w).result = .ok a ∧ S a) := by
  induction q generalizing w with
  | done a => exact ⟨quiet_nil, fun h => absurd h not_rejected_nil⟩
  | halt e => exact ⟨quiet_nil, fun h => absurd h not_rejected_nil⟩
  | look k ih => exact ih _ _ (hq _ _) w
  | save s k ih => exact ih hq { w with state := s }
  | log e k ih =>
    obtain ⟨hquiet, hresult⟩ := ih hq w
    rw [runFrom_log]
    refine ⟨quiet_cons.mpr ⟨nofun, hquiet⟩, fun h => hresult ?_⟩
    exact (rejected_cons.mp h).resolve_left nofun
  | ask r k ih =>
    obtain ⟨hk, hfinishes⟩ := hq (w.reply p r)
    obtain ⟨hquiet, hresult⟩ := ih _ hk (w.answered p r)
    rw [runFrom_ask]
    cases hreply : Reply.isUnauthorized (w.reply p r) with
    | true =>
      obtain ⟨hsilent, hfinished⟩ := (hfinishes hreply).runFrom p (w.answered p r)
      refine ⟨?_, fun _ => hfinished⟩
      exact quiet_cons.mpr ⟨nofun, quiet_cons.mpr ⟨fun _ => hsilent, hquiet⟩⟩
    | false =>
      have hanswer : (Happening.answered r (w.reply p r)).isRejection = false := hreply
      refine ⟨?_, fun h => hresult ?_⟩
      · exact quiet_cons.mpr ⟨nofun, quiet_cons.mpr ⟨by simp [hanswer], hquiet⟩⟩
      · have hrest := (rejected_cons.mp h).resolve_left nofun
        exact (rejected_cons.mp hrest).resolve_left (by simp [hanswer])

end

theorem Finishes.within {get : σ → τ} {put : τ → σ → σ} {S : α → Prop} {q : Program τ α}
    (hq : q.Finishes S) : (within get put q).Finishes S := by
  induction q with
  | done a => exact hq
  | halt e => exact hq
  | look k ih => exact fun c s => ih c (get s) (hq c (get s))
  | save t k ih => exact fun _ _ => ih hq
  | log e k ih => exact ih hq
  | ask r k ih => exact hq.elim

theorem Heeds.within {get : σ → τ} {put : τ → σ → σ} {S : α → Prop} {q : Program τ α}
    (hq : q.Heeds S) : (within get put q).Heeds S := by
  induction q with
  | done a => exact trivial
  | halt e => exact trivial
  | look k ih => exact fun c s => ih c (get s) (hq c (get s))
  | save t k ih => exact fun _ _ => ih hq
  | log e k ih => exact ih hq
  | ask r k ih => exact fun x => ⟨ih x (hq x).1, fun hx => ((hq x).2 hx).within⟩

end PeakUsage.Program
