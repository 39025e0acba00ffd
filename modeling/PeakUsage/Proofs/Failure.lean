import Mathlib.Algebra.Group.Nat.Defs
import Mathlib.Logic.Basic
import PeakUsage.Failure
import PeakUsage.Proofs.BrokerKeys

/-! When a failure says that the credentials were rejected: what its text says of it, and what the
failures say that were joined into it. -/
namespace PeakUsage

/-! ### Parts of texts -/

/-- One number stands at the beginning of another. -/
theorem Text.decimal_prefix_iff {m : Nat} (hm : 0 < m) (n : Nat) :
    (Text.decimal m).toList <+: (Text.decimal n).toList ↔ ∃ k, n / 10 ^ k = m := by
  have hinj : ∀ {a b : Nat}, Nat.toDigits 10 a = Nat.toDigits 10 b → a = b :=
    fun h => Text.decimal_injective (congrArg String.ofList h)
  rw [Text.decimal, Text.decimal, String.toList_ofList, String.toList_ofList]
  induction n using Nat.strongRecOn with
  | ind n ih =>
    by_cases hn : n < 10
    · constructor
      · intro h
        refine ⟨0, ?_⟩
        rw [Nat.toDigits_of_lt_base hn, List.prefix_cons_iff] at h
        rcases h with h | ⟨t, ht, htail⟩
        · exact absurd h Nat.toDigits_ne_nil
        · obtain rfl := List.prefix_nil.mp htail
          have hdigits := ht.trans (Nat.toDigits_of_lt_base hn).symm
          rw [hinj hdigits]
          simp
      · rintro ⟨k, hk⟩
        cases k with
        | zero => rw [← hk]; simp
        | succ k =>
          have hlt : n < 10 ^ (k + 1) := Nat.lt_of_lt_of_le hn (Nat.le_pow k.succ_pos)
          rw [Nat.div_eq_of_lt hlt] at hk
          omega
    · have hlt : n / 10 < n := by omega
      have hlast := Nat.toDigits_of_base_le (b := 10) (by decide) (Nat.not_lt.mp hn)
      rw [hlast, List.prefix_concat_iff, ← hlast]
      constructor
      · rintro (h | h)
        · exact ⟨0, by rw [hinj h]; simp⟩
        · obtain ⟨k, hk⟩ := (ih _ hlt).mp h
          exact ⟨k + 1, by rw [Nat.pow_succ', ← Nat.div_div_eq_div_mul, hk]⟩
      · rintro ⟨k, hk⟩
        cases k with
        | zero => exact .inl (by rw [← hk]; simp)
        | succ k =>
          refine .inr ((ih _ hlt).mpr ⟨k, ?_⟩)
          rw [Nat.div_div_eq_div_mul, ← Nat.pow_succ', hk]

/-- A part does not begin where its first character does not stand. -/
theorem Text.infix_append_iff_of_notMem {c : Char} {p a b : List Char} (h : c ∉ a) :
    c :: p <:+: a ++ b ↔ c :: p <:+: b := by
  induction a with
  | nil => rfl
  | cons x a ih =>
    rw [List.mem_cons, not_or] at h
    obtain ⟨hne, ha⟩ := h
    have hhead : ¬ c :: p <+: x :: (a ++ b) := fun hp => hne (List.cons_prefix_cons.mp hp).1
    rw [List.cons_append, List.infix_cons_iff, ih ha]
    exact ⟨fun hp => hp.resolve_left hhead, .inr⟩

/-- A prefix without the character that ends the first part lies within it. -/
theorem Text.prefix_append_cons_iff {c : Char} {p a b : List Char} (h : c ∉ p) :
    p <+: a ++ c :: b ↔ p <+: a := by
  induction a generalizing p with
  | nil =>
    rw [List.nil_append, List.prefix_cons_iff, List.prefix_nil]
    refine ⟨fun hp => hp.resolve_right ?_, .inl⟩
    rintro ⟨t, rfl, -⟩
    exact h List.mem_cons_self
  | cons x a ih =>
    cases p with
    | nil => simp
    | cons y p =>
      have hp : c ∉ p := fun hc => h (List.mem_cons_of_mem y hc)
      rw [List.cons_append, List.cons_prefix_cons, List.cons_prefix_cons, ih hp]

theorem Text.infix_append_self (s t : String) : t.toList <:+: (s ++ t).toList := by
  rw [String.toList_append]
  exact (List.suffix_append _ _).isInfix

theorem Text.infix_intercalate {sep s : List Char} {texts : List (List Char)} (h : s ∈ texts) :
    s <:+: sep.intercalate texts := by
  induction texts with
  | nil => exact absurd h List.not_mem_nil
  | cons t rest ih =>
    cases rest with
    | nil =>
      obtain rfl := List.mem_singleton.mp h
      simp
    | cons u rest =>
      rw [List.intercalate_cons_cons]
      rcases List.mem_cons.mp h with rfl | h
      · exact ⟨[], sep ++ sep.intercalate (u :: rest), by simp⟩
      · exact (ih h).trans (List.suffix_append _ _).isInfix

namespace Refusal

/-! ### Errors that are a text only -/

/-- The error of a provider that reports no status. -/
def ofText (s : String) : Refusal := ⟨none, s⟩

theorem isUnauthorized_ofText {s : String} : (ofText s).isUnauthorized = true ↔
    Text.contains s "StatusCode: 401" = true ∨ Text.contains s "StatusCode: 403" = true := by
  simp [ofText, isUnauthorized, unauthorizedMarkers]

/-- A text says no less than its parts. -/
theorem isUnauthorized_ofText_of_infix {s t : String} (hst : s.toList <:+: t.toList)
    (h : (ofText s).isUnauthorized = true) : (ofText t).isUnauthorized = true := by
  rw [isUnauthorized_ofText, Text.contains_iff, Text.contains_iff] at h ⊢
  exact h.imp (·.trans hst) (·.trans hst)

theorem isUnauthorized_iff {r : Refusal} : r.isUnauthorized = true ↔
    (r.status = some 401 ∨ r.status = some 403) ∨ (ofText r.message).isUnauthorized = true := by
  simp [isUnauthorized, ofText, or_assoc]

/-- What marks a status in a text stands in the text of an error where its own status begins that
way, or else in its message: none begins between the two. -/
theorem contains_text_iff {code : Nat} (hcode : 0 < code) (status : Nat) (message : String) :
    Text.contains (text ⟨some status, message⟩) ("StatusCode: " ++ Text.decimal code) = true ↔
      (∃ k, status / 10 ^ k = code) ∨
        Text.contains message ("StatusCode: " ++ Text.decimal code) = true := by
  have hcomma : ',' ∉ (Text.decimal code).toList := Text.notMem_decimal rfl code
  have hstart : 'S' ∉ "tatusCode: ".toList ++ (Text.decimal status).toList ++ ", ".toList := by
    intro hc
    rcases List.mem_append.mp hc with hc | hc
    · rcases List.mem_append.mp hc with hc | hc
      · exact absurd hc (by decide)
      · exact Text.notMem_decimal rfl status hc
    · exact absurd hc (by decide)
  have htext : (text ⟨some status, message⟩).toList =
      "StatusCode: ".toList ++ ((Text.decimal status).toList ++ ',' :: ' ' :: message.toList) := by
    simp [text]
  have hsplit : "tatusCode: ".toList ++ ((Text.decimal status).toList ++ ',' :: ' ' ::
      message.toList) = "tatusCode: ".toList ++ (Text.decimal status).toList ++ ", ".toList ++
        message.toList := by
    simp
  rw [Text.contains_iff, Text.contains_iff, htext, String.toList_append]
  change 'S' :: ("tatusCode: ".toList ++ (Text.decimal code).toList) <:+:
    'S' :: ("tatusCode: ".toList ++ _) ↔ _
  rw [List.infix_cons_iff, List.cons_prefix_cons, List.prefix_append_right_inj,
    Text.prefix_append_cons_iff hcomma, Text.decimal_prefix_iff hcode, hsplit,
    Text.infix_append_iff_of_notMem hstart]
  exact or_congr (and_iff_right rfl) Iff.rfl

/-- A status of more than three digits of which the first are those of a status for rejected
credentials. -/
def Prolonged (status : Nat) : Prop :=
  ∃ k, 0 < k ∧ (status / 10 ^ k = 401 ∨ status / 10 ^ k = 403)

theorem isUnauthorized_ofText_text (status : Nat) (message : String) :
    (ofText (text ⟨some status, message⟩)).isUnauthorized = true ↔
      isUnauthorized ⟨some status, message⟩ = true ∨ Prolonged status := by
  have h401 := contains_text_iff (Nat.succ_pos 400) status message
  have h403 := contains_text_iff (Nat.succ_pos 402) status message
  have hexact : ∀ code, (∃ k, status / 10 ^ k = code) ↔
      status = code ∨ ∃ k, 0 < k ∧ status / 10 ^ k = code := by
    intro code
    constructor
    · rintro ⟨k, hk⟩
      cases k with
      | zero => exact .inl (by simpa using hk)
      | succ k => exact .inr ⟨k + 1, k.succ_pos, hk⟩
    · rintro (rfl | ⟨k, -, hk⟩)
      · exact ⟨0, by simp⟩
      · exact ⟨k, hk⟩
  have hmark401 : "StatusCode: " ++ Text.decimal 401 = "StatusCode: 401" := rfl
  have hmark403 : "StatusCode: " ++ Text.decimal 403 = "StatusCode: 403" := rfl
  rw [hmark401, hexact] at h401
  rw [hmark403, hexact] at h403
  rw [isUnauthorized_ofText, isUnauthorized_iff, isUnauthorized_ofText, h401, h403]
  simp only [Prolonged, Option.some.injEq, and_or_left, exists_or]
  rw [or_or_or_comm, or_or_or_comm (a := status = 401), or_right_comm]

/-- An error and the one that is left when only its text is passed on say the same of the
credentials, unless the digits of a status for rejected ones are followed by others in the status
of the first. -/
theorem isUnauthorized_ofText_text_eq_iff (r : Refusal) :
    (ofText r.text).isUnauthorized = r.isUnauthorized ↔
      r.isUnauthorized = true ∨ ¬ ∃ status, r.status = some status ∧ Prolonged status := by
  obtain ⟨status, message⟩ := r
  cases status with
  | none => exact ⟨fun _ => .inr nofun, fun _ => rfl⟩
  | some status =>
    rw [Bool.eq_iff_iff, isUnauthorized_ofText_text, or_iff_left_iff_imp, imp_iff_or_not]
    simp only [Option.some.injEq, exists_eq_left']

/-- A status of four digits is taken for rejected credentials when only the text is left. -/
theorem misread_status_4010 :
    isUnauthorized ⟨some 4010, "busy"⟩ = false ∧
      (ofText (text ⟨some 4010, "busy"⟩)).isUnauthorized = true := by
  decide

end Refusal

namespace Failure

/-! ### Joined failures -/

mutual

/-- The failures that a failure was put together from and that are not put together themselves. -/
def leaves : Failure → List Failure
  | .listing family cause => [.listing family cause]
  | .metric key name cause => [.metric key name cause]
  | .brokers _ _ _ failures => allLeaves failures
  | .unsupported figure engine => [.unsupported figure engine]
  | .disabled => [.disabled]

def allLeaves : List Failure → List Failure
  | [] => []
  | e :: rest => leaves e ++ allLeaves rest

end

theorem allLeaves_eq_flatMap (es : List Failure) : allLeaves es = es.flatMap leaves := by
  induction es with
  | nil => simp [allLeaves]
  | cons e es ih => simp [allLeaves, ih]

/-- One case for each way a failure comes about; a joined one has what all its parts have. -/
structure Cases (motive : Failure → Prop) : Prop where
  listing : ∀ family cause, motive (.listing family cause)
  metric : ∀ key name cause, motive (.metric key name cause)
  brokers : ∀ cluster brokerCount peak failures, (∀ e ∈ failures, motive e) →
    motive (.brokers cluster brokerCount peak failures)
  unsupported : ∀ figure engine, motive (.unsupported figure engine)
  disabled : motive .disabled

mutual

theorem Cases.all {motive : Failure → Prop} (cases : Cases motive) : ∀ e : Failure, motive e
  | .listing family cause => cases.listing family cause
  | .metric key name cause => cases.metric key name cause
  | .brokers cluster brokerCount peak failures =>
    cases.brokers cluster brokerCount peak failures (cases.allOf failures)
  | .unsupported figure engine => cases.unsupported figure engine
  | .disabled => cases.disabled

theorem Cases.allOf {motive : Failure → Prop} (cases : Cases motive) :
    ∀ es : List Failure, ∀ e ∈ es, motive e
  | [] => fun _ he => absurd he List.not_mem_nil
  | first :: rest => List.forall_mem_cons.mpr ⟨cases.all first, cases.allOf rest⟩

end

/-- The provider's error behind a failure says that the credentials were rejected. -/
def IsRejection (e : Failure) : Prop := ∃ cause, e.cause? = some cause ∧ cause.isUnauthorized = true

theorem isAuth_iff_leaf (e : Failure) : e.isAuth = true ↔ ∃ leaf ∈ e.leaves, leaf.IsRejection := by
  refine Cases.all (motive := fun e => e.isAuth = true ↔ ∃ leaf ∈ e.leaves, leaf.IsRejection) ?_ e
  constructor
  case listing => simp [isAuth, leaves, IsRejection, cause?]
  case metric => simp [isAuth, leaves, IsRejection, cause?]
  case unsupported => simp [isAuth, leaves, IsRejection, cause?]
  case disabled => simp [isAuth, leaves, IsRejection, cause?]
  case brokers =>
    intro cluster brokerCount peak failures ih
    rw [isAuth, anyAuth_eq_any, List.any_eq_true, leaves, allLeaves_eq_flatMap]
    constructor
    · rintro ⟨e, he, hauth⟩
      obtain ⟨leaf, hleaf, hrejection⟩ := (ih e he).mp hauth
      exact ⟨leaf, List.mem_flatMap.mpr ⟨e, he, hleaf⟩, hrejection⟩
    · rintro ⟨leaf, hleaf, hrejection⟩
      obtain ⟨e, he, hleaf⟩ := List.mem_flatMap.mp hleaf
      exact ⟨e, he, (ih e he).mpr ⟨leaf, hleaf, hrejection⟩⟩

/-- The text of a failure has the texts of all that was joined into it. -/
theorem text_infix_of_mem_leaves (e : Failure) :
    ∀ leaf ∈ e.leaves, leaf.text.toList <:+: e.text.toList := by
  refine Cases.all
    (motive := fun e => ∀ leaf ∈ e.leaves, leaf.text.toList <:+: e.text.toList) ?_ e
  constructor
  case listing => simp [leaves]
  case metric => simp [leaves]
  case unsupported => simp [leaves]
  case disabled => simp [leaves]
  case brokers =>
    intro cluster brokerCount peak failures ih leaf hleaf
    rw [leaves, allLeaves_eq_flatMap] at hleaf
    obtain ⟨e, he, hleaf⟩ := List.mem_flatMap.mp hleaf
    have hjoined : e.text.toList <:+: ("; ".intercalate (texts failures)).toList := by
      rw [texts_eq_map, String.toList_intercalate, List.map_map]
      exact Text.infix_intercalate (List.mem_map.mpr ⟨e, he, rfl⟩)
    exact (ih e he leaf hleaf).trans (hjoined.trans (Text.infix_append_self _ _))

theorem isUnauthorized_ofText_of_isRejection {e : Failure} (h : e.IsRejection) :
    (Refusal.ofText e.text).isUnauthorized = true := by
  obtain ⟨⟨status, message⟩, hcause, hunauthorized⟩ := h
  have htext : (Refusal.ofText (Refusal.text ⟨status, message⟩)).isUnauthorized = true := by
    cases status with
    | none => exact hunauthorized
    | some status =>
      exact (Refusal.isUnauthorized_ofText_text status message).mpr (.inl hunauthorized)
  refine Refusal.isUnauthorized_ofText_of_infix ?_ htext
  -- the text of a failed call ends in that of the provider's error
  unfold cause? at hcause
  split at hcause
  · obtain rfl := Option.some.inj hcause
    exact Text.infix_append_self _ _
  · obtain rfl := Option.some.inj hcause
    exact Text.infix_append_self _ _
  · exact absurd hcause nofun

/-- A failure tells of rejected credentials exactly if one of those joined into it does, however
deep, and then its text tells so, too. In which order and in which groups they were joined makes no
difference. -/
theorem isAuth_of_leaves (e : Failure) :
    (e.isAuth = true ↔ ∃ leaf ∈ e.leaves, leaf.IsRejection) ∧
      (e.isAuth = true → Text.contains e.text "StatusCode: 401" = true ∨
        Text.contains e.text "StatusCode: 403" = true) ∧
      ∀ other : Failure, e.leaves.Perm other.leaves → e.isAuth = other.isAuth := by
  refine ⟨isAuth_iff_leaf e, fun hauth => ?_, fun other hperm => ?_⟩
  · obtain ⟨leaf, hleaf, hrejection⟩ := (isAuth_iff_leaf e).mp hauth
    have hshown := isUnauthorized_ofText_of_isRejection hrejection
    exact Refusal.isUnauthorized_ofText.mp
      (Refusal.isUnauthorized_ofText_of_infix (text_infix_of_mem_leaves e leaf hleaf) hshown)
  · rw [Bool.eq_iff_iff, isAuth_iff_leaf, isAuth_iff_leaf]
    exact exists_congr fun leaf => and_congr_left fun _ => hperm.mem_iff

/-! ### A rejection two levels deep -/

def busyBroker : Failure := .metric "events-1" "CpuSystem" ⟨some 503, "busy"⟩

def deniedBroker : Failure := .metric "orders-2" "CpuUser" ⟨some 403, "denied"⟩

def deniedInside : Failure :=
  .brokers "events" 3 8.0 [busyBroker, .brokers "orders" 2 0.0 [.disabled, deniedBroker]]

def deniedFirst : Failure :=
  .brokers "events" 3 8.0 [.brokers "orders" 2 0.0 [deniedBroker], busyBroker, .disabled]

theorem isAuth_of_leaves_regrouped :
    deniedInside.isAuth = true ∧
      (Text.contains deniedInside.text "StatusCode: 401" = true ∨
        Text.contains deniedInside.text "StatusCode: 403" = true) ∧
      deniedInside.leaves.Perm deniedFirst.leaves ∧ deniedInside.isAuth = deniedFirst.isAuth := by
  have hauth : deniedInside.isAuth = true := by decide
  have hperm : deniedInside.leaves.Perm deniedFirst.leaves :=
    @List.perm_append_comm _ [busyBroker, .disabled] [deniedBroker]
  obtain ⟨-, htext, hregroup⟩ := isAuth_of_leaves deniedInside
  exact ⟨hauth, htext hauth, hperm, hregroup deniedFirst hperm⟩

end Failure
end PeakUsage
