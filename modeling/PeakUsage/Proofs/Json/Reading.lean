import PeakUsage.Proofs.Json.Reals
import PeakUsage.Proofs.Json.Strings

/-! Values read back from their texts. -/
namespace PeakUsage.Json
open Text

/-! ### Values throughout -/

/-- The values right inside a value. -/
def children : Json → List Json
  | .array items => items
  | .object members => members.map (·.2)
  | _ => []

/-- A property of a value and of all values inside it. -/
inductive Throughout (p : Json → Prop) : Json → Prop
  | intro {j : Json} (self : p j) (inside : ∀ k ∈ j.children, Throughout p k) : Throughout p j

theorem Throughout.self {p : Json → Prop} {j : Json} (h : Throughout p j) : p j := by
  cases h
  assumption

theorem Throughout.inside {p : Json → Prop} {j : Json} (h : Throughout p j) :
    ∀ k ∈ j.children, Throughout p k := by
  cases h
  assumption

/-- A value with no values inside it has a property throughout when it has it itself. -/
theorem Throughout.leaf {p : Json → Prop} {j : Json} (h : p j) (hleaf : j.children = []) :
    Throughout p j := by
  refine ⟨h, ?_⟩
  rw [hleaf]
  exact List.forall_mem_nil _

/-- Whether a value is written, but for the values inside it: a float that is not finite and a
garbled string are not. -/
def HasText : Json → Prop
  | .integer n => minSigned ≤ n ∧ n ≤ maxUnsigned
  | .real x => Number.isFinite x = true
  | .garbled => False
  | _ => True

/-- The values that have a text. -/
abbrev Printable : Json → Prop := Throughout HasText

/-! ### First characters -/

/-- The start of a numeral. -/
def Numeric (cs : List Char) : Prop := ∃ c rest, cs = c :: rest ∧ (isDigit c = true ∨ c = '-')

/-- The start of a value: neither white space nor the end of an array. -/
def Opens (cs : List Char) : Prop := ∃ c rest, cs = c :: rest ∧ isSpace c = false ∧ c ≠ ']'

section
variable {cs ds rest : List Char} {c : Char}

theorem skipSpace_cons (hc : isSpace c = false) : skipSpace (c :: cs) = c :: cs :=
  List.dropWhile_cons_of_neg (by rw [hc]; decide)

theorem Whole.numeric (h : Whole ds) (rest : List Char) : Numeric (ds ++ rest) := by
  cases ds with
  | nil => exact absurd rfl h.ne_nil
  | cons d ds => exact ⟨d, ds ++ rest, rfl, .inl (h.digits d List.mem_cons_self)⟩

theorem numeric_integer (n : Int) : Numeric (toString n).toList := by
  cases n with
  | ofNat m =>
    have htext : (toString (Int.ofNat m)).toList = Nat.toDigits 10 m := Nat.toList_repr
    have h := (whole_toDigits m).numeric []
    rwa [List.append_nil, ← htext] at h
  | negSucc m =>
    refine ⟨'-', Nat.toDigits 10 (m + 1), ?_, .inr rfl⟩
    change ("-" ++ (m + 1).repr).toList = _
    rw [String.toList_append, Nat.toList_repr]
    rfl

theorem numeric_real {x : Float} (h : Number.isFinite x = true) : Numeric (realText x).toList := by
  obtain ⟨ws, fs, hws, -, -, htext, -⟩ := exists_realText h
  rw [htext, Number.signText]
  split
  · exact ⟨'-', _, rfl, .inr rfl⟩
  · exact hws.numeric _

theorem isSpace_eq_false (h : isDigit c = true ∨ c = '-') : isSpace c = false := by
  rcases h with h | rfl
  · have hne {d : Char} (hd : isDigit d = false) : decide (c = d) = false :=
      decide_eq_false (ne_of_isDigit h hd)
    rw [isSpace, hne rfl, hne rfl, hne rfl, hne rfl]
    rfl
  · rfl

theorem Numeric.opens (h : Numeric cs) : Opens cs := by
  obtain ⟨c, rest, rfl, hc⟩ := h
  refine ⟨c, rest, rfl, isSpace_eq_false hc, ?_⟩
  rintro rfl
  exact absurd hc (by decide)

theorem Opens.append (h : Opens cs) (rest : List Char) : Opens (cs ++ rest) := by
  obtain ⟨c, cs', rfl, hspace, hend⟩ := h
  exact ⟨c, cs' ++ rest, rfl, hspace, hend⟩

theorem Numeric.append (h : Numeric cs) (rest : List Char) : Numeric (cs ++ rest) := by
  obtain ⟨c, cs', rfl, hc⟩ := h
  exact ⟨c, cs' ++ rest, rfl, hc⟩

theorem toList_array (items : List Json) : (text (.array items)).toList =
    '[' :: ((",".intercalate (itemTexts items)).toList ++ [']']) := by
  rw [text, String.toList_append, String.toList_append]
  rfl

theorem toList_object (members : List (String × Json)) : (text (.object members)).toList =
    '\x7b' :: ((",".intercalate (memberTexts members)).toList ++ ['\x7d']) := by
  rw [text, String.toList_append, String.toList_append]
  rfl

theorem opens_text {j : Json} (h : HasText j) : Opens (text j).toList := by
  cases j with
  | null => exact ⟨'n', _, rfl, rfl, by decide⟩
  | bool b => cases b <;> exact ⟨_, _, rfl, rfl, by decide⟩
  | integer n => exact (numeric_integer n).opens
  | real x => exact (numeric_real h).opens
  | string s => exact ⟨'"', _, toList_quoted s, rfl, by decide⟩
  | garbled => exact h.elim
  | array items => exact ⟨'[', _, toList_array items, rfl, by decide⟩
  | object members => exact ⟨'\x7b', _, toList_object members, rfl, by decide⟩

/-- What starts like a numeral is read as one. -/
theorem value?_numeric (h : Numeric cs) (fuel : Nat) : value? (fuel + 1) cs = numeral? cs := by
  obtain ⟨c, rest, rfl, hc⟩ := h
  rw [value?, skipSpace_cons (isSpace_eq_false hc)]
  split
  case h_7 => rfl
  all_goals
    rename_i heq
    obtain ⟨rfl, -⟩ := List.cons.inj heq
    exact absurd hc (by decide)

end

/-! ### Items and members -/

/-- A value is read from its text and what may follow it. -/
def ReadsBack (j : Json) : Prop := ∀ (fuel : Nat) (rest : List Char),
  (text j).toList.length ≤ fuel → Ends rest →
    value? fuel ((text j).toList ++ rest) = some (j, rest)

/-- The fuel of a reading has to be there, for no text is empty. -/
theorem readsBack_of_succ {j : Json} (htext : HasText j)
    (h : ∀ (fuel : Nat) (rest : List Char), (text j).toList.length ≤ fuel + 1 → Ends rest →
      value? (fuel + 1) ((text j).toList ++ rest) = some (j, rest)) : ReadsBack j := by
  intro fuel rest hfuel hrest
  cases fuel with
  | zero =>
    obtain ⟨c, cs, hcs, -⟩ := opens_text htext
    rw [hcs] at hfuel
    exact absurd hfuel (Nat.not_succ_le_zero _)
  | succ fuel => exact h fuel rest hfuel hrest

theorem ends_comma (rest : List Char) : Ends (',' :: rest) := by
  intro c hc
  exact .inl (Option.some.inj hc).symm

theorem ends_bracket (rest : List Char) : Ends (']' :: rest) := by
  intro c hc
  exact .inr (.inl (Option.some.inj hc).symm)

theorem ends_brace (rest : List Char) : Ends ('\x7d' :: rest) := by
  intro c hc
  exact .inr (.inr (Option.some.inj hc).symm)

theorem intercalate_itemTexts (j k : Json) (items : List Json) :
    (",".intercalate (itemTexts (j :: k :: items))).toList =
      (text j).toList ++ ',' :: (",".intercalate (itemTexts (k :: items))).toList := by
  simp only [itemTexts, String.intercalate_cons_cons, String.toList_append, List.append_assoc]
  rfl

theorem items?_itemTexts {items : List Json} (hne : items ≠ []) (h : ∀ j ∈ items, ReadsBack j)
    (fuel : Nat) (hfuel : (",".intercalate (itemTexts items)).toList.length < fuel)
    (rest : List Char) :
    items? fuel ((",".intercalate (itemTexts items)).toList ++ ']' :: rest) =
      some (items, rest) := by
  induction items generalizing fuel with
  | nil => exact absurd rfl hne
  | cons j items ih =>
    cases fuel with
    | zero => exact absurd hfuel (Nat.not_lt_zero _)
    | succ fuel =>
      have hj : ReadsBack j := h j List.mem_cons_self
      cases items with
      | nil =>
        have hone : (",".intercalate (itemTexts [j])).toList = (text j).toList :=
          congrArg _ String.intercalate_singleton
        rw [hone] at hfuel ⊢
        rw [items?, hj _ _ (Nat.le_of_lt_succ hfuel) (ends_bracket rest)]
        rfl
      | cons k items =>
        rw [intercalate_itemTexts, List.length_append, List.length_cons] at hfuel
        rw [intercalate_itemTexts, items?, List.append_assoc, List.cons_append,
          hj _ _ (by omega) (ends_comma _)]
        have hitems := ih nofun (fun i hi => h i (List.mem_cons_of_mem j hi)) fuel
          (by omega)
        simp only [Option.bind_eq_bind, Option.bind_some, skipSpace_cons (c := ',') rfl, hitems]
        rfl

/-- The name of a member is read before its value, which ends the object here. -/
theorem members?_quoted_last (name : String) {fuel : Nat} {j : Json} {cs rest : List Char}
    (hj : value? fuel cs = some (j, '\x7d' :: rest)) :
    members? (fuel + 1) ((quoted name).toList ++ ':' :: cs) = some ([(name, j)], rest) := by
  rw [toList_quoted, List.cons_append, List.append_assoc, List.singleton_append, members?,
    skipSpace_cons (c := '"') rfl]
  simp only [text?_escaped, Option.bind_eq_bind, Option.bind_some, skipSpace_cons (c := ':') rfl,
    hj]
  rfl

/-- The name of a member is read before its value, which others follow here. -/
theorem members?_quoted_cons (name : String) {fuel : Nat} {j : Json}
    {members : List (String × Json)} {cs cs' rest : List Char}
    (hj : value? fuel cs = some (j, ',' :: cs'))
    (hmembers : members? fuel cs' = some (members, rest)) :
    members? (fuel + 1) ((quoted name).toList ++ ':' :: cs) =
      some ((name, j) :: members, rest) := by
  rw [toList_quoted, List.cons_append, List.append_assoc, List.singleton_append, members?,
    skipSpace_cons (c := '"') rfl]
  simp only [text?_escaped, Option.bind_eq_bind, Option.bind_some, skipSpace_cons (c := ':') rfl,
    hj, skipSpace_cons (c := ',') rfl, hmembers]
  rfl

theorem intercalate_memberTexts (name : String) (j : Json) (m : String × Json)
    (members : List (String × Json)) :
    (",".intercalate (memberTexts ((name, j) :: m :: members))).toList =
      (quoted name).toList ++ ':' :: ((text j).toList ++
        ',' :: (",".intercalate (memberTexts (m :: members))).toList) := by
  simp only [memberTexts, String.intercalate_cons_cons, String.toList_append, List.append_assoc]
  rfl

theorem members?_memberTexts {members : List (String × Json)} (hne : members ≠ [])
    (h : ∀ m ∈ members, ReadsBack m.2) (fuel : Nat)
    (hfuel : (",".intercalate (memberTexts members)).toList.length < fuel) (rest : List Char) :
    members? fuel ((",".intercalate (memberTexts members)).toList ++ '\x7d' :: rest) =
      some (members, rest) := by
  induction members generalizing fuel with
  | nil => exact absurd rfl hne
  | cons m members ih =>
    cases fuel with
    | zero => exact absurd hfuel (Nat.not_lt_zero _)
    | succ fuel =>
      obtain ⟨name, j⟩ := m
      have hj : ReadsBack j := h (name, j) List.mem_cons_self
      cases members with
      | nil =>
        have hone : (",".intercalate (memberTexts [(name, j)])).toList =
            (quoted name).toList ++ ':' :: (text j).toList := by
          simp only [memberTexts, String.intercalate_singleton, String.toList_append,
            List.append_assoc]
          rfl
        rw [hone, List.length_append, List.length_cons] at hfuel
        rw [hone, List.append_assoc, List.cons_append]
        exact members?_quoted_last name (hj _ _ (by omega) (ends_brace rest))
      | cons m members =>
        rw [intercalate_memberTexts, List.length_append, List.length_cons, List.length_append,
          List.length_cons] at hfuel
        rw [intercalate_memberTexts, List.append_assoc, List.cons_append, List.append_assoc,
          List.cons_append]
        have hmembers := ih nofun (fun i hi => h i (List.mem_cons_of_mem _ hi)) fuel
          (by omega)
        exact members?_quoted_cons name (hj _ _ (by omega) (ends_comma _)) hmembers

/-! ### Values -/

theorem opens_itemTexts {items : List Json} (hne : items ≠ []) (h : ∀ j ∈ items, HasText j) :
    Opens (",".intercalate (itemTexts items)).toList := by
  cases items with
  | nil => exact absurd rfl hne
  | cons j items =>
    have hj := opens_text (h j List.mem_cons_self)
    cases items with
    | nil =>
      have hone : ",".intercalate (itemTexts [j]) = text j := String.intercalate_singleton
      rwa [hone]
    | cons k items =>
      rw [intercalate_itemTexts]
      exact hj.append _

theorem value?_items {cs : List Char} (h : Opens cs) (fuel : Nat) :
    value? (fuel + 1) ('[' :: cs) = (items? fuel cs).map fun p => (.array p.1, p.2) := by
  obtain ⟨c, rest, rfl, hspace, hend⟩ := h
  rw [value?, skipSpace_cons (c := '[') rfl]
  simp only [skipSpace_cons hspace]
  split
  · next heq => exact absurd (List.cons.inj heq).1 hend
  · cases items? fuel (c :: rest) <;> rfl

theorem value?_members (fuel : Nat) (cs : List Char) :
    value? (fuel + 1) ('\x7b' :: '"' :: cs) =
      (members? fuel ('"' :: cs)).map fun p => (.object p.1, p.2) := by
  rw [value?, skipSpace_cons (c := '\x7b') rfl]
  simp only [skipSpace_cons (c := '"') rfl]
  split
  · next heq => exact absurd (List.cons.inj heq).1 (by decide)
  · cases members? fuel ('"' :: cs) <;> rfl

theorem readsBack_array {items : List Json} (htext : ∀ j ∈ items, HasText j)
    (h : ∀ j ∈ items, ReadsBack j) : ReadsBack (.array items) := by
  refine readsBack_of_succ ?_ fun fuel rest hfuel _ => ?_
  · exact trivial
  rw [toList_array, List.length_cons, List.length_append, List.length_singleton] at hfuel
  rw [toList_array, List.cons_append, List.append_assoc, List.singleton_append]
  cases items with
  | nil => rfl
  | cons j items =>
    rw [value?_items ((opens_itemTexts (List.cons_ne_nil j items) htext).append _),
      items?_itemTexts (List.cons_ne_nil j items) h fuel (by omega)]
    rfl

theorem exists_memberTexts (m : String × Json) (members : List (String × Json)) :
    ∃ cs, (",".intercalate (memberTexts (m :: members))).toList = '"' :: cs := by
  obtain ⟨name, j⟩ := m
  cases members with
  | nil =>
    rw [memberTexts, memberTexts, String.intercalate_singleton, String.toList_append,
      String.toList_append, toList_quoted]
    exact ⟨_, rfl⟩
  | cons m members =>
    rw [intercalate_memberTexts, toList_quoted]
    exact ⟨_, rfl⟩

theorem readsBack_object {members : List (String × Json)} (h : ∀ m ∈ members, ReadsBack m.2) :
    ReadsBack (.object members) := by
  refine readsBack_of_succ ?_ fun fuel rest hfuel _ => ?_
  · exact trivial
  rw [toList_object, List.length_cons, List.length_append, List.length_singleton] at hfuel
  rw [toList_object, List.cons_append, List.append_assoc, List.singleton_append]
  cases members with
  | nil => rfl
  | cons m members =>
    have hmembers := members?_memberTexts (List.cons_ne_nil m members) h fuel (by omega)
      rest
    obtain ⟨cs, hcs⟩ := exists_memberTexts m members
    rw [hcs, List.cons_append] at hmembers ⊢
    rw [value?_members, hmembers]
    rfl

/-- A value that has a text is read from it, whatever may follow. -/
theorem Printable.readsBack {j : Json} (h : Printable j) : ReadsBack j := by
  induction h with
  | @intro j self inside ih =>
    cases j with
    | array items => exact readsBack_array (fun k hk => (inside k hk).self) ih
    | object members => exact readsBack_object fun m hm => ih m.2 (List.mem_map_of_mem hm)
    | null => exact readsBack_of_succ self fun fuel rest _ _ => rfl
    | bool b => cases b <;> exact readsBack_of_succ self fun fuel rest _ _ => rfl
    | integer n =>
      refine readsBack_of_succ self fun fuel rest _ hrest => ?_
      rw [text, value?_numeric ((numeric_integer n).append rest),
        numeral?_integer self.1 self.2 hrest]
    | real x =>
      refine readsBack_of_succ self fun fuel rest _ hrest => ?_
      rw [text, value?_numeric ((numeric_real self).append rest), numeral?_real self hrest]
    | string s =>
      refine readsBack_of_succ self fun fuel rest _ _ => ?_
      rw [text, toList_quoted, List.cons_append, List.append_assoc, List.singleton_append, value?,
        skipSpace_cons (c := '"') rfl]
      simp only [text?_escaped, Option.bind_eq_bind, Option.bind_some]
      rfl
    | garbled => exact self.elim

/-- A value that has a text is what the text is read as. -/
theorem parse?_text {j : Json} (h : Printable j) : parse? (text j) = some j := by
  have hread := h.readsBack (2 * (text j).toList.length + 2) [] (by omega) nofun
  rw [List.append_nil] at hread
  rw [parse?]
  simp only [hread, Option.bind_eq_bind, Option.bind_some]
  rfl

end PeakUsage.Json
