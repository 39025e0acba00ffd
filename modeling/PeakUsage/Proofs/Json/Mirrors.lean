import PeakUsage.Json.Model
import PeakUsage.Proofs.Exceptional
import PeakUsage.Proofs.Json.Bounds
import PeakUsage.Proofs.Number.Integers
import PeakUsage.Proofs.Time.Rfc3339

/-! Decoders that undo encoders: what is accepted is written as a value that has a text and is
accepted again as the same. -/
namespace PeakUsage.Json

section
variable {α : Type}

/-- What is written for a value has a text and is decoded as the value. -/
structure Restores (d : Decoder α) (e : α → Json) (a : α) : Prop where
  printable : Printable (e a)
  decoded : d (e a) = .ok a

/-- Whatever is accepted is restored. -/
def Mirrors (d : Decoder α) (e : α → Json) : Prop :=
  ∀ ⦃j : Json⦄ ⦃a : α⦄, Bounded j → d j = .ok a → Restores d e a

theorem printable_array {items : List Json} (h : ∀ j ∈ items, Printable j) :
    Printable (.array items) :=
  ⟨trivial, h⟩

theorem printable_object {members : List (String × Json)} (h : ∀ m ∈ members, Printable m.2) :
    Printable (.object members) :=
  ⟨trivial, List.forall_mem_map.mpr h⟩

/-! ### Scalars -/

theorem printable_string (s : String) : Printable (.string s) := .leaf trivial rfl

theorem printable_null : Printable .null := .leaf trivial rfl

theorem mirrors_asText : Mirrors asText .string := by
  intro j s _ h
  exact ⟨printable_string s, rfl⟩

theorem mirrors_asBool : Mirrors asBool .bool := by
  intro j b _ h
  exact ⟨.leaf trivial rfl, rfl⟩

theorem mirrors_asInteger {low high : Int} (hlow : minSigned ≤ low) (hhigh : high ≤ maxUnsigned) :
    Mirrors (asInteger low high) .integer := by
  intro j n _ h
  cases j with
  | integer m =>
    rw [asInteger] at h
    split at h
    · next hm =>
      obtain rfl := Except.ok.inj h
      exact ⟨.leaf ⟨hlow.trans hm.1, hm.2.trans hhigh⟩ rfl, if_pos hm⟩
    · cases h
  | _ => cases h

theorem restores_ofNat {size n : Nat} (hn : n < size) (hsize : (size : Int) - 1 ≤ maxUnsigned) :
    Restores (asNatural size) ofNat n := by
  have hsigned : minSigned ≤ 0 := by decide
  have hrange : (0 : Int) ≤ n ∧ (n : Int) ≤ size - 1 := ⟨Int.natCast_nonneg n, by omega⟩
  refine ⟨.leaf ⟨hsigned.trans hrange.1, hrange.2.trans hsize⟩ rfl, ?_⟩
  rw [asNatural, ofNat, asInteger, if_pos hrange]
  rfl

theorem mirrors_asNatural {size : Nat} (hsize : (size : Int) - 1 ≤ maxUnsigned) :
    Mirrors (asNatural size) ofNat := by
  intro j n _ h
  obtain ⟨m, hm, h⟩ := exists_of_bind_ok h
  obtain rfl := Except.ok.inj h
  cases j with
  | integer k =>
    rw [asInteger] at hm
    split at hm
    · next hbounds =>
      obtain rfl := Except.ok.inj hm
      exact restores_ofNat (by omega) hsize
    · cases hm
  | _ => cases hm

theorem mirrors_asReal : Mirrors asReal .real := by
  have hrestores {x : Float} (hx : Number.isFinite x = true) : Restores asReal .real x :=
    ⟨.leaf hx rfl, if_pos hx⟩
  intro j x hj h
  cases j with
  | integer n =>
    obtain rfl := Except.ok.inj h
    have hbounds : minSigned ≤ n ∧ n ≤ maxUnsigned := hj.self
    exact hrestores (Number.isFinite_ofInt hbounds.1 hbounds.2)
  | real y =>
    rw [asReal] at h
    split at h
    · next hy =>
      obtain rfl := Except.ok.inj h
      exact hrestores hy
    · cases h
  | _ => cases h

theorem asTime_string {s : String} {t : Timestamp} (h : Timestamp.read? s = some t) :
    asTime (.string s) = .ok t := by
  rw [asTime]
  dsimp only [asText, bind, Except.bind]
  rw [h]
  rfl

theorem mirrors_asTime : Mirrors asTime Timestamp.toJson := by
  intro j t _ h
  obtain ⟨s, -, h⟩ := exists_of_bind_ok h
  cases hread : Timestamp.read? s with
  | none =>
    rw [hread] at h
    cases h
  | some t' =>
    rw [hread] at h
    obtain rfl := Except.ok.inj h
    exact ⟨printable_string _, asTime_string (Timestamp.inCalendar_of_read? hread).read?_text⟩

theorem asChoice_string {choices : List (String × α)} {s : String} {a : α}
    (h : choices.lookup s = some a) : asChoice choices (.string s) = .ok a := by
  rw [asChoice]
  dsimp only [bind, Except.bind, pure, Except.pure]
  rw [h]

theorem exists_of_asChoice {choices : List (String × α)} {j : Json} {a : α}
    (h : asChoice choices j = .ok a) : ∃ s, choices.lookup s = some a := by
  have hname {x : Except JsonFault String} {f : String → Except JsonFault α}
      (hf : ∀ s, f s = .ok a → ∃ s, choices.lookup s = some a) (h : (x >>= f) = .ok a) :
      ∃ s, choices.lookup s = some a := by
    obtain ⟨s, -, hs⟩ := exists_of_bind_ok h
    exact hf s hs
  unfold asChoice at h
  dsimp only at h
  split at h
  all_goals
    refine hname (fun s hs => ?_) h
    split at hs
    · next hlookup =>
      obtain rfl := Except.ok.inj hs
      exact ⟨s, hlookup⟩
    · cases hs

/-- A choice among names is written as the name. -/
theorem mirrors_asChoice {choices : List (String × α)} {name : α → String}
    (hname : ∀ p ∈ choices, name p.2 = p.1) :
    Mirrors (asChoice choices) fun a => .string (name a) := by
  intro j a _ h
  obtain ⟨s, hs⟩ := exists_of_asChoice h
  obtain ⟨before, behind, rfl, -⟩ := List.lookup_eq_some_iff.mp hs
  have hsame : name a = s := hname (s, a) (List.mem_append_right _ List.mem_cons_self)
  exact ⟨printable_string _, asChoice_string (hsame ▸ hs)⟩

/-! ### Optional values, lists and tables -/

theorem mirrors_orNull {d : Decoder α} {e : α → Json} (h : Mirrors d e)
    (hne : ∀ a, e a ≠ .null) : Mirrors (orNull d) (ofOption e) := by
  have hdecode {j : Json} (hj : j ≠ .null) : orNull d j = (d j).map some := by
    cases j <;> first | rfl | exact absurd rfl hj
  intro j o hj hread
  cases o with
  | none => exact ⟨printable_null, rfl⟩
  | some a =>
    by_cases hnull : j = .null
    · rw [hnull] at hread
      cases hread
    · rw [hdecode hnull] at hread
      cases hd : d j with
      | error f =>
        rw [hd] at hread
        cases hread
      | ok b =>
        rw [hd] at hread
        obtain rfl := Option.some.inj (Except.ok.inj hread)
        obtain ⟨hprintable, hdecoded⟩ := h hj hd
        refine ⟨hprintable, (hdecode (hne b)).trans ?_⟩
        rw [hdecoded]
        rfl

theorem mirrors_asList {d : Decoder α} {e : α → Json} (h : Mirrors d e) :
    Mirrors (asList d) fun as => .array (as.map e) := by
  intro j as hj hread
  cases j with
  | array items =>
    have hrestores : ∀ a ∈ as, Restores d e a := by
      intro a ha
      obtain ⟨k, hk, hd⟩ := exists_of_mapM_ok hread a ha
      exact h (hj.inside k hk) hd
    refine ⟨printable_array ?_, ?_⟩
    · intro k hk
      obtain ⟨a, ha, rfl⟩ := List.mem_map.mp hk
      exact (hrestores a ha).printable
    · refine mapM_eq_ok ?_
      rw [List.map_map]
      exact List.map_congr_left fun a ha => (hrestores a ha).decoded
  | _ => cases hread

/-- A table is made up of its entries in any order. -/
theorem ofList_of_perm {t : Std.ExtTreeMap String α} {entries : List (String × α)}
    (h : entries.Perm t.toList) : Std.ExtTreeMap.ofList entries = t := by
  have hdistinct : entries.Pairwise fun a b => ¬ compare a.1 b.1 = .eq :=
    (h.pairwise_iff fun hab hba => hab (Std.OrientedCmp.eq_symm hba)).mpr t.distinct_keys_toList
  refine Std.ExtTreeMap.ext_getElem? fun k => ?_
  cases hk : t[k]? with
  | some a =>
    have hmem : (k, a) ∈ t.toList := Std.ExtTreeMap.mem_toList_iff_getElem?_eq_some.mpr hk
    exact Std.ExtTreeMap.getElem?_ofList_of_mem Std.compare_self hdistinct (h.mem_iff.mpr hmem)
  | none =>
    refine Std.ExtTreeMap.getElem?_ofList_of_contains_eq_false ?_
    rw [(h.map Prod.fst).contains_eq, Std.ExtTreeMap.map_fst_toList_eq_keys,
      Std.ExtTreeMap.contains_keys, Std.ExtTreeMap.contains_eq_isSome_getElem?, hk]
    rfl

theorem mem_of_getElem?_ofList {entries : List (String × α)} {k : String} {a : α}
    (h : (Std.ExtTreeMap.ofList entries)[k]? = some a) : (k, a) ∈ entries := by
  induction entries using List.reverseRecOn with
  | nil =>
    rw [Std.ExtTreeMap.ofList_nil, Std.ExtTreeMap.getElem?_empty] at h
    cases h
  | append_singleton entries p ih =>
    rw [Std.ExtTreeMap.ofList_eq_foldl, List.foldl_concat, ← Std.ExtTreeMap.ofList_eq_foldl,
      Std.ExtTreeMap.getElem?_insert] at h
    split at h
    · next heq =>
      obtain rfl := Option.some.inj h
      obtain rfl := Std.LawfulEqOrd.eq_of_compare heq
      exact List.mem_append_right _ List.mem_cons_self
    · exact List.mem_append_left _ (ih h)

/-- Members in any order are those of the entries in some order. -/
theorem exists_entries_of_ofTableIn (order : TableOrder) (e : α → Json)
    (t : Std.ExtTreeMap String α) :
    ∃ entries : List (String × α), entries.Perm t.toList ∧
      ofTableIn order e t = .object (entries.map fun (name, a) => (name, e a)) := by
  have hcomp := congrFun (congrFun (List.eq_map_comp_perm fun p : String × α => (p.1, e p.2))
    (order.arrange (t.toList.map fun (name, a) => (name, e a)))) t.toList
  obtain ⟨entries, hmembers, hentries⟩ := hcomp.mpr (order.perm _)
  exact ⟨entries, hentries, congrArg Json.object hmembers⟩

/-- A table is written with the entries that counted, and read again whatever order they are
written in. -/
theorem mirrors_asTable (order : TableOrder) {d : Decoder α} {e : α → Json} (h : Mirrors d e) :
    Mirrors (asTable d) (ofTableIn order e) := by
  intro j t hj hread
  cases j with
  | object members =>
    obtain ⟨entries, hentries, hread⟩ := exists_of_bind_ok hread
    obtain rfl := Except.ok.inj hread
    have hrestores : ∀ p ∈ (Std.ExtTreeMap.ofList entries).toList, Restores d e p.2 := by
      rintro ⟨k, a⟩ hmem
      have hentry := mem_of_getElem?_ofList (Std.ExtTreeMap.mem_toList_iff_getElem?_eq_some.mp hmem)
      obtain ⟨⟨name, i⟩, hi, hd⟩ := exists_of_mapM_ok hentries _ hentry
      obtain ⟨b, hb, hp⟩ := exists_of_bind_ok hd
      obtain ⟨-, rfl⟩ := Prod.mk.inj (Except.ok.inj hp)
      exact h (hj.inside i (List.mem_map_of_mem hi)) hb
    generalize Std.ExtTreeMap.ofList entries = t at *
    obtain ⟨written, hwritten, hobject⟩ := exists_entries_of_ofTableIn order e t
    have hrestored : ∀ p ∈ written, Restores d e p.2 :=
      fun p hp => hrestores p (hwritten.mem_iff.mp hp)
    refine ⟨?_, ?_⟩ <;> rw [hobject]
    · refine printable_object fun m hm => ?_
      obtain ⟨p, hp, rfl⟩ := List.mem_map.mp hm
      exact (hrestored p hp).printable
    · refine (bind_of_ok (mapM_eq_ok ?_) _).trans (congrArg Except.ok (ofList_of_perm hwritten))
      rw [List.map_map]
      refine List.map_congr_left fun p hp => ?_
      change (do pure (p.1, ← d (e p.2))) = Except.ok p
      rw [(hrestored p hp).decoded]
      rfl
  | _ => cases hread

end

end PeakUsage.Json
