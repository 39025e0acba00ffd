import PeakUsage.Json.Reader
import PeakUsage.Json.Writer
import PeakUsage.Proofs.Number.Packing

/-! Strings read back as they were written. -/
namespace PeakUsage.Json

theorem hexValue?_hexDigit : ∀ {n : Nat}, n < 16 → hexValue? (hexDigit n) = some n := by
  decide

/-- A control character is spelled by its place in the first column of the code table. -/
theorem unit?_control {c : Char} (hc : c.toNat < 0x20) :
    unit? '0' '0' (hexDigit (c.toNat / 16)) (hexDigit (c.toNat % 16)) = some (.char c) := by
  have hhigh : hexValue? (hexDigit (c.toNat / 16)) = some (c.toNat / 16) :=
    hexValue?_hexDigit (by omega)
  have hlow : hexValue? (hexDigit (c.toNat % 16)) = some (c.toNat % 16) :=
    hexValue?_hexDigit (Nat.mod_lt _ (by decide))
  have hzero : hexValue? '0' = some 0 := by decide
  have hsum : ((0 * 16 + 0) * 16 + c.toNat / 16) * 16 + c.toNat % 16 = c.toNat := by omega
  rw [unit?, hhigh, hlow, hzero]
  simp only [Option.bind_eq_bind, Option.bind_some, hsum]
  rw [if_neg (by omega), Char.ofNat_toNat]
  rfl

/-- The pieces of a string that starts with `p`. -/
def beforePieces (p : Piece) (rest : List Char) : Option (List Piece × List Char) :=
  (pieces? rest).map fun q => (p :: q.1, q.2)

theorem pieces?_escape {e x : Char} (he : escape? e = some x) (rest : List Char) :
    pieces? ('\\' :: e :: rest) = beforePieces (.char x) rest := by
  have hnone : escape? 'u' = none := by decide
  have hu : e ≠ 'u' := by
    rintro rfl
    cases hnone.symm.trans he
  rw [pieces?, if_neg (by decide), if_pos rfl]
  · rw [he, beforePieces]
    cases pieces? rest <;> rfl
  · rintro h i j k rest' heq
    exact absurd heq hu

theorem pieces?_unit {h i j k : Char} {p : Piece} (hp : unit? h i j k = some p)
    (rest : List Char) :
    pieces? ('\\' :: 'u' :: h :: i :: j :: k :: rest) = beforePieces p rest := by
  rw [pieces?, if_neg (by decide), if_pos rfl, hp, beforePieces]
  cases pieces? rest <;> rfl

theorem pieces?_plain {c : Char} (hquote : c ≠ '"') (hslash : c ≠ '\\') (hc : ¬ c.toNat < 0x20)
    (rest : List Char) : pieces? (c :: rest) = beforePieces (.char c) rest := by
  rw [pieces?.eq_def]
  dsimp only
  rw [if_neg hquote, if_neg hslash, if_neg hc, beforePieces]
  cases pieces? rest <;> rfl

/-- A character is read from its spelling. -/
theorem pieces?_escaped (c : Char) (rest : List Char) :
    pieces? (escaped c ++ rest) = beforePieces (.char c) rest := by
  have hcode (n : Nat) (h : c.toNat = n) : Char.ofNat n = c := by rw [← h, Char.ofNat_toNat]
  unfold escaped
  split
  · next h => rw [h]; exact pieces?_escape (by decide) rest
  split
  · next h => rw [h]; exact pieces?_escape (by decide) rest
  split
  · next h => rw [h]; exact pieces?_escape (by decide) rest
  split
  · next h => rw [h]; exact pieces?_escape (by decide) rest
  split
  · next h => rw [h]; exact pieces?_escape (by decide) rest
  split
  · next h => exact hcode 8 h ▸ pieces?_escape rfl rest
  split
  · next h => exact hcode 12 h ▸ pieces?_escape rfl rest
  split
  · next h => exact pieces?_unit (unit?_control h) rest
  · next hquote hslash _ _ _ _ _ hc => exact pieces?_plain hquote hslash hc rest

/-- The characters of a string are read up to its closing quote. -/
theorem pieces?_flatMap_escaped (cs rest : List Char) :
    pieces? (cs.flatMap escaped ++ '"' :: rest) = some (cs.map .char, rest) := by
  induction cs with
  | nil =>
    rw [List.flatMap_nil, List.nil_append, pieces?.eq_def]
    rfl
  | cons c cs ih =>
    rw [List.flatMap_cons, List.append_assoc, pieces?_escaped, beforePieces, ih]
    rfl

theorem join?_map_char (cs : List Char) : join? (cs.map .char) = some cs := by
  induction cs with
  | nil => rfl
  | cons c cs ih => rw [List.map_cons, join?, ih]; rfl

theorem toList_quoted (s : String) : (quoted s).toList = '"' :: (s.toList.flatMap escaped ++ ['"']) :=
  String.toList_ofList

/-- A string is read back from its spelling. -/
theorem text?_escaped (s : String) (rest : List Char) :
    text? (s.toList.flatMap escaped ++ '"' :: rest) = some (some s, rest) := by
  rw [text?, pieces?_flatMap_escaped]
  simp only [Option.bind_eq_bind, Option.bind_some, join?_map_char, Option.map_some,
    String.ofList_toList]
  rfl

end PeakUsage.Json
