/-! Whether one text stands inside another. -/
namespace PeakUsage.Text

def isInfix (p : List Char) : List Char → Bool
  | [] => p.isEmpty
  | c :: cs => p.isPrefixOf (c :: cs) || isInfix p cs

/-- Whether `part` stands somewhere in `s`. -/
def contains (s part : String) : Bool := isInfix part.toList s.toList

theorem isInfix_iff {p s : List Char} : isInfix p s = true ↔ p <:+: s := by
  induction s with
  | nil => simp [isInfix, List.isEmpty_iff]
  | cons c cs ih => simp [isInfix, ih, List.infix_cons_iff]

theorem contains_iff {s part : String} : contains s part = true ↔ part.toList <:+: s.toList :=
  isInfix_iff

end PeakUsage.Text
