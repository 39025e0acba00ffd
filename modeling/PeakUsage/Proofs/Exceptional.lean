/-! Computations that may fail, and lists of them. -/
namespace PeakUsage

section
variable {ε α β : Type}

theorem exists_of_bind_ok {x : Except ε α} {f : α → Except ε β} {b : β}
    (h : (x >>= f) = .ok b) : ∃ a, x = .ok a ∧ f a = .ok b := by
  cases x with
  | error e => exact absurd h nofun
  | ok a => exact ⟨a, rfl, h⟩

theorem bind_of_ok {x : Except ε α} {a : α} (h : x = .ok a) (f : α → Except ε β) :
    (x >>= f) = f a := by
  rw [h]
  rfl

theorem bind_of_some {x : Option α} {a : α} (h : x = some a) (f : α → Option β) :
    (x >>= f) = f a := by
  rw [h]
  rfl

theorem mapM_eq_ok {g : β → Except ε α} {bs : List β} {as : List α}
    (h : bs.map g = as.map .ok) : bs.mapM g = .ok as := by
  induction bs generalizing as with
  | nil =>
    obtain rfl : as = [] := by simpa using h.symm
    rfl
  | cons b rest ih =>
    cases as with
    | nil => simp at h
    | cons a as =>
      simp only [List.map_cons, List.cons.injEq] at h
      rw [List.mapM_cons, h.1, ih h.2]
      rfl

theorem map_eq_of_mapM_ok {g : β → Except ε α} {bs : List β} {as : List α}
    (h : bs.mapM g = .ok as) : bs.map g = as.map .ok := by
  induction bs generalizing as with
  | nil =>
    obtain rfl : [] = as := Except.ok.inj h
    rfl
  | cons b rest ih =>
    rw [List.mapM_cons] at h
    cases hb : g b with
    | error e =>
      rw [hb] at h
      exact absurd h nofun
    | ok a =>
      cases hrest : rest.mapM g with
      | error e =>
        rw [hb, hrest] at h
        exact absurd h nofun
      | ok as' =>
        rw [hb, hrest] at h
        obtain rfl : a :: as' = as := Except.ok.inj h
        rw [List.map_cons, List.map_cons, hb, ih hrest]

theorem exists_of_mapM_ok {g : β → Except ε α} {bs : List β} {as : List α}
    (h : bs.mapM g = .ok as) : ∀ a ∈ as, ∃ b ∈ bs, g b = .ok a := by
  intro a ha
  have hmem : Except.ok a ∈ bs.map g := by
    rw [map_eq_of_mapM_ok h]
    exact List.mem_map_of_mem ha
  exact List.mem_map.mp hmem

end

end PeakUsage
