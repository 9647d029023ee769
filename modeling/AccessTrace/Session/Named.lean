/-!
# Values under names

A short list of named values. Taking a value out leaves the others as they are, so that a value
can be changed while nobody else holds it.
-/

namespace AccessTrace

/-- Values under names; a name has one value at most. -/
abbrev Named (α : Type) := List (String × α)

namespace Named

/-- The value under a name. -/
def get? {α : Type} (vs : Named α) (name : String) : Option α := List.lookup name vs

/-- Takes the value under a name out. -/
def take? {α : Type} (name : String) : Named α → Option (α × Named α)
  | [] => none
  | (n, v) :: rest =>
    if n = name then some (v, rest)
    else match take? name rest with
      | none => none
      | some (found, rest) => some (found, (n, v) :: rest)

/-- Puts a value under a name that has none. -/
def put {α : Type} (vs : Named α) (name : String) (value : α) : Named α := (name, value) :: vs

/-- Taking a value out finds what looking for it finds. -/
theorem take?_map_fst {α : Type} (vs : Named α) (name : String) :
    (vs.take? name).map (·.1) = vs.get? name := by
  induction vs with
  | nil => rfl
  | cons head rest ih =>
    obtain ⟨n, v⟩ := head
    by_cases h : n = name
    · simp [take?, get?, h]
    · have hb : (name == n) = false := by simpa using Ne.symm h
      simp only [get?, List.lookup_cons, hb] at ih ⊢
      rw [take?, if_neg h, ← ih]
      cases take? name rest <;> rfl

end Named

end AccessTrace
