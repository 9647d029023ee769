import AccessTrace.SystemError

/-!
# Sources of bytes

A source hands out its bytes in pieces of its own choosing: a request may get less than it asked
for, be interrupted or fail. `fill` asks again until it has what it needs.
`remaining_of_fill` says that what it hands out is what the source has lost.
-/

namespace AccessTrace

/-- What a source does when it is asked for bytes. -/
inductive Source.Piece where
  /-- Hands out these bytes, as far as the request goes; the others wait for the next one. -/
  | bytes (bs : List UInt8)
  /-- Hands out nothing and is to be asked again. -/
  | interruption
  /-- Fails. -/
  | failure (error : SystemError)
  deriving DecidableEq

/-- A source is the list of what it does, and is empty ever after. -/
abbrev Source := List Source.Piece

namespace Source

/-- The source that has these bytes at hand. -/
def ofBytes (bs : List UInt8) : Source := [.bytes bs]

/-- The bytes that a source still has. -/
def remaining : Source → Nat
  | [] => 0
  | .bytes bs :: src => bs.length + remaining src
  | _ :: src => remaining src

/-- What a request is told when no bytes come: an end where nothing of a unit was read yet. -/
def ended (got : List UInt8) : Except SystemError (Option (List UInt8)) :=
  if got.isEmpty then .ok none else .error .unexpectedEnd

/-- Reads until `need` more bytes have joined `got`: all of them, `none` where the source ended
before the first, or an error. Interruptions are passed over. -/
def fill (need : Nat) (got : List UInt8) :
    Source → Except SystemError (Option (List UInt8)) × Source
  | [] => (if need = 0 then .ok (some got) else ended got, [])
  | piece :: src =>
    if need = 0 then (.ok (some got), piece :: src)
    else match piece with
      | .interruption => fill need got src
      | .failure error => (.error error, src)
      | .bytes [] => (ended got, src)
      | .bytes bs =>
        match bs.drop need with
        | [] => fill (need - bs.length) (got ++ bs) src
        | rest => (.ok (some (got ++ bs.take need)), .bytes rest :: src)

/-- Reads a unit of `n` bytes. -/
def take (n : Nat) (src : Source) : Except SystemError (Option (List UInt8)) × Source :=
  fill n [] src

theorem remaining_of_fill {src rest : Source} {need : Nat} {got bs : List UInt8}
    (h : fill need got src = (.ok (some bs), rest)) :
    bs.length = got.length + need ∧ remaining src = need + remaining rest := by
  induction src generalizing need got with
  | nil =>
    simp only [fill, Prod.mk.injEq] at h
    obtain ⟨h, rfl⟩ := h
    split at h
    · cases h
      simp_all
    · simp only [ended] at h
      split at h <;> cases h
  | cons piece src ih =>
    unfold fill at h
    split at h
    · cases h
      simp_all
    · split at h
      · have := ih h
        simp only [remaining]
        omega
      · cases h
      · simp only [ended, Prod.mk.injEq] at h
        obtain ⟨h, _⟩ := h
        split at h <;> cases h
      · rename_i bs' _
        split at h
        · rename_i hd
          have hl := List.drop_eq_nil_iff.1 hd
          have := ih h
          rw [List.length_append] at this
          simp only [remaining]
          omega
        · rename_i rest' hd
          cases h
          have hl : need < bs'.length := by
            rcases Nat.lt_or_ge need bs'.length with hlt | hge
            · exact hlt
            · exact absurd (List.drop_eq_nil_iff.2 hge) hd
          simp only [remaining, List.length_append, List.length_take, List.length_drop]
          omega

end Source

end AccessTrace
