import Mathlib
import AccessTrace.Proofs.OptionTexts

/-!
# Writing tokens down

A token can be written with quotation marks around it, as it is, or in pieces with quotation marks
around some of them (`Client.Written`). White space has to be quoted, and an empty token needs
quotation marks to be there at all. Tokens that are written in any of these ways, with white space
between them, are read back as they are; and whatever is read of a text is all of it but for the
quotation marks and the white space outside of them (`quoting_undone`).
-/

namespace AccessTrace

namespace Client

/-! ### What is written -/

/-- A part of a token. -/
structure Piece where
  text : List Char
  isQuoted : Bool

/-- The characters that a piece is written with. -/
def Piece.chars (p : Piece) : List Char :=
  if p.isQuoted then '"' :: (p.text ++ ['"']) else p.text

/-- The ways to write a token down. -/
inductive Written (token : String) : List Char → Prop
  | quoted : Written token ('"' :: (token.toList ++ ['"']))
  | bare : token ≠ "" → (∀ c ∈ token.toList, isBlank c = false) → Written token token.toList
  /-- White space is in quoted pieces only, and there is one if the token is empty. -/
  | pieces {ps : List Piece} : ps.flatMap Piece.text = token.toList →
      (∀ p ∈ ps, p.isQuoted = false → ∀ c ∈ p.text, isBlank c = false) →
      (token = "" → ∃ p ∈ ps, p.isQuoted = true) → Written token (ps.flatMap Piece.chars)

/-- A token in a text: the white space before it, and the characters that it is written with. -/
structure Placed where
  gap : List Char
  token : String
  chars : List Char

/-- The characters of a text. -/
def Placed.textOf (ps : List Placed) (trail : List Char) : List Char :=
  ps.flatMap (fun p => p.gap ++ p.chars) ++ trail

/-- A token without quotation marks, written in one of the ways behind nothing but white space. -/
structure Placed.Sound (p : Placed) : Prop where
  gap : ∀ c ∈ p.gap, isBlank c = true
  plain : '"' ∉ p.token.toList
  written : Written p.token p.chars

/-- Whether a character belongs to a token where these stand before it: it is no quotation mark, and
it is no white space unless there is an odd number of quotation marks before it. -/
def Belongs (before : List Char) (c : Char) : Prop :=
  c ≠ '"' ∧ (isBlank c = true → Odd (before.count '"'))

instance (before : List Char) (c : Char) : Decidable (Belongs before c) :=
  inferInstanceAs (Decidable (_ ∧ _))

/-- The characters of a text without the quotation marks and without the white space outside of
them. -/
def content (cs : List Char) : List Char :=
  (cs.zipIdx.filter fun p => Belongs (cs.take p.2) p.1).map Prod.fst

/-! ### Reading what was written -/

variable {token : Option String} {gap cs : List Char} {ps : List Piece} {tokens : List String}

/-- White space ends the token under way, and more of it does nothing. -/
theorem tokensFrom?_gap (blank : ∀ c ∈ gap, isBlank c = true)
    (ends : token.isSome = true → gap ≠ []) (cs : List Char) :
    tokensFrom? token false (gap ++ cs) = (tokensFrom? none false cs).map (token.toList ++ ·) := by
  induction gap generalizing token with
  | nil =>
    cases token with
    | none => simp
    | some t => exact absurd rfl (ends rfl)
  | cons c gap ih =>
    obtain ⟨first, rest⟩ := List.forall_mem_cons.1 blank
    rw [List.cons_append, tokensFrom?_blank first, ih rest (by simp)]
    simp

/-- A piece goes to the token as it is. -/
theorem tokensFrom?_piece {p : Piece} (plain : '"' ∉ p.text)
    (bare : p.isQuoted = false → ∀ c ∈ p.text, isBlank c = false) (t : String) (cs : List Char) :
    tokensFrom? (some t) false (p.chars ++ cs) =
      tokensFrom? (some (t ++ String.ofList p.text)) false cs := by
  have other : ∀ c ∈ p.text, c ≠ '"' := by
    rintro c mem rfl
    exact plain mem
  unfold Piece.chars
  split
  · have stays : ∀ c ∈ p.text, c ≠ '"' ∧ (isBlank c && !true) = false :=
      fun c mem => ⟨other c mem, Bool.and_false _⟩
    rw [List.cons_append, List.append_assoc, tokensFrom?, if_pos rfl, Bool.not_false,
      Option.getD_some, tokensFrom?_stretch stays, List.singleton_append, tokensFrom?, if_pos rfl]
    rfl
  · rename_i unquoted
    have stays : ∀ c ∈ p.text, c ≠ '"' ∧ (isBlank c && !false) = false := by
      intro c mem
      exact ⟨other c mem, by simp [bare (by simpa using unquoted) c mem]⟩
    exact tokensFrom?_stretch stays t cs

theorem tokensFrom?_pieces (plain : '"' ∉ ps.flatMap Piece.text)
    (bare : ∀ p ∈ ps, p.isQuoted = false → ∀ c ∈ p.text, isBlank c = false) (t : String)
    (cs : List Char) :
    tokensFrom? (some t) false (ps.flatMap Piece.chars ++ cs) =
      tokensFrom? (some (t ++ String.ofList (ps.flatMap Piece.text))) false cs := by
  induction ps generalizing t with
  | nil => simp
  | cons p ps ih =>
    rw [List.flatMap_cons, List.mem_append, not_or] at plain
    obtain ⟨first, rest⟩ := List.forall_mem_cons.1 bare
    rw [List.flatMap_cons, List.append_assoc, tokensFrom?_piece plain.1 first, ih plain.2 rest,
      List.flatMap_cons, String.ofList_append, String.append_assoc]

/-- What is written down begins with a character that does not separate. -/
theorem head_visible (bare : ∀ p ∈ ps, p.isQuoted = false → ∀ c ∈ p.text, isBlank c = false) :
    ∀ c ∈ (ps.flatMap Piece.chars).head?, isBlank c = false := by
  induction ps with
  | nil => simp
  | cons p ps ih =>
    obtain ⟨first, rest⟩ := List.forall_mem_cons.1 bare
    obtain ⟨text, quoted⟩ := p
    cases quoted with
    | true => simp [Piece.chars, isBlank_quote]
    | false =>
      cases text with
      | nil => simpa [Piece.chars] using ih rest
      | cons d text => simpa [Piece.chars] using first rfl d List.mem_cons_self

/-- Each way to write a token down is one in pieces. -/
theorem Written.pieces_eq {t : String} {chars : List Char} (written : Written t chars) :
    ∃ ps : List Piece, chars = ps.flatMap Piece.chars ∧ ps.flatMap Piece.text = t.toList ∧
      (∀ p ∈ ps, p.isQuoted = false → ∀ c ∈ p.text, isBlank c = false) ∧ chars ≠ [] := by
  cases written with
  | quoted => exact ⟨[⟨t.toList, true⟩], by simp [Piece.chars]⟩
  | bare some visible =>
    refine ⟨[⟨t.toList, false⟩], by simp [Piece.chars], by simp, by simpa using visible, ?_⟩
    simpa using some
  | @pieces ps text bare some =>
    refine ⟨ps, rfl, text, bare, fun none => ?_⟩
    -- Pieces of which nothing is written are bare and empty, and so is the token then.
    have empty : ∀ p ∈ ps, p.isQuoted = false ∧ p.text = [] := by
      intro p mem
      have nothing := List.flatMap_eq_nil_iff.1 none p mem
      unfold Piece.chars at nothing
      split at nothing <;> simp_all
    have token : t = "" := by
      rw [← String.toList_inj, ← text, List.flatMap_eq_nil_iff.2 fun p mem => (empty p mem).2]
      rfl
    obtain ⟨p, mem, quoted⟩ := some token
    rw [(empty p mem).1] at quoted
    cases quoted

/-- A token that is written down is read as it is. -/
theorem tokensFrom?_written {t : String} {chars : List Char} (plain : '"' ∉ t.toList)
    (written : Written t chars) (cs : List Char) :
    tokensFrom? none false (chars ++ cs) = tokensFrom? (some t) false cs := by
  obtain ⟨ps, rfl, text, bare, some⟩ := written.pieces_eq
  have visible := head_visible bare
  have begun : tokensFrom? none false (ps.flatMap Piece.chars ++ cs) =
      tokensFrom? (.some "") false (ps.flatMap Piece.chars ++ cs) := by
    obtain ⟨c, rest, same⟩ := List.exists_cons_of_ne_nil some
    rw [same] at visible ⊢
    simp [tokensFrom?, visible c rfl]
  rw [begun, tokensFrom?_pieces (text ▸ plain) bare, text, String.ofList_toList,
    String.empty_append]

/-- Tokens in a text are read one by one. -/
theorem tokensFrom?_textOf {placed : List Placed} {trail : List Char}
    (sound : ∀ p ∈ placed, p.Sound) (apart : ∀ p ∈ placed.tail, p.gap ≠ [])
    (ends : token.isSome = true → ∀ p ∈ placed.head?, p.gap ≠ [])
    (blank : ∀ c ∈ trail, isBlank c = true) :
    tokensFrom? token false (Placed.textOf placed trail) =
      some (token.toList ++ placed.map Placed.token) := by
  induction placed generalizing token with
  | nil =>
    have text : Placed.textOf [] trail = trail := rfl
    rw [text]
    cases trail with
    | nil => simp [tokensFrom?]
    | cons c trail =>
      have last : tokensFrom? token false (c :: trail ++ []) =
          (tokensFrom? none false []).map (token.toList ++ ·) := tokensFrom?_gap blank (by simp) []
      rw [List.append_nil] at last
      rw [last, tokensFrom?]
      simp
  | cons p placed ih =>
    obtain ⟨⟨gap, plain, written⟩, rest⟩ := List.forall_mem_cons.1 sound
    have text : Placed.textOf (p :: placed) trail =
        p.gap ++ (p.chars ++ Placed.textOf placed trail) := by simp [Placed.textOf]
    have later : ∀ q ∈ placed.head?, q.gap ≠ [] := fun q mem => apart q (List.mem_of_mem_head? mem)
    rw [text, tokensFrom?_gap gap (fun some => ends some p rfl), tokensFrom?_written plain written,
      ih rest (fun q mem => apart q (List.mem_of_mem_tail mem)) fun _ => later]
    rfl

/-! ### What is read of any text -/

/-- The content of a text behind its beginning. -/
def contentBehind (before cs : List Char) : List Char :=
  ((cs.zipIdx before.length).filter fun p => Belongs ((before ++ cs).take p.2) p.1).map Prod.fst

theorem contentBehind_cons (before : List Char) (c : Char) (cs : List Char) :
    contentBehind before (c :: cs) =
      if Belongs before c then c :: contentBehind (before ++ [c]) cs
      else contentBehind (before ++ [c]) cs := by
  have length : (before ++ [c]).length = before.length + 1 := by simp
  rw [contentBehind, contentBehind, List.zipIdx_cons, List.filter_cons, List.take_left, length,
    ← List.append_cons]
  split <;> simp_all

/-- What is read of a text is its content, behind the token under way. -/
theorem flatMap_tokensFrom? (before : List Char)
    (read : tokensFrom? token (decide (Odd (before.count '"'))) cs = some tokens) :
    tokens.flatMap String.toList = (token.getD "").toList ++ contentBehind before cs := by
  induction cs generalizing before token tokens with
  | nil =>
    rw [tokensFrom?] at read
    split at read
    · cases read
    · cases read
      cases token <;> simp [contentBehind]
  | cons c cs ih =>
    have behind := odd_count_concat before c
    rw [contentBehind_cons]
    rw [tokensFrom?] at read
    split at read
    · rename_i quote
      have outside : ¬Belongs before c := fun belongs => belongs.1 quote
      rw [if_pos quote] at behind
      rw [← behind] at read
      rw [if_neg outside, ih _ read]
      rfl
    · rename_i other
      rw [if_neg other] at behind
      split at read
      · rename_i separates
        obtain ⟨blank, even⟩ : isBlank c = true ∧ ¬Odd (before.count '"') := by
          simpa using separates
        have outside : ¬Belongs before c := fun belongs => even (belongs.2 blank)
        obtain ⟨later, rest, rfl⟩ := Option.map_eq_some_iff.1 read
        rw [decide_eq_false even] at behind
        rw [← behind] at rest
        rw [if_neg outside, List.flatMap_append, ih _ rest]
        cases token <;> simp
      · rename_i stays
        have inside : Belongs before c := ⟨other, by simpa using stays⟩
        rw [← behind] at read
        rw [if_pos inside, ih _ read]
        simp

end Client

/-- Tokens that are written down, each in one of the ways, with white space between them and perhaps
before and behind, are read as they are. Of any text the tokens are read exactly if its quotation
marks are even in number; they have no quotation marks, and together they are all of the text but
for the quotation marks and the white space outside of them. -/
theorem quoting_undone :
    (∀ (placed : List Client.Placed) (trail : List Char), (∀ p ∈ placed, p.Sound) →
      (∀ p ∈ placed.tail, p.gap ≠ []) → (∀ c ∈ trail, isBlank c = true) →
      Client.tokens? (String.ofList (Client.Placed.textOf placed trail)) =
        some (placed.map Client.Placed.token)) ∧
    ∀ text : String,
      (Client.tokens? text = none ↔ Odd (text.toList.count '"')) ∧
      ∀ tokens, Client.tokens? text = some tokens →
        (∀ t ∈ tokens, '"' ∉ t.toList) ∧
        tokens.flatMap String.toList = Client.content text.toList := by
  refine ⟨fun placed trail sound apart blank => ?_,
    fun text => ⟨Client.tokens?_eq_none_iff, fun tokens read => ⟨?_, ?_⟩⟩⟩
  · rw [Client.tokens?, String.toList_ofList]
    exact Client.tokensFrom?_textOf sound apart (by simp) blank
  · exact Client.quote_not_mem read (by simp)
  · exact Client.flatMap_tokensFrom? [] read

/-- An empty token, white space that is quoted, pieces that touch, and one that is written as it
is. -/
example : Client.tokens? "\t\"\"  a\" b\"\"c\" d \n" = some ["", "a bc", "d"] := by decide +kernel

end AccessTrace
