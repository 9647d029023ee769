import Mathlib
import AccessTrace.Proofs.PipeNames

/-!
# What an option text asks for

A text is a sequence of words with white space around them. Inside a word, white space stands only
behind an odd number of quotation marks, and the word ends behind an even number of them
(`Client.IsWord`). The words without their quotation marks are the tokens
(`Client.tokens?_eq_some_iff`), and a text has no tokens exactly if its quotation marks are odd in
number.

The tokens at even positions are options, the others are values. `parse_exact` tells the result of
every text by its tokens.
-/

namespace AccessTrace

namespace Client

variable {text : String} {token : Option String} {isQuoted : Bool} {cs w : List Char}
variable {words : List (List Char)} {tokens : List String}

/-! ### Words -/

/-- White space stands only behind an odd number of quotation marks. -/
def IsJoined (w : List Char) : Prop :=
  ∀ before c, before ++ [c] <+: w → isBlank c = true → Odd (before.count '"')

/-- Characters that make one token: white space among them is quoted, and all quotes are closed. -/
structure IsWord (w : List Char) : Prop where
  nonempty : w ≠ []
  joined : IsJoined w
  closed : Even (w.count '"')

/-- The words of a text: white space stands before, behind and between them, and nothing else. -/
inductive HasWords : List Char → List (List Char) → Prop
  | nil : HasWords [] []
  | blank {c : Char} {cs : List Char} {words : List (List Char)} :
      isBlank c = true → HasWords cs words → HasWords (c :: cs) words
  | word {w cs : List Char} {words : List (List Char)} :
      IsWord w → (∀ c ∈ cs.head?, isBlank c = true) → HasWords cs words →
        HasWords (w ++ cs) (w :: words)

/-- The token that a word stands for. -/
def unquoted (w : List Char) : String := String.ofList (w.filter (· ≠ '"'))

theorem ne_quote_of_isBlank {c : Char} (blank : isBlank c = true) : c ≠ '"' := by
  rintro rfl
  rw [isBlank_quote] at blank
  cases blank

theorem isJoined_nil : IsJoined [] := by
  intro before c prefixed
  simp at prefixed

/-- A character can follow if it is none that separates. -/
theorem IsJoined.concat {c : Char} (joined : IsJoined w)
    (follows : isBlank c = true → Odd (w.count '"')) : IsJoined (w ++ [c]) := by
  intro before d prefixed blank
  rcases List.prefix_concat_iff.1 prefixed with same | earlier
  · obtain ⟨rfl, last⟩ := List.append_inj' same rfl
    obtain rfl := (List.cons.inj last).1
    exact follows blank
  · exact joined before d earlier blank

/-- Every text whose quotes are all closed has words: `w` is what is read of the one under way. -/
theorem exists_hasWords_append (joined : IsJoined w) (closed : Even ((w ++ cs).count '"')) :
    ∃ words, HasWords (w ++ cs) words := by
  induction cs generalizing w with
  | nil =>
    rw [List.append_nil] at closed ⊢
    rcases eq_or_ne w [] with rfl | nonempty
    · exact ⟨[], .nil⟩
    · exact ⟨[w], by simpa using HasWords.word ⟨nonempty, joined, closed⟩ (by simp) .nil⟩
  | cons c cs ih =>
    by_cases separates : isBlank c = true ∧ Even (w.count '"')
    · obtain ⟨blank, even⟩ := separates
      have other := ne_quote_of_isBlank blank
      have rest : Even (([] ++ cs).count '"') := by
        rw [List.count_append, List.count_cons_of_ne other] at closed
        exact (Nat.even_add.1 closed).1 even
      obtain ⟨words, has⟩ := ih isJoined_nil rest
      have has : HasWords (c :: cs) words := .blank blank has
      rcases eq_or_ne w [] with rfl | nonempty
      · exact ⟨words, has⟩
      · exact ⟨w :: words, .word ⟨nonempty, joined, even⟩ (by simpa using blank) has⟩
    · have follows : isBlank c = true → Odd (w.count '"') := fun blank =>
        Nat.not_even_iff_odd.1 fun even => separates ⟨blank, even⟩
      rw [List.append_cons] at closed ⊢
      exact ih (joined.concat follows) closed

theorem exists_hasWords (closed : Even (cs.count '"')) : ∃ words, HasWords cs words :=
  exists_hasWords_append (w := []) isJoined_nil closed

/-! ### The scanner on words -/

theorem unquoted_concat (w : List Char) (c : Char) :
    unquoted (w ++ [c]) = if c = '"' then unquoted w else (unquoted w).push c := by
  rw [← String.toList_inj]
  split <;> simp_all [unquoted]

/-- A quotation mark ends a quoted stretch or begins one, and nothing else does. -/
theorem odd_count_concat (w : List Char) (c : Char) :
    decide (Odd ((w ++ [c]).count '"')) = if c = '"' then !decide (Odd (w.count '"'))
      else decide (Odd (w.count '"')) := by
  split
  · rename_i quote
    rw [quote, List.count_append, List.count_singleton_self]
    simp only [Nat.odd_add_one, decide_not]
  · rename_i other
    rw [List.count_append, List.count_cons_of_ne other, List.count_nil, Nat.add_zero]

/-- The scanner inside a word: `before` is read of it, and the stretch goes to its token. -/
theorem tokensFrom?_joined (before stretch rest : List Char)
    (joined : IsJoined (before ++ stretch)) :
    tokensFrom? (some (unquoted before)) (decide (Odd (before.count '"'))) (stretch ++ rest) =
      tokensFrom? (some (unquoted (before ++ stretch)))
        (decide (Odd ((before ++ stretch).count '"'))) rest := by
  induction stretch generalizing before with
  | nil => rw [List.nil_append, List.append_nil]
  | cons c stretch ih =>
    have follows : isBlank c = true → Odd (before.count '"') :=
      joined before c (by simp)
    rw [List.append_cons] at joined ⊢
    rw [← ih _ joined, List.cons_append, tokensFrom?, unquoted_concat, odd_count_concat,
      Option.getD_some]
    by_cases quote : c = '"'
    · rw [if_pos quote, if_pos quote, if_pos quote]
    · have stays : ¬(isBlank c && !decide (Odd (before.count '"'))) = true := by
        simpa using follows
      rw [if_neg quote, if_neg quote, if_neg quote, if_neg stays]

/-- White space ends the token under way, if there is one. -/
theorem tokensFrom?_blank {c : Char} (blank : isBlank c = true) :
    tokensFrom? token false (c :: cs) = (tokensFrom? none false cs).map (token.toList ++ ·) := by
  have separates : (isBlank c && !false) = true := by rw [blank]; rfl
  rw [tokensFrom?, if_neg (ne_quote_of_isBlank blank), if_pos separates]

/-- A word makes its token, if white space or the end comes behind it. -/
theorem tokensFrom?_word (word : IsWord w) (ends : ∀ c ∈ cs.head?, isBlank c = true) :
    tokensFrom? none false (w ++ cs) = (tokensFrom? none false cs).map (unquoted w :: ·) := by
  obtain ⟨nonempty, joined, closed⟩ := word
  have begun : tokensFrom? none false (w ++ cs) = tokensFrom? (some (unquoted w)) false cs := by
    have read := tokensFrom?_joined [] w cs joined
    rw [List.nil_append, decide_eq_false (Nat.not_odd_iff_even.2 closed)] at read
    rw [← read]
    obtain ⟨c, w, rfl⟩ := List.exists_cons_of_ne_nil nonempty
    have visible : isBlank c = false := by
      rw [← Bool.not_eq_true]
      exact fun blank => absurd (joined [] c (by simp) blank) (by simp)
    simp [tokensFrom?, visible, unquoted]
  rw [begun]
  cases cs with
  | nil => rfl
  | cons c cs =>
    have blank : isBlank c = true := ends c rfl
    rw [tokensFrom?_blank blank, tokensFrom?_blank blank, Option.map_map]
    rfl

/-- The tokens of a text with words are those words, without their quotation marks. -/
theorem HasWords.tokensFrom? (has : HasWords cs words) :
    Client.tokensFrom? none false cs = some (words.map unquoted) := by
  induction has with
  | nil => rfl
  | blank blank has ih =>
    rw [tokensFrom?_blank blank, ih]
    rfl
  | word word ends has ih => rw [tokensFrom?_word word ends, ih, Option.map_some, List.map_cons]

/-- Tokens are only found if the quotes of the text are all closed. -/
theorem even_count_of_tokensFrom? (read : tokensFrom? token isQuoted cs = some tokens) :
    Even (cs.count '"') ↔ isQuoted = false := by
  induction cs generalizing token isQuoted tokens with
  | nil =>
    rw [tokensFrom?] at read
    split at read
    · cases read
    · simpa using ‹¬isQuoted = true›
  | cons c cs ih =>
    rw [tokensFrom?] at read
    split at read
    · rename_i quote
      rw [quote, List.count_cons_self, Nat.even_add_one, ih read]
      simp
    · rename_i other
      rw [List.count_cons_of_ne other]
      split at read
      · rename_i separates
        obtain ⟨later, read, -⟩ := Option.map_eq_some_iff.1 read
        rw [ih read]
        simpa using (Bool.and_eq_true_iff.1 separates).2
      · exact ih read

/-- What a text is read as: its words, each without its quotation marks. -/
theorem tokens?_eq_some_iff :
    tokens? text = some tokens ↔
      ∃ words, HasWords text.toList words ∧ tokens = words.map unquoted := by
  constructor
  · intro read
    have closed := (even_count_of_tokensFrom? read).2 rfl
    obtain ⟨words, has⟩ := exists_hasWords closed
    exact ⟨words, has, Option.some.inj (read.symm.trans has.tokensFrom?)⟩
  · rintro ⟨words, has, rfl⟩
    exact has.tokensFrom?

/-- A text has no tokens if one of its quoted stretches is never closed. -/
theorem tokens?_eq_none_iff : tokens? text = none ↔ Odd (text.toList.count '"') := by
  rw [← Nat.not_even_iff_odd, Option.eq_none_iff_forall_ne_some]
  constructor
  · intro unread closed
    obtain ⟨words, has⟩ := exists_hasWords closed
    exact unread _ has.tokensFrom?
  · intro opened tokens read
    exact opened ((even_count_of_tokensFrom? read).2 rfl)

end Client

namespace Options

variable {before : Option String} {option value text : String} {values tokens rest : List String}

/-! ### Options and values -/

/-- The first token at an even position that is not `-ipc`. -/
def IsUnrecognized (tokens : List String) (option : String) : Prop :=
  ∃ i, tokens[2 * i]? = some option ∧ option ≠ "-ipc" ∧ ∀ j < i, tokens[2 * j]? = some "-ipc"

theorem giving_cons (value : String) (values : List String) :
    giving (value :: values) = "-ipc" :: value :: giving values := rfl

/-- Whatever tokens are, they give names first, and then comes what gives none. -/
theorem exists_giving_append (tokens : List String) :
    ∃ values rest, tokens = giving values ++ rest ∧
      (rest = [] ∨ rest = ["-ipc"] ∨ ∃ option more, rest = option :: more ∧ option ≠ "-ipc") := by
  fun_induction nameOf? none tokens with
  | case1 => exact ⟨[], [], rfl, .inl rfl⟩
  | case2 _ value tokens ih =>
    obtain ⟨values, rest, rfl, ends⟩ := ih
    exact ⟨value :: values, rest, rfl, ends⟩
  | case3 => exact ⟨[], _, rfl, .inr (.inl rfl)⟩
  | case4 _ option tokens other alone =>
    refine ⟨[], _, rfl, .inr (.inr ⟨option, tokens, rfl, ?_⟩)⟩
    rintro rfl
    cases tokens with
    | nil => exact alone rfl rfl
    | cons value tokens => exact other value tokens rfl rfl

/-- Names that are given are read one after the other, and the last one takes the place of the
others. -/
theorem nameOf?_giving (values rest : List String) :
    nameOf? before (giving values ++ rest) = nameOf? (values.getLast?.or before) rest := by
  induction values generalizing before with
  | nil => rfl
  | cons value values ih =>
    rw [giving_cons, List.cons_append, List.cons_append, nameOf?, ih]
    cases values <;> simp [List.getLast?_cons]

theorem getElem?_giving_append (values rest : List String) (i : Nat) :
    (giving values ++ rest)[2 * i]? =
      if i < values.length then some "-ipc" else rest[2 * (i - values.length)]? := by
  induction values generalizing i with
  | nil => rfl
  | cons value values ih =>
    cases i with
    | zero => simp [giving_cons]
    | succ i =>
      rw [giving_cons, Nat.mul_succ]
      simpa using ih i

/-- The first token that is no option it knows stands right behind the names that are given. -/
theorem isUnrecognized_iff :
    IsUnrecognized tokens option ↔
      option ≠ "-ipc" ∧ ∃ values more, tokens = giving values ++ option :: more := by
  constructor
  · rintro ⟨i, here, other, earlier⟩
    obtain ⟨values, rest, rfl, ends⟩ := exists_giving_append tokens
    simp only [getElem?_giving_append] at here earlier
    have late : ¬i < values.length := by
      intro early
      rw [if_pos early] at here
      exact other (Option.some.inj here).symm
    rw [if_neg late] at here
    rcases ends with rfl | rfl | ⟨option', more, rfl, other'⟩
    · cases here
    · obtain ⟨_, same⟩ := List.getElem?_eq_some_iff.1 here
      exact absurd (by simpa using same.symm) other
    · -- The stretch of names ends at the first token that is none of `-ipc`.
      have first : i = values.length := by
        by_contra behind
        have ipc := earlier values.length (by omega)
        rw [if_neg (lt_irrefl _), Nat.sub_self] at ipc
        exact other' (Option.some.inj ipc)
      rw [first, Nat.sub_self] at here
      obtain rfl : option' = option := Option.some.inj here
      exact ⟨other, values, more, rfl⟩
  · rintro ⟨other, values, more, rfl⟩
    refine ⟨values.length, ?_, other, fun j early => ?_⟩
    · rw [getElem?_giving_append, if_neg (lt_irrefl _), Nat.sub_self]
      rfl
    · rw [getElem?_giving_append, if_pos early]

/-- Tokens are refused for the first one that stands where an option has to and is none. -/
theorem ofTokens_of_isUnrecognized (unrecognized : IsUnrecognized tokens option) :
    ofTokens tokens = .error (.unrecognized option) := by
  obtain ⟨other, values, more, rfl⟩ := isUnrecognized_iff.1 unrecognized
  rw [ofTokens, nameOf?_giving, nameOf?]
  · rfl
  · rintro value rest rfl
    exact absurd rfl other
  · rintro rfl
    exact absurd rfl other

/-- Tokens with an option at each even position give names, and `-ipc` may stand behind them. -/
theorem recognized_cases (recognized : ∀ option, ¬IsUnrecognized tokens option) :
    ∃ values, tokens = giving values ∨ tokens = giving values ++ ["-ipc"] := by
  obtain ⟨values, rest, rfl, rfl | rfl | ⟨option, more, rfl, other⟩⟩ := exists_giving_append tokens
  · exact ⟨values, .inl (List.append_nil _)⟩
  · exact ⟨values, .inr rfl⟩
  · exact absurd (isUnrecognized_iff.2 ⟨other, values, more, rfl⟩) (recognized option)

/-- Tokens that end where a value has to stand are refused. -/
theorem ofTokens_of_odd (recognized : ∀ option, ¬IsUnrecognized tokens option)
    (odd : Odd tokens.length) : ofTokens tokens = .error .missingValue := by
  obtain ⟨values, rfl | rfl⟩ := recognized_cases recognized
  · rw [length_giving] at odd
    exact absurd (even_two_mul _) (Nat.not_even_iff_odd.2 odd)
  · rw [ofTokens, nameOf?_giving]
    rfl

/-- Of the values that are given, the last one counts. -/
theorem ofTokens_of_even (recognized : ∀ option, ¬IsUnrecognized tokens option)
    (even : Even tokens.length) (last : tokens.getLast? = some value) :
    ofTokens tokens = if isName value then .ok ⟨value⟩ else .error (.malformedName value) := by
  obtain ⟨values, rfl | rfl⟩ := recognized_cases recognized
  · obtain ⟨earlier, value', rfl⟩ : ∃ earlier value', values = earlier ++ [value'] := by
      rcases List.eq_nil_or_concat values with rfl | ⟨earlier, value', rfl⟩
      · cases last
      · exact ⟨earlier, value', by rw [List.concat_eq_append]⟩
    obtain rfl : value' = value := by simpa [giving] using last
    rw [ofTokens, ← List.append_nil (giving _), nameOf?_giving, List.getLast?_concat]
    rfl
  · rw [List.length_append, length_giving, List.length_singleton] at even
    exact absurd even (Nat.not_even_two_mul_add_one _)

end Options

/-- The result of every option text. If its quotation marks are odd in number, a quoted stretch is
never closed. Otherwise it has tokens, those of its words, however they are found; the first one at
an even position that is not `-ipc` is reported, then a last `-ipc` without a value, then that there
is no name at all, and at last the last value, unless it can name a pipe. -/
theorem parse_exact (text : String) :
    (Odd (text.toList.count '"') → Options.parse text = .error .unterminatedQuote) ∧
    (Even (text.toList.count '"') → ∃ tokens, Client.tokens? text = some tokens ∧
      (∃ words, Client.HasWords text.toList words ∧ words.map Client.unquoted = tokens) ∧
      (∀ words, Client.HasWords text.toList words → words.map Client.unquoted = tokens) ∧
      (∀ option, Options.IsUnrecognized tokens option →
        Options.parse text = .error (.unrecognized option)) ∧
      ((∀ option, ¬Options.IsUnrecognized tokens option) →
        (Odd tokens.length → Options.parse text = .error .missingValue) ∧
        (tokens = [] → Options.parse text = .error .missingName) ∧
        (Even tokens.length → ∀ value, tokens.getLast? = some value →
          (value = "" ∨ '/' ∈ value.toList ∨ '\\' ∈ value.toList ∨ '\x00' ∈ value.toList →
            Options.parse text = .error (.malformedName value)) ∧
          (value ≠ "" → '/' ∉ value.toList → '\\' ∉ value.toList → '\x00' ∉ value.toList →
            Options.parse text = .ok ⟨value⟩)))) := by
  constructor
  · intro odd
    rw [Options.parse, Client.tokens?_eq_none_iff.2 odd]
  · intro closed
    obtain ⟨tokens, read⟩ : ∃ tokens, Client.tokens? text = some tokens := by
      rw [← Option.isSome_iff_exists, Option.isSome_iff_ne_none, Ne, Client.tokens?_eq_none_iff]
      exact Nat.not_odd_iff_even.2 closed
    have parsed : Options.parse text = Options.ofTokens tokens := by rw [Options.parse, read]
    obtain ⟨words, has, same⟩ := Client.tokens?_eq_some_iff.1 read
    rw [parsed]
    refine ⟨tokens, read, ⟨words, has, same.symm⟩, fun words has => ?_,
      fun option => Options.ofTokens_of_isUnrecognized, fun recognized =>
      ⟨Options.ofTokens_of_odd recognized, ?_, fun even value last => ?_⟩⟩
    · exact Option.some.inj (has.tokensFrom?.symm.trans read)
    · rintro rfl
      rfl
    · rw [Options.ofTokens_of_even recognized even last]
      constructor
      · intro bad
        rw [Options.isName_eq_false_iff.2 bad]
        rfl
      · intro nonempty slash backslash nul
        have valid : Options.isName value = true := by
          rw [← Bool.not_eq_false, Options.isName_eq_false_iff]
          simp [nonempty, slash, backslash, nul]
        rw [if_pos valid]

/-- An `-ipc` that stands where a value has to is one, and a name that cannot be is overridden. -/
example : Options.parse "-ipc -ipc -ipc a/b -ipc\t\"my \"pipe" = .ok ⟨"my pipe"⟩ := by
  decide +kernel

end AccessTrace
