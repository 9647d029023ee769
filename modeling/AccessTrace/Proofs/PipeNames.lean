import Mathlib
import AccessTrace.Commands

/-!
# The pipe that is asked for

The consumer puts the name of its pipe between quotation marks, as it is, and reads the text as the
options of a client (`Options.textFor`). A name without a quotation mark comes back unchanged or is
refused; one with a quotation mark never comes back, and the text can be that of other names
(`pipe_named_iff`).
-/

namespace AccessTrace

namespace Client

variable {token : Option String} {isQuoted : Bool} {cs : List Char} {tokens : List String}

/-- A stretch of characters that neither separate tokens nor are quotation marks goes to the
token. -/
theorem tokensFrom?_stretch (stays : ∀ c ∈ cs, c ≠ '"' ∧ (isBlank c && !isQuoted) = false)
    (token : String) (rest : List Char) :
    tokensFrom? (some token) isQuoted (cs ++ rest) =
      tokensFrom? (some (token ++ String.ofList cs)) isQuoted rest := by
  induction cs generalizing token with
  | nil => rw [List.nil_append, String.ofList_nil, String.append_empty]
  | cons c cs ih =>
    obtain ⟨other, joins⟩ := stays c List.mem_cons_self
    have joined : token.push c ++ String.ofList cs = token ++ String.ofList (c :: cs) := by
      rw [← String.toList_inj]
      simp
    rw [List.cons_append, tokensFrom?, if_neg other, if_neg (Bool.eq_false_iff.1 joins),
      ih fun c mem => stays c (List.mem_cons_of_mem _ mem), Option.getD_some, joined]

theorem quote_not_mem_getD (clean : ∀ t ∈ token, '"' ∉ t.toList) :
    '"' ∉ (token.getD "").toList := by
  cases token with
  | none => simp
  | some t => exact clean t rfl

/-- A quotation mark is no part of any token. -/
theorem quote_not_mem (read : tokensFrom? token isQuoted cs = some tokens)
    (clean : ∀ t ∈ token, '"' ∉ t.toList) : ∀ t ∈ tokens, '"' ∉ t.toList := by
  induction cs generalizing token isQuoted tokens with
  | nil =>
    intro t mem
    rw [tokensFrom?] at read
    split at read
    · cases read
    · cases read
      exact clean t (Option.mem_toList.1 mem)
  | cons c cs ih =>
    have begun := quote_not_mem_getD clean
    rw [tokensFrom?] at read
    split at read
    · refine ih read fun t mem => ?_
      rw [← Option.some.inj mem]
      exact begun
    · rename_i other
      split at read
      · obtain ⟨later, rest, rfl⟩ := Option.map_eq_some_iff.1 read
        intro t mem
        rcases List.mem_append.1 mem with own | mem
        · exact clean t (Option.mem_toList.1 own)
        · refine ih rest (fun t none => ?_) t mem
          cases none
      · refine ih read fun t mem => ?_
        rw [← Option.some.inj mem, String.toList_push, List.mem_append, List.mem_singleton, not_or]
        exact ⟨begun, Ne.symm other⟩

end Client

namespace Options

variable {name value text : String} {tokens : List String} {o : Options}

/-- The tokens that give names, one after the other. -/
def giving (values : List String) : List String := values.flatMap fun value => ["-ipc", value]

theorem length_giving (values : List String) : (giving values).length = 2 * values.length := by
  simp [giving, Nat.mul_comm]

/-- The text that asks for a pipe reads as a list of names, the last one of which is `value`. -/
def ReadsAs (name value : String) : Prop :=
  ∃ earlier, Client.tokens? (textFor name) = some (giving (earlier ++ [value]))

/-- Tokens name a pipe if they give names and nothing else; the last one counts. -/
theorem nameOf?_eq_ok_iff {before : Option String} {last : Option String} :
    nameOf? before tokens = .ok last ↔
      ∃ values, tokens = giving values ∧ last = values.getLast?.or before := by
  fun_induction nameOf? before tokens with
  | case1 before =>
    constructor
    · rintro ⟨⟩
      exact ⟨[], rfl, rfl⟩
    · rintro ⟨values, none, rfl⟩
      cases values with
      | nil => rfl
      | cons value values => cases none
  | case2 before value rest ih =>
    rw [ih]
    constructor
    · rintro ⟨values, rfl, rfl⟩
      refine ⟨value :: values, rfl, ?_⟩
      cases values <;> simp [List.getLast?_cons]
    · rintro ⟨values, same, rfl⟩
      cases values with
      | nil => cases same
      | cons value' values =>
        obtain ⟨rfl, rest⟩ := List.cons.inj (List.cons.inj same).2
        refine ⟨values, rest, ?_⟩
        cases values <;> simp [List.getLast?_cons]
  | case3 before =>
    constructor
    · rintro ⟨⟩
    · rintro ⟨values, odd, -⟩
      cases values with
      | nil => cases odd
      | cons value values => cases odd
  | case4 before option rest other alone =>
    constructor
    · rintro ⟨⟩
    · rintro ⟨values, same, -⟩
      cases values with
      | nil => cases same
      | cons value values =>
        obtain ⟨rfl, rfl⟩ := List.cons.inj same
        exact (other value _ rfl rfl).elim

/-- The name is read inside the quoted stretch that `-ipc` is followed by. -/
theorem tokens?_textFor (name : String) :
    Client.tokens? (textFor name) =
      (Client.tokensFrom? (some "") true (name.toList ++ ['"'])).map ("-ipc" :: ·) := by
  have text : (textFor name).toList =
      ['-', 'i', 'p', 'c'] ++ ' ' :: '"' :: (name.toList ++ ['"']) := by
    simp [textFor]
  have visible : isBlank '-' = false ∧ isBlank 'i' = false ∧ isBlank 'p' = false ∧
      isBlank 'c' = false := by decide
  have option : ∀ rest, Client.tokensFrom? none false (['-', 'i', 'p', 'c'] ++ rest) =
      Client.tokensFrom? (some "-ipc") false rest := by
    simp [Client.tokensFrom?, visible]
  rw [Client.tokens?, text, option, Client.tokensFrom?, if_neg (by decide), if_pos (by decide),
    Client.tokensFrom?, if_pos rfl]
  rfl

/-- A name without a quotation mark is the only name in its text. -/
theorem tokens?_plain (plain : '"' ∉ name.toList) :
    Client.tokens? (textFor name) = some (giving [name]) := by
  have stays : ∀ c ∈ name.toList, c ≠ '"' ∧ (isBlank c && !true) = false := by
    intro c mem
    refine ⟨?_, Bool.and_false _⟩
    rintro rfl
    exact plain mem
  rw [tokens?_textFor, Client.tokensFrom?_stretch stays, String.empty_append, String.ofList_toList,
    Client.tokensFrom?, if_pos rfl]
  rfl

/-- No name that is read has a quotation mark. -/
theorem ReadsAs.plain (reads : ReadsAs name value) : '"' ∉ value.toList := by
  obtain ⟨earlier, read⟩ := reads
  refine Client.quote_not_mem read (fun t none => ?_) value ?_
  · cases none
  · simp [giving]

/-- The options of a text are those of the last name that it gives, if it can name a pipe. -/
theorem parse_eq_ok_iff :
    parse text = .ok o ↔
      (∃ earlier, Client.tokens? text = some (giving (earlier ++ [o.pipeName]))) ∧
        isName o.pipeName = true := by
  obtain ⟨value⟩ := o
  cases read : Client.tokens? text with
  | none => simp [parse, read]
  | some tokens =>
    have named : nameOf? none tokens = .ok (some value) ↔
        ∃ earlier, tokens = giving (earlier ++ [value]) := by
      rw [nameOf?_eq_ok_iff]
      constructor
      · rintro ⟨values, rfl, last⟩
        rw [Option.or_none] at last
        obtain ⟨earlier, rfl⟩ := List.getLast?_eq_some_iff.1 last.symm
        exact ⟨earlier, rfl⟩
      · rintro ⟨earlier, rfl⟩
        exact ⟨_, rfl, by simp⟩
    simp only [parse, read, Option.some.injEq, ← named, ofTokens]
    cases nameOf? none tokens with
    | error e => simp [bind, Except.bind]
    | ok last =>
      cases last with
      | none => simp [bind, Except.bind]
      | some last =>
        simp only [bind, Except.bind, Except.ok.injEq, Option.some.injEq]
        by_cases same : last = value
        · rw [same]
          split <;> simp_all
        · split <;> simp_all

/-- A text names no pipe if it is empty or has one of the characters that are forbidden. -/
theorem isName_eq_false_iff :
    isName name = false ↔
      name = "" ∨ '/' ∈ name.toList ∨ '\\' ∈ name.toList ∨ '\x00' ∈ name.toList := by
  have forbidden : name.toList.any isForbidden = true ↔
      '/' ∈ name.toList ∨ '\\' ∈ name.toList ∨ '\x00' ∈ name.toList := by
    simp only [List.any_eq_true, isForbidden, Bool.or_eq_true, decide_eq_true_eq]
    constructor
    · rintro ⟨c, mem, (rfl | rfl) | rfl⟩
      · exact .inl mem
      · exact .inr (.inl mem)
      · exact .inr (.inr mem)
    · rintro (mem | mem | mem)
      · exact ⟨_, mem, .inl (.inl rfl)⟩
      · exact ⟨_, mem, .inl (.inr rfl)⟩
      · exact ⟨_, mem, .inr rfl⟩
  rw [← forbidden, isName, Bool.and_eq_false_iff, Bool.not_eq_false', Bool.not_eq_false',
    String.isEmpty_iff]

/-- A name without a quotation mark is read as itself. -/
theorem readsAs_plain (plain : '"' ∉ name.toList) : ReadsAs name value ↔ value = name := by
  rw [ReadsAs, tokens?_plain plain]
  constructor
  · rintro ⟨earlier, same⟩
    -- One name makes two tokens, so that there is none before the last.
    have count := congrArg List.length (Option.some.inj same)
    rw [length_giving, length_giving, List.length_append, List.length_singleton,
      List.length_singleton] at count
    have none : earlier.length = 0 := by omega
    obtain rfl := List.eq_nil_of_length_eq_zero none
    simpa [giving, eq_comm] using same
  · rintro rfl
    exact ⟨[], rfl⟩

end Options

/-- The pipe that is made for a name is that of the name which the options give. It is the name that
was asked for, unless that has a quotation mark and its text reads as other names, the last of which
can name a pipe; a name without a quotation mark is refused exactly if it is empty or has a
character that is forbidden. -/
theorem pipe_named_iff (name : String) :
    ((∀ o, Options.parse (Options.textFor name) = .ok o → o.pipeName = name) ↔
      ('"' ∈ name.toList → ∀ value, Options.isName value = true → ¬Options.ReadsAs name value)) ∧
    ('"' ∉ name.toList → ((∃ e, Options.parse (Options.textFor name) = .error e) ↔
      name = "" ∨ '/' ∈ name.toList ∨ '\\' ∈ name.toList ∨ '\x00' ∈ name.toList)) ∧
    ∀ pipes o made, pipeFor name pipes = .ok (o, made) →
      Options.parse (Options.textFor name) = .ok o ∧ pipes.make o.pipeName = .ok made := by
  have parsed : ∀ o, Options.parse (Options.textFor name) = .ok o ↔
      Options.ReadsAs name o.pipeName ∧ Options.isName o.pipeName = true :=
    fun o => Options.parse_eq_ok_iff
  refine ⟨?_, fun plain => ?_, fun pipes o made success => ?_⟩
  · constructor
    · intro kept quoted value valid reads
      have same : value = name := kept ⟨value⟩ ((parsed ⟨value⟩).2 ⟨reads, valid⟩)
      exact reads.plain (same ▸ quoted)
    · intro unread o accepted
      obtain ⟨reads, valid⟩ := (parsed o).1 accepted
      by_cases quoted : '"' ∈ name.toList
      · exact absurd reads (unread quoted _ valid)
      · exact (Options.readsAs_plain quoted).1 reads
  · rw [← Options.isName_eq_false_iff, ← Bool.not_eq_true]
    cases outcome : Options.parse (Options.textFor name) with
    | ok o =>
      obtain ⟨reads, valid⟩ := (parsed o).1 outcome
      rw [(Options.readsAs_plain plain).1 reads] at valid
      simp [valid]
    | error e =>
      simp only [Except.error.injEq, exists_eq', true_iff]
      intro valid
      have accepted := (parsed ⟨name⟩).2 ⟨(Options.readsAs_plain plain).2 rfl, valid⟩
      cases outcome.symm.trans accepted
  · unfold pipeFor at success
    cases outcome : Options.parse (Options.textFor name) with
    | error e => simp [outcome, orComplain, bind, Except.bind, Except.mapError] at success
    | ok client =>
      cases making : pipes.make client.pipeName with
      | error e =>
        simp [outcome, making, orComplain, bind, Except.bind, Except.mapError] at success
      | ok pipes' =>
        simp only [outcome, making, orComplain, bind, Except.bind, Except.mapError, pure,
          Except.pure, Except.ok.injEq, Prod.mk.injEq] at success
        obtain ⟨rfl, rfl⟩ := success
        exact ⟨rfl, making⟩

/-- A name that has a slash, and quotation marks that make its text ask for two pipes: it is not
refused, and the options name the second one. -/
theorem pipe_renamed :
    Options.isName "a/b\" -ipc \"c" = false ∧
      ∃ o, Options.parse (Options.textFor "a/b\" -ipc \"c") = .ok o ∧
        o.pipeName ≠ "a/b\" -ipc \"c" :=
  ⟨by decide +kernel, ⟨"c"⟩, by decide +kernel, by decide⟩

end AccessTrace
