import WordLexer.Proofs.Grammar
import WordLexer.Proofs.KeywordLookup
import WordLexer.Proofs.LoggedScan
import WordLexer.Proofs.Spacing

/-!
# Reading runs onto tokens

A run adds its token to the tokens so far or it adds nothing, and it never touches the log: the
issue of a run is handed to the one who asked for it.  This holds of any run, with any characters
at any positions, and after any others, also after those that were refused.  The runs that are
accepted are given as a language (`Grammar.name`).
-/

namespace WordLexer

/-! ## Names -/

namespace Grammar

/-- An identifier, with or without one line feed behind it. -/
def name : Language Char := identifier * (1 + char (· == '\n'))

theorem mem_name_iff {text : List Char} :
    text ∈ name ↔ ∃ word ∈ identifier, text = word ∨ text = word ++ ['\n'] := by
  rw [name, Language.mem_mul]
  constructor
  · rintro ⟨word, hword, rest, hrest, rfl⟩
    refine ⟨word, hword, ?_⟩
    rcases (Language.mem_add _ _ _).mp hrest with hnil | ⟨c, hc, rfl⟩
    · rw [(Language.mem_one _).mp hnil, List.append_nil]
      exact .inl rfl
    · rw [beq_iff_eq.mp hc]
      exact .inr rfl
  · rintro ⟨word, hword, rfl | rfl⟩
    · exact ⟨text, hword, [], (Language.mem_add _ _ _).mpr (.inl Language.nil_mem_one),
        List.append_nil text⟩
    · exact ⟨word, hword, ['\n'],
        (Language.mem_add _ _ _).mpr (.inr (mem_char.mpr ⟨'\n', rfl, rfl⟩)), rfl⟩

theorem mem_name {text : List Char} : text ∈ name ↔ Text.isName text = true := by
  rw [mem_name_iff]
  constructor
  · rintro ⟨word, hword, rfl | rfl⟩
    · have hidentifier := mem_identifier.mp hword
      rw [Text.isName_eq_isIdentifier (Text.all_isWordChar_of_isIdentifier hidentifier)]
      exact hidentifier
    · rw [Text.isName, Text.dropFinalLineFeed, if_pos List.getLast?_concat, List.dropLast_concat]
      exact mem_identifier.mp hword
  · intro h
    rw [Text.isName, Text.dropFinalLineFeed] at h
    by_cases hlast : text.getLast? = some '\n'
    · rw [if_pos hlast] at h
      obtain ⟨word, rfl⟩ := List.getLast?_eq_some_iff.mp hlast
      rw [List.dropLast_concat] at h
      exact ⟨word, mem_identifier.mpr h, .inr rfl⟩
    · rw [if_neg hlast] at h
      exact ⟨text, mem_identifier.mpr h, .inl rfl⟩

end Grammar

/-- No reserved word holds a line feed. -/
theorem Kind.ofWord_of_lineFeed_mem {word : String} (h : '\n' ∈ word.toList) :
    ofWord word = identifier := by
  have hreserved : ∀ kind ∈ reserved, '\n' ∉ kind.spelling.toList := by decide
  by_contra hkeyword
  obtain ⟨kind, hmem, rfl⟩ := isReserved_iff.mp (ofWord_ne_identifier_iff.mp hkeyword)
  exact hreserved kind hmem h

namespace Run

/-! ## One run -/

/-- What a run comes to that is read onto some tokens, with the tokens that there are then. -/
inductive ReadsAs (tokens : List Token) : Run → Option Issue × List Token → Prop where
  -- An empty run changes nothing.
  | empty : ReadsAs tokens [] (none, tokens)
  -- A name adds one token, from the first character to the last.
  | accepted {run : Run} {first last : LocatedChar} (hfirst : run.head? = some first)
      (hlast : run.getLast? = some last) (hname : LocatedChar.text run ∈ Grammar.name) :
      ReadsAs tokens run (none,
        tokens ++ [⟨⟨Kind.ofWord (word run), word run⟩, ⟨first.position, last.position⟩⟩])
  -- Any other run adds nothing and is an issue, from the first character to the last.
  | refused {run : Run} {first last : LocatedChar} (hfirst : run.head? = some first)
      (hlast : run.getLast? = some last) (hname : LocatedChar.text run ∉ Grammar.name) :
      ReadsAs tokens run
        (some ⟨.malformedWord (word run), some ⟨first.position, last.position⟩⟩, tokens)

/-- The token of a run, if its text is a name. -/
def token? (run : Run) : Option Token :=
  match run with
  | [] => none
  | head :: tail =>
    if Text.isName (LocatedChar.text run) then some ⟨.ofWord (word run), span head tail⟩ else none

theorem readOnto_cons (tokens : List Token) (head : LocatedChar) (tail : Run) :
    readOnto tokens (head :: tail) =
      if Text.isName (LocatedChar.text (head :: tail)) then
        (none, tokens ++ [⟨.ofWord (word (head :: tail)), span head tail⟩])
      else (some ⟨.malformedWord (word (head :: tail)), some (span head tail)⟩, tokens) := by
  rw [readOnto, read_cons]
  cases Text.isName (LocatedChar.text (head :: tail)) <;> rfl

theorem readsAs_readOnto (tokens : List Token) (run : Run) :
    ReadsAs tokens run (readOnto tokens run) := by
  cases run with
  | nil =>
    show ReadsAs tokens [] (none, tokens ++ [])
    rw [List.append_nil]
    exact .empty
  | cons head tail =>
    have hlast : (head :: tail).getLast? = some (tail.getLast?.getD head) := List.getLast?_cons
    rw [readOnto_cons]
    by_cases hname : Text.isName (LocatedChar.text (head :: tail)) = true
    · rw [if_pos hname]
      exact .accepted rfl hlast (Grammar.mem_name.mpr hname)
    · rw [if_neg hname]
      exact .refused rfl hlast (mt Grammar.mem_name.mp hname)

theorem snd_readOnto (tokens : List Token) (run : Run) :
    (readOnto tokens run).2 = tokens ++ run.token?.toList := by
  cases run with
  | nil => rfl
  | cons head tail =>
    rw [readOnto_cons, token?]
    split
    · rfl
    · exact (List.append_nil tokens).symm

/-- A run of word characters is accepted unless it is empty or starts with a digit. -/
theorem exists_readOnto_iff {run : Run} (hrun : ∀ c ∈ run, Text.isWordChar c.char = true)
    (tokens : List Token) :
    (∃ token, readOnto tokens run = (none, tokens ++ [token])) ↔
      ∃ first, run.head? = some first ∧ first.char.isDigit = false := by
  cases run with
  | nil =>
    constructor
    · rintro ⟨token, h⟩
      have hlength := congrArg (fun outcome => outcome.2.length) h
      simp [readOnto] at hlength
    · rintro ⟨first, h, -⟩
      cases h
  | cons head tail =>
    have htext : ∀ c ∈ LocatedChar.text (head :: tail), Text.isWordChar c = true := by
      intro c hc
      obtain ⟨located, hlocated, rfl⟩ := List.mem_map.mp hc
      exact hrun located hlocated
    rw [readOnto_cons, show Text.isName (LocatedChar.text (head :: tail)) = !head.char.isDigit from
      Text.isName_of_all htext]
    cases hdigit : head.char.isDigit with
    | false => exact ⟨fun _ => ⟨head, rfl, hdigit⟩, fun _ => ⟨_, rfl⟩⟩
    | true =>
      constructor
      · rintro ⟨token, h⟩
        cases h
      · rintro ⟨first, hfirst, hfalse⟩
        obtain rfl := Option.some.inj hfirst
        exact absurd (hdigit.symm.trans hfalse) (by decide)

/-! ## Runs in a row -/

/-- The tokens when the first `n` of some runs are read: those that were there before, and behind
them the tokens of the accepted runs. -/
def tokensAfter (tokens : List Token) (runs : List Run) (n : Nat) : List Token :=
  tokens ++ (runs.take n).filterMap token?

theorem tokensAfter_zero (tokens : List Token) (runs : List Run) :
    tokensAfter tokens runs 0 = tokens := List.append_nil tokens

theorem tokensAfter_cons (tokens : List Token) (run : Run) (runs : List Run) (n : Nat) :
    tokensAfter tokens (run :: runs) (n + 1) =
      tokensAfter (tokens ++ run.token?.toList) runs n := by
  rw [tokensAfter, tokensAfter, List.take_succ_cons, List.append_assoc, List.filterMap_cons]
  cases run.token? <;> rfl

/-- Each run is read onto the tokens that the runs before it leave. -/
theorem getElem?_readEach (tokens : List Token) (runs : List Run) (i : Nat) :
    (readEach tokens runs)[i]? = runs[i]?.map (readOnto (tokensAfter tokens runs i)) := by
  -- The induction is on the runs, for any tokens so far, as `readEach` hands them on.
  induction runs generalizing tokens i with
  | nil => rfl
  | cons run runs ih =>
    rw [readEach]
    cases i with
    | zero =>
      rw [tokensAfter_zero]
      rfl
    | succ i =>
      rw [List.getElem?_cons_succ, ih, snd_readOnto, List.getElem?_cons_succ, tokensAfter_cons]

theorem tokensAfter_succ (tokens : List Token) {runs : List Run} {i : Nat} {run : Run}
    (h : runs[i]? = some run) :
    tokensAfter tokens runs (i + 1) = tokensAfter tokens runs i ++ run.token?.toList := by
  rw [tokensAfter, List.take_add_one, h, List.filterMap_append, ← List.append_assoc, tokensAfter]
  cases hrun : run.token? with
  | none => simp [hrun]
  | some token => simp [hrun]

/-- What one run of a row does. -/
theorem exists_getElem?_readEach (tokens : List Token) {runs : List Run} {i : Nat} {run : Run}
    (h : runs[i]? = some run) :
    ∃ outcome, (readEach tokens runs)[i]? = some outcome ∧
      ReadsAs (tokensAfter tokens runs i) run outcome ∧
      outcome.2 = tokensAfter tokens runs (i + 1) := by
  refine ⟨readOnto (tokensAfter tokens runs i) run, ?_, readsAs_readOnto _ run, ?_⟩
  · rw [getElem?_readEach, h]
    rfl
  · rw [snd_readOnto, tokensAfter_succ tokens h]

theorem length_readEach (tokens : List Token) (runs : List Run) :
    (readEach tokens runs).length = runs.length := by
  induction runs generalizing tokens with
  | nil => rfl
  | cons run runs ih => rw [readEach, List.length_cons, ih, List.length_cons]

/-! ## Runs with a log -/

/-- Read a run onto tokens in a scan with a log. -/
def readIn (log : IssueLog) (tokens : List Token) (run : Run) :
    (Option Issue × List Token) × IssueLog :=
  match (LineScan.ofRun run).recordIn log with
  | (.ok more, after) => ((none, tokens ++ more), after)
  | (.error issue, after) => ((some issue, tokens), after)

/-- Read runs one after the other onto one list of tokens and with one log. -/
def readEachIn (log : IssueLog) (tokens : List Token) :
    List Run → List ((Option Issue × List Token) × IssueLog)
  | [] => []
  | run :: runs =>
    let step := readIn log tokens run
    step :: readEachIn step.2 step.1.2 runs

theorem readIn_eq (log : IssueLog) (tokens : List Token) (run : Run) :
    readIn log tokens run = (readOnto tokens run, log) := by
  rw [readIn, LineScan.recordIn, readOnto]
  show (match (run.read, log) with
    | (.ok more, after) => ((none, tokens ++ more), after)
    | (.error issue, after) => ((some issue, tokens), after)) = _
  cases run.read <;> rfl

theorem readEachIn_eq (log : IssueLog) (tokens : List Token) (runs : List Run) :
    readEachIn log tokens runs = (readEach tokens runs).map fun outcome => (outcome, log) := by
  induction runs generalizing tokens with
  | nil => rfl
  | cons run runs ih =>
    rw [readEachIn, readIn_eq]
    dsimp only
    rw [ih, readEach, List.map_cons]

theorem isWordChar_of_mem_runs {line : List LocatedChar} {run : Run}
    (h : run ∈ (LineRuns.ofLine line).first :: (LineRuns.ofLine line).rest.map Prod.snd) :
    ∀ c ∈ run, Text.isWordChar c.char = true := by
  obtain ⟨hfirst, hrest⟩ := LineRuns.isWordChar_ofLine line
  rcases List.mem_cons.mp h with rfl | h
  · exact hfirst
  · obtain ⟨pair, hpair, rfl⟩ := List.mem_map.mp h
    exact hrest pair hpair

/-- Whatever runs are read one after the other, and wherever their characters stand: the log stays
as it is, and a run adds its token if it is a name, else nothing.  So the tokens in the end are
those of the accepted runs in their order.  A name with a line feed is an identifier.  The runs of a
scanned line hold word characters only, and such a run is accepted exactly if it is not empty and
does not start with a digit. -/
theorem readEach_all_or_nothing (log : IssueLog) (tokens : List Token) (runs : List Run) :
    readEachIn log tokens runs = (readEach tokens runs).map (fun outcome => (outcome, log)) ∧
      (readEach tokens runs).length = runs.length ∧
      (∀ i run, runs[i]? = some run →
        ∃ outcome, (readEach tokens runs)[i]? = some outcome ∧
          ReadsAs (tokensAfter tokens runs i) run outcome ∧
          outcome.2 = tokensAfter tokens runs (i + 1)) ∧
      (∀ outcome, (readEach tokens runs).getLast? = some outcome →
        outcome.2 = tokens ++ runs.filterMap token?) ∧
      (∀ run : Run, '\n' ∈ LocatedChar.text run → Kind.ofWord (word run) = .identifier) ∧
      (∀ run : Run, (∀ c ∈ run, Text.isWordChar c.char = true) →
        ((∃ token, readOnto tokens run = (none, tokens ++ [token])) ↔
          ∃ first, run.head? = some first ∧ first.char.isDigit = false)) ∧
      ∀ line : List LocatedChar,
        ∀ run ∈ (LineRuns.ofLine line).first :: (LineRuns.ofLine line).rest.map Prod.snd,
          ∀ c ∈ run, Text.isWordChar c.char = true := by
  refine ⟨readEachIn_eq log tokens runs, length_readEach tokens runs,
    fun i run => exists_getElem?_readEach tokens, ?_, ?_,
    fun run hrun => exists_readOnto_iff hrun tokens, fun line run => isWordChar_of_mem_runs⟩
  · intro outcome hlast
    rw [List.getLast?_eq_getElem?, length_readEach, getElem?_readEach,
      Option.map_eq_some_iff] at hlast
    obtain ⟨run, hrun, rfl⟩ := hlast
    obtain ⟨hlt, -⟩ := List.getElem?_eq_some_iff.mp hrun
    have hlength : runs.length - 1 + 1 = runs.length := by omega
    rw [snd_readOnto, ← tokensAfter_succ tokens hrun, hlength, tokensAfter, List.take_length]
  · intro run hmem
    apply Kind.ofWord_of_lineFeed_mem
    rw [word, String.toList_ofList]
    exact hmem

/-- A malformed run, an empty one and then a keyword with a line feed, at positions that are not in
a row.  The keyword is read as an identifier, and its token is the only one. -/
theorem readEach_all_or_nothing_line_feed :
    ∃ (malformed named : Run) (token : Token) (outcome : Option Issue × List Token),
      [LocatedChar.text malformed, LocatedChar.text named] = [['1', 'a'], ['f', 'n', '\n']] ∧
        (readEach [] [malformed, [], named])[2]? = some outcome ∧
        ReadsAs [] named outcome ∧ outcome.2 = [token] ∧ token.lexeme = ⟨.identifier, "fn\n"⟩ ∧
        [token.span.first.column, token.span.last.column] = [30, -4] := by
  let position (line column : Int) : Position := ⟨⟨"a.l", line, column⟩, "x"⟩
  let malformed : Run := [⟨'1', position 7 30⟩, ⟨'a', position 2 0⟩]
  let named : Run := [⟨'f', position 7 30⟩, ⟨'n', position 2 0⟩, ⟨'\n', position 5 (-4)⟩]
  obtain ⟨-, -, hsteps, -, hidentifier, -⟩ :=
    readEach_all_or_nothing .empty [] [malformed, [], named]
  obtain ⟨outcome, houtcome, hreads, htokens⟩ := hsteps 2 named rfl
  have hkind : Kind.ofWord "fn\n" = .identifier := hidentifier named (by decide)
  refine ⟨malformed, named, ⟨⟨Kind.ofWord "fn\n", "fn\n"⟩, ⟨position 7 30, position 5 (-4)⟩⟩,
    outcome, rfl, houtcome, hreads, htokens, ?_, rfl⟩
  rw [hkind]

end Run

end WordLexer
