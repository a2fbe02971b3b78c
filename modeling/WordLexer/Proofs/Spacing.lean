import WordLexer.Proofs.Layout
import WordLexer.Session

/-!
# Words that are printed and lexed again

Identifiers that are printed with blanks between them are lexed as themselves, whatever the blanks
are.  The texts of tokens are identifiers, also where a text has issues (`isOfWord_of_mem_lex`).
So the tokens of any text are found again when they are printed, and nothing is reported of them
(`lexText_join`).
-/

namespace WordLexer

/-! ## Tokens are identifiers -/

/-- The text of the token is an identifier, and the kind is the one of that word. -/
def Token.IsOfWord (token : Token) : Prop :=
  Text.isIdentifier token.text.toList = true ∧ token.lexeme = .ofWord token.text

theorem LineRuns.isWordChar_ofLine (line : List LocatedChar) :
    (∀ c ∈ (ofLine line).first, Text.isWordChar c.char = true) ∧
      ∀ pair ∈ (ofLine line).rest, ∀ c ∈ pair.2, Text.isWordChar c.char = true := by
  induction line with
  | nil => exact ⟨by simp [ofLine], by simp [ofLine]⟩
  | cons a line ih =>
    obtain ⟨hfirst, hrest⟩ := ih
    rw [ofLine]
    by_cases ha : Text.isWordChar a.char = true
    · rw [if_pos ha]
      refine ⟨fun c hc => ?_, hrest⟩
      rcases List.mem_cons.mp hc with rfl | hc
      · exact ha
      · exact hfirst c hc
    · rw [if_neg ha]
      refine ⟨by simp, fun pair hpair => ?_⟩
      rcases List.mem_cons.mp hpair with rfl | hpair
      · exact hfirst
      · exact hrest pair hpair

theorem Run.isOfWord_of_read {run : Run} {tokens : List Token}
    (hrun : ∀ c ∈ run, Text.isWordChar c.char = true) (h : run.read = .ok tokens) :
    ∀ token ∈ tokens, token.IsOfWord := by
  cases run with
  | nil =>
    obtain rfl := Except.ok.inj h
    simp
  | cons head tail =>
    have hword : ∀ c ∈ LocatedChar.text (head :: tail), Text.isWordChar c = true := by
      intro c hc
      obtain ⟨located, hlocated, rfl⟩ := List.mem_map.mp hc
      exact hrun located hlocated
    rw [read_cons] at h
    split at h
    · rename_i hname
      obtain rfl := Except.ok.inj h
      intro token htoken
      rw [List.mem_singleton.mp htoken]
      refine ⟨?_, rfl⟩
      show Text.isIdentifier (String.ofList (LocatedChar.text (head :: tail))).toList = true
      rw [String.toList_ofList, ← Text.isName_eq_isIdentifier hword]
      exact hname
    · cases h

namespace LineScan

/-- A scan of runs of word characters finds tokens of words only. -/
theorem isOfWord_of_ofRuns {run : Run} {rest : List (LocatedChar × Run)} {tokens : List Token}
    (hrun : ∀ c ∈ run, Text.isWordChar c.char = true)
    (hrest : ∀ pair ∈ rest, ∀ c ∈ pair.2, Text.isWordChar c.char = true)
    (h : (ofRuns run rest).result = .ok tokens) : ∀ token ∈ tokens, token.IsOfWord := by
  induction rest generalizing run tokens with
  | nil => exact Run.isOfWord_of_read hrun h
  | cons pair rest ih =>
    obtain ⟨delimiter, next⟩ := pair
    -- The tokens are those of the run, of the delimiter, which has none, and of the other runs.
    obtain ⟨xs, more, hxs, hmore, rfl⟩ := result_andThen_eq_ok_iff.mp h
    obtain ⟨nothing, ys, hnothing, hys, rfl⟩ := result_andThen_eq_ok_iff.mp hmore
    obtain rfl : [] = nothing := Except.ok.inj hnothing
    intro token htoken
    rcases List.mem_append.mp htoken with htoken | htoken
    · exact Run.isOfWord_of_read hrun hxs token htoken
    · exact ih (hrest _ List.mem_cons_self)
        (fun pair hpair => hrest pair (List.mem_cons_of_mem _ hpair)) hys token htoken

theorem isOfWord_of_mem_ofLine {line : List LocatedChar} {token : Token}
    (h : token ∈ (ofLine line).tokens) : token.IsOfWord := by
  cases hresult : (ofLine line).result with
  | error issue =>
    rw [LineScan.tokens, hresult] at h
    cases h
  | ok tokens =>
    obtain ⟨hfirst, hrest⟩ := LineRuns.isWordChar_ofLine line
    rw [tokens_of_ok hresult] at h
    exact isOfWord_of_ofRuns hfirst hrest hresult token h

end LineScan

theorem isOfWord_of_mem_lex {file text : String} {token : Token}
    (h : token ∈ (lex file text).tokens) : token.IsOfWord := by
  obtain ⟨scan, hscan, htoken⟩ := List.mem_flatMap.mp h
  obtain ⟨line, -, rfl⟩ := List.mem_map.mp hscan
  exact LineScan.isOfWord_of_mem_ofLine htoken

/-! ## Printing words -/

/-- The gaps for a row of words: one in front of the first word, one behind the last word, and one
that is not empty behind every other word. -/
structure Spacing where
  lead : Gap
  between : Nat → Gap
  trail : Gap
  apart : ∀ i, (between i).chars ≠ []

namespace Spacing

/-- The gap in front of the word with the given index. -/
def gap (spacing : Spacing) : Nat → Gap
  | 0 => spacing.lead
  | i + 1 => spacing.between i

/-- The words in a row, with the gaps around them. -/
def join (spacing : Spacing) (words : List String) : String :=
  String.ofList (words.zipIdx.flatMap (fun (word, i) => (spacing.gap i).chars ++ word.toList) ++
    spacing.trail.chars)

/-- The words behind the first one, each with its gap. -/
theorem exists_spacedWords (spacing : Spacing) {words : List String}
    (hwords : ∀ word ∈ words, Text.isIdentifier word.toList = true) (i : Nat) :
    ∃ row : List SpacedWord,
      row.flatMap SpacedWord.chars = (words.zipIdx (i + 1)).flatMap
        (fun (word, i) => (spacing.gap i).chars ++ word.toList) ∧
      row.map SpacedWord.text = words ∧ ∀ w ∈ row, w.gap.chars ≠ [] := by
  induction words generalizing i with
  | nil => exact ⟨[], rfl, rfl, by simp⟩
  | cons word words ih =>
    obtain ⟨row, hchars, htexts, hgaps⟩ :=
      ih (fun w hw => hwords w (List.mem_cons_of_mem _ hw)) (i + 1)
    refine ⟨⟨spacing.between i, word.toList, hwords word List.mem_cons_self⟩ :: row, ?_, ?_, ?_⟩
    · rw [List.flatMap_cons, hchars, List.zipIdx_cons, List.flatMap_cons]
      rfl
    · rw [List.map_cons, htexts, SpacedWord.text, String.ofList_toList]
    · intro w hw
      rcases List.mem_cons.mp hw with rfl | hw
      · exact spacing.apart i
      · exact hgaps w hw

/-- Identifiers with gaps around them are a layout. -/
theorem exists_layout (spacing : Spacing) {words : List String}
    (hwords : ∀ word ∈ words, Text.isIdentifier word.toList = true) :
    ∃ layout : Layout, layout.chars = (spacing.join words).toList ∧
      layout.words.map SpacedWord.text = words := by
  rw [join, String.toList_ofList]
  cases words with
  | nil => exact ⟨⟨[], spacing.trail, by simp⟩, rfl, rfl⟩
  | cons word words =>
    obtain ⟨row, hchars, htexts, hgaps⟩ :=
      spacing.exists_spacedWords (fun w hw => hwords w (List.mem_cons_of_mem _ hw)) 0
    refine ⟨⟨⟨spacing.lead, word.toList, hwords word List.mem_cons_self⟩ :: row, spacing.trail,
      hgaps⟩, ?_, ?_⟩
    · dsimp only [Layout.chars]
      rw [List.flatMap_cons, hchars, List.zipIdx_cons, List.flatMap_cons]
      rfl
    · rw [List.map_cons, htexts, SpacedWord.text, String.ofList_toList]

/-! ## Lexing printed words -/

theorem lex_join (spacing : Spacing) (file : String) {words : List String}
    (hwords : ∀ word ∈ words, Text.isIdentifier word.toList = true) :
    (lex file (spacing.join words)).issues = [] ∧
      (lex file (spacing.join words)).tokens.map Token.lexeme = words.map Lexeme.ofWord := by
  obtain ⟨layout, htext, htexts⟩ := spacing.exists_layout hwords
  obtain ⟨hissues, hlexemes⟩ := lexemes_lex_layout file layout htext
  refine ⟨hissues, hlexemes.trans ?_⟩
  rw [← htexts, List.map_map]
  rfl

/-- The tokens of any text are found again in the text that they are printed as. -/
theorem lex_join_lex (spacing : Spacing) (file text : String) :
    (lex file (spacing.join ((lex file text).tokens.map Token.text))).issues = [] ∧
      (lex file (spacing.join ((lex file text).tokens.map Token.text))).tokens.map Token.lexeme =
        (lex file text).tokens.map Token.lexeme := by
  have hwords : ∀ word ∈ (lex file text).tokens.map Token.text,
      Text.isIdentifier word.toList = true := by
    intro word hword
    obtain ⟨token, htoken, rfl⟩ := List.mem_map.mp hword
    exact (isOfWord_of_mem_lex htoken).1
  obtain ⟨hissues, hlexemes⟩ := spacing.lex_join file hwords
  refine ⟨hissues, hlexemes.trans ?_⟩
  rw [List.map_map]
  apply List.map_congr_left
  intro token htoken
  exact (isOfWord_of_mem_lex htoken).2.symm

end Spacing

/-- A text with nothing left but the words of its tokens. -/
def normalise (spacing : Spacing) (file text : String) : String :=
  spacing.join ((lex file text).tokens.map Token.text)

theorem normalise_normalise (spacing other : Spacing) (file text : String) :
    normalise spacing file (normalise other file text) = normalise spacing file text := by
  have htexts := congrArg (List.map Lexeme.text) (other.lex_join_lex file text).2
  rw [List.map_map, List.map_map] at htexts
  exact congrArg spacing.join htexts

/-- Words that are printed are lexed as themselves, whatever stands between them, and so are the
tokens of a text, whatever else the text holds.  Nothing is recorded, and a text that has been
normalised stays as it is. -/
theorem lexText_join (machine : Machine) (disk : Disk) (file : String) (spacing : Spacing) :
    (∀ words : List String, (∀ word ∈ words, Text.isIdentifier word.toList = true) →
      ∀ log : IssueLog, ∃ tokens : List Token,
        Session.answer machine disk log (.lexText file (spacing.join words)) =
            (.lexedText tokens, log) ∧
          tokens.map Token.lexeme = words.map fun word => ⟨Kind.ofWord word, word⟩) ∧
    (∀ (text : String) (log again : IssueLog), ∃ (tokens same : List Token) (after : IssueLog),
      Session.answer machine disk log (.lexText file text) = (.lexedText tokens, after) ∧
        Session.answer machine disk again (.lexText file (spacing.join (tokens.map Token.text))) =
          (.lexedText same, again) ∧
        same.map Token.lexeme = tokens.map Token.lexeme) ∧
    ∀ text : String,
      normalise spacing file (normalise spacing file text) = normalise spacing file text := by
  -- A text without issues leaves the log as it is.
  have hanswer : ∀ (log : IssueLog) (text : String), (lex file text).issues = [] →
      Session.answer machine disk log (.lexText file text) =
        (.lexedText (lex file text).tokens, log) := by
    intro log text hissues
    rw [Session.answer, hissues]
    rfl
  refine ⟨?_, ?_, normalise_normalise spacing spacing file⟩
  · intro words hwords log
    obtain ⟨hissues, hlexemes⟩ := spacing.lex_join file hwords
    exact ⟨_, hanswer log _ hissues, hlexemes⟩
  · intro text log again
    obtain ⟨hissues, hlexemes⟩ := spacing.lex_join_lex file text
    exact ⟨_, _, _, rfl, hanswer again _ hissues, hlexemes⟩

/-- A keyword and an identifier with a break of two characters between them. -/
theorem lexText_join_two_words :
    ∃ spacing : Spacing, spacing.join ["fn", "_a1"] = "\tfn\r\n_a1 " ∧
      ∃ tokens : List Token,
        Session.answer .ordinary (fun _ => none) .empty (.lexText "a.l" "\tfn\r\n_a1 ") =
            (.lexedText tokens, .empty) ∧
          tokens.map Token.lexeme = [⟨Kind.ofWord "fn", "fn"⟩, ⟨.identifier, "_a1"⟩] := by
  let spacing : Spacing :=
    ⟨⟨['\t'], List.all_eq_true.mp (by decide)⟩,
      fun _ => ⟨['\r', '\n'], List.all_eq_true.mp (by decide)⟩,
      ⟨[' '], List.all_eq_true.mp (by decide)⟩, by simp⟩
  have hjoin : spacing.join ["fn", "_a1"] = "\tfn\r\n_a1 " := by decide
  have hwords : ∀ word ∈ ["fn", "_a1"], Text.isIdentifier word.toList = true := by decide
  obtain ⟨tokens, hanswer, hlexemes⟩ :=
    (lexText_join .ordinary (fun _ => none) "a.l" spacing).1 ["fn", "_a1"] hwords .empty
  rw [hjoin] at hanswer
  exact ⟨spacing, hjoin, tokens, hanswer, hlexemes⟩

end WordLexer
