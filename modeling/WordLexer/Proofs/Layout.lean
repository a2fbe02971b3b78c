import WordLexer.Proofs.UnsplitScan

/-!
# Layouts

A layout is a row of identifiers with blanks between them.  The texts that are scanned without an
issue are the texts of layouts (`Layout.exists_of_report_eq_nil`), and the words of such a text are
those of its layout (`LineScan.ofLine_layout`).
-/

namespace WordLexer

/-- A row of blanks, which may be empty. -/
structure Gap where
  chars : List Char
  blank : ∀ c ∈ chars, Text.isBlank c = true

/-- An identifier with the gap in front of it. -/
structure SpacedWord where
  gap : Gap
  word : List Char
  identifier : Text.isIdentifier word = true

/-- Words in a row and the gap behind them.  Only the first word can do without a gap in front. -/
structure Layout where
  words : List SpacedWord
  trail : Gap
  apart : ∀ w ∈ words.tail, w.gap.chars ≠ []

def Gap.empty : Gap := ⟨[], by simp⟩

def SpacedWord.chars (w : SpacedWord) : List Char := w.gap.chars ++ w.word

def SpacedWord.text (w : SpacedWord) : String := String.ofList w.word

def Layout.chars (layout : Layout) : List Char :=
  layout.words.flatMap SpacedWord.chars ++ layout.trail.chars

theorem SpacedWord.isWordChar_word (w : SpacedWord) : ∀ c ∈ w.word, Text.isWordChar c = true :=
  Text.all_isWordChar_of_isIdentifier w.identifier

/-! ## Scanning a layout -/

namespace LineScan

/-- A word that is set apart from what follows is scanned on its own. -/
theorem ofLine_word_append {word rest : List Char} (start : Position)
    (hword : ∀ c ∈ word, Text.isWordChar c = true)
    (hrest : ∀ c ∈ rest.head?, Text.isBlank c = true) :
    ofLine (LocatedChar.locate start (word ++ rest)) =
      (ofRun (LocatedChar.locate start word)).andThen
        (ofLine (LocatedChar.locate (start.advance word.length) rest)) := by
  rw [LocatedChar.locate_append, ← ofLine_of_all (LocatedChar.forall_locate start hword)]
  cases rest with
  | nil =>
    rw [LocatedChar.locate, List.append_nil]
    exact (andThen_nothing _).symm
  | cons c cs =>
    have hc : Text.isBlank c = true := hrest c rfl
    rw [LocatedChar.locate, ofLine_append_blank _ _ hc, ofLine_blank_cons _ hc]

/-- An identifier is read as a token of its text. -/
theorem ofRun_of_isIdentifier {word : List Char} (start : Position)
    (hword : Text.isIdentifier word = true) :
    ∃ span, ofRun (LocatedChar.locate start word) =
      ⟨[], .ok [⟨.ofWord (String.ofList word), span⟩]⟩ := by
  cases word with
  | nil => cases hword
  | cons a w =>
    have hname : Text.isName (a :: w) = true := by
      rw [Text.isName_eq_isIdentifier (Text.all_isWordChar_of_isIdentifier hword)]
      exact hword
    refine ⟨Run.span ⟨a, start⟩ (LocatedChar.locate start.next w), ?_⟩
    rw [ofRun, LocatedChar.locate, Run.read_cons, ← LocatedChar.locate]
    simp only [Run.word, LocatedChar.text_locate, hname, if_true]

theorem ofLine_gap_append (start : Position) (gap : Gap) (rest : List Char) :
    ofLine (LocatedChar.locate start (gap.chars ++ rest)) =
      ofLine (LocatedChar.locate (start.advance gap.chars.length) rest) := by
  rw [LocatedChar.locate_append]
  exact ofLine_blanks_append _ (LocatedChar.forall_locate start gap.blank)

/-- Behind a word of a layout stands a blank or nothing. -/
theorem isBlank_head_of_apart (words : List SpacedWord) (trail : Gap)
    (hapart : ∀ w ∈ words, w.gap.chars ≠ []) :
    ∀ c ∈ (words.flatMap SpacedWord.chars ++ trail.chars).head?, Text.isBlank c = true := by
  cases words with
  | nil =>
    intro c hc
    exact trail.blank c (List.mem_of_mem_head? hc)
  | cons w ws =>
    obtain ⟨b, bs, hgap⟩ := List.exists_cons_of_ne_nil (hapart w List.mem_cons_self)
    intro c hc
    rw [List.flatMap_cons, SpacedWord.chars, hgap] at hc
    obtain rfl : b = c := Option.some.inj hc
    exact w.gap.blank b (hgap ▸ List.mem_cons_self)

/-- A layout is scanned without an issue, and a token is found for every word. -/
theorem ofLine_layout (start : Position) (layout : Layout) :
    ∃ tokens, ofLine (LocatedChar.locate start layout.chars) = ⟨[], .ok tokens⟩ ∧
      tokens.map Token.lexeme = layout.words.map fun w => .ofWord w.text := by
  obtain ⟨words, trail, hapart⟩ := layout
  dsimp only [Layout.chars]
  -- The words behind the first one are scanned from where it ends, so the start is general.
  induction words generalizing start with
  | nil =>
    refine ⟨[], ?_, rfl⟩
    rw [List.flatMap_nil, List.nil_append, ← List.append_nil trail.chars, ofLine_gap_append]
    rfl
  | cons w ws ih =>
    have hrest := isBlank_head_of_apart ws trail hapart
    obtain ⟨tokens, hscan, hlexemes⟩ :=
      ih ((start.advance w.gap.chars.length).advance w.word.length)
        fun x hx => hapart x (List.mem_of_mem_tail hx)
    obtain ⟨span, hrun⟩ := ofRun_of_isIdentifier (start.advance w.gap.chars.length) w.identifier
    refine ⟨⟨.ofWord w.text, span⟩ :: tokens, ?_, ?_⟩
    · rw [List.flatMap_cons, SpacedWord.chars, List.append_assoc, List.append_assoc,
        ofLine_gap_append, ofLine_word_append _ w.isWordChar_word hrest, hrun, hscan]
      rfl
    · rw [List.map_cons, List.map_cons, hlexemes]

/-! ## Laying out a text -/

theorem isBlank_of_report_ofDelimiter {c : LocatedChar} (h : (ofDelimiter c).report = []) :
    Text.isBlank c.char = true := by
  by_contra hc
  rw [ofDelimiter, if_neg hc] at h
  cases h

theorem isIdentifier_of_report_ofRun {word : List Char} {start : Position} (hne : word ≠ [])
    (hword : ∀ c ∈ word, Text.isWordChar c = true)
    (h : (ofRun (LocatedChar.locate start word)).report = []) : Text.isIdentifier word = true := by
  obtain ⟨a, w, rfl⟩ := List.exists_cons_of_ne_nil hne
  by_contra hidentifier
  rw [ofRun, LocatedChar.locate, Run.read_cons, ← LocatedChar.locate] at h
  simp only [LocatedChar.text_locate, Text.isName_eq_isIdentifier hword, hidentifier] at h
  cases h

end LineScan

namespace Layout

def empty : Layout := ⟨[], .empty, by simp⟩

/-- A blank can be put in front of a layout, and then every word has a gap in front. -/
theorem exists_cons_blank {c : Char} (hc : Text.isBlank c = true) (layout : Layout) :
    ∃ more : Layout, more.chars = c :: layout.chars ∧ ∀ w ∈ more.words, w.gap.chars ≠ [] := by
  obtain ⟨words, trail, hapart⟩ := layout
  have hblank : ∀ gap : Gap, ∀ x ∈ c :: gap.chars, Text.isBlank x = true := by
    intro gap x hx
    rcases List.mem_cons.mp hx with rfl | hx
    · exact hc
    · exact gap.blank x hx
  cases words with
  | nil => exact ⟨⟨[], ⟨c :: trail.chars, hblank trail⟩, by simp⟩, rfl, by simp⟩
  | cons w ws =>
    refine ⟨⟨⟨⟨c :: w.gap.chars, hblank w.gap⟩, w.word, w.identifier⟩ :: ws, trail, hapart⟩,
      rfl, ?_⟩
    intro x hx
    rcases List.mem_cons.mp hx with rfl | hx
    · exact List.cons_ne_nil _ _
    · exact hapart x hx

/-- A word can be put in front of a layout in which every word has a gap in front. -/
theorem exists_cons_word {word : List Char} (hword : Text.isIdentifier word = true)
    (layout : Layout) (hapart : ∀ w ∈ layout.words, w.gap.chars ≠ []) :
    ∃ more : Layout, more.chars = word ++ layout.chars := by
  refine ⟨⟨⟨.empty, word, hword⟩ :: layout.words, layout.trail, hapart⟩, ?_⟩
  rw [chars, List.flatMap_cons, List.append_assoc]
  rfl

/-- A text in which nothing is reported is the text of a layout. -/
theorem exists_of_report_eq_nil {start : Position} {line : List Char}
    (h : (LineScan.ofLine (LocatedChar.locate start line)).report = []) :
    ∃ layout : Layout, layout.chars = line := by
  induction line using line_induction generalizing start with
  | word u hu =>
    rw [LineScan.ofLine_of_all (LocatedChar.forall_locate start hu)] at h
    by_cases hne : u = []
    · exact ⟨.empty, hne.symm⟩
    · obtain ⟨layout, hlayout⟩ := exists_cons_word
        (LineScan.isIdentifier_of_report_ofRun hne hu h) .empty (by simp [empty])
      exact ⟨layout, hlayout.trans (List.append_nil u)⟩
  | delimited u v c hu hc ih =>
    rw [LocatedChar.locate_append, LocatedChar.locate, LineScan.ofLine_append_cons _ _ hc,
      LineScan.report_andThen_eq_nil_iff, LineScan.report_andThen_eq_nil_iff,
      LineScan.ofLine_of_all (LocatedChar.forall_locate start hu)] at h
    obtain ⟨hword, hdelimiter, hrest⟩ := h
    obtain ⟨rest, rfl⟩ := ih hrest
    obtain ⟨more, hmore, hapart⟩ :=
      exists_cons_blank (LineScan.isBlank_of_report_ofDelimiter hdelimiter) rest
    rw [← hmore]
    by_cases hne : u = []
    · exact ⟨more, by rw [hne, List.nil_append]⟩
    · exact exists_cons_word (LineScan.isIdentifier_of_report_ofRun hne hu hword) more hapart

end Layout

/-! ## Lexing a layout -/

/-- A layout is lexed without an issue, and its words are the tokens. -/
theorem lexemes_lex_layout (file : String) (layout : Layout) {text : String}
    (htext : layout.chars = text.toList) :
    (lex file text).issues = [] ∧
      (lex file text).tokens.map Token.lexeme = layout.words.map fun w => .ofWord w.text := by
  obtain ⟨tokens, hscan, hlexemes⟩ := LineScan.ofLine_layout ⟨⟨file, 1, 1⟩, ""⟩ layout
  rw [htext] at hscan
  change unsplitScan ⟨⟨file, 1, 1⟩, ""⟩ text = _ at hscan
  constructor
  · rw [← report_unsplit_eq_nil_iff file text ⟨⟨file, 1, 1⟩, ""⟩, hscan]
    rfl
  · have hlex := (lex_of_unsplit_ok file text (congrArg LineScan.result hscan)).1
    exact hlex.symm.trans hlexemes

end WordLexer
