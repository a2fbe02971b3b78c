import Mathlib.Computability.Language
import WordLexer.Proofs.Layout

/-!
# The grammar

The texts that leave an empty log clean form a regular language: identifiers with blanks around
them, at least one between two identifiers.  The language is given as a whole, without lines, runs
or scans (`Grammar.cleanText`), and the lexer accepts exactly this language
(`isClean_freshLog_iff`).
-/

open scoped Computability

namespace WordLexer

namespace Grammar

/-! ## The language -/

/-- The texts of one character of a class. -/
def char (p : Char → Bool) : Language Char := {text | ∃ c, p c = true ∧ text = [c]}

def blank : Language Char := char Text.isBlank

/-- A letter or an underscore, and then letters, digits and underscores. -/
def identifier : Language Char := char Text.isNameStart * (char Text.isWordChar)∗

def cleanText : Language Char :=
  blank∗ * (1 + identifier * (blank * blank∗ * identifier)∗) * blank∗

theorem mem_char {p : Char → Bool} {text : List Char} :
    text ∈ char p ↔ ∃ c, p c = true ∧ text = [c] := Iff.rfl

theorem mem_kstar_char {p : Char → Bool} {text : List Char} :
    text ∈ (char p)∗ ↔ ∀ c ∈ text, p c = true := by
  rw [Language.mem_kstar]
  constructor
  · rintro ⟨parts, rfl, hparts⟩ c hc
    obtain ⟨part, hpart, hmem⟩ := List.mem_flatten.mp hc
    obtain ⟨d, hd, rfl⟩ := mem_char.mp (hparts part hpart)
    rw [List.mem_singleton.mp hmem]
    exact hd
  · intro h
    refine ⟨text.map fun c => [c], ?_, ?_⟩
    · rw [← List.flatMap_def, List.flatMap_singleton']
    · intro part hpart
      obtain ⟨c, hc, rfl⟩ := List.mem_map.mp hpart
      exact mem_char.mpr ⟨c, h c hc, rfl⟩

theorem mem_identifier {text : List Char} :
    text ∈ identifier ↔ Text.isIdentifier text = true := by
  rw [identifier, Language.mem_mul]
  constructor
  · rintro ⟨_, ⟨a, ha, rfl⟩, w, hw, rfl⟩
    rw [List.singleton_append, Text.isIdentifier, ha, Bool.true_and, List.all_eq_true]
    exact mem_kstar_char.mp hw
  · intro h
    cases text with
    | nil => cases h
    | cons a w =>
      rw [Text.isIdentifier, Bool.and_eq_true, List.all_eq_true] at h
      exact ⟨[a], mem_char.mpr ⟨a, h.1, rfl⟩, w, mem_kstar_char.mpr h.2, rfl⟩

/-! ## Layouts of the language -/

theorem mem_kstar_blank (gap : Gap) : gap.chars ∈ blank∗ := mem_kstar_char.mpr gap.blank

theorem mem_gap_word_iff {text : List Char} :
    text ∈ blank * blank∗ * identifier ↔
      ∃ w : SpacedWord, w.chars = text ∧ w.gap.chars ≠ [] := by
  constructor
  · rintro ⟨_, ⟨_, ⟨c, hc, rfl⟩, gap, hgap, rfl⟩, word, hword, rfl⟩
    have hblank : ∀ x ∈ c :: gap, Text.isBlank x = true := by
      intro x hx
      rcases List.mem_cons.mp hx with rfl | hx
      · exact hc
      · exact mem_kstar_char.mp hgap x hx
    exact ⟨⟨⟨c :: gap, hblank⟩, word, mem_identifier.mp hword⟩, rfl, List.cons_ne_nil c gap⟩
  · rintro ⟨w, rfl, hne⟩
    obtain ⟨c, gap, hgap⟩ := List.exists_cons_of_ne_nil hne
    have hblank := w.gap.blank
    rw [SpacedWord.chars, hgap]
    rw [hgap] at hblank
    refine Language.append_mem_mul (Language.append_mem_mul (a := [c]) ?_ ?_)
      (mem_identifier.mpr w.identifier)
    · exact mem_char.mpr ⟨c, hblank c List.mem_cons_self, rfl⟩
    · exact mem_kstar_char.mpr fun x hx => hblank x (List.mem_cons_of_mem c hx)

/-- Repeated words with gaps are the words of a layout behind the first. -/
theorem mem_kstar_gap_word_iff {text : List Char} :
    text ∈ (blank * blank∗ * identifier)∗ ↔
      ∃ words : List SpacedWord, words.flatMap SpacedWord.chars = text ∧
        ∀ w ∈ words, w.gap.chars ≠ [] := by
  rw [Language.mem_kstar]
  constructor
  · rintro ⟨parts, rfl, hparts⟩
    induction parts with
    | nil => exact ⟨[], rfl, by simp⟩
    | cons part parts ih =>
      obtain ⟨words, hwords, hne⟩ := ih fun x hx => hparts x (List.mem_cons_of_mem part hx)
      obtain ⟨w, rfl, hgap⟩ := mem_gap_word_iff.mp (hparts _ List.mem_cons_self)
      refine ⟨w :: words, by rw [List.flatMap_cons, hwords, List.flatten_cons], ?_⟩
      intro x hx
      rcases List.mem_cons.mp hx with rfl | hx
      · exact hgap
      · exact hne x hx
  · rintro ⟨words, rfl, hne⟩
    refine ⟨words.map SpacedWord.chars, List.flatMap_def, ?_⟩
    intro part hpart
    obtain ⟨w, hw, rfl⟩ := List.mem_map.mp hpart
    exact mem_gap_word_iff.mpr ⟨w, rfl, hne w hw⟩

/-- The language consists of the texts of layouts. -/
theorem mem_cleanText_iff {text : List Char} :
    text ∈ cleanText ↔ ∃ layout : Layout, layout.chars = text := by
  constructor
  · rintro ⟨_, ⟨lead, hlead, body, hbody, rfl⟩, trail, htrail, rfl⟩
    have hleadBlank := mem_kstar_char.mp hlead
    have htrailBlank := mem_kstar_char.mp htrail
    rcases (Language.mem_add _ _ _).mp hbody with hnil | ⟨word, hword, more, hmore, rfl⟩
    · -- Without a word, the blanks on both sides are one gap.
      rw [Language.mem_one] at hnil
      have hblank : ∀ c ∈ lead ++ trail, Text.isBlank c = true := by
        intro c hc
        exact (List.mem_append.mp hc).elim (hleadBlank c) (htrailBlank c)
      refine ⟨⟨[], ⟨lead ++ trail, hblank⟩, by simp⟩, ?_⟩
      dsimp only
      rw [hnil, List.append_nil]
      rfl
    · obtain ⟨words, rfl, hne⟩ := mem_kstar_gap_word_iff.mp hmore
      refine ⟨⟨⟨⟨lead, hleadBlank⟩, word, mem_identifier.mp hword⟩ :: words,
        ⟨trail, htrailBlank⟩, hne⟩, ?_⟩
      dsimp only [Layout.chars]
      rw [List.flatMap_cons, SpacedWord.chars, List.append_assoc lead]
  · rintro ⟨⟨words, trail, hapart⟩, rfl⟩
    refine Language.append_mem_mul ?_ (mem_kstar_blank trail)
    cases words with
    | nil =>
      exact Language.append_mem_mul (a := []) (Language.nil_mem_kstar _)
        ((Language.mem_add _ _ _).mpr (.inl Language.nil_mem_one))
    | cons w ws =>
      rw [List.flatMap_cons, SpacedWord.chars, List.append_assoc]
      refine Language.append_mem_mul (mem_kstar_blank w.gap)
        ((Language.mem_add _ _ _).mpr (.inr ?_))
      exact Language.append_mem_mul (mem_identifier.mpr w.identifier)
        (mem_kstar_gap_word_iff.mpr ⟨ws, rfl, hapart⟩)

end Grammar

/-! ## The words of a clean text -/

theorem Layout.filter_chars (layout : Layout) :
    layout.chars.filter (fun c => !Text.isBlank c) = layout.words.flatMap SpacedWord.word := by
  have hgap : ∀ gap : Gap, gap.chars.filter (fun c => !Text.isBlank c) = [] := by
    intro gap
    rw [List.filter_eq_nil_iff]
    intro c hc
    rw [gap.blank c hc]
    exact Bool.false_ne_true
  have hword : ∀ w : SpacedWord, w.chars.filter (fun c => !Text.isBlank c) = w.word := by
    intro w
    rw [SpacedWord.chars, List.filter_append, hgap, List.nil_append, List.filter_eq_self]
    intro c hc
    rw [Text.isBlank_eq_false_of_isWordChar (w.isWordChar_word c hc)]
    rfl
  rw [chars, List.filter_append, hgap, List.append_nil, List.filter_flatMap]
  exact congrArg (fun f => layout.words.flatMap f) (funext hword)

/-- The words of a layout in one are its characters without the blanks. -/
theorem Layout.join_text_words (layout : Layout) :
    String.join (layout.words.map SpacedWord.text) =
      String.ofList (layout.chars.filter fun c => !Text.isBlank c) := by
  have hword : ∀ w : SpacedWord, w.text.toList = w.word := fun w => String.toList_ofList
  rw [← String.toList_inj, String.toList_join, String.toList_ofList, filter_chars,
    List.flatMap_map]
  exact congrArg (fun f => layout.words.flatMap f) (funext hword)

/-- A layout is lexed without an issue, and the tokens have the texts of its words. -/
theorem lex_layout (file : String) (layout : Layout) {text : String}
    (htext : layout.chars = text.toList) :
    (lex file text).issues = [] ∧
      (lex file text).tokens.map Token.text = layout.words.map SpacedWord.text := by
  obtain ⟨hissues, hlexemes⟩ := lexemes_lex_layout file layout htext
  refine ⟨hissues, ?_⟩
  have h := congrArg (List.map Lexeme.text) hlexemes
  rw [List.map_map, List.map_map] at h
  exact h

/-- The lexer accepts exactly the language of its grammar, and its tokens are the words of the text
in their order. -/
theorem isClean_freshLog_iff (file text : String) :
    ((freshLog file text).isClean = true ↔ text.toList ∈ Grammar.cleanText) ∧
      ((freshLog file text).isClean = true ↔ ∃ layout : Layout, layout.chars = text.toList) ∧
      ∀ layout : Layout, layout.chars = text.toList →
        (lex file text).tokens.map Token.text = layout.words.map SpacedWord.text ∧
          String.join ((lex file text).tokens.map Token.text) =
            String.ofList (text.toList.filter fun c => !Text.isBlank c) := by
  have hlayout : (freshLog file text).isClean = true ↔
      ∃ layout : Layout, layout.chars = text.toList := by
    rw [IssueLog.isClean, List.isEmpty_iff, issues_freshLog]
    constructor
    · intro h
      rw [← report_unsplit_eq_nil_iff file text ⟨⟨file, 1, 1⟩, ""⟩] at h
      exact Layout.exists_of_report_eq_nil h
    · rintro ⟨layout, htext⟩
      exact (lex_layout file layout htext).1
  refine ⟨hlayout.trans Grammar.mem_cleanText_iff.symm, hlayout, ?_⟩
  intro layout htext
  have htokens := (lex_layout file layout htext).2
  rw [htokens, ← htext]
  exact ⟨rfl, layout.join_text_words⟩

/-- A clean text whose words are set apart by a line break of two characters. -/
theorem isClean_two_words :
    (∃ layout : Layout, layout.chars = "fn\r\n_a1 ".toList ∧
      (lex "a.l" "fn\r\n_a1 ").tokens.map Token.text = ["fn", "_a1"]) ∧
    (freshLog "a.l" "fn\r\n_a1 ").isClean = true := by
  let layout : Layout :=
    ⟨[⟨.empty, ['f', 'n'], rfl⟩,
        ⟨⟨['\r', '\n'], List.all_eq_true.mp (by decide)⟩, ['_', 'a', '1'], rfl⟩],
      ⟨[' '], List.all_eq_true.mp (by decide)⟩, by simp⟩
  have htext : layout.chars = "fn\r\n_a1 ".toList := by decide
  obtain ⟨_, hlayout, htokens⟩ := isClean_freshLog_iff "a.l" "fn\r\n_a1 "
  exact ⟨⟨layout, htext, (htokens layout htext).1⟩, hlayout.mpr ⟨layout, htext⟩⟩

end WordLexer
