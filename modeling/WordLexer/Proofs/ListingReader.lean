import Mathlib.Data.List.DropRight
import WordLexer.Proofs.FileText
import WordLexer.Proofs.Relocation
import WordLexer.Proofs.Spacing

/-!
# Listings that are read back

A listing puts the name of the file in front of everything else, and the name can hold whatever
else a listing holds.  Numerals, labels and words hold neither blanks nor colons, so that a listing
can be read from the right.  It tells all of its token but the text of the line, and two files of
one name have the same listing only if they have the same tokens (`read_listing`).
-/

namespace WordLexer

/-! ## What a listing tells -/

/-- A token as it is listed. -/
structure ListedToken where
  file : String
  line : Nat
  column : Nat
  label : String
  text : String

/-- The token has been listed so.  It ends on its first line, as many columns further as it has
characters, and the label tells whether its text is reserved. -/
structure Token.IsListedAs (token : Token) (entry : ListedToken) : Prop where
  first : token.span.first.toPlace = ⟨entry.file, entry.line, entry.column⟩
  last : token.span.last.toPlace =
    ⟨entry.file, entry.line, entry.column + entry.text.length - 1⟩
  label : entry.label = token.kind.label
  text : entry.text = token.text
  keyword : entry.label = "keyword" ↔ isReserved entry.text = true
  kind : token.kind = Kind.ofWord entry.text

namespace ListedToken

def row (entry : ListedToken) : String :=
  entry.file ++ ":" ++ toString entry.line ++ ":" ++ toString entry.column ++ ": " ++
    entry.label ++ " " ++ entry.text

/-- The listed token, without the text of its line. -/
def token (entry : ListedToken) : Token :=
  ⟨.ofWord entry.text, ⟨⟨⟨entry.file, entry.line, entry.column⟩, ""⟩,
    ⟨⟨entry.file, entry.line, entry.column + entry.text.length - 1⟩, ""⟩⟩⟩

theorem eq_token_of_isListedAs {token : Token} {entry : ListedToken} (h : token.IsListedAs entry) :
    token.relocate Position.withoutText = entry.token := by
  have hlexeme : token.lexeme = .ofWord entry.text := by
    rw [Lexeme.ofWord, ← h.kind, h.text]
    rfl
  rw [ListedToken.token, ← hlexeme, ← h.first, ← h.last]
  rfl

theorem listing_of_isListedAs {token : Token} {entry : ListedToken} (h : token.IsListedAs entry) :
    token.listing = entry.row := by
  rw [row, h.label, h.text]
  show token.span.first.toPlace.file ++ ":" ++ toString token.span.first.toPlace.line ++ ":" ++
    toString token.span.first.toPlace.column ++ ": " ++ token.kind.label ++ " " ++ token.text = _
  rw [h.first]
  rfl

/-! ## Reading -/

/-- What stands in front of the last separator, and what stands behind it. -/
def cutLast (separator : Char) (chars : List Char) : List Char × List Char :=
  ((chars.rdropWhile (· ≠ separator)).dropLast, chars.rtakeWhile (· ≠ separator))

/-- Read a row from the right. -/
def read (row : String) : ListedToken :=
  let (rest, text) := cutLast ' ' row.toList
  let (rest, label) := cutLast ' ' rest
  let (rest, _) := cutLast ':' rest
  let (rest, column) := cutLast ':' rest
  let (file, line) := cutLast ':' rest
  ⟨String.ofList file, Nat.ofDigitChars 10 line 0, Nat.ofDigitChars 10 column 0,
    String.ofList label, String.ofList text⟩

theorem cutLast_append_cons {separator : Char} {before after : List Char}
    (h : separator ∉ after) :
    cutLast separator (before ++ separator :: after) = (before, after) := by
  have hafter : ∀ c ∈ after.reverse, decide (c ≠ separator) = true := fun c hc =>
    decide_eq_true fun heq => h (heq ▸ List.mem_reverse.mp hc)
  have hreverse : (before ++ separator :: after).reverse =
      after.reverse ++ separator :: before.reverse := by simp
  rw [cutLast, List.rdropWhile, List.rtakeWhile, hreverse, List.dropWhile_append_of_pos hafter,
    List.takeWhile_append_of_pos hafter, List.dropWhile_cons_of_neg (by simp),
    List.takeWhile_cons_of_neg (by simp), List.append_nil, List.reverse_reverse,
    List.reverse_cons, List.reverse_reverse, List.dropLast_concat]

theorem read_row {entry : ListedToken} (hlabel : ' ' ∉ entry.label.toList)
    (htext : ' ' ∉ entry.text.toList) : read entry.row = entry := by
  have hcolon := Text.not_mem_toString (show ':'.isDigit = false by decide)
  have hrow : entry.row.toList =
      ((((entry.file.toList ++ ':' :: (toString entry.line).toList) ++
        ':' :: (toString entry.column).toList) ++ ':' :: []) ++ ' ' :: entry.label.toList) ++
        ' ' :: entry.text.toList := by
    simp [row]
  rw [read, hrow]
  simp only [cutLast_append_cons htext, cutLast_append_cons hlabel,
    cutLast_append_cons List.not_mem_nil, cutLast_append_cons (hcolon _),
    Text.ofDigitChars_toString, String.ofList_toList]

end ListedToken

/-! ## Tokens of a text -/

theorem Kind.label_ofWord_eq_keyword_iff (word : String) :
    (ofWord word).label = "keyword" ↔ isReserved word = true := by
  rw [label, isKeyword_ofWord]
  cases isReserved word <;> decide

theorem exists_isListedAs {file text : String} {token : Token}
    (h : token ∈ (lex file text).tokens) :
    ∃ entry : ListedToken, entry.file = file ∧ token.IsListedAs entry := by
  rw [tokens_lex, textTokens] at h
  obtain ⟨⟨line, number⟩, -, htoken⟩ := List.mem_flatMap.mp h
  rw [lineTokens] at htoken
  split at htoken
  · cases htoken
  · obtain ⟨run, hrun, rfl⟩ := List.mem_map.mp htoken
    have hnonempty := (mem_wordRuns.mp hrun).nonempty
    have hcolumn : (1 + run.first : Int) = (run.first + 1 : Nat) := Int.add_comm 1 _
    refine ⟨⟨file, number, run.first + 1, (Kind.ofWord (run.word line)).label, run.word line⟩, rfl,
      ⟨?_, ?_, rfl, rfl, Kind.label_ofWord_eq_keyword_iff _, rfl⟩⟩
    · show (⟨file, number, 1 + run.first⟩ : Place) = _
      rw [hcolumn]
    · have hlast : (1 + run.last : Int) =
          (run.first + 1 : Nat) + (run.word line).length - 1 := by
        rw [(mem_wordRuns.mp hrun).length_word]
        omega
      show (⟨file, number, 1 + run.last⟩ : Place) = _
      rw [hlast]

theorem Kind.isWordChar_of_mem_label (kind : Kind) :
    ∀ c ∈ kind.label.toList, Text.isWordChar c = true := by
  rw [← List.all_eq_true, label]
  split <;> decide

/-- Labels and words hold word characters only. -/
theorem not_mem_of_isListedAs {file text : String} {token : Token} {entry : ListedToken}
    (h : token ∈ (lex file text).tokens) (hlisted : token.IsListedAs entry) {c : Char}
    (hc : Text.isWordChar c = false) : c ∉ entry.label.toList ∧ c ∉ entry.text.toList := by
  rw [hlisted.label, hlisted.text]
  exact ⟨fun hmem => Bool.eq_false_iff.mp hc (Kind.isWordChar_of_mem_label _ c hmem),
    fun hmem => Bool.eq_false_iff.mp hc
      (Text.all_isWordChar_of_isIdentifier (isOfWord_of_mem_lex h).1 c hmem)⟩

theorem isListedAs_read {file text : String} {token : Token}
    (h : token ∈ (lex file text).tokens) :
    (ListedToken.read token.listing).file = file ∧
      token.IsListedAs (ListedToken.read token.listing) := by
  obtain ⟨entry, hfile, hlisted⟩ := exists_isListedAs h
  obtain ⟨hlabel, htext⟩ :=
    not_mem_of_isListedAs h hlisted (show Text.isWordChar ' ' = false by decide)
  rw [ListedToken.listing_of_isListedAs hlisted, ListedToken.read_row hlabel htext]
  exact ⟨hfile, hlisted⟩

/-! ## Rows of a listing -/

theorem not_mem_listing {file text : String} {token : Token} (hfile : '\n' ∉ file.toList)
    (h : token ∈ (lex file text).tokens) : '\n' ∉ token.listing.toList := by
  obtain ⟨entry, rfl, hlisted⟩ := exists_isListedAs h
  have hnumeral := Text.not_mem_toString (show '\n'.isDigit = false by decide)
  obtain ⟨hlabel, htext⟩ :=
    not_mem_of_isListedAs h hlisted (show Text.isWordChar '\n' = false by decide)
  rw [ListedToken.listing_of_isListedAs hlisted]
  simp only [ListedToken.row, String.toList_append, List.mem_append, hfile, hnumeral, hlabel, htext,
    or_false, false_or]
  decide

theorem toList_listTokens_cons (token : Token) (tokens : List Token) :
    (listTokens (token :: tokens)).toList =
      token.listing.toList ++ '\n' :: (listTokens tokens).toList := by
  rw [listTokens, List.map_cons, String.join_cons, String.toList_append, String.toList_append,
    List.append_assoc]
  rfl

/-- A listing whose rows hold no line feed is cut into its rows by its line feeds. -/
theorem splitOn_listTokens {tokens : List Token}
    (hrows : ∀ token ∈ tokens, '\n' ∉ token.listing.toList) :
    (listTokens tokens).toList.splitOn '\n' =
      tokens.map (fun token => token.listing.toList) ++ [[]] := by
  induction tokens with
  | nil => exact List.splitOn_nil '\n'
  | cons token rest ih =>
    rw [List.forall_mem_cons] at hrows
    have hrow : ∀ c ∈ token.listing.toList, (c == '\n') = false := fun c hc =>
      beq_eq_false_iff_ne.mpr fun heq => hrows.1 (heq ▸ hc)
    rw [toList_listTokens_cons, List.splitOn,
      List.splitOnP_append_cons_of_forall_mem hrow '\n' (beq_self_eq_true '\n'), ← List.splitOn,
      ih hrows.2]
    rfl

theorem map_listing_of_listTokens_eq {tokens tokens' : List Token}
    (hrows : ∀ token ∈ tokens, '\n' ∉ token.listing.toList)
    (hrows' : ∀ token ∈ tokens', '\n' ∉ token.listing.toList)
    (h : listTokens tokens = listTokens tokens') :
    tokens.map Token.listing = tokens'.map Token.listing := by
  have hsplit := splitOn_listTokens hrows
  rw [h, splitOn_listTokens hrows', List.append_cancel_right_eq] at hsplit
  apply List.map_injective_iff.mpr fun _ _ => String.toList_inj.mp
  rw [List.map_map, List.map_map]
  exact hsplit.symm

theorem relocate_eq_token_read {file text : String} {token : Token}
    (h : token ∈ (lex file text).tokens) :
    token.relocate Position.withoutText = (ListedToken.read token.listing).token :=
  ListedToken.eq_token_of_isListedAs (isListedAs_read h).2

/-- Two texts with the same listing have the same tokens, up to the texts of the lines. -/
theorem relocate_eq_of_listTokens_eq {file text text' : String} (hfile : '\n' ∉ file.toList)
    (h : listTokens (lex file text).tokens = listTokens (lex file text').tokens) :
    (lex file text).tokens.map (Token.relocate Position.withoutText) =
      (lex file text').tokens.map (Token.relocate Position.withoutText) := by
  have hread : ∀ text : String,
      (lex file text).tokens.map (Token.relocate Position.withoutText) =
        ((lex file text).tokens.map Token.listing).map fun row => (ListedToken.read row).token := by
    intro text
    rw [List.map_map]
    exact List.map_congr_left fun token htoken => relocate_eq_token_read htoken
  rw [hread, hread, map_listing_of_listTokens_eq (fun _ => not_mem_listing hfile)
    (fun _ => not_mem_listing hfile) h]

/-! ## Files -/

theorem Session.exists_text_of_lexedFile {machine : Machine} {disk : Disk} {log after : IssueLog}
    {file output : String} {tokens : List Token}
    (h : answer machine disk log (.lexFile file false) =
      (.lexedFile (some tokens) output, after)) :
    ∃ text, tokens = (lex file text).tokens ∧ output = listTokens tokens := by
  rw [answer] at h
  split at h
  · cases h
  · rw [Disk.lexFile] at h
    cases hread : disk.readText file with
    | error issue =>
      rw [hread] at h
      cases h
    | ok text =>
      rw [hread] at h
      cases h
      exact ⟨text, rfl, rfl⟩

/-- Whatever the name of a file is, the listing of a token of its text tells the place of the token
and its word, and with the word its kind.  Files of one name with the same listing have the same
tokens, up to the texts of the lines, if the name holds no line feed. -/
theorem read_listing (file : String) :
    (∀ text : String, ∀ token ∈ (lex file text).tokens,
        (ListedToken.read token.listing).file = file ∧
          token.IsListedAs (ListedToken.read token.listing)) ∧
      ('\n' ∉ file.toList →
        ∀ (machine machine' : Machine) (disk disk' : Disk) (log log' after after' : IssueLog)
          (tokens tokens' : List Token) (output : String),
          Session.answer machine disk log (.lexFile file false) =
              (.lexedFile (some tokens) output, after) →
            Session.answer machine' disk' log' (.lexFile file false) =
              (.lexedFile (some tokens') output, after') →
            tokens.map (Token.relocate Position.withoutText) =
              tokens'.map (Token.relocate Position.withoutText)) := by
  refine ⟨fun text token htoken => isListedAs_read htoken, ?_⟩
  intro hfile machine machine' disk disk' log log' after after' tokens tokens' output h h'
  obtain ⟨text, rfl, rfl⟩ := Session.exists_text_of_lexedFile h
  obtain ⟨text', rfl, hsame⟩ := Session.exists_text_of_lexedFile h'
  exact relocate_eq_of_listTokens_eq hfile hsame

/-- A name with blanks and colons, and two texts that differ in a blank at the end of the line. -/
theorem read_listing_blank_name :
    '\n' ∉ "a 1:1: keyword".toList ∧
      ∃ (tokens tokens' : List Token) (output : String) (after after' : IssueLog),
        Session.answer .ordinary (fun _ => some ['f', 'n', ' ', 'x'].utf8Encode) .empty
            (.lexFile "a 1:1: keyword" false) = (.lexedFile (some tokens) output, after) ∧
          Session.answer .ordinary (fun _ => some ['f', 'n', ' ', 'x', ' '].utf8Encode) .empty
            (.lexFile "a 1:1: keyword" false) = (.lexedFile (some tokens') output, after') ∧
          tokens.length = 2 ∧
          (∀ token ∈ tokens, (ListedToken.read token.listing).file = "a 1:1: keyword" ∧
            token.IsListedAs (ListedToken.read token.listing)) ∧
          tokens.map (Token.relocate Position.withoutText) =
            tokens'.map (Token.relocate Position.withoutText) := by
  have hanswer : ∀ u : List Char,
      Session.answer .ordinary (fun _ => some u.utf8Encode) .empty
          (.lexFile "a 1:1: keyword" false) =
        (.lexedFile (some (lex "a 1:1: keyword" (String.ofList u)).tokens)
            (listTokens (lex "a 1:1: keyword" (String.ofList u)).tokens),
          IssueLog.empty.recordAll (lex "a 1:1: keyword" (String.ofList u)).issues) := by
    intro u
    rw [Session.answer, Disk.lexFile_of_utf8Encode rfl]
    rfl
  have hsame : listTokens (lex "a 1:1: keyword" (String.ofList ['f', 'n', ' ', 'x', ' '])).tokens =
      listTokens (lex "a 1:1: keyword" (String.ofList ['f', 'n', ' ', 'x'])).tokens := by
    decide
  have hname : '\n' ∉ "a 1:1: keyword".toList := by decide
  have hfirst := hanswer ['f', 'n', ' ', 'x']
  have hsecond := hanswer ['f', 'n', ' ', 'x', ' ']
  rw [hsame] at hsecond
  refine ⟨hname, _, _, _, _, _, hfirst, hsecond, by decide, (read_listing _).1 _, ?_⟩
  exact (read_listing _).2 hname _ _ _ _ _ _ _ _ _ _ _ hfirst hsecond

end WordLexer
