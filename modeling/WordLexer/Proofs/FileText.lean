import WordLexer.Proofs.IssueOrder
import WordLexer.Proofs.LineBreaks
import WordLexer.Session

/-!
# The text of a file

A file holds a text if its bytes are the UTF-8 encoding of that text, which is then the only one.
Reading the file unifies the line breaks, but the lexer finds in it what it finds in the text
(`Disk.lexFile_of_utf8Encode`).  All other bytes are no text, and the file is unreadable.
-/

namespace WordLexer

/-! ## Line feeds -/

namespace Text

/-- What becomes of a character behind another one: a carriage return becomes a line feed, and the
line feed behind a carriage return is dropped. -/
def asLineFeed (c : Char) (before : Option Char) : Option Char :=
  if c = '\r' then some '\n' else if c = '\n' ∧ before = some '\r' then none else some c

/-- A text with one line feed in place of every carriage return, with or without a line feed of its
own. -/
def withLineFeeds (text : List Char) : List Char :=
  (text.zip (none :: text.map some)).filterMap fun (c, before) => asLineFeed c before

theorem filterMap_asLineFeed (before : Option Char) (text : List Char)
    (halone : ¬ (before = some '\r' ∧ text.head? = some '\n')) :
    (text.zip (before :: text.map some)).filterMap (fun (c, before) => asLineFeed c before) =
      unifyNewlines text := by
  fun_induction unifyNewlines text generalizing before with
  | case1 => rfl
  | case2 rest ih =>
    rw [← ih (some '\n') (by simp)]
    rfl
  | case3 c rest hpair ih =>
    have hnext : ¬ (some c = some '\r' ∧ rest.head? = some '\n') := by
      rintro ⟨hc, hhead⟩
      obtain ⟨tail, rfl⟩ := List.head?_eq_some_iff.mp hhead
      exact hpair tail (Option.some.inj hc) rfl
    have hc : asLineFeed c before = some (if c = '\r' then '\n' else c) := by
      rw [asLineFeed]
      split
      · rfl
      · rw [if_neg]
        rintro ⟨rfl, hbefore⟩
        exact halone ⟨hbefore, rfl⟩
    rw [← ih (some c) hnext, List.map_cons, List.zip_cons_cons, List.filterMap_cons]
    simp only [hc]

theorem unifyNewlines_eq (text : List Char) : unifyNewlines text = withLineFeeds text :=
  (filterMap_asLineFeed none text (by simp)).symm

/-! ## Bytes -/

theorem utf8Encode_injective {u v : List Char} (h : u.utf8Encode = v.utf8Encode) : u = v := by
  rw [← String.toByteArray_ofList, ← String.toByteArray_ofList, String.toByteArray_inj] at h
  exact String.ofList_injective h

theorem decode?_utf8Encode (u : List Char) :
    decode? u.utf8Encode = some (String.ofList (withLineFeeds u)) := by
  have hutf8 : String.fromUTF8? u.utf8Encode = some (String.ofList u) := by
    rw [String.fromUTF8?, dif_pos ⟨u, rfl⟩]
    exact congrArg some (String.toByteArray_inj.mp String.toByteArray_ofList.symm)
  rw [decode?, hutf8, Option.map_some, String.toList_ofList, unifyNewlines_eq]

theorem decode?_eq_none {bytes : ByteArray} (h : ∀ u : List Char, u.utf8Encode ≠ bytes) :
    decode? bytes = none := by
  have hutf8 : String.fromUTF8? bytes = none := by
    rw [String.fromUTF8?, dif_neg]
    rintro ⟨u, rfl⟩
    exact h u rfl
  rw [decode?, hutf8, Option.map_none]

-- A longer form of U+0000, a surrogate, a code point beyond U+10FFFF and a cut sequence.
example : ([[0xc0, 0x80], [0xed, 0xa0, 0x80], [0xf4, 0x90, 0x80, 0x80], [0xe2, 0x82]].map
    fun bytes : List UInt8 => decode? bytes.toByteArray) = [none, none, none, none] := by
  decide

end Text

/-! ## Files -/

theorem lex_withLineFeeds (file : String) (u : List Char) :
    lex file (String.ofList (Text.withLineFeeds u)) = lex file (String.ofList u) := by
  have hlines : sourceLines file (String.ofList (Text.withLineFeeds u)) =
      sourceLines file (String.ofList u) := by
    rw [sourceLines, sourceLines, String.toList_ofList, String.toList_ofList,
      ← Text.unifyNewlines_eq, Text.splitLines_unifyNewlines]
  rw [lex, lex, hlines]

namespace Disk

variable {disk : Disk} {file : String}

theorem readText_of_utf8Encode {u : List Char} (hbytes : disk file = some u.utf8Encode) :
    disk.readText file = .ok (String.ofList (Text.withLineFeeds u)) := by
  rw [readText, hbytes, Option.bind_some, Text.decode?_utf8Encode]

theorem readText_eq_error_of_forall {bytes : ByteArray} (hbytes : disk file = some bytes)
    (h : ∀ u : List Char, u.utf8Encode ≠ bytes) :
    disk.readText file = .error (.unreadableFile file) := by
  rw [readText, hbytes, Option.bind_some, Text.decode?_eq_none h]

/-- In a file is found what is found in the text that it holds. -/
theorem lexFile_of_utf8Encode {u : List Char} (hbytes : disk file = some u.utf8Encode) :
    disk.lexFile file =
      ⟨some (lex file (String.ofList u)).tokens, (lex file (String.ofList u)).issues⟩ := by
  rw [lexFile, readText_of_utf8Encode hbytes]
  dsimp only
  rw [lex_withLineFeeds]

end Disk

namespace Session

/-- A file is read and lexed as the text that its bytes encode, if there is one, and is an unreadable
file otherwise. -/
theorem answer_file (machine : Machine) {disk : Disk} {file : String} {bytes : ByteArray}
    (log : IssueLog) (quiet : Bool) (hname : isFileName file = true)
    (hbytes : disk file = some bytes) :
    (∀ u : List Char, u.utf8Encode = bytes →
      (∀ v : List Char, v.utf8Encode = bytes → v = u) ∧
      answer machine disk log (.read file) =
        (.read (some (String.ofList (Text.withLineFeeds u))), log) ∧
      ∃ tokens after,
        answer machine disk log (.lexText file (String.ofList u)) = (.lexedText tokens, after) ∧
        answer machine disk log (.lexFile file quiet) =
          (.lexedFile (some tokens) (if quiet then "" else listTokens tokens), after)) ∧
    ((∀ u : List Char, u.utf8Encode ≠ bytes) →
      ∃ after : IssueLog,
        after.issues = stableSort (log.issues ++ [⟨.unreadableFile file, none⟩]) ∧
        answer machine disk log (.read file) = (.read none, after) ∧
        answer machine disk log (.lexFile file quiet) = (.lexedFile none "", after)) := by
  have hasked : (!isFileName file) = false := by rw [hname]; rfl
  constructor
  · rintro u rfl
    refine ⟨fun v hv => Text.utf8Encode_injective hv, ?_, _, _, rfl, ?_⟩
    · rw [answer, hasked, Disk.readText_of_utf8Encode hbytes]
      rfl
    · rw [answer, hasked, Disk.lexFile_of_utf8Encode hbytes]
      rfl
  · intro hnone
    have hread := Disk.readText_eq_error_of_forall hbytes hnone
    refine ⟨log.record (.unreadableFile file),
      IssueLog.issues_recordAll log [.unreadableFile file], ?_, ?_⟩
    · rw [answer, hasked, hread]
      rfl
    · rw [answer, hasked, Disk.lexFile, hread]
      cases quiet <;> rfl

/-- A file with two kinds of breaks, and a file that ends in the middle of a character. -/
theorem answer_file_newlines :
    answer .ordinary (fun _ => some ['x', '\r', '\n', '\r', 'y'].utf8Encode) .empty (.read "a.l") =
        (.read (some "x\n\ny"), .empty) ∧
      ∃ after : IssueLog, after.issues = stableSort [⟨.unreadableFile "a.l", none⟩] ∧
        answer .ordinary (fun _ => some [0xe2, 0x82].toByteArray) .empty (.lexFile "a.l" false) =
          (.lexedFile none "", after) := by
  have hname : isFileName "a.l" = true := by decide
  obtain ⟨htext, _⟩ := @answer_file .ordinary
    (fun _ => some ['x', '\r', '\n', '\r', 'y'].utf8Encode) "a.l" _ .empty false hname rfl
  obtain ⟨_, hnone⟩ := @answer_file .ordinary
    (fun _ => some [0xe2, 0x82].toByteArray) "a.l" _ .empty false hname rfl
  have hbytes : ∀ u : List Char, u.utf8Encode ≠ [0xe2, 0x82].toByteArray := by
    intro u hu
    exact absurd (⟨u, hu.symm⟩ : ByteArray.IsValidUTF8 _) (by decide)
  obtain ⟨after, hafter, _, hlex⟩ := hnone hbytes
  exact ⟨(htext _ rfl).2.1, after, hafter, hlex⟩

end Session

end WordLexer
