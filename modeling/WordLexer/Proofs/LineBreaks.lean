import WordLexer.Text.Lines

/-!
# Where a text is cut

A text without line breaks is a single line, and any other text is a line, a break and a further
text (`lines_induction`).  So the lines of a text that ends in a break, or of one that is cut
anywhere but inside a break, are followed by the lines of the text put behind it
(`splitLines_append`), and how the breaks are written makes no difference
(`splitLines_unifyNewlines`).
-/

namespace WordLexer.Text

/-- What ends a line in front of a further text: a carriage return with its line feed, or any single
break, but not a carriage return that leaves its line feed to the further text. -/
inductive IsBreakBefore (rest : List Char) : List Char → Prop
  | pair : IsBreakBefore rest ['\r', '\n']
  | single {c : Char} (hbreak : isLineBreak c = true)
      (halone : ¬ (c = '\r' ∧ rest.head? = some '\n')) : IsBreakBefore rest [c]

theorem isLineBreak_of_mem_break {rest brk : List Char} (h : IsBreakBefore rest brk) :
    ∀ c ∈ brk, isLineBreak c = true := by
  cases h with
  | pair => exact List.all_eq_true.mp (by decide)
  | single hbreak _ =>
    intro c hc
    rw [List.mem_singleton.mp hc]
    exact hbreak

/-! ## The lines of a text -/

theorem splitLines_cons {c : Char} (rest : List Char) (hc : isLineBreak c = false) :
    splitLines (c :: rest) = consToFirst c (splitLines rest) := by
  rw [splitLines, hc, if_neg Bool.false_ne_true]
  rintro _ rfl _
  exact absurd hc (by decide)

theorem splitLines_cons_break {c : Char} {rest : List Char} (hc : isLineBreak c = true)
    (halone : ¬ (c = '\r' ∧ rest.head? = some '\n')) :
    splitLines (c :: rest) = [] :: splitLines rest := by
  rw [splitLines, if_pos hc]
  rintro _ rfl rfl
  exact halone ⟨rfl, rfl⟩

theorem splitLines_break {rest brk : List Char} (h : IsBreakBefore rest brk) :
    splitLines (brk ++ rest) = [] :: splitLines rest := by
  cases h with
  | pair => rfl
  | single hbreak halone => exact splitLines_cons_break hbreak halone

theorem splitLines_of_unbroken {line : List Char} (hline : ∀ c ∈ line, isLineBreak c = false) :
    splitLines line = if line = [] then [] else [line] := by
  induction line with
  | nil => rfl
  | cons c cs ih =>
    rw [splitLines_cons _ (hline c List.mem_cons_self),
      ih fun x hx => hline x (List.mem_cons_of_mem c hx)]
    cases cs <;> rfl

theorem splitLines_line_break {line rest brk : List Char}
    (hline : ∀ c ∈ line, isLineBreak c = false) (hbreak : IsBreakBefore rest brk) :
    splitLines (line ++ (brk ++ rest)) = line :: splitLines rest := by
  induction line with
  | nil => exact splitLines_break hbreak
  | cons c cs ih =>
    rw [List.cons_append, splitLines_cons _ (hline c List.mem_cons_self),
      ih fun x hx => hline x (List.mem_cons_of_mem c hx)]
    rfl

/-- To prove something of every text, prove it of texts without line breaks, and of a line and a
break in front of a text that it holds of. -/
theorem lines_induction {motive : List Char → Prop}
    (unbroken : ∀ line : List Char, (∀ c ∈ line, isLineBreak c = false) → motive line)
    (broken : ∀ line brk rest : List Char, (∀ c ∈ line, isLineBreak c = false) →
      IsBreakBefore rest brk → motive rest → motive (line ++ (brk ++ rest)))
    (text : List Char) : motive text := by
  -- `u` is what has been met of the line that is being read.
  suffices h : ∀ u : List Char, (∀ c ∈ u, isLineBreak c = false) → motive (u ++ text) by
    exact h [] (by simp)
  fun_induction splitLines text with
  | case1 =>
    intro u hu
    rw [List.append_nil]
    exact unbroken u hu
  | case2 rest ih =>
    intro u hu
    exact broken u ['\r', '\n'] rest hu .pair (ih [] (by simp))
  | case3 c rest hpair hc ih =>
    intro u hu
    refine broken u [c] rest hu (.single hc ?_) (ih [] (by simp))
    rintro ⟨rfl, hhead⟩
    obtain ⟨tail, rfl⟩ := List.head?_eq_some_iff.mp hhead
    exact hpair tail rfl rfl
  | case4 c rest _ hc ih =>
    intro u hu
    have h := ih (u ++ [c]) (by
      intro x hx
      rcases List.mem_append.mp hx with hx | hx
      · exact hu x hx
      · rw [List.mem_singleton.mp hx]
        exact Bool.not_eq_true _ ▸ hc)
    rw [List.append_assoc, List.singleton_append] at h
    exact h

/-! ## How much there is to a text -/

/-- No line is longer than the text. -/
theorem length_le_of_mem_splitLines {text line : List Char} (h : line ∈ splitLines text) :
    line.length ≤ text.length := by
  induction text using lines_induction with
  | unbroken text htext =>
    rw [splitLines_of_unbroken htext] at h
    split at h
    · cases h
    · exact Nat.le_of_eq (congrArg List.length (List.mem_singleton.mp h))
  | broken first brk rest hfirst hbreak ih =>
    rw [splitLines_line_break hfirst hbreak] at h
    rw [List.length_append, List.length_append]
    rcases List.mem_cons.mp h with rfl | h
    · omega
    · have hle := ih h
      omega

/-- There are no more lines than characters. -/
theorem length_splitLines_le (text : List Char) : (splitLines text).length ≤ text.length := by
  induction text using lines_induction with
  | unbroken text htext =>
    rw [splitLines_of_unbroken htext]
    split
    · exact Nat.zero_le _
    · rename_i hne
      exact List.length_pos_iff.mpr hne
  | broken first brk rest hfirst hbreak ih =>
    rw [splitLines_line_break hfirst hbreak, List.length_cons, List.length_append,
      List.length_append]
    have hpos : 0 < brk.length := by
      cases hbreak <;> exact Nat.succ_pos _
    omega

/-! ## Texts one behind the other -/

/-- The text is empty, or its last line is ended by a break. -/
def EndsLine (text : List Char) : Prop :=
  text = [] ∨ ∃ c, text.getLast? = some c ∧ isLineBreak c = true

/-- A break of two characters that is cut in the middle: a carriage return at the end of one text,
and its line feed at the start of the next. -/
def CutsPair (first second : List Char) : Prop :=
  first.getLast? = some '\r' ∧ second.head? = some '\n'

theorem splitLines_append {first second : List Char} (hend : EndsLine first)
    (hcut : ¬ CutsPair first second) :
    splitLines (first ++ second) = splitLines first ++ splitLines second := by
  induction first using lines_induction with
  | unbroken line hline =>
    -- Only the empty text ends its last line without holding a break.
    rcases hend with rfl | ⟨c, hlast, hbreak⟩
    · rfl
    · rw [hline c (List.mem_of_getLast? hlast)] at hbreak
      cases hbreak
  | broken line brk rest hline hbreak ih =>
    have hbehind : IsBreakBefore (rest ++ second) brk := by
      cases hbreak with
      | pair => exact .pair
      | single hbreak halone =>
        refine .single hbreak ?_
        rintro ⟨rfl, hhead⟩
        cases rest with
        | nil => exact hcut ⟨by simp, hhead⟩
        | cons x xs => exact halone ⟨rfl, hhead⟩
    have hrest : splitLines (rest ++ second) = splitLines rest ++ splitLines second := by
      cases rest with
      | nil => rfl
      | cons x xs =>
        -- The last character of the whole is that of what stands behind the first break.
        have hlast : (line ++ (brk ++ x :: xs)).getLast? = (x :: xs).getLast? := by
          rw [← List.append_assoc, List.getLast?_append, List.getLast?_cons, Option.some_or]
        rw [EndsLine, hlast] at hend
        rw [CutsPair, hlast] at hcut
        exact ih (.inr (hend.resolve_left (by simp))) hcut
    rw [List.append_assoc, List.append_assoc, splitLines_line_break hline hbehind, hrest,
      splitLines_line_break hline hbreak, List.cons_append]

/-! ## How breaks are written -/

/-- A text keeps its lines when its carriage returns are written as line feeds. -/
theorem splitLines_unifyNewlines (text : List Char) :
    splitLines (unifyNewlines text) = splitLines text := by
  fun_induction unifyNewlines text with
  | case1 => rfl
  | case2 rest ih =>
    rw [splitLines_cons_break (by decide) (by simp), ih]
    rfl
  | case3 c rest hpair ih =>
    have halone : ¬ (c = '\r' ∧ rest.head? = some '\n') := by
      rintro ⟨rfl, hhead⟩
      obtain ⟨tail, rfl⟩ := List.head?_eq_some_iff.mp hhead
      exact hpair tail rfl rfl
    by_cases hreturn : c = '\r'
    · rw [if_pos hreturn, splitLines_cons_break (by decide) (by simp), ih,
        splitLines_cons_break (hreturn ▸ by decide) halone]
    · rw [if_neg hreturn]
      by_cases hc : isLineBreak c = true
      · rw [splitLines_cons_break hc (fun h => hreturn h.1), ih, splitLines_cons_break hc halone]
      · rw [splitLines_cons _ (eq_false_of_ne_true hc), ih,
          splitLines_cons _ (eq_false_of_ne_true hc)]

end WordLexer.Text
