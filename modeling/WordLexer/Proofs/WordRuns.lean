import Mathlib.Data.List.Basic
import WordLexer.Text.Word

/-!
# The word runs of a line

A word run is a stretch of columns that holds word characters only and that cannot be made longer on
either side.  Nothing here says how runs are found: a line is searched for all stretches that are
runs.  Everything else follows from one equation, `wordRuns_append_cons`: a delimiter cuts the runs
of a line in two.
-/

namespace WordLexer

/-! ## Stretches of columns -/

/-- The columns of a line from `first` to `last`, both included and counted from 0. -/
structure Stretch where
  first : Nat
  last : Nat
deriving DecidableEq

namespace Stretch

def cut {α : Type} (s : Stretch) (line : List α) : List α := (line.take (s.last + 1)).drop s.first

def shift (n : Nat) (s : Stretch) : Stretch := ⟨n + s.first, n + s.last⟩

/-- Stretches are read in the order of their first columns, and shorter ones first. -/
def Before (s t : Stretch) : Prop := s.first < t.first ∨ s.first = t.first ∧ s.last < t.last

theorem cut_shift {α : Type} (s : Stretch) (xs ys : List α) :
    (s.shift xs.length).cut (xs ++ ys) = s.cut ys := by
  rw [cut, cut, shift, Nat.add_assoc, List.take_length_add_append, List.drop_length_add_append]

theorem cut_shift_cons {α : Type} (s : Stretch) (xs ys : List α) (a : α) :
    (s.shift (xs.length + 1)).cut (xs ++ a :: ys) = s.cut ys := by
  have h := cut_shift s (xs ++ [a]) ys
  rw [List.length_append, List.length_singleton, List.append_assoc, List.singleton_append] at h
  exact h

/-- All stretches of the first `n` columns, in reading order. -/
def upTo (n : Nat) : List Stretch :=
  (List.range n).flatMap fun first => (List.range n).map fun last => ⟨first, last⟩

theorem mem_upTo {n : Nat} {s : Stretch} : s ∈ upTo n ↔ s.first < n ∧ s.last < n := by
  simp only [upTo, List.mem_flatMap, List.mem_map, List.mem_range]
  constructor
  · rintro ⟨first, hfirst, last, hlast, rfl⟩
    exact ⟨hfirst, hlast⟩
  · rintro ⟨hfirst, hlast⟩
    exact ⟨s.first, hfirst, s.last, hlast, rfl⟩

theorem pairwise_upTo (n : Nat) : (upTo n).Pairwise Before := by
  rw [upTo, List.pairwise_flatMap]
  constructor
  · intro first _
    rw [List.pairwise_map]
    exact List.pairwise_lt_range.imp fun h => .inr ⟨rfl, h⟩
  · apply List.pairwise_lt_range.imp
    intro first second hlt s hs t ht
    obtain ⟨_, _, rfl⟩ := List.mem_map.mp hs
    obtain ⟨_, _, rfl⟩ := List.mem_map.mp ht
    exact .inl hlt

/-- Two rows of stretches in reading order are equal if they hold the same stretches. -/
theorem eq_of_mem_iff {xs ys : List Stretch} (hxs : xs.Pairwise Before) (hys : ys.Pairwise Before)
    (hmem : ∀ s, s ∈ xs ↔ s ∈ ys) : xs = ys := by
  have hirrefl : ∀ s t : Stretch, s.Before t → s ≠ t := by
    rintro s _ h rfl
    unfold Before at h
    omega
  have hperm : xs.Perm ys :=
    (List.perm_ext_iff_of_nodup (hxs.imp (hirrefl _ _)) (hys.imp (hirrefl _ _))).mpr hmem
  refine hperm.eq_of_pairwise ?_ hxs hys
  intro s t _ _ hst hts
  unfold Before at hst hts
  omega

end Stretch

/-! ## Word runs -/

def wordAt (chars : List Char) (column : Nat) : Bool := chars[column]?.any Text.isWordChar

/-- A word run holds word characters only, and no longer stretch around it does. -/
structure IsWordRun (line : List Char) (s : Stretch) : Prop where
  nonempty : s.first ≤ s.last
  word : ∀ column, s.first ≤ column → column ≤ s.last → wordAt line column = true
  left : s.first = 0 ∨ wordAt line (s.first - 1) = false
  right : wordAt line (s.last + 1) = false

instance (line : List Char) (s : Stretch) : Decidable (IsWordRun line s) :=
  decidable_of_iff
    (s.first ≤ s.last ∧ (∀ column < s.last + 1, s.first ≤ column → wordAt line column = true) ∧
      (s.first = 0 ∨ wordAt line (s.first - 1) = false) ∧ wordAt line (s.last + 1) = false)
    ⟨fun ⟨nonempty, word, left, right⟩ =>
      ⟨nonempty, fun column hfirst hlast => word column (by omega) hfirst, left, right⟩,
    fun h => ⟨h.nonempty, fun column hlast hfirst => h.word column hfirst (by omega), h.left,
      h.right⟩⟩

/-- The word runs of a line from left to right. -/
def wordRuns (line : List Char) : List Stretch :=
  (Stretch.upTo line.length).filter fun s => IsWordRun line s

theorem lt_length_of_wordAt {line : List Char} {column : Nat} (h : wordAt line column = true) :
    column < line.length := by
  by_contra hlt
  rw [wordAt, List.getElem?_eq_none (by omega)] at h
  exact Bool.false_ne_true h

theorem mem_wordRuns {line : List Char} {s : Stretch} : s ∈ wordRuns line ↔ IsWordRun line s := by
  rw [wordRuns, List.mem_filter, decide_eq_true_eq, Stretch.mem_upTo]
  constructor
  · exact fun h => h.2
  · intro h
    have hlast := lt_length_of_wordAt (h.word s.last h.nonempty (Nat.le_refl _))
    exact ⟨⟨Nat.lt_of_le_of_lt h.nonempty hlast, hlast⟩, h⟩

theorem pairwise_wordRuns (line : List Char) : (wordRuns line).Pairwise Stretch.Before :=
  (Stretch.pairwise_upTo line.length).filter _

/-! ## Cutting at a delimiter -/

theorem wordAt_append_left {u v : List Char} {c : Char} {column : Nat} (h : column < u.length) :
    wordAt (u ++ c :: v) column = wordAt u column := by
  rw [wordAt, wordAt, List.getElem?_append_left h]

theorem wordAt_delimiter {u v : List Char} {c : Char} (hc : Text.isWordChar c = false) :
    wordAt (u ++ c :: v) u.length = false := by
  rw [wordAt, List.getElem?_append_right (Nat.le_refl _), Nat.sub_self]
  exact hc

theorem wordAt_append_right {u v : List Char} {c : Char} (column : Nat) :
    wordAt (u ++ c :: v) (u.length + 1 + column) = wordAt v column := by
  rw [wordAt, wordAt, List.getElem?_append_right (by omega),
    show u.length + 1 + column - u.length = column + 1 by omega, List.getElem?_cons_succ]

theorem wordAt_length (line : List Char) : wordAt line line.length = false := by
  rw [wordAt, List.getElem?_eq_none (Nat.le_refl _)]
  rfl

variable {u v : List Char} {c : Char} {s : Stretch}

theorem IsWordRun.last_lt_length (h : IsWordRun u s) : s.last < u.length :=
  lt_length_of_wordAt (h.word s.last h.nonempty (Nat.le_refl _))

theorem IsWordRun.append_left (hc : Text.isWordChar c = false) (h : IsWordRun u s) :
    IsWordRun (u ++ c :: v) s where
  nonempty := h.nonempty
  word := by
    intro column hfirst hlast
    rw [wordAt_append_left (Nat.lt_of_le_of_lt hlast h.last_lt_length)]
    exact h.word column hfirst hlast
  left := by
    have hlast := h.last_lt_length
    have hnonempty := h.nonempty
    rw [wordAt_append_left (by omega)]
    exact h.left
  right := by
    rcases Nat.lt_or_eq_of_le (Nat.succ_le_of_lt h.last_lt_length) with hlt | heq
    · rw [wordAt_append_left hlt]
      exact h.right
    · rw [show s.last + 1 = u.length from heq]
      exact wordAt_delimiter hc

theorem IsWordRun.append_right (hc : Text.isWordChar c = false) (h : IsWordRun v s) :
    IsWordRun (u ++ c :: v) (s.shift (u.length + 1)) where
  nonempty := Nat.add_le_add_left h.nonempty _
  word := by
    intro column hfirst hlast
    dsimp only [Stretch.shift] at hfirst hlast
    obtain ⟨k, rfl⟩ := Nat.exists_eq_add_of_le (show u.length + 1 ≤ column by omega)
    rw [wordAt_append_right]
    exact h.word k (by omega) (by omega)
  left := by
    -- To the left of the first column of `v` stands the delimiter.
    right
    dsimp only [Stretch.shift]
    rcases Nat.eq_zero_or_pos s.first with hzero | hpos
    · rw [hzero]
      exact wordAt_delimiter hc
    · rw [show u.length + 1 + s.first - 1 = u.length + 1 + (s.first - 1) by omega,
        wordAt_append_right]
      exact h.left.resolve_left (by omega)
  right := by
    dsimp only [Stretch.shift]
    rw [Nat.add_assoc, wordAt_append_right]
    exact h.right

theorem IsWordRun.of_append_left (hlast : s.last < u.length) (h : IsWordRun (u ++ c :: v) s) :
    IsWordRun u s where
  nonempty := h.nonempty
  word := by
    intro column hle hlt
    rw [← wordAt_append_left (c := c) (v := v) (by omega)]
    exact h.word column hle hlt
  left := by
    have hnonempty := h.nonempty
    rw [← wordAt_append_left (c := c) (v := v) (by omega)]
    exact h.left
  right := by
    rcases Nat.lt_or_eq_of_le (Nat.succ_le_of_lt hlast) with hlt | heq
    · rw [← wordAt_append_left (c := c) (v := v) hlt]
      exact h.right
    · rw [show s.last + 1 = u.length from heq]
      exact wordAt_length u

theorem IsWordRun.of_append_right (h : IsWordRun (u ++ c :: v) (s.shift (u.length + 1))) :
    IsWordRun v s where
  nonempty := Nat.le_of_add_le_add_left h.nonempty
  word := by
    intro column hle hlt
    rw [← wordAt_append_right (u := u) (c := c)]
    exact h.word _ (Nat.add_le_add_left hle _) (Nat.add_le_add_left hlt _)
  left := by
    rcases Nat.eq_zero_or_pos s.first with hzero | hpos
    · exact .inl hzero
    · right
      have hleft := h.left.resolve_left (by dsimp only [Stretch.shift]; omega)
      rw [show (s.shift (u.length + 1)).first - 1 = u.length + 1 + (s.first - 1) by
        dsimp only [Stretch.shift]; omega, wordAt_append_right] at hleft
      exact hleft
  right := by
    rw [← wordAt_append_right (u := u) (c := c)]
    exact h.right

/-- A word run of a line that is cut at a delimiter lies on one side of the cut. -/
theorem isWordRun_append_cons (hc : Text.isWordChar c = false) :
    IsWordRun (u ++ c :: v) s ↔
      IsWordRun u s ∨ ∃ t, IsWordRun v t ∧ t.shift (u.length + 1) = s := by
  constructor
  · intro h
    have hnonempty := h.nonempty
    -- The delimiter is no part of the run, so the run ends before it or begins after it.
    have hside : s.last < u.length ∨ u.length < s.first := by
      by_contra hacross
      have hword := h.word u.length (by omega) (by omega)
      rw [wordAt_delimiter hc] at hword
      exact Bool.false_ne_true hword
    rcases hside with hlast | hfirst
    · exact .inl (h.of_append_left hlast)
    · right
      obtain ⟨t, rfl⟩ : ∃ t : Stretch, t.shift (u.length + 1) = s := by
        refine ⟨⟨s.first - (u.length + 1), s.last - (u.length + 1)⟩, ?_⟩
        obtain ⟨first, last⟩ := s
        rw [Stretch.shift, Stretch.mk.injEq]
        dsimp only at *
        omega
      exact ⟨t, h.of_append_right, rfl⟩
  · rintro (h | ⟨t, h, rfl⟩)
    · exact h.append_left hc
    · exact h.append_right hc

/-- A delimiter cuts the word runs of a line in two. -/
theorem wordRuns_append_cons (u v : List Char) (hc : Text.isWordChar c = false) :
    wordRuns (u ++ c :: v) =
      wordRuns u ++ (wordRuns v).map (Stretch.shift (u.length + 1)) := by
  -- Both sides are in reading order, so it is enough that they hold the same stretches.
  apply Stretch.eq_of_mem_iff (pairwise_wordRuns _)
  · rw [List.pairwise_append]
    refine ⟨pairwise_wordRuns u, ?_, ?_⟩
    · rw [List.pairwise_map]
      apply (pairwise_wordRuns v).imp
      intro s t h
      unfold Stretch.Before Stretch.shift at *
      dsimp only
      omega
    · intro s hs t ht
      have hlast := (mem_wordRuns.mp hs).last_lt_length
      have hnonempty := (mem_wordRuns.mp hs).nonempty
      obtain ⟨t, _, rfl⟩ := List.mem_map.mp ht
      left
      dsimp only [Stretch.shift]
      omega
  · intro s
    rw [mem_wordRuns, isWordRun_append_cons hc, List.mem_append, List.mem_map, mem_wordRuns]
    simp only [mem_wordRuns]

theorem wordRuns_of_all {a : Char} {w : List Char}
    (hw : ∀ c ∈ a :: w, Text.isWordChar c = true) : wordRuns (a :: w) = [⟨0, w.length⟩] := by
  have hword : ∀ column ≤ w.length, wordAt (a :: w) column = true := by
    intro column hle
    rw [wordAt, List.getElem?_eq_getElem (by rw [List.length_cons]; omega)]
    exact hw _ (List.getElem_mem _)
  apply Stretch.eq_of_mem_iff (pairwise_wordRuns _) (List.pairwise_singleton _ _)
  intro s
  rw [mem_wordRuns, List.mem_singleton]
  constructor
  · -- A shorter stretch has a word character beside it.
    intro h
    have hlast := h.last_lt_length
    have hnonempty := h.nonempty
    rw [List.length_cons] at hlast
    have hfirst : s.first = 0 := by
      by_contra hpos
      have hleft := h.left.resolve_left hpos
      rw [hword _ (by omega)] at hleft
      exact Bool.false_ne_true hleft.symm
    have hstop : s.last = w.length := by
      by_contra hne
      have hright := h.right
      rw [hword _ (by omega)] at hright
      exact Bool.false_ne_true hright.symm
    cases s
    simp only at hfirst hstop
    rw [hfirst, hstop]
  · rintro rfl
    exact ⟨Nat.zero_le _, fun column _ hle => hword column hle, .inl rfl,
      wordAt_length (a :: w)⟩

/-- To prove something of every line, prove it of lines of word characters only, and of lines that
start with such a row and a delimiter if it holds of what follows. -/
theorem line_induction {motive : List Char → Prop}
    (word : ∀ u : List Char, (∀ c ∈ u, Text.isWordChar c = true) → motive u)
    (delimited : ∀ (u v : List Char) (c : Char), (∀ x ∈ u, Text.isWordChar x = true) →
      Text.isWordChar c = false → motive v → motive (u ++ c :: v))
    (line : List Char) : motive line := by
  -- `u` is the row of word characters that has been met since the last delimiter.
  suffices h : ∀ u : List Char, (∀ c ∈ u, Text.isWordChar c = true) → motive (u ++ line) by
    exact h [] (by simp)
  induction line with
  | nil =>
    intro u hu
    rw [List.append_nil]
    exact word u hu
  | cons c v ih =>
    intro u hu
    by_cases hc : Text.isWordChar c = true
    · have h := ih (u ++ [c]) (by
        intro x hx
        rcases List.mem_append.mp hx with hx | hx
        · exact hu x hx
        · rw [List.mem_singleton.mp hx]
          exact hc)
      rw [List.append_assoc, List.singleton_append] at h
      exact h
    · exact delimited u v c hu (Bool.not_eq_true _ ▸ hc) (ih [] (by simp))

end WordLexer
