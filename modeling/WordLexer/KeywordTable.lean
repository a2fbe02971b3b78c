import WordLexer.Kind

/-!
# Keyword tables

A keyword table leads from a spelling to the kind that is spelled so.  It keeps its kinds in the
order in which they were added, and no two of them share a spelling.  The table of the reserved
words decides which words are keywords.
-/

namespace WordLexer

/-- Kinds in the order of their addition, each with a spelling of its own. -/
structure KeywordTable where
  kinds : List Kind
  nodup_spellings : (kinds.map Kind.spelling).Nodup

/-- A table was to hold two kinds of one spelling. -/
structure DuplicateSpelling where
  spelling : String
deriving DecidableEq

def DuplicateSpelling.message (e : DuplicateSpelling) : String :=
  "duplicate keyword spelling '" ++ e.spelling ++ "'"

namespace KeywordTable

def empty : KeywordTable := ⟨[], List.nodup_nil⟩

def spellings (table : KeywordTable) : List String := table.kinds.map Kind.spelling

/-- Add a kind at the end of the table, unless its spelling is taken. -/
def add (table : KeywordTable) (kind : Kind) : Except DuplicateSpelling KeywordTable :=
  if fresh : kind.spelling ∈ table.spellings then
    .error ⟨kind.spelling⟩
  else
    .ok ⟨table.kinds ++ [kind], by
      rw [List.map_append]
      exact List.nodup_append.mpr ⟨table.nodup_spellings, by simp, by
        intro a ha b hb hab
        rw [List.map_cons, List.map_nil, List.mem_singleton] at hb
        exact fresh (hb ▸ hab ▸ ha)⟩⟩

def ofKinds (kinds : List Kind) : Except DuplicateSpelling KeywordTable :=
  kinds.foldlM add empty

def get? (table : KeywordTable) (spelling : String) : Option Kind :=
  table.kinds.find? fun kind => kind.spelling = spelling

def contains (table : KeywordTable) (spelling : String) : Bool := (table.get? spelling).isSome

/-- A spelling leads to a kind exactly if that kind is in the table and is spelled so. -/
theorem get?_eq_some_iff {table : KeywordTable} {spelling : String} {kind : Kind} :
    table.get? spelling = some kind ↔ kind ∈ table.kinds ∧ kind.spelling = spelling := by
  obtain ⟨kinds, nodup⟩ := table
  simp only [get?]
  induction kinds with
  | nil => simp
  | cons k ks ih =>
    rw [List.map_cons, List.nodup_cons] at nodup
    rw [List.find?_cons]
    by_cases hk : k.spelling = spelling
    · simp only [hk, decide_true, Option.some.injEq, List.mem_cons]
      constructor
      · rintro rfl
        exact ⟨.inl rfl, hk⟩
      · rintro ⟨rfl | hmem, hs⟩
        · rfl
        · exact absurd (List.mem_map.mpr ⟨kind, hmem, hs.trans hk.symm⟩) nodup.1
    · simp only [hk, decide_false, ih nodup.2, List.mem_cons]
      constructor
      · rintro ⟨hmem, hs⟩
        exact ⟨.inr hmem, hs⟩
      · rintro ⟨rfl | hmem, hs⟩
        · exact absurd hs hk
        · exact ⟨hmem, hs⟩

/-! ## Reserved words -/

def reserved : KeywordTable :=
  ⟨Kind.reserved, Kind.spellings_reserved ▸ Kind.nodup_reservedWords⟩

theorem ofKinds_reserved : ofKinds Kind.reserved = .ok reserved := by
  rfl

end KeywordTable

/-- The kind of a word: its keyword kind if it is reserved, else the identifier kind. -/
def Kind.ofWord (word : String) : Kind := (KeywordTable.reserved.get? word).getD .identifier

def isReserved (word : String) : Bool := KeywordTable.reserved.contains word

theorem Kind.isKeyword_ofWord (word : String) : (ofWord word).isKeyword = isReserved word := by
  rw [ofWord, isReserved, KeywordTable.contains]
  cases h : KeywordTable.reserved.get? word with
  | none => rfl
  | some kind => exact isKeyword_of_mem_reserved kind (KeywordTable.get?_eq_some_iff.mp h).1

end WordLexer
