import WordLexer.KeywordTable

/-!
# What keyword tables hold

A table is made of a list of kinds exactly if no two of them share a spelling.  It then holds the
list as it is, and a spelling leads to the one kind of the list that is spelled so.  Otherwise the
error names the spelling of the first kind that is spelled like a kind in front of it: that is the
place where adding stops (`foldlM_add_eq_error_iff`).
-/

namespace WordLexer

namespace KeywordTable

/-! ## Adding one kind -/

theorem eq_of_kinds_eq {table other : KeywordTable} (h : table.kinds = other.kinds) :
    table = other := by
  cases table
  cases other
  congr

theorem add_eq_ok_iff {table after : KeywordTable} {kind : Kind} :
    table.add kind = .ok after ↔
      kind.spelling ∉ table.spellings ∧ after.kinds = table.kinds ++ [kind] := by
  unfold add
  by_cases htaken : kind.spelling ∈ table.spellings
  · rw [dif_pos htaken]
    exact ⟨nofun, fun h => absurd htaken h.1⟩
  · rw [dif_neg htaken, Except.ok.injEq]
    constructor
    · rintro rfl
      exact ⟨htaken, rfl⟩
    · intro h
      exact eq_of_kinds_eq h.2.symm

theorem add_eq_error_iff {table : KeywordTable} {kind : Kind} {e : DuplicateSpelling} :
    table.add kind = .error e ↔ kind.spelling ∈ table.spellings ∧ e = ⟨kind.spelling⟩ := by
  unfold add
  by_cases htaken : kind.spelling ∈ table.spellings
  · rw [dif_pos htaken, Except.error.injEq, eq_comm]
    exact ⟨fun h => ⟨htaken, h⟩, And.right⟩
  · rw [dif_neg htaken]
    exact ⟨nofun, fun h => absurd h.1 htaken⟩

theorem spellings_of_kinds_eq {table after : KeywordTable} {kinds : List Kind}
    (h : after.kinds = table.kinds ++ kinds) :
    after.spellings = table.spellings ++ kinds.map Kind.spelling := by
  rw [spellings, h, List.map_append, spellings]

theorem spellings_empty : empty.spellings = [] := rfl

/-! ## Adding kinds in a row -/

/-- Kinds are all added if their spellings are new and distinct, and they come behind those of the
table. -/
theorem foldlM_add_eq_ok_iff {table after : KeywordTable} {kinds : List Kind} :
    kinds.foldlM add table = .ok after ↔
      (table.spellings ++ kinds.map Kind.spelling).Nodup ∧
        after.kinds = table.kinds ++ kinds := by
  -- The induction is on the kinds, for every table, as each kind is added to what those before it
  -- have made.
  induction kinds generalizing table with
  | nil =>
    rw [List.map_nil, List.append_nil, List.append_nil]
    constructor
    · intro h
      obtain rfl := Except.ok.inj h
      exact ⟨table.nodup_spellings, rfl⟩
    · intro h
      rw [eq_of_kinds_eq h.2]
      rfl
  | cons kind rest ih =>
    rw [List.foldlM_cons, List.map_cons]
    cases hadd : table.add kind with
    | error e =>
      obtain ⟨htaken, -⟩ := add_eq_error_iff.mp hadd
      refine ⟨nofun, fun h => ?_⟩
      exact absurd rfl ((List.nodup_append.mp h.1).2.2 _ htaken _ List.mem_cons_self)
    | ok next =>
      obtain ⟨-, hnext⟩ := add_eq_ok_iff.mp hadd
      show rest.foldlM add next = .ok after ↔ _
      rw [ih, spellings_of_kinds_eq hnext, hnext, List.append_assoc, List.append_assoc]
      rfl

/-- Adding stops at the first kind whose spelling is in the table or belongs to a kind that was
added before it. -/
theorem foldlM_add_eq_error_iff {table : KeywordTable} {kinds : List Kind}
    {e : DuplicateSpelling} :
    kinds.foldlM add table = .error e ↔
      ∃ before kind rest, kinds = before ++ kind :: rest ∧
        (table.spellings ++ before.map Kind.spelling).Nodup ∧
        kind.spelling ∈ table.spellings ++ before.map Kind.spelling ∧
        e = ⟨kind.spelling⟩ := by
  induction kinds generalizing table with
  | nil =>
    refine ⟨nofun, ?_⟩
    rintro ⟨before, kind, rest, h, -⟩
    exact absurd h.symm (List.append_ne_nil_of_right_ne_nil before (List.cons_ne_nil kind rest))
  | cons first others ih =>
    rw [List.foldlM_cons]
    cases hadd : table.add first with
    | error e' =>
      obtain ⟨htaken, rfl⟩ := add_eq_error_iff.mp hadd
      show Except.error _ = Except.error e ↔ _
      rw [Except.error.injEq]
      constructor
      · rintro rfl
        refine ⟨[], first, others, rfl, ?_, List.mem_append_left _ htaken, rfl⟩
        rw [List.map_nil, List.append_nil]
        exact table.nodup_spellings
      · rintro ⟨before, kind, rest, hkinds, hnodup, -, he⟩
        cases before with
        | nil =>
          obtain ⟨rfl, -⟩ := List.cons.inj hkinds
          exact he.symm
        | cons _ before =>
          obtain ⟨rfl, -⟩ := List.cons.inj hkinds
          exact absurd rfl ((List.nodup_append.mp hnodup).2.2 _ htaken _ List.mem_cons_self)
    | ok next =>
      obtain ⟨hfresh, hnext⟩ := add_eq_ok_iff.mp hadd
      show others.foldlM add next = .error e ↔ _
      rw [ih, spellings_of_kinds_eq hnext]
      constructor
      · rintro ⟨before, kind, rest, rfl, hnodup, hmem, he⟩
        rw [List.append_assoc] at hnodup hmem
        exact ⟨first :: before, kind, rest, rfl, hnodup, hmem, he⟩
      · rintro ⟨before, kind, rest, hkinds, hnodup, hmem, he⟩
        cases before with
        | nil =>
          obtain ⟨rfl, -⟩ := List.cons.inj hkinds
          rw [List.map_nil, List.append_nil] at hmem
          exact absurd hmem hfresh
        | cons _ before =>
          obtain ⟨rfl, hothers⟩ := List.cons.inj hkinds
          refine ⟨before, kind, rest, hothers, ?_, ?_, he⟩
          · rw [List.append_assoc]
            exact hnodup
          · rw [List.append_assoc]
            exact hmem

/-! ## The first repeated spelling -/

/-- The kind with index `j` is spelled like a kind in front of it. -/
def RepeatsAt (kinds : List Kind) (j : Nat) : Prop :=
  ∃ i first again, i < j ∧ kinds[i]? = some first ∧ kinds[j]? = some again ∧
    first.spelling = again.spelling

theorem nodup_spellings_iff {kinds : List Kind} :
    (kinds.map Kind.spelling).Nodup ↔ ∀ j, ¬ RepeatsAt kinds j := by
  rw [List.Nodup, List.pairwise_map, List.pairwise_iff_getElem]
  constructor
  · rintro h j ⟨i, first, again, hij, hi, hj, hsame⟩
    obtain ⟨hi', rfl⟩ := List.getElem?_eq_some_iff.mp hi
    obtain ⟨hj', rfl⟩ := List.getElem?_eq_some_iff.mp hj
    exact h i j hi' hj' hij hsame
  · intro h i j hi hj hij hsame
    exact h j ⟨i, kinds[i], kinds[j], hij, List.getElem?_eq_getElem hi,
      List.getElem?_eq_getElem hj, hsame⟩

/-- What comes behind a kind has no effect on whether it repeats a spelling. -/
theorem repeatsAt_append {before rest : List Kind} {j : Nat} (hj : j < before.length) :
    RepeatsAt (before ++ rest) j ↔ RepeatsAt before j := by
  have hget : ∀ i ≤ j, (before ++ rest)[i]? = before[i]? := fun i hi =>
    List.getElem?_append_left (by omega)
  constructor
  · rintro ⟨i, first, again, hij, hfirst, hagain, hsame⟩
    rw [hget i (by omega)] at hfirst
    rw [hget j (by omega)] at hagain
    exact ⟨i, first, again, hij, hfirst, hagain, hsame⟩
  · rintro ⟨i, first, again, hij, hfirst, hagain, hsame⟩
    rw [← hget i (by omega)] at hfirst
    rw [← hget j (by omega)] at hagain
    exact ⟨i, first, again, hij, hfirst, hagain, hsame⟩

theorem repeatsAt_length_iff {before rest : List Kind} {kind : Kind} :
    RepeatsAt (before ++ kind :: rest) before.length ↔
      kind.spelling ∈ before.map Kind.spelling := by
  have hkind : (before ++ kind :: rest)[before.length]? = some kind := by simp
  rw [List.mem_map]
  constructor
  · rintro ⟨i, first, again, hij, hfirst, hagain, hsame⟩
    rw [List.getElem?_append_left hij] at hfirst
    obtain rfl := Option.some.inj (hkind.symm.trans hagain)
    exact ⟨first, List.mem_of_getElem? hfirst, hsame⟩
  · rintro ⟨first, hmem, hsame⟩
    obtain ⟨i, hi, rfl⟩ := List.mem_iff_getElem.mp hmem
    refine ⟨i, before[i], kind, hi, ?_, hkind, hsame⟩
    rw [List.getElem?_append_left hi, List.getElem?_eq_getElem hi]

/-- The spellings of a part in front are distinct if no kind of it repeats one. -/
theorem nodup_before_iff {before rest : List Kind} :
    (before.map Kind.spelling).Nodup ↔ ∀ i < before.length, ¬ RepeatsAt (before ++ rest) i := by
  rw [nodup_spellings_iff]
  constructor
  · intro h i hi hrepeats
    exact h i ((repeatsAt_append hi).mp hrepeats)
  · rintro h i ⟨k, first, again, hki, hfirst, hagain, hsame⟩
    obtain ⟨hi, -⟩ := List.getElem?_eq_some_iff.mp hagain
    exact h i hi ((repeatsAt_append hi).mpr ⟨k, first, again, hki, hfirst, hagain, hsame⟩)

/-! ## Tables of kinds -/

theorem ofKinds_eq_ok_iff {kinds : List Kind} {table : KeywordTable} :
    ofKinds kinds = .ok table ↔ (kinds.map Kind.spelling).Nodup ∧ table.kinds = kinds :=
  foldlM_add_eq_ok_iff

theorem ofKinds_eq_error_iff {kinds : List Kind} {e : DuplicateSpelling} :
    ofKinds kinds = .error e ↔
      ∃ j kind, kinds[j]? = some kind ∧ RepeatsAt kinds j ∧ (∀ i < j, ¬ RepeatsAt kinds i) ∧
        e = ⟨kind.spelling⟩ := by
  rw [ofKinds, foldlM_add_eq_error_iff]
  simp only [spellings_empty, List.nil_append]
  constructor
  · rintro ⟨before, kind, rest, rfl, hnodup, hmem, he⟩
    exact ⟨before.length, kind, by simp, repeatsAt_length_iff.mpr hmem,
      nodup_before_iff.mp hnodup, he⟩
  · rintro ⟨j, kind, hkind, hrepeats, hleast, he⟩
    obtain ⟨hj, rfl⟩ := List.getElem?_eq_some_iff.mp hkind
    have hlength : (kinds.take j).length = j := List.length_take_of_le (Nat.le_of_lt hj)
    have hkinds : kinds = kinds.take j ++ kinds[j] :: kinds.drop (j + 1) := by
      rw [List.getElem_cons_drop, List.take_append_drop]
    refine ⟨kinds.take j, kinds[j], kinds.drop (j + 1), hkinds, ?_, ?_, he⟩
    · apply nodup_before_iff.mpr
      rw [← hkinds, hlength]
      exact hleast
    · apply repeatsAt_length_iff.mp
      rw [← hkinds, hlength]
      exact hrepeats

theorem get?_eq_none_iff {table : KeywordTable} {spelling : String} :
    table.get? spelling = none ↔ ∀ kind ∈ table.kinds, kind.spelling ≠ spelling := by
  simp [get?]

end KeywordTable

/-! ## The kind of a word -/

theorem isReserved_iff {word : String} :
    isReserved word = true ↔ ∃ kind ∈ Kind.reserved, kind.spelling = word := by
  rw [isReserved, KeywordTable.contains, Option.isSome_iff_exists]
  simp only [KeywordTable.get?_eq_some_iff]
  rfl

namespace Kind

theorem ofWord_ne_identifier_iff {word : String} :
    ofWord word ≠ identifier ↔ isReserved word = true := by
  rw [← isKeyword_ofWord, isKeyword, decide_eq_true_eq]

/-- Each reserved kind is the kind of its own spelling. -/
theorem ofWord_spelling {kind : Kind} (h : kind ∈ reserved) : ofWord kind.spelling = kind := by
  have hget : KeywordTable.reserved.get? kind.spelling = some kind :=
    KeywordTable.get?_eq_some_iff.mpr ⟨h, rfl⟩
  rw [ofWord, hget]
  rfl

/-- A keyword kind tells the word that it is the kind of. -/
theorem spelling_ofWord {word : String} (h : ofWord word ≠ identifier) :
    (ofWord word).spelling = word := by
  obtain ⟨kind, hmem, rfl⟩ := isReserved_iff.mp (ofWord_ne_identifier_iff.mp h)
  rw [ofWord_spelling hmem]

end Kind

namespace KeywordTable

/-- A table can be made of kinds whose spellings are distinct.  It holds them in their order, and a
spelling leads to the kind of the list that is spelled so.  Other kinds are refused with the
spelling that repeats an earlier one first.  The table of the reserved words is made so: a word is
reserved exactly if its kind is not the identifier kind and exactly if a reserved kind is spelled
so, which is then its kind, and no two words share a keyword kind. -/
theorem ofKinds_spellings (kinds : List Kind) :
    ((∃ table, ofKinds kinds = .ok table) ↔ (kinds.map Kind.spelling).Nodup) ∧
      (∀ table, ofKinds kinds = .ok table →
        table.kinds = kinds ∧ table.spellings = kinds.map Kind.spelling ∧
          ∀ spelling : String,
            (∀ kind, table.get? spelling = some kind ↔ kind ∈ kinds ∧ kind.spelling = spelling) ∧
              (table.get? spelling = none ↔ ∀ kind ∈ kinds, kind.spelling ≠ spelling)) ∧
      (∀ e, ofKinds kinds = .error e ↔
        ∃ j kind, kinds[j]? = some kind ∧ RepeatsAt kinds j ∧ (∀ i < j, ¬ RepeatsAt kinds i) ∧
          e = ⟨kind.spelling⟩ ∧
          e.message = "duplicate keyword spelling '" ++ kind.spelling ++ "'") ∧
      ofKinds Kind.reserved = .ok reserved ∧
      ∀ word : String,
        (isReserved word = true ↔ Kind.ofWord word ≠ .identifier) ∧
          (isReserved word = true ↔ ∃ kind ∈ Kind.reserved, kind.spelling = word) ∧
          (∀ kind ∈ Kind.reserved, kind.spelling = word ↔ Kind.ofWord word = kind) ∧
          ∀ other : String, Kind.ofWord word ≠ .identifier →
            Kind.ofWord word = Kind.ofWord other → word = other := by
  refine ⟨?_, ?_, ?_, ofKinds_reserved, fun word => ⟨?_, isReserved_iff, ?_, ?_⟩⟩
  · constructor
    · rintro ⟨table, htable⟩
      exact (ofKinds_eq_ok_iff.mp htable).1
    · intro hnodup
      exact ⟨⟨kinds, hnodup⟩, ofKinds_eq_ok_iff.mpr ⟨hnodup, rfl⟩⟩
  · intro table htable
    obtain ⟨-, rfl⟩ := ofKinds_eq_ok_iff.mp htable
    exact ⟨rfl, rfl, fun spelling => ⟨fun _ => get?_eq_some_iff, get?_eq_none_iff⟩⟩
  · intro e
    rw [ofKinds_eq_error_iff]
    constructor
    · rintro ⟨j, kind, hkind, hrepeats, hleast, rfl⟩
      exact ⟨j, kind, hkind, hrepeats, hleast, rfl, rfl⟩
    · rintro ⟨j, kind, hkind, hrepeats, hleast, he, -⟩
      exact ⟨j, kind, hkind, hrepeats, hleast, he⟩
  · exact Kind.ofWord_ne_identifier_iff.symm
  · intro kind hmem
    constructor
    · rintro rfl
      exact Kind.ofWord_spelling hmem
    · rintro rfl
      have hkeyword := Kind.isKeyword_of_mem_reserved _ hmem
      rw [Kind.isKeyword, decide_eq_true_eq] at hkeyword
      exact Kind.spelling_ofWord hkeyword
  · intro other hkeyword hsame
    have hother : (Kind.ofWord other).spelling = other :=
      Kind.spelling_ofWord (hsame ▸ hkeyword)
    rw [← hsame, Kind.spelling_ofWord hkeyword] at hother
    exact hother

/-- Of two spellings that are repeated, the error names the one whose second kind comes first. -/
theorem ofKinds_spellings_interleaved :
    (∃ table, ofKinds [.further 0 "spam", .further 1 "eggs"] = .ok table ∧
      table.get? "eggs" = some (.further 1 "eggs") ∧ table.get? "egg" = none) ∧
    ofKinds [.further 0 "a", .further 1 "b", .further 2 "b", .further 3 "a"] = .error ⟨"b"⟩ ∧
    Kind.ofWord "fork" ≠ Kind.ofWord "for" := by
  obtain ⟨hok, hlookup, -, -, hwords⟩ :=
    ofKinds_spellings [.further 0 "spam", .further 1 "eggs"]
  obtain ⟨-, -, herror, -⟩ :=
    ofKinds_spellings [.further 0 "a", .further 1 "b", .further 2 "b", .further 3 "a"]
  obtain ⟨table, htable⟩ := hok.mpr (by decide)
  obtain ⟨-, -, hget⟩ := hlookup table htable
  refine ⟨⟨table, htable, ((hget "eggs").1 _).mpr (by decide), (hget "egg").2.mpr (by decide)⟩,
    ?_, ?_⟩
  · refine (herror ⟨"b"⟩).mpr ⟨2, .further 2 "b", rfl,
      ⟨1, .further 1 "b", .further 2 "b", by decide, rfl, rfl, rfl⟩, ?_, rfl, rfl⟩
    rintro i hi ⟨k, first, again, hk, hfirst, hagain, hsame⟩
    obtain ⟨rfl, rfl⟩ : i = 1 ∧ k = 0 := by omega
    cases hfirst
    cases hagain
    exact absurd hsame (by decide)
  · intro hsame
    exact absurd ((hwords "fork").2.2.2 "for" (by decide) hsame) (by decide)

end KeywordTable

end WordLexer
