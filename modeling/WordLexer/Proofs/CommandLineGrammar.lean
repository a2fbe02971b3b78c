import Mathlib.Data.List.TakeWhile
import WordLexer.Program

/-!
# Command lines whose options are spelled out

In front of the separator such a command line holds the two options and words without a dash, in any
order and any number; behind it, anything.  Only the first group of words names files.  So the
command line is taken exactly if there is no second group and it asks for something to do
(`parse_plainLine`).  The words of other groups are named in the complaint.
-/

namespace WordLexer.CommandLine

/-! ## The command lines -/

/-- One of the two options, or a text that does not start with a dash. -/
def IsPlain (text : String) : Prop :=
  text = "-z-quiet" ∨ text = "-z-list-keywords" ∨ text.toList.head? ≠ some '-'

instance (text : String) : Decidable (IsPlain text) :=
  inferInstanceAs (Decidable (text = "-z-quiet" ∨ text = "-z-list-keywords" ∨
    text.toList.head? ≠ some '-'))

/-- The texts in front of the separator, and those behind it if it is there. -/
structure PlainLine where
  front : List String
  behind : Option (List String)
  plain : ∀ text ∈ front, IsPlain text

def Argument.isOption : Argument → Bool
  | .option _ _ => true
  | _ => false

/-- The text that an argument is given as, without what is attached to it. -/
def Argument.spelling : Argument → String
  | .word text => text
  | .separator => "--"
  | .option switch _ => switch.spelling
  | .unknown text => text

/-- What a text in front of the separator stands for. -/
def plainArgument (text : String) : Argument :=
  if text = "-z-quiet" then .option ⟨"-z-quiet", .quiet⟩ none
  else if text = "-z-list-keywords" then .option ⟨"-z-list-keywords", .listKeywords⟩ none
  else .word text

namespace PlainLine

def texts (line : PlainLine) : List String :=
  match line.behind with
  | none => line.front
  | some words => line.front ++ "--" :: words

def arguments (line : PlainLine) : List Argument :=
  match line.behind with
  | none => line.front.map plainArgument
  | some words => line.front.map plainArgument ++ .separator :: words.map .word

/-- The texts without a dash in front of the separator, and all texts behind it. -/
def files (line : PlainLine) : List String :=
  line.front.filter (fun text => text.toList.head? ≠ some '-') ++ line.behind.getD []

end PlainLine

/-! ## Groups of words -/

/-- All arguments that are no options stand in a row. -/
def IsContiguous (arguments : List Argument) : Prop :=
  ∃ before words after, arguments = before ++ words ++ after ∧
    (∀ argument ∈ before, argument.isOption = true) ∧
    (∀ argument ∈ words, argument.isOption = false) ∧
    ∀ argument ∈ after, argument.isOption = true

/-- The arguments that are no options and stand behind the first group of them. -/
def outside (arguments : List Argument) : List Argument :=
  ((arguments.dropWhile (·.isOption)).dropWhile (!·.isOption)).filter (!·.isOption)

/-- The first group of arguments that are no options. -/
def inside (arguments : List Argument) : List Argument :=
  (arguments.dropWhile (·.isOption)).takeWhile (!·.isOption)

/-- Arguments are some options, the first group of others, and what is behind it. -/
theorem takeWhile_append_inside_append (arguments : List Argument) :
    arguments.takeWhile (·.isOption) ++ inside arguments ++
      (arguments.dropWhile (·.isOption)).dropWhile (!·.isOption) = arguments := by
  rw [inside, List.append_assoc, List.takeWhile_append_dropWhile, List.takeWhile_append_dropWhile]

theorem isOption_of_mem_inside {arguments : List Argument} {argument : Argument}
    (h : argument ∈ inside arguments) : argument.isOption = false := by
  have hnot := List.mem_takeWhile_imp h
  simpa using hnot

theorem filter_of_isOption {arguments : List Argument}
    (h : ∀ argument ∈ arguments, argument.isOption = true) :
    arguments.filter (!·.isOption) = [] := by
  rw [List.filter_eq_nil_iff]
  intro argument hmem
  rw [h argument hmem]
  decide

theorem filter_eq_inside_append_outside (arguments : List Argument) :
    arguments.filter (!·.isOption) = inside arguments ++ outside arguments := by
  have hoptions : (arguments.takeWhile (·.isOption)).filter (!·.isOption) = [] :=
    filter_of_isOption fun _ hmem => List.mem_takeWhile_imp hmem
  have hwords : (inside arguments).filter (!·.isOption) = inside arguments := by
    rw [List.filter_eq_self]
    intro argument hmem
    rw [isOption_of_mem_inside hmem]
    rfl
  calc
    _ = (arguments.takeWhile (·.isOption) ++ inside arguments ++
          (arguments.dropWhile (·.isOption)).dropWhile (!·.isOption)).filter (!·.isOption) := by
      rw [takeWhile_append_inside_append]
    _ = _ := by
      rw [List.filter_append, List.filter_append, hoptions, hwords, List.nil_append, outside]

theorem isContiguous_iff {arguments : List Argument} :
    IsContiguous arguments ↔ outside arguments = [] := by
  constructor
  · rintro ⟨before, words, after, rfl, hbefore, hwords, hafter⟩
    rw [outside, List.append_assoc, List.dropWhile_append_of_pos hbefore]
    apply filter_of_isOption
    cases words with
    | nil => exact fun argument hmem => hafter argument ((List.dropWhile_sublist _ |>.trans
        (List.dropWhile_sublist _)).subset hmem)
    | cons word words =>
      have hword : ¬ word.isOption = true := by
        rw [hwords word List.mem_cons_self]
        decide
      have hall : ∀ argument ∈ word :: words, (!argument.isOption) = true := by
        intro argument hmem
        rw [hwords argument hmem]
        rfl
      rw [List.cons_append, List.dropWhile_cons_of_neg hword, ← List.cons_append,
        List.dropWhile_append_of_pos hall]
      exact fun argument hmem => hafter argument ((List.dropWhile_sublist _).subset hmem)
  · intro h
    refine ⟨arguments.takeWhile (·.isOption), inside arguments, _,
      (takeWhile_append_inside_append arguments).symm, fun _ hmem => List.mem_takeWhile_imp hmem,
      fun _ hmem => isOption_of_mem_inside hmem, fun argument hmem => ?_⟩
    have hnot := List.filter_eq_nil_iff.mp h argument hmem
    rw [Bool.not_eq_true', Bool.not_eq_false] at hnot
    exact hnot

/-! ## Reading a command line -/

theorem plainArgument_of_head? {text : String} (h : text.toList.head? ≠ some '-') :
    plainArgument text = .word text := by
  have hquiet : text ≠ "-z-quiet" := by
    rintro rfl
    exact h rfl
  have hlist : text ≠ "-z-list-keywords" := by
    rintro rfl
    exact h rfl
  rw [plainArgument, if_neg hquiet, if_neg hlist]

theorem ofText_of_isPlain {text : String} (h : IsPlain text) :
    Argument.ofText text = .ok (plainArgument text) := by
  rcases h with rfl | rfl | h
  · rfl
  · rfl
  · rw [plainArgument_of_head? h, Argument.ofText, if_pos]
    rw [Bool.or_eq_true, bne_iff_ne]
    exact .inl h

theorem ofTexts_append {front : List String} (hfront : ∀ text ∈ front, IsPlain text)
    {texts : List String} {arguments : List Argument}
    (h : Argument.ofTexts texts = .ok arguments) :
    Argument.ofTexts (front ++ texts) = .ok (front.map plainArgument ++ arguments) := by
  induction front with
  | nil => exact h
  | cons text front ih =>
    rw [List.forall_mem_cons] at hfront
    have hseparator : text ≠ "--" := by
      rintro rfl
      exact absurd hfront.1 (by decide)
    rw [List.cons_append, Argument.ofTexts, if_neg hseparator, ofText_of_isPlain hfront.1,
      ih hfront.2]
    rfl

/-- Behind the separator every argument is a word. -/
theorem ofTexts_separator (words : List String) :
    Argument.ofTexts ("--" :: words) = .ok (.separator :: words.map .word) := by
  unfold Argument.ofTexts
  rw [if_pos rfl]

namespace PlainLine

theorem ofTexts_texts (line : PlainLine) : Argument.ofTexts line.texts = .ok line.arguments := by
  rw [texts, arguments]
  cases line.behind with
  | none =>
    have h := ofTexts_append line.plain (show Argument.ofTexts [] = .ok [] from rfl)
    rw [List.append_nil, List.append_nil] at h
    exact h
  | some words => exact ofTexts_append line.plain (ofTexts_separator words)

end PlainLine

/-! ## Taking arguments -/

/-- The argument is a word or an option other than help, and no text is attached to it. -/
def Argument.IsPlain : Argument → Prop
  | .option switch attached => switch.flag ≠ .help ∧ attached = none
  | .unknown _ => False
  | _ => True

def Argument.fileName? : Argument → Option String
  | .word text => some text
  | _ => none

def Argument.asks (flag : Flag) : Argument → Bool
  | .option switch _ => switch.flag = flag
  | _ => false

namespace Stage

/-- The stage behind an argument. -/
def next (stage : Stage) (argument : Argument) : Stage :=
  match stage with
  | .before => if argument.isOption then .before else .among
  | .among => if argument.isOption then .after else .among
  | .after => .after

/-- Of the arguments from a stage on, those of the first group. -/
def inside (stage : Stage) (arguments : List Argument) : List Argument :=
  match stage with
  | .before => CommandLine.inside arguments
  | .among => arguments.takeWhile (!·.isOption)
  | .after => []

/-- Of the arguments from a stage on, those that are no options and not of the first group. -/
def outside (stage : Stage) (arguments : List Argument) : List Argument :=
  match stage with
  | .before => CommandLine.outside arguments
  | .among => (arguments.dropWhile (!·.isOption)).filter (!·.isOption)
  | .after => arguments.filter (!·.isOption)

theorem inside_cons (stage : Stage) (argument : Argument) (arguments : List Argument) :
    stage.inside (argument :: arguments) =
      stage.inside [argument] ++ (stage.next argument).inside arguments := by
  cases stage <;> cases h : argument.isOption <;>
    simp [inside, CommandLine.inside, next, h]

theorem outside_cons (stage : Stage) (argument : Argument) (arguments : List Argument) :
    stage.outside (argument :: arguments) =
      stage.outside [argument] ++ (stage.next argument).outside arguments := by
  cases stage <;> cases h : argument.isOption <;>
    simp [outside, CommandLine.outside, next, h]

end Stage

namespace Progress

/-- How far the reading gets with some more arguments. -/
def reach (progress : Progress) (arguments : List Argument) : Progress :=
  ⟨⟨progress.options.files ++ (progress.stage.inside arguments).filterMap Argument.fileName?,
      progress.options.listKeywords || arguments.any (Argument.asks .listKeywords),
      progress.options.quiet || arguments.any (Argument.asks .quiet)⟩,
    arguments.foldl Stage.next progress.stage,
    progress.extras ++ (progress.stage.outside arguments).map Argument.spelling⟩

theorem reach_nil (progress : Progress) : progress.reach [] = progress := by
  obtain ⟨⟨files, listKeywords, quiet⟩, stage, extras⟩ := progress
  cases stage <;> simp [reach, Stage.inside, Stage.outside, CommandLine.inside, CommandLine.outside]

theorem reach_cons (progress : Progress) (argument : Argument) (arguments : List Argument) :
    progress.reach (argument :: arguments) = (progress.reach [argument]).reach arguments := by
  unfold reach
  rw [Stage.inside_cons progress.stage argument arguments,
    Stage.outside_cons progress.stage argument arguments]
  simp [List.filterMap_append, Bool.or_assoc]

/-- Taking one argument of a plain command line. -/
theorem take_of_isPlain {argument : Argument} (h : argument.IsPlain) (progress : Progress) :
    progress.take argument = .ok (progress.reach [argument]) := by
  obtain ⟨⟨files, listKeywords, quiet⟩, stage, extras⟩ := progress
  unfold reach Stage.inside Stage.outside CommandLine.inside CommandLine.outside
  cases argument with
  | word _ | separator =>
    cases stage <;>
      simp [take, Stage.next, Argument.isOption, Argument.fileName?, Argument.asks,
        Argument.spelling]
  | unknown text => exact h.elim
  | option switch attached =>
    obtain ⟨spelling, flag⟩ := switch
    obtain ⟨hflag, rfl⟩ := h
    cases flag with
    | help => exact absurd rfl hflag
    | listKeywords | quiet =>
      cases stage <;>
        simp [take, leaveFiles, takeOption, obey, Stage.next, Argument.isOption, Argument.asks]

/-- Taking the arguments of a plain command line one after the other. -/
theorem foldlM_take_of_isPlain {arguments : List Argument}
    (h : ∀ argument ∈ arguments, argument.IsPlain) (progress : Progress) :
    arguments.foldlM take progress = .ok (progress.reach arguments) := by
  -- For any progress so far: `reach` of the first argument is where the others start.
  induction arguments generalizing progress with
  | nil =>
    rw [reach_nil]
    rfl
  | cons argument arguments ih =>
    rw [List.forall_mem_cons] at h
    rw [List.foldlM_cons, take_of_isPlain h.1, reach_cons progress argument arguments]
    exact ih h.2 (progress.reach [argument])

end Progress

theorem Progress.finish_reach (arguments : List Argument) :
    (start.reach arguments).finish =
      if (outside arguments).map Argument.spelling ≠ [] then
        .error (.misuse (.unrecognized ((outside arguments).map Argument.spelling)))
      else if ((inside arguments).filterMap Argument.fileName?).isEmpty &&
          !arguments.any (Argument.asks .listKeywords) then
        .error (.misuse .noFiles)
      else
        .ok ⟨(inside arguments).filterMap Argument.fileName?,
          arguments.any (Argument.asks .listKeywords), arguments.any (Argument.asks .quiet)⟩ :=
  rfl

/-- If nothing stands outside the first group, it names the files of all arguments. -/
theorem filterMap_fileName?_inside {arguments : List Argument} (h : outside arguments = []) :
    (inside arguments).filterMap Argument.fileName? =
      arguments.filterMap Argument.fileName? := by
  have hfilter := filter_eq_inside_append_outside arguments
  rw [h, List.append_nil] at hfilter
  rw [← hfilter, List.filterMap_filter]
  congr 1
  funext argument
  cases argument <;> rfl

/-! ## Plain command lines -/

namespace PlainLine

theorem isPlain_of_mem_arguments {line : PlainLine} {argument : Argument}
    (h : argument ∈ line.arguments) : argument.IsPlain := by
  have hfront : ∀ argument ∈ line.front.map plainArgument, argument.IsPlain := by
    intro argument hmem
    obtain ⟨text, htext, rfl⟩ := List.mem_map.mp hmem
    rcases line.plain text htext with rfl | rfl | hhead
    · exact ⟨by decide, rfl⟩
    · exact ⟨by decide, rfl⟩
    · rw [plainArgument_of_head? hhead]
      trivial
  rw [arguments] at h
  cases hbehind : line.behind with
  | none =>
    rw [hbehind] at h
    exact hfront argument h
  | some words =>
    rw [hbehind] at h
    rcases List.mem_append.mp h with h | h
    · exact hfront argument h
    · rcases List.mem_cons.mp h with rfl | h
      · trivial
      · obtain ⟨text, -, rfl⟩ := List.mem_map.mp h
        trivial

theorem parse_texts (line : PlainLine) :
    parse line.texts = (Progress.start.reach line.arguments).finish := by
  unfold parse
  rw [ofTexts_texts]
  show line.arguments.foldlM Progress.take .start >>= Progress.finish = _
  rw [Progress.foldlM_take_of_isPlain fun _ hmem => isPlain_of_mem_arguments hmem]
  rfl

theorem filterMap_fileName?_front {front : List String} (h : ∀ text ∈ front, IsPlain text) :
    (front.map plainArgument).filterMap Argument.fileName? =
      front.filter fun text => text.toList.head? ≠ some '-' := by
  induction front with
  | nil => rfl
  | cons text front ih =>
    rw [List.forall_mem_cons] at h
    obtain ⟨htext, hfront⟩ := h
    rcases htext with rfl | rfl | hhead
    · exact ih hfront
    · exact ih hfront
    · rw [List.map_cons, plainArgument_of_head? hhead,
        List.filter_cons, if_pos (decide_eq_true hhead), ← ih hfront]
      rfl

theorem filterMap_fileName?_arguments (line : PlainLine) :
    line.arguments.filterMap Argument.fileName? = line.files := by
  have hwords : ∀ words : List String,
      (words.map Argument.word).filterMap Argument.fileName? = words := by
    intro words
    rw [List.filterMap_map]
    exact List.filterMap_some
  rw [arguments, files]
  cases line.behind with
  | none => rw [filterMap_fileName?_front line.plain, Option.getD_none, List.append_nil]
  | some words =>
    rw [List.filterMap_append, filterMap_fileName?_front line.plain, Option.getD_some,
      List.filterMap_cons, hwords]
    rfl

/-- The options that a plain command line can hold. -/
def IsPlainSwitch (switch : Switch) : Prop :=
  switch = ⟨"-z-quiet", .quiet⟩ ∨ switch = ⟨"-z-list-keywords", .listKeywords⟩

theorem asks_plainArgument_iff {switch : Switch} (h : IsPlainSwitch switch) (text : String) :
    (plainArgument text).asks switch.flag = true ↔ text = switch.spelling := by
  rw [plainArgument]
  by_cases hquiet : text = "-z-quiet"
  · subst hquiet
    rcases h with rfl | rfl <;> decide
  · rw [if_neg hquiet]
    by_cases hlist : text = "-z-list-keywords"
    · subst hlist
      rcases h with rfl | rfl <;> decide
    · rw [if_neg hlist]
      rcases h with rfl | rfl
      · exact ⟨nofun, fun heq => absurd heq hquiet⟩
      · exact ⟨nofun, fun heq => absurd heq hlist⟩

theorem any_asks_arguments_iff {switch : Switch} (h : IsPlainSwitch switch) (line : PlainLine) :
    line.arguments.any (Argument.asks switch.flag) = true ↔ switch.spelling ∈ line.front := by
  have hfront : (line.front.map plainArgument).any (Argument.asks switch.flag) = true ↔
      switch.spelling ∈ line.front := by
    rw [List.any_map, List.any_eq_true]
    constructor
    · rintro ⟨text, hmem, hasks⟩
      rw [← (asks_plainArgument_iff h text).mp hasks]
      exact hmem
    · exact fun hmem => ⟨_, hmem, (asks_plainArgument_iff h _).mpr rfl⟩
  have hwords : ∀ words : List String,
      (words.map Argument.word).any (Argument.asks switch.flag) = false := by
    intro words
    rw [List.any_map, List.any_eq_false]
    exact fun _ _ => Bool.false_ne_true
  rw [arguments]
  cases line.behind with
  | none => exact hfront
  | some words =>
    rw [List.any_append, List.any_cons, hwords]
    show (_ || false) = true ↔ _
    rw [Bool.or_false]
    exact hfront

/-- The options of a plain command line whose words stand in a row. -/
def options (line : PlainLine) : Options :=
  ⟨line.files, decide ("-z-list-keywords" ∈ line.front), decide ("-z-quiet" ∈ line.front)⟩

theorem parse_of_isContiguous {line : PlainLine} (h : IsContiguous line.arguments) :
    parse line.texts =
      if line.files = [] ∧ "-z-list-keywords" ∉ line.front then .error (.misuse .noFiles)
      else .ok line.options := by
  have houtside := isContiguous_iff.mp h
  have hfiles : (inside line.arguments).filterMap Argument.fileName? = line.files := by
    rw [← filterMap_fileName?_arguments, filterMap_fileName?_inside houtside]
  have hlist : line.arguments.any (Argument.asks .listKeywords) =
      decide ("-z-list-keywords" ∈ line.front) :=
    Bool.eq_iff_iff.mpr ((any_asks_arguments_iff (.inr rfl) line).trans decide_eq_true_iff.symm)
  have hquiet : line.arguments.any (Argument.asks .quiet) = decide ("-z-quiet" ∈ line.front) :=
    Bool.eq_iff_iff.mpr ((any_asks_arguments_iff (.inl rfl) line).trans decide_eq_true_iff.symm)
  rw [parse_texts, Progress.finish_reach, houtside, hfiles, hlist, hquiet,
    if_neg (fun hne => hne rfl)]
  simp [options]

theorem parse_of_not_isContiguous {line : PlainLine} (h : ¬ IsContiguous line.arguments) :
    parse line.texts =
      .error (.misuse (.unrecognized ((outside line.arguments).map Argument.spelling))) := by
  rw [parse_texts, Progress.finish_reach, if_pos]
  rw [ne_eq, List.map_eq_nil_iff]
  exact mt isContiguous_iff.mpr h

theorem parse_eq_ok_iff {line : PlainLine} {options : Options} :
    parse line.texts = .ok options ↔
      (IsContiguous line.arguments ∧ (line.files ≠ [] ∨ "-z-list-keywords" ∈ line.front)) ∧
        options = line.options := by
  by_cases h : IsContiguous line.arguments
  · rw [parse_of_isContiguous h]
    by_cases hnothing : line.files = [] ∧ "-z-list-keywords" ∉ line.front
    · rw [if_pos hnothing]
      refine ⟨nofun, fun hasks => ?_⟩
      exact absurd hasks.1.2 (not_or.mpr ⟨not_not.mpr hnothing.1, hnothing.2⟩)
    · rw [if_neg hnothing, Except.ok.injEq, eq_comm]
      rw [not_and_or, not_not] at hnothing
      exact ⟨fun hoptions => ⟨⟨h, hnothing⟩, hoptions⟩, And.right⟩
  · rw [parse_of_not_isContiguous h]
    exact ⟨nofun, fun hasks => absurd hasks.1.1 h⟩

/-- What is wrong with a plain command line that is not taken. -/
theorem exists_misuse_of_parse_eq_error {line : PlainLine} {interruption : Interruption}
    (hparse : parse line.texts = .error interruption) :
    ∃ e, interruption = .misuse e ∧
      (¬ IsContiguous line.arguments →
        e = .unrecognized ((outside line.arguments).map Argument.spelling)) := by
  by_cases h : IsContiguous line.arguments
  · rw [parse_of_isContiguous h] at hparse
    split at hparse
    · exact ⟨.noFiles, (Except.error.inj hparse).symm, fun hnot => absurd h hnot⟩
    · cases hparse
  · rw [parse_of_not_isContiguous h] at hparse
    exact ⟨_, (Except.error.inj hparse).symm, fun _ => rfl⟩

/-- The arguments are the texts of the command line in their order. -/
theorem map_spelling_arguments (line : PlainLine) :
    line.arguments.map Argument.spelling = line.texts := by
  have hspelling : ∀ text, (plainArgument text).spelling = text := by
    intro text
    rw [plainArgument]
    split
    · rename_i h
      exact h.symm
    · split
      · rename_i h
        exact h.symm
      · rfl
  have hfront : (line.front.map plainArgument).map Argument.spelling = line.front := by
    rw [List.map_map]
    exact (List.map_congr_left fun text _ => hspelling text).trans (List.map_id _)
  rw [arguments, texts]
  cases line.behind with
  | none => exact hfront
  | some words =>
    rw [List.map_append, List.map_cons, hfront, List.map_map]
    exact congrArg (fun rest => line.front ++ "--" :: rest) (List.map_id words)

end PlainLine

/-- A plain command line is taken exactly if the arguments that are no options stand in a row and
there is a file or the reserved words are asked for.  Its files are then all words, in their order,
and its options those that are given, however often and wherever.  Otherwise the run ends with
status two, whatever is on the disk: it prints nothing but a complaint and leaves the log as it is.
If the arguments do not stand in a row, the complaint names those behind the first group. -/
theorem parse_plainLine (line : PlainLine) :
    line.arguments.map Argument.spelling = line.texts ∧
      ((∃ options, parse line.texts = .ok options) ↔
        IsContiguous line.arguments ∧
          (line.files ≠ [] ∨ "-z-list-keywords" ∈ line.front)) ∧
      (∀ options, parse line.texts = .ok options →
        options.files = line.files ∧
          (options.listKeywords = true ↔ "-z-list-keywords" ∈ line.front) ∧
          (options.quiet = true ↔ "-z-quiet" ∈ line.front) ∧
          ∀ machine disk log, Program.run machine disk line.texts log =
            Program.perform machine disk options log) ∧
      ∀ interruption, parse line.texts = .error interruption →
        ∃ errors : String,
          (∀ machine disk log, Program.run machine disk line.texts log =
            (.stopped 2 "" errors, log)) ∧
          (¬ IsContiguous line.arguments →
            errors = "usage: langlex [-h] [options] files...\n" ++
              ("langlex: error: " ++ ("unrecognized arguments: " ++
                " ".intercalate ((outside line.arguments).map Argument.spelling)) ++ "\n")) := by
  refine ⟨line.map_spelling_arguments, ?_, ?_, ?_⟩
  · simp only [PlainLine.parse_eq_ok_iff, exists_and_left, exists_eq, and_true]
  · intro options hparse
    obtain ⟨-, rfl⟩ := PlainLine.parse_eq_ok_iff.mp hparse
    refine ⟨rfl, decide_eq_true_iff, decide_eq_true_iff, fun machine disk log => ?_⟩
    rw [Program.run, hparse]
  · intro interruption hparse
    obtain ⟨e, rfl, he⟩ := PlainLine.exists_misuse_of_parse_eq_error hparse
    refine ⟨complaint e, fun machine disk log => ?_, fun h => ?_⟩
    · rw [Program.run, hparse]
      rfl
    · rw [he h]
      rfl

/-- Options around one group of words, which goes on behind the separator, and then a word and the
separator behind an option that ends the group. -/
theorem parse_plainLine_two_groups :
    (∃ options, parse ["-z-quiet", "b", "", "b", "--", "--", "-z-quiet"] = .ok options ∧
      options.files = ["b", "", "b", "--", "-z-quiet"] ∧ options.quiet = true) ∧
    ∀ machine disk log,
      Program.run machine disk ["a", "-z-quiet", "b", "--", "-x"] log =
        (.stopped 2 "" ("usage: langlex [-h] [options] files...\n" ++
          "langlex: error: unrecognized arguments: b -- -x\n"), log) := by
  let taken : PlainLine := ⟨["-z-quiet", "b", "", "b"], some ["--", "-z-quiet"], by decide⟩
  let refused : PlainLine := ⟨["a", "-z-quiet", "b"], some ["-x"], by decide⟩
  obtain ⟨-, haccepted, hoptions, -⟩ := parse_plainLine taken
  obtain ⟨-, -, -, herror⟩ := parse_plainLine refused
  constructor
  · have hrow : IsContiguous taken.arguments := isContiguous_iff.mpr rfl
    obtain ⟨options, hparse⟩ := haccepted.mpr ⟨hrow, .inl (by decide)⟩
    obtain ⟨hfiles, -, hquiet, -⟩ := hoptions options hparse
    exact ⟨options, hparse, hfiles, hquiet.mpr (by decide)⟩
  · have hgroups : ¬ IsContiguous refused.arguments :=
      fun h => absurd (isContiguous_iff.mp h) (by decide)
    obtain ⟨errors, hrun, herrors⟩ := herror _ rfl
    rw [herrors hgroups] at hrun
    exact hrun

end WordLexer.CommandLine
