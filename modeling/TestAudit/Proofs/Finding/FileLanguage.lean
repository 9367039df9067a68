import Mathlib.Data.List.Infix
import TestAudit.Proofs.Finding.Walk
import TestAudit.Proofs.Text.Mark

namespace TestAudit

/-!
# Languages of the test files that are found

No file name ending in the table of languages is the ending of another one, so a name has one
language at most. Each naming convention asks for an ending of its own language, but a line
feed behind it is not looked at there, and is in the table: a name with such a line feed is
that of a test file without a language. Every other test file has the language of the
conventions that its name follows.
-/

namespace Language

variable {language other : Language} {name : Text}

/-! ## Endings of file names -/

/-- What ends in two endings of the table ends in one. -/
theorem byEnding_unique :
    ∀ first ∈ byEnding, ∀ second ∈ byEnding, first.1 <:+ second.1 → first = second := by
  decide

theorem getLast?_of_mem_byEnding :
    ∀ entry ∈ byEnding, entry.1 ≠ [] ∧ entry.1.getLast? ≠ some '\n' := by
  decide

/-- A name has a language just when it has one of the endings for it, in any letter case. -/
theorem ofFileName?_eq_some_iff :
    ofFileName? name = some language ↔
      ∃ ending, (ending, language) ∈ byEnding ∧ ending <:+ name.lowerAscii := by
  constructor
  · intro found
    obtain ⟨⟨ending, _⟩, isFirst, rfl⟩ := Option.map_eq_some_iff.mp found
    have ends := List.find?_some isFirst
    exact ⟨ending, List.mem_of_find?_eq_some isFirst, List.isSuffixOf_iff_suffix.mp ends⟩
  · rintro ⟨ending, isEntry, ends⟩
    have isThere : (byEnding.find? fun entry => name.lowerAscii.endsWith entry.1).isSome := by
      rw [List.find?_isSome]
      exact ⟨_, isEntry, List.isSuffixOf_iff_suffix.mpr ends⟩
    obtain ⟨first, isFirst⟩ := Option.isSome_iff_exists.mp isThere
    have isListed := List.mem_of_find?_eq_some isFirst
    have matched := List.find?_some isFirst
    have firstEnds : first.1 <:+ name.lowerAscii := List.isSuffixOf_iff_suffix.mp matched
    have same : first = (ending, language) := by
      rcases List.suffix_or_suffix_of_suffix firstEnds ends with shorter | longer
      · exact byEnding_unique first isListed _ isEntry shorter
      · exact (byEnding_unique _ isEntry first isListed longer).symm
    rw [ofFileName?, isFirst, same]
    rfl

/-- A name that ends in a line feed has no ending of the table. -/
theorem ofFileName?_of_lineFeed
    (ends : name.getLast? = some '\n') :
    ofFileName? name = none := by
  refine Option.eq_none_iff_forall_ne_some.mpr fun language found => ?_
  obtain ⟨ending, isEntry, front, shape⟩ := ofFileName?_eq_some_iff.mp found
  obtain ⟨notEmpty, noLineFeed⟩ := getLast?_of_mem_byEnding _ isEntry
  have lastOfEnding : name.lowerAscii.getLast? = ending.getLast? := by
    rw [← shape, List.getLast?_append_of_ne_nil _ notEmpty]
  rw [Text.lowerAscii, List.getLast?_map, ends] at lastOfEnding
  exact noLineFeed lastOfEnding.symm

end Language

/-! ## Naming conventions -/

/-- The ending that a convention asks for. -/
def NamingConvention.ending : NamingConvention → Text
  | .endsWith ending | .framed _ ending | .stemmed ending => ending

theorem NamingConvention.ending_suffix
    {convention : NamingConvention}
    {name : Text}
    (accepts : convention.accepts name = true) :
    convention.ending <:+ name := by
  cases convention with
  | endsWith ending => exact List.isSuffixOf_iff_suffix.mp accepts
  | framed beginning ending =>
      rw [NamingConvention.accepts] at accepts
      split at accepts
      next rest begins =>
        have ends := (Bool.and_eq_true_iff.mp accepts).1
        rw [Text.afterStart?_eq_some_iff.mp begins]
        exact (List.isSuffixOf_iff_suffix.mp ends).trans (List.suffix_append beginning rest)
      next => cases accepts
  | stemmed ending =>
      have ends := (Bool.and_eq_true_iff.mp (Bool.and_eq_true_iff.mp accepts).1).1
      exact List.isSuffixOf_iff_suffix.mp ends

namespace Language

variable {language : Language} {name : Text}

/-- A name follows a convention of a language, if a line feed at its end is not looked at. -/
def NamesTestFile (language : Language) (name : Text) : Prop :=
  ∃ convention ∈ language.namingConventions,
    convention.accepts (withoutFinalNewline name) = true

theorem isTestFileName_iff :
    isTestFileName name = true ↔ ∃ language : Language, language.NamesTestFile name := by
  simp only [isTestFileName, List.any_eq_true, NamesTestFile]
  refine ⟨fun ⟨language, _, follows⟩ => ⟨language, follows⟩, fun ⟨language, follows⟩ => ?_⟩
  exact ⟨language, by cases language <;> decide, follows⟩

/-- Each convention of a language asks for an ending of the language. -/
theorem exists_ending_of_convention :
    ∀ convention ∈ language.namingConventions,
      ∃ entry ∈ byEnding, entry.2 = language ∧ entry.1 <:+ convention.ending.lowerAscii := by
  cases language <;> decide

/-- Without a line feed at its end, the name of a test file has the language of its convention. -/
theorem NamesTestFile.ofFileName?
    (follows : language.NamesTestFile name) :
    ofFileName? (withoutFinalNewline name) = some language := by
  obtain ⟨convention, isConvention, accepts⟩ := follows
  obtain ⟨⟨ending, _⟩, isEntry, rfl, ends⟩ := exists_ending_of_convention convention isConvention
  have nameEnds := (NamingConvention.ending_suffix accepts).map Char.toLower
  exact ofFileName?_eq_some_iff.mpr ⟨ending, isEntry, ends.trans nameEnds⟩

/-- A test file has the one language whose conventions its name follows. -/
def AgreesWithConventions (name : Text) : Prop :=
  isTestFileName name = true →
    ∃ language : Language,
      Language.ofFileName? name = some language ∧
        ∀ other : Language, other.NamesTestFile name ↔ other = language

theorem agreesWithConventions_iff_of_name :
    AgreesWithConventions name ↔
      ¬ (isTestFileName name = true ∧ name.getLast? = some '\n') := by
  constructor
  · rintro agrees ⟨isTest, lineFeed⟩
    obtain ⟨language, found, _⟩ := agrees isTest
    rw [ofFileName?_of_lineFeed lineFeed] at found
    cases found
  · intro noLineFeed isTest
    have sameName : withoutFinalNewline name = name := if_neg fun ends => noLineFeed ⟨isTest, ends⟩
    obtain ⟨language, follows⟩ := isTestFileName_iff.mp isTest
    have found := follows.ofFileName?
    refine ⟨language, sameName ▸ found, fun other => ⟨fun followsOther => ?_, ?_⟩⟩
    · exact Option.some.inj (followsOther.ofFileName?.symm.trans found)
    · rintro rfl
      exact follows

end Language

namespace Discovery

variable {tree : Tree} {directory file : Path}

theorem isTestFileName_of_mem_testFilesBelow
    (member : file ∈ testFilesBelow tree directory) :
    isTestFileName file.name = true := by
  cases located : tree.locate directory with
  | error fault =>
      rw [testFilesBelow, located] at member
      cases member
  | ok route =>
      rw [testFilesBelow_eq_map located] at member
      obtain ⟨names, isFound, rfl⟩ := List.mem_map.mp member
      obtain ⟨directories, name, rfl, isTest⟩ := isTestFileName_of_mem_walk isFound
      have isName : (directory.descend (directories ++ [name])).name = name := by
        simp [Path.name, Path.descend, ← List.append_assoc]
      rw [isName]
      exact isTest

/-- Every file has a language by its name. -/
def HaveLanguages (files : List Path) : Prop :=
  ∀ file ∈ files, Language.ofFileName? file.name ≠ none

/--
A test file has the language of the conventions that its name follows exactly when no line
feed stands at the end of the name. So all files that are found below a directory have a
language exactly when no name of them ends in a line feed.
-/
theorem agreesWithConventions_iff
    (name : Text)
    (tree : Tree)
    (directory : Path) :
    (Language.AgreesWithConventions name ↔
        ¬ (isTestFileName name = true ∧ name.getLast? = some '\n')) ∧
      (HaveLanguages (testFilesBelow tree directory) ↔
        ∀ file ∈ testFilesBelow tree directory, file.name.getLast? ≠ some '\n') := by
  refine ⟨Language.agreesWithConventions_iff_of_name, ?_⟩
  refine forall₂_congr fun file member => ?_
  have isTest := isTestFileName_of_mem_testFilesBelow member
  constructor
  · exact fun hasLanguage lineFeed => hasLanguage (Language.ofFileName?_of_lineFeed lineFeed)
  · intro noLineFeed none
    have agrees := Language.agreesWithConventions_iff_of_name.mpr fun ends => noLineFeed ends.2
    obtain ⟨language, found, _⟩ := agrees isTest
    rw [none] at found
    cases found

/-- A line feed behind the ending is not looked at by the convention, but takes the language. -/
theorem not_agreesWithConventions_of_line_feed :
    ¬ Language.AgreesWithConventions "login.spec.ts\n" := by
  intro agrees
  obtain ⟨language, found, _⟩ := agrees (by decide)
  revert found
  cases language <;> decide

end Discovery

end TestAudit
