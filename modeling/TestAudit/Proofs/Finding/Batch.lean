import Mathlib.Data.List.TakeWhile
import TestAudit.Finding.Batch
import TestAudit.Proofs.Files.Path
import TestAudit.Proofs.Files.Tree
import TestAudit.Proofs.Finding.Scan

namespace TestAudit.Scan

/-!
# What a scan of several files tells

A scan of several files tells of each of them what a scan of that file alone tells, except
for what was told before under the same key. A key names a file by its label. Absolute paths
with one label lead to one file, so what is left out was told of that very file.
-/

variable {project : Project} {tree : Tree} {path : Path} {paths : List Path}

/-! ## Each file alone -/

/-- The violations in the file that a path leads to; there are none if it cannot be read. -/
def foundIn (project : Project) (tree : Tree) (path : Path) : List Violation :=
  match scanFile project tree path with
  | .ok found => found.value
  | .error _ => []

/-- What is noted of a path whose file cannot be read. -/
def unreadable? (project : Project) (tree : Tree) (path : Path) : Option UnreadableFile :=
  match tree.readLenient path with
  | .ok _ => none
  | .error fault => some { file := labelOf project tree path, problem := fault.message }

theorem value_summaryOf
    (project : Project)
    (tree : Tree)
    (path : Path) :
    (summaryOf project tree path).value = {
      files := 1
      violations := foundIn project tree path
      unreadable := (unreadable? project tree path).toList
    } := by
  unfold summaryOf foundIn unreadable? scanFile
  cases tree.readLenient path <;> rfl

/-- On files that stay as they are, each path is summed up as it is alone. -/
theorem value_summariesOf
    (project : Project)
    (paths : List Path)
    (tree : Tree) :
    ((summariesOf project paths).onFiles tree).value =
      paths.map fun path => (summaryOf project tree path).value := by
  induction paths with
  | nil => rfl
  | cons path others inductionHypothesis =>
      exact congrArg ((summaryOf project tree path).value :: ·) inductionHypothesis

/-- The summary of paths on files that stay as they are. -/
theorem value_scanFiles
    (project : Project)
    (paths : List Path)
    (tree : Tree) :
    ((scanFiles project paths).onFiles tree).value = {
      files := paths.length
      violations := distinctBy Violation.key (paths.flatMap (foundIn project tree))
      unreadable := paths.filterMap (unreadable? project tree)
    } := by
  have summaries := value_summariesOf project paths tree
  have violations :
      ((summariesOf project paths).onFiles tree).value.flatMap (·.violations) =
        paths.flatMap (foundIn project tree) := by
    simp only [summaries, List.flatMap_map, value_summaryOf]
  have unreadable :
      ((summariesOf project paths).onFiles tree).value.flatMap (·.unreadable) =
        paths.filterMap (unreadable? project tree) := by
    simp only [summaries, List.flatMap_map, value_summaryOf, List.filterMap_eq_flatMap_toList]
  rw [← violations, ← unreadable]
  rfl

/-! ## Files with one label -/

/-- The content of the file that a path leads to decides what is found in it. -/
theorem foundIn_eq
    (project : Project)
    (tree : Tree)
    (path : Path) :
    foundIn project tree path =
      ((tree.content? path).map fun content =>
        (scan (labelOf project tree path) (Text.Utf8.decodeLenient content).unifyNewlines
          (Language.ofFileName? path.name)).value).getD [] := by
  unfold foundIn scanFile Tree.readLenient Tree.content?
  cases tree.read path <;> rfl

theorem mem_foundIn_iff
    {violation : Violation} :
    violation ∈ foundIn project tree path ↔
      ∃ text,
        tree.readLenient path = .ok text ∧
          violation ∈
            (scan (labelOf project tree path) text (Language.ofFileName? path.name)).value := by
  unfold foundIn scanFile
  cases tree.readLenient path with
  | error fault => exact iff_of_false List.not_mem_nil nofun
  | ok text =>
      constructor
      · exact fun member => ⟨text, rfl, member⟩
      · rintro ⟨_, ⟨⟩, member⟩
        exact member

theorem file_of_mem_foundIn
    {violation : Violation}
    (member : violation ∈ foundIn project tree path) :
    violation.file = labelOf project tree path := by
  obtain ⟨_, _, inText⟩ := mem_foundIn_iff.mp member
  exact file_of_mem_scan inText

theorem exists_content?_of_mem_foundIn
    {violation : Violation}
    (member : violation ∈ foundIn project tree path) :
    ∃ content, tree.content? path = some content := by
  rw [foundIn_eq] at member
  cases isContent : tree.content? path with
  | none =>
      rw [isContent] at member
      cases member
  | some content => exact ⟨content, rfl⟩

/-- No two violations in one file have the same key. -/
theorem nodup_key_foundIn
    (project : Project)
    (tree : Tree)
    (path : Path) :
    ((foundIn project tree path).map Violation.key).Nodup := by
  rw [foundIn_eq]
  cases tree.content? path with
  | none => exact List.nodup_nil
  | some content => exact nodup_key_scan _ _ _

/-- Two files that can be read and have one label are one file, under one name. -/
theorem foundIn_eq_of_labelOf_eq
    {first second : Path}
    (firstFull : first.IsFull)
    (secondFull : second.IsFull)
    (same : labelOf project tree first = labelOf project tree second)
    {firstContent secondContent : List UInt8}
    (firstIs : tree.content? first = some firstContent)
    (secondIs : tree.content? second = some secondContent) :
    foundIn project tree first = foundIn project tree second := by
  have oneSettled : Path.settle first.names = Path.settle second.names :=
    Project.settle_eq_of_relative_eq firstFull.1 secondFull.1 firstFull.2 secondFull.2 same
  obtain ⟨firstNode, firstName⟩ := Tree.settled_of_content? firstFull.1 firstIs
  obtain ⟨secondNode, secondName⟩ := Tree.settled_of_content? secondFull.1 secondIs
  rw [oneSettled] at firstNode firstName
  have oneContent : firstContent = secondContent := by simpa [secondNode] using firstNode.symm
  have oneName : first.name = second.name := by
    rw [Path.name, Path.name, ← firstName, ← secondName]
  rw [foundIn_eq, foundIn_eq, firstIs, secondIs, oneContent, oneName, same]

/-- Whatever is found in one of the files, its like is told of one of them. -/
theorem exists_told_of_mem_foundIn
    (member : path ∈ paths)
    {violation : Violation}
    (inFile : violation ∈ foundIn project tree path) :
    ∃ told ∈ distinctBy Violation.key (paths.flatMap (foundIn project tree)),
      told.key = violation.key ∧ ∃ other ∈ paths, told ∈ foundIn project tree other := by
  have inSome : violation ∈ paths.flatMap (foundIn project tree) :=
    List.mem_flatMap.mpr ⟨path, member, inFile⟩
  obtain ⟨told, isTold, sameKey⟩ := @exists_mem_distinctBy _ _ _ Violation.key _ _ inSome
  exact ⟨told, isTold, sameKey, List.mem_flatMap.mp (mem_of_mem_distinctBy isTold)⟩

/-- Whatever is found in one of the files is told. -/
theorem mem_distinctBy_of_mem_foundIn
    (full : ∀ path ∈ paths, path.IsFull)
    (member : path ∈ paths)
    {violation : Violation}
    (inFile : violation ∈ foundIn project tree path) :
    violation ∈ distinctBy Violation.key (paths.flatMap (foundIn project tree)) := by
  obtain ⟨told, isTold, sameKey, other, isOther, inOther⟩ :=
    exists_told_of_mem_foundIn member inFile
  have sameLabel : labelOf project tree other = labelOf project tree path := by
    rw [← file_of_mem_foundIn inOther, ← file_of_mem_foundIn inFile]
    exact congrArg Violation.Key.file sameKey
  obtain ⟨_, otherIs⟩ := exists_content?_of_mem_foundIn inOther
  obtain ⟨_, pathIs⟩ := exists_content?_of_mem_foundIn inFile
  rw [foundIn_eq_of_labelOf_eq (full other isOther) (full path member) sameLabel otherIs pathIs]
    at inOther
  have isOne : told = violation :=
    List.inj_on_of_nodup_map (nodup_key_foundIn project tree path) inOther inFile sameKey
  exact isOne ▸ isTold

/-- Leaving out what was told before loses no critical violation, for its like was told. -/
theorem critical_scanFiles_ne_nil_iff
    (project : Project)
    (paths : List Path)
    (tree : Tree) :
    ((scanFiles project paths).onFiles tree).value.critical ≠ [] ↔
      ∃ path ∈ paths, ∃ violation ∈ foundIn project tree path,
        violation.severity = .critical := by
  rw [value_scanFiles, ScanSummary.critical, ne_eq, List.filter_eq_nil_iff]
  push Not
  simp only [decide_eq_true_eq]
  constructor
  · rintro ⟨violation, isTold, isCritical⟩
    obtain ⟨path, member, inFile⟩ := List.mem_flatMap.mp (mem_of_mem_distinctBy isTold)
    exact ⟨path, member, violation, inFile, isCritical⟩
  · rintro ⟨path, member, violation, inFile, isCritical⟩
    obtain ⟨told, isTold, sameKey, _, _, inOther⟩ := exists_told_of_mem_foundIn member inFile
    obtain ⟨_, _, inOtherText⟩ := mem_foundIn_iff.mp inOther
    obtain ⟨_, _, inText⟩ := mem_foundIn_iff.mp inFile
    refine ⟨told, isTold, ?_⟩
    rw [severity_eq_of_mem_scan inOtherText inText (congrArg Violation.Key.id sameKey), isCritical]

/-! ## Paths that a user wrote -/

theorem value_scanNamed_of_canLead
    (project : Project)
    (tree : Tree)
    (canLead : ∀ path ∈ paths, path.canLead = true) :
    ((scanNamed project paths).onFiles tree).value =
      .ok ((scanFiles project paths).onFiles tree).value := by
  have takes : paths.takeWhile (·.canLead) = paths :=
    List.takeWhile_eq_self_iff.mpr canLead
  have drops : paths.dropWhile (·.canLead) = [] :=
    List.dropWhile_eq_nil_iff.mpr canLead
  unfold scanNamed
  rw [takes, drops]
  rfl

/-- The first path with a null character ends the scan. -/
theorem value_scanNamed_of_not_canLead
    (project : Project)
    (tree : Tree)
    {before after : List Path}
    (canLead : ∀ earlier ∈ before, earlier.canLead = true)
    (cannotLead : path.canLead = false) :
    ((scanNamed project (before ++ path :: after)).onFiles tree).value =
      .error { reason := .nullCharacter, path } := by
  have drops : (before ++ path :: after).dropWhile (·.canLead) = path :: after := by
    rw [List.dropWhile_append_of_pos canLead, List.dropWhile_cons_of_neg (by simp [cannotLead])]
  unfold scanNamed
  rw [drops]
  rfl

/-! ## The result of a scan -/

/-- A summary tells of every file what a scan of that file alone tells, and each of it once. -/
structure TellsOfEach
    (project : Project)
    (tree : Tree)
    (paths : List Path)
    (summary : ScanSummary) : Prop where
  files : summary.files = paths.length
  unreadable : summary.unreadable = paths.filterMap (unreadable? project tree)
  violations :
    summary.violations =
      (paths.flatMap (foundIn project tree)).foldl (keepNew Violation.key) []
  present :
    ∀ path ∈ paths, ∀ violation ∈ foundIn project tree path, violation ∈ summary.violations
  different : (summary.violations.map Violation.key).Nodup

/-- A scan of paths gives such a summary, and the same violations for the paths twice over. -/
def ScansEach (project : Project) (tree : Tree) (paths : List Path) : Prop :=
  ∃ summary again,
    ((scanNamed project paths).onFiles tree).value = .ok summary ∧
      TellsOfEach project tree paths summary ∧
      ((scanNamed project (paths ++ paths)).onFiles tree).value = .ok again ∧
      again.violations = summary.violations

theorem scansEach_of_canLead
    (project : Project)
    (tree : Tree)
    (full : ∀ path ∈ paths, path.IsFull)
    (canLead : ∀ path ∈ paths, path.canLead = true) :
    ScansEach project tree paths := by
  have canLeadAgain : ∀ path ∈ paths ++ paths, path.canLead = true := by
    simpa [List.mem_append] using canLead
  refine ⟨_, _, value_scanNamed_of_canLead project tree canLead, ?_,
    value_scanNamed_of_canLead project tree canLeadAgain, ?_⟩
  · rw [value_scanFiles]
    exact {
      files := rfl
      unreadable := rfl
      violations := distinctBy_eq_foldl_keepNew _
      present := fun _ member _ => mem_distinctBy_of_mem_foundIn full member
      different := nodup_map_distinctBy _ _
    }
  · rw [value_scanFiles, value_scanFiles]
    change distinctBy Violation.key ((paths ++ paths).flatMap (foundIn project tree)) = _
    rw [List.flatMap_append, distinctBy_append_self]

/-- A path with a null character is not passed over as one that cannot be read. -/
theorem not_scansEach_of_nullCharacter :
    let project : Project := { root := .ofText "/p" }
    let tree : Tree := { nodes := [(["p"], .directory)], workingDirectory := ["p"] }
    let path : Path := .ofText "/p/a\x00.spec.ts"
    path.IsFull ∧ ¬ ScansEach project tree [path] := by
  intro project tree path
  refine ⟨⟨rfl, Path.proper_ofText _⟩, ?_⟩
  rintro ⟨summary, _, isSummary, _⟩
  have ends : ((scanNamed project [path]).onFiles tree).value =
      .error { reason := .nullCharacter, path } :=
    @value_scanNamed_of_not_canLead path project tree [] [] (List.forall_mem_nil _) rfl
  rw [ends] at isSummary
  cases isSummary

/--
A scan of absolute paths tells of each file what a scan of that file alone tells, unless one
of the paths has a null character: the first of those ends the scan. Two paths of one label
denote one place, so no file hides another.
-/
theorem scansEach_iff
    (project : Project)
    (tree : Tree)
    (paths : List Path)
    (full : ∀ path ∈ paths, path.IsFull) :
    (ScansEach project tree paths ↔ ∀ path ∈ paths, path.canLead = true) ∧
      (∀ before path after,
        paths = before ++ path :: after →
        (∀ earlier ∈ before, earlier.canLead = true) →
        path.canLead = false →
        ((scanNamed project paths).onFiles tree).value =
          .error { reason := .nullCharacter, path }) ∧
      ∀ first second : Path,
        first.IsFull →
        second.IsFull →
        labelOf project tree first = labelOf project tree second →
        first.settled tree.workingPath = second.settled tree.workingPath := by
  have ends (before : List Path) (path : Path) (after : List Path)
      (shape : paths = before ++ path :: after)
      (canLead : ∀ earlier ∈ before, earlier.canLead = true)
      (cannotLead : path.canLead = false) :
      ((scanNamed project paths).onFiles tree).value =
        .error { reason := .nullCharacter, path } := by
    rw [shape]
    exact value_scanNamed_of_not_canLead project tree canLead cannotLead
  refine ⟨⟨?_, scansEach_of_canLead project tree full⟩, ends, ?_⟩
  · rintro ⟨summary, _, isSummary, _⟩
    cases found : paths.find? (!·.canLead) with
    | none => simpa using List.find?_eq_none.mp found
    | some path =>
        obtain ⟨cannotLead, before, after, shape, canLead⟩ :=
          List.find?_eq_some_iff_append.mp found
        have isFault := ends before path after shape (by simpa using canLead)
          (by simpa using cannotLead)
        rw [isFault] at isSummary
        cases isSummary
  · intro first second firstFull secondFull same
    rw [Path.settled_of_isAbsolute firstFull.1, Path.settled_of_isAbsolute secondFull.1,
      Project.settle_eq_of_relative_eq firstFull.1 secondFull.1 firstFull.2 secondFull.2 same]

/-- One file under two spellings, and one that is missing. -/
theorem scansEach_iff_of_spellings :
    let project : Project := { root := .ofText "/p" }
    let bytes (text : Text) : List UInt8 := text.map fun c => UInt8.ofNat c.toNat
    let tree : Tree := {
      nodes := [
        (["p"], .directory),
        (["p", "a"], .directory),
        (["p", "b.spec.ts"], .file (bytes "page.evaluate(() => el.remove())"))]
      workingDirectory := ["p"]
    }
    let paths : List Path :=
      [.ofText "/p/a/../b.spec.ts", .ofText "/p/b.spec.ts", .ofText "/p/gone.spec.ts"]
    (∀ path ∈ paths, path.IsFull) ∧
      ScansEach project tree paths ∧
      labelOf project tree (.ofText "/p/a/../b.spec.ts") = "b.spec.ts" ∧
      (paths.flatMap (foundIn project tree)).length = 2 ∧
      ((scanFiles project paths).onFiles tree).value.violations.length = 1 ∧
      ((scanFiles project paths).onFiles tree).value.unreadable.length = 1 := by
  intro project bytes tree paths
  have full : ∀ path ∈ paths, path.IsFull := by
    simp only [paths, List.forall_mem_cons]
    exact ⟨⟨rfl, Path.proper_ofText _⟩, ⟨rfl, Path.proper_ofText _⟩,
      ⟨rfl, Path.proper_ofText _⟩, List.forall_mem_nil _⟩
  have canLead : ∀ path ∈ paths, path.canLead = true := by decide
  exact ⟨full, (scansEach_iff project tree paths full).1.mpr canLead, by decide, by decide +kernel,
    by decide +kernel, by decide⟩

end TestAudit.Scan
