import TestAudit.Evidence.Image
import TestAudit.Proofs.Files.Tree

namespace TestAudit.Image

/-!
# Bound images

The images of a directory are those of its entries that can be encoded, one by one. So they
depend on the entries of the directory and on what the files among them hold.
-/

variable {tree other : Tree} {directory : Path} {route : Route}

/-- The image with a given name in a directory, if it can be encoded. -/
def imageIn? (tree : Tree) (directory : Path) (name : Text) : Option Image :=
  (encode tree (directory.descend [name])).toOption.map (ofEncoded name)

theorem value_bindAll
    (tree : Tree)
    (directory : Path)
    (names : List Text) :
    (bindAll tree directory names).value = names.filterMap (imageIn? tree directory) := by
  induction names with
  | nil => rfl
  | cons name others inductionHypothesis =>
      have isOne : (bindOne tree directory name).value = imageIn? tree directory name := by
        unfold bindOne imageIn?
        cases encode tree (directory.descend [name]) <;> rfl
      rw [bindAll, Logged.value_bind, Logged.value_bind, Logged.value_pure, inductionHypothesis,
        isOne, List.filterMap_cons]
      cases imageIn? tree directory name <;> rfl

theorem value_bind_some
    (tree : Tree)
    (directory : Path) :
    (bind tree (some directory)).value =
      (namesIn tree directory).map fun names => names.filterMap (imageIn? tree directory) := by
  rw [bind]
  cases namesIn tree directory with
  | error fault => rfl
  | ok names => exact congrArg Except.ok (value_bindAll tree directory names)

theorem namesIn_eq_sortedNames
    (located : tree.locate directory = .ok route)
    (isDirectory : tree.node? route = some .directory) :
    namesIn tree directory = .ok (Tree.sortedNames isImageEntry (tree.children route)) := by
  rw [namesIn, Tree.entries, located]
  dsimp only
  rw [Tree.enter_eq_ok_iff.mpr isDirectory]
  rfl

/-- Names are listed for a directory that can be entered. -/
theorem exists_of_namesIn
    {names : List Text}
    (areNames : namesIn tree directory = .ok names) :
    ∃ route, tree.locate directory = .ok route ∧ tree.node? route = some .directory ∧
      names = Tree.sortedNames isImageEntry (tree.children route) := by
  obtain ⟨entries, areEntries, areSorted⟩ := Outcome.bind_eq_ok_iff.mp areNames
  unfold Tree.entries at areEntries
  split at areEntries
  · cases areEntries
  next route located =>
    split at areEntries
    · cases areEntries
    next entered =>
      cases areEntries
      cases areSorted
      exact ⟨route, located, Tree.enter_eq_ok_iff.mp entered, rfl⟩

theorem imageIn?_congr
    {name : Text}
    (same : other.content? (directory.descend [name]) =
      tree.content? (directory.descend [name])) :
    imageIn? other directory name = imageIn? tree directory name := by
  have sameCode : (encode other (directory.descend [name])).toOption =
      (encode tree (directory.descend [name])).toOption := by
    unfold encode
    unfold Tree.content? at same
    split
    · rfl
    · cases isRead : tree.read (directory.descend [name]) with
      | ok content =>
          rw [isRead] at same
          rw [Outcome.toOption_eq_some_iff.mp same]
      | error fault =>
          rw [isRead] at same
          cases isReadOther : other.read (directory.descend [name]) with
          | ok content =>
              rw [isReadOther] at same
              cases same
          | error fault => rfl
  rw [imageIn?, imageIn?, sameCode]

end TestAudit.Image
