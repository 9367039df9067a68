import TestAudit.Proofs.Rule.Assignment
import TestAudit.Proofs.Text.Write

namespace TestAudit

/-!
# Which names a rule assigns to

The rule about styles has every name of a style but that of the display, which the rule
about the display has for its own. What an equals sign of a text assigns to is told by the
text, so no equals sign is the assignment of a match of both, wherever in a region they
begin.
-/

/-- A match that takes no equals sign, or assigns with its last one to a name of its own. -/
def Place.AssignsOnlyTo (owned : Text → Prop) (place stop : Place) : Prop :=
  ∃ taken,
    place.Taking taken stop ∧
      ('=' ∉ taken ∨
        ∃ edge sign name,
          taken.EqualsLastAt sign ∧ owned name ∧ taken.WritesAt edge sign name)

/-- All matches of a pattern that assign do so to a name of its own. -/
def Pattern.AssignsOnlyTo (owned : Text → Prop) (pattern : Pattern) : Prop :=
  ∀ place stop, stop ∈ pattern.ends place → place.AssignsOnlyTo owned stop

variable {owned : Text → Prop}

namespace Place.AssignsOnlyTo

variable {place middle stop : Place} {front more : Text}

theorem behind
    (takes : place.Taking front middle)
    (noEquals : '=' ∉ front)
    (assigns : middle.AssignsOnlyTo owned stop) :
    place.AssignsOnlyTo owned stop := by
  obtain ⟨taken, takesRest, none | ⟨edge, sign, name, last, isOwned, writes⟩⟩ := assigns
  · exact ⟨front ++ taken, takes.trans takesRest, Or.inl (by simp [noEquals, none])⟩
  · refine ⟨front ++ taken, takes.trans takesRest,
      Or.inr ⟨_, _, name, last.behind front, isOwned, writes.shifted ?_⟩⟩
    intro index c here
    rw [List.getElem?_append_right (Nat.le_add_right _ _), Nat.add_sub_cancel_left]
    exact here

theorem before
    (assigns : place.AssignsOnlyTo owned middle)
    (takes : middle.Taking more stop)
    (noEquals : '=' ∉ more) :
    place.AssignsOnlyTo owned stop := by
  obtain ⟨taken, takesFirst, none | ⟨edge, sign, name, last, isOwned, writes⟩⟩ := assigns
  · exact ⟨taken ++ more, takesFirst.trans takes, Or.inl (by simp [noEquals, none])⟩
  · have same (index : Nat) (c : Char) (here : taken[index]? = some c) :
        (taken ++ more)[0 + index]? = some c := by
      rw [Nat.zero_add, List.getElem?_append_left (List.getElem?_eq_some_iff.mp here).1]
      exact here
    have whole := writes.shifted same
    rw [Nat.zero_add, Nat.zero_add] at whole
    exact ⟨taken ++ more, takesFirst.trans takes,
      Or.inr ⟨edge, sign, name, last.before noEquals, isOwned, whole⟩⟩

end Place.AssignsOnlyTo

namespace Pattern

variable {pattern other : Pattern} {place middle stop : Place}

/-! ## Assignments -/

/-- An assignment takes padding and an equals sign. -/
theorem exists_padding_of_mem_ends_assignment
    (member : stop ∈ assignment.ends place) :
    ∃ padding,
      (∀ c ∈ padding, Text.IsPadding c) ∧ place.Taking (padding ++ ['=']) stop := by
  obtain ⟨blanks, sign, areBlank, isSign, takes, _⟩ := taking_of_mem_ends_assignment member
  refine ⟨blanks ++ sign, ?_, takes⟩
  intro c isPadding
  rcases List.mem_append.mp isPadding with inBlanks | inSign
  · exact Or.inl (areBlank c inBlanks)
  · rcases isSign with rfl | rfl | rfl
    · cases inSign
    · exact Or.inr (Or.inl (List.mem_singleton.mp inSign))
    · exact Or.inr (Or.inr (List.mem_singleton.mp inSign))

/-- No word goes on where an assignment begins. -/
theorem wordAfter_of_mem_ends_assignment
    (member : stop ∈ assignment.ends place) :
    place.wordAfter = false := by
  obtain ⟨padding, arePadding, takes⟩ := exists_padding_of_mem_ends_assignment member
  rw [Place.wordAfter, takes.1]
  cases padding with
  | nil => rfl
  | cons c padding => exact (arePadding c List.mem_cons_self).isWord_eq_false

/-- A name or an index, followed by an assignment, is written to. -/
theorem assignsOnlyTo_of_assignment
    {lead name : Text}
    {c : Char}
    (takes : place.Taking (lead ++ c :: name) middle)
    (notWord : Text.isWord c = false)
    (isBracket : name = [] → c = ']')
    (allWord : ∀ d ∈ name, Text.isWord d = true)
    (isOwned : owned name)
    (toStop : stop ∈ assignment.ends middle) :
    place.AssignsOnlyTo owned stop := by
  obtain ⟨padding, arePadding, takesSign⟩ := exists_padding_of_mem_ends_assignment toStop
  refine ⟨_, takes.trans takesSign, Or.inr ⟨_, _, name, ?_, isOwned,
    .of_parts notWord isBracket allWord arePadding⟩⟩
  rw [← List.append_assoc]
  exact .concat _

/-- An access takes a dot and blanks, the last of which is no word character. -/
theorem taking_of_mem_ends_access
    (member : stop ∈ access.ends place) :
    ∃ lead c, place.Taking (lead ++ [c]) stop ∧ Text.isWord c = false := by
  obtain ⟨afterDot, toDot, toBlanks⟩ := mem_ends_andThen member
  obtain ⟨dot, isDot, takesDot⟩ := taking_of_mem_ends_one toDot
  obtain rfl : '.' = dot := by simpa [CharSet.accepts] using isDot
  obtain ⟨blanks, areBlank, takesBlanks⟩ := taking_of_mem_ends_many toBlanks
  have takes := takesDot.trans takesBlanks
  rcases List.eq_nil_or_concat blanks with rfl | ⟨front, last, rfl⟩
  · exact ⟨[], '.', takes, by decide⟩
  · rw [List.concat_eq_append, ← List.append_assoc] at takes
    exact ⟨_, last, takes, Text.isWord_of_isBlank (areBlank last (by simp))⟩

theorem mem_ends_literally_of_taking
    {text : Text}
    (takes : place.Taking text stop) :
    stop ∈ (literally text).ends place := by
  induction text generalizing place with
  | nil =>
      obtain ⟨sameAfter, sameBefore⟩ := takes
      have same : stop = place := by
        rcases place with ⟨before, after⟩
        rcases stop with ⟨stopBefore, stopAfter⟩
        simp_all
      exact List.mem_singleton.mpr same
  | cons c text inductionHypothesis =>
      rcases place with ⟨before, after⟩
      obtain ⟨sameAfter, sameBefore⟩ := takes
      simp only at sameAfter sameBefore
      refine List.mem_flatMap.mpr ⟨⟨c :: before, text ++ stop.after⟩, ?_,
        inductionHypothesis ⟨rfl, by simp [sameBefore]⟩⟩
      simp [sameAfter, ends, CharSet.accepts]

/-- Where a name is excluded, the whole word ahead is not that name. -/
theorem ne_of_mem_ends_notAhead
    {name : Text}
    {last : Char}
    (excluded :
      stop ∈ (notAhead (andThen (literally (name ++ [last])) wordEdge)).ends place)
    (isWord : Text.isWord last = true)
    (noWordAfter : middle.wordAfter = false) :
    ¬ place.Taking (name ++ [last]) middle := by
  intro takes
  have wordBefore : middle.wordBefore = true := by
    simp [Place.wordBefore, takes.2, isWord]
  have atEdge : middle ∈ wordEdge.ends middle := by
    simp [ends, wordBefore, noWordAfter]
  have matchesName :
      middle ∈ (andThen (literally (name ++ [last])) wordEdge).ends place :=
    List.mem_flatMap.mpr ⟨middle, mem_ends_literally_of_taking takes, atEdge⟩
  have noMatch := List.ne_nil_of_mem matchesName
  rw [ends, if_neg (by simpa using noMatch)] at excluded
  cases excluded

/-! ## Patterns put together -/

/-- Whether a pattern can be told never to take a character. -/
def avoids (c : Char) (pattern : Pattern) : Bool :=
  pattern.staysIn fun set => !set.accepts c

theorem taking_of_avoids
    {c : Char}
    (avoids : pattern.avoids c = true)
    (member : stop ∈ pattern.ends place) :
    ∃ taken, place.Taking taken stop ∧ c ∉ taken := by
  obtain ⟨taken, good, takes⟩ := good_of_mem_ends_of_staysIn avoids member
  refine ⟨taken, takes, fun isTaken => ?_⟩
  obtain ⟨set, rejects, accepted⟩ := good c isTaken
  simp [accepted] at rejects

namespace AssignsOnlyTo

theorem orElse
    (first : pattern.AssignsOnlyTo owned)
    (second : other.AssignsOnlyTo owned) :
    (pattern.orElse other).AssignsOnlyTo owned := by
  intro place stop member
  rcases List.mem_append.mp member with inFirst | inSecond
  · exact first place stop inFirst
  · exact second place stop inSecond

theorem of_avoids
    (avoids : pattern.avoids '=' = true) :
    pattern.AssignsOnlyTo owned := by
  intro place stop member
  obtain ⟨taken, takes, noEquals⟩ := taking_of_avoids avoids member
  exact ⟨taken, takes, Or.inl noEquals⟩

theorem behind
    (avoids : pattern.avoids '=' = true)
    (assigns : other.AssignsOnlyTo owned) :
    (pattern.andThen other).AssignsOnlyTo owned := by
  intro place stop member
  obtain ⟨middle, toMiddle, toStop⟩ := mem_ends_andThen member
  obtain ⟨taken, takes, noEquals⟩ := taking_of_avoids avoids toMiddle
  exact (assigns middle stop toStop).behind takes noEquals

theorem before
    (assigns : pattern.AssignsOnlyTo owned)
    (avoids : other.avoids '=' = true) :
    (pattern.andThen other).AssignsOnlyTo owned := by
  intro place stop member
  obtain ⟨middle, toMiddle, toStop⟩ := mem_ends_andThen member
  obtain ⟨taken, takes, noEquals⟩ := taking_of_avoids avoids toStop
  exact (assigns place middle toMiddle).before takes noEquals

/-- An assignment to a member with a name is one to that name. -/
theorem memberAssignment
    {name : Text}
    (nonempty : name ≠ [])
    (allWord : ∀ c ∈ name, Text.isWord c = true) :
    (Pattern.memberAssignment [name]).AssignsOnlyTo (· = name) := by
  intro place stop member
  obtain ⟨afterAccess, toAccess, member⟩ := mem_ends_inOrder_cons member
  obtain ⟨afterName, toName, member⟩ := mem_ends_inOrder_cons member
  obtain ⟨afterWrite, toWrite, member⟩ := mem_ends_inOrder_cons member
  obtain rfl : stop = afterWrite := List.mem_singleton.mp member
  obtain ⟨lead, c, takesAccess, notWord⟩ := taking_of_mem_ends_access toAccess
  have takes := takesAccess.trans (taking_of_mem_ends_literally toName)
  rw [List.append_assoc] at takes
  exact assignsOnlyTo_of_assignment takes notWord (fun empty => (nonempty empty).elim) allWord
    rfl toWrite

end AssignsOnlyTo

end Pattern

/-! ## The two rules -/

namespace MutationKind

open Pattern

/-- The name that the rule about the display has for its own. -/
def displayName : Text :=
  "display"

/-- An assignment to a member that is not the display by name. -/
def otherMemberAssignment : Pattern :=
  .inOrder [
    .access,
    .notAhead (.andThen (.literally displayName) .wordEdge),
    .oneOrMore .word,
    .assignment]

theorem assignsOnlyTo_otherMemberAssignment :
    otherMemberAssignment.AssignsOnlyTo (· ≠ displayName) := by
  intro place stop member
  obtain ⟨afterAccess, toAccess, member⟩ := mem_ends_inOrder_cons member
  obtain ⟨notExcluded, toName, member⟩ := mem_ends_inOrder_cons member
  obtain ⟨afterWord, toWord, member⟩ := mem_ends_inOrder_cons member
  obtain ⟨afterWrite, toWrite, member⟩ := mem_ends_inOrder_cons member
  obtain rfl : stop = afterWrite := List.mem_singleton.mp member
  obtain rfl : notExcluded = afterAccess := eq_of_mem_ends_of_isStill rfl toName
  obtain ⟨lead, c, takesAccess, notWord⟩ := taking_of_mem_ends_access toAccess
  obtain ⟨afterFirst, toFirst, toRest⟩ := mem_ends_andThen toWord
  obtain ⟨first, firstIsWord, takesFirst⟩ := taking_of_mem_ends_one toFirst
  obtain ⟨rest, restIsWord, takesRest⟩ := taking_of_mem_ends_many toRest
  have takesWord : notExcluded.Taking (first :: rest) afterWord := takesFirst.trans takesRest
  have takes := takesAccess.trans takesWord
  rw [List.append_assoc] at takes
  -- The word ends where the assignment begins, so a display would have been excluded.
  have isOther : first :: rest ≠ displayName := by
    intro isDisplay
    refine @ne_of_mem_ends_notAhead notExcluded afterWord notExcluded "displa".toList 'y' toName
      (by decide) (wordAfter_of_mem_ends_assignment toWrite) ?_
    rw [isDisplay] at takesWord
    exact takesWord
  refine assignsOnlyTo_of_assignment takes notWord (by simp) ?_ isOther toWrite
  intro d member
  rcases List.mem_cons.mp member with rfl | inRest
  · exact firstIsWord
  · exact restIsWord d inRest

theorem assignsOnlyTo_indexAssignment :
    (inOrder [
      .one (.exactly '['),
      .many (.noneOf "]\n"),
      .one (.exactly ']'),
      .assignment]).AssignsOnlyTo (· ≠ displayName) := by
  intro place stop member
  obtain ⟨afterIndex, toIndex, member⟩ :=
    @mem_ends_inOrder_append [_, _] _ _ _ member
  obtain ⟨front, takesIndex⟩ := taking_of_mem_ends toIndex
  obtain ⟨afterBracket, toBracket, member⟩ := mem_ends_inOrder_cons member
  obtain ⟨bracket, isBracket, takesBracket⟩ := taking_of_mem_ends_one toBracket
  obtain rfl : ']' = bracket := by simpa [CharSet.accepts] using isBracket
  obtain ⟨afterWrite, toWrite, member⟩ := mem_ends_inOrder_cons member
  obtain rfl : stop = afterWrite := List.mem_singleton.mp member
  exact assignsOnlyTo_of_assignment (takesIndex.trans takesBracket) (by decide) (fun _ => rfl)
    (by simp) (by decide) toWrite

/-- An assignment to a style as a whole is one to the name of the style. -/
theorem assignsOnlyTo_of_wholeStyle
    {place middle stop : Place}
    (toSign : middle ∈ (inOrder [access, literally "style", .many .blank]).ends place)
    (toStop : stop ∈ assignmentSign.ends middle) :
    place.AssignsOnlyTo (· ≠ displayName) stop := by
  obtain ⟨afterAccess, toAccess, member⟩ := mem_ends_inOrder_cons toSign
  obtain ⟨afterStyle, toStyle, member⟩ := mem_ends_inOrder_cons member
  obtain ⟨afterBlanks, toBlanks, member⟩ := mem_ends_inOrder_cons member
  obtain rfl : middle = afterBlanks := List.mem_singleton.mp member
  obtain ⟨lead, c, takesAccess, notWord⟩ := taking_of_mem_ends_access toAccess
  have takes := takesAccess.trans (taking_of_mem_ends_literally toStyle)
  rw [List.append_assoc] at takes
  exact assignsOnlyTo_of_assignment takes notWord (by simp)
    (List.all_eq_true.mp (by decide)) (by decide)
    (List.mem_flatMap.mpr ⟨middle, toBlanks, toStop⟩)

/-- The rule about styles never assigns to a display by name. -/
theorem assignsOnlyTo_stylePattern :
    stylePattern.AssignsOnlyTo (· ≠ displayName) := by
  intro place stop member
  obtain ⟨afterBlanks, toBlanks, member⟩ :=
    @mem_ends_inOrder_append [access, literally "style", .many .blank] _ _ _ member
  obtain ⟨front, takesFront, noEquals⟩ :=
    @taking_of_avoids _ _ _ '=' (by decide) toBlanks
  obtain ⟨afterWrite, toWrite, member⟩ := mem_ends_inOrder_cons member
  obtain rfl : stop = afterWrite := List.mem_singleton.mp member
  have behind
      {alternative : Pattern}
      (assigns : alternative.AssignsOnlyTo (· ≠ displayName))
      (toStop : stop ∈ alternative.ends afterBlanks) :
      place.AssignsOnlyTo (· ≠ displayName) stop :=
    (assigns _ _ toStop).behind takesFront noEquals
  rcases List.mem_append.mp toWrite with named | toWrite
  · exact behind assignsOnlyTo_otherMemberAssignment named
  · rcases List.mem_append.mp toWrite with indexed | toWrite
    · exact behind assignsOnlyTo_indexAssignment indexed
    · rcases List.mem_append.mp toWrite with whole | called
      · exact assignsOnlyTo_of_wholeStyle toBlanks whole
      · exact behind (.of_avoids (by decide)) called

/-- The rule about the display assigns to nothing else. -/
theorem assignsOnlyTo_displayPattern
    (language : Language) :
    (displayPattern language).AssignsOnlyTo (· = displayName) := by
  have assigned : (memberAssignment [displayName]).AssignsOnlyTo (· = displayName) :=
    .memberAssignment (by decide) (List.all_eq_true.mp (by decide))
  cases language with
  | script =>
      exact .orElse
        (.behind (by decide) (.behind (by decide) (.behind (by decide)
          (.before assigned (by decide)))))
        (.before assigned (by decide))
  | csharp | python | go => exact assigned

end MutationKind

/-! ## Regions -/

/-- The equals sign at an offset is the operator of the assignment that ends a match. -/
def Occurrence.AssignsAt (occurrence : Occurrence) (sign : Nat) : Prop :=
  ∃ index, occurrence.matched.EqualsLastAt index ∧ sign = occurrence.offset + index

namespace Pattern

variable {pattern : Pattern} {region : Region} {occurrence : Occurrence}

/-- Where a match in a region assigns, the text of the region assigns to a name of its own. -/
theorem AssignsOnlyTo.exists_writesAt
    {sign : Nat}
    (assigns : pattern.AssignsOnlyTo owned)
    (isMatch : pattern.MatchesIn region occurrence)
    (atSign : occurrence.AssignsAt sign) :
    ∃ edge name, owned name ∧ region.text.WritesAt edge sign name := by
  obtain ⟨index, isLast, rfl⟩ := atSign
  obtain ⟨passed, rest, length, _, _, found, matched⟩ := id isMatch
  obtain ⟨stop, isEnd, lengthOf⟩ := matchLength?_eq_some found
  obtain ⟨taken, takes, write⟩ := assigns _ _ isEnd
  have isTaken : occurrence.matched = taken := by
    rw [matched, lengthOf taken takes, show rest = taken ++ stop.after from takes.1,
      List.take_left']
    rfl
  rw [← isTaken] at write
  rcases write with noEquals | ⟨edge, sign, name, otherLast, isOwned, writes⟩
  · exact (noEquals (List.mem_of_getElem? isLast.atSign)).elim
  · obtain rfl := otherLast.unique isLast
    exact ⟨_, name, isOwned, writes.shifted fun _ _ => isMatch.getElem?_text⟩

/-- Patterns that assign to different names share no equals sign of a text. -/
theorem AssignsOnlyTo.not_both
    {other : Pattern}
    {otherOwned : Text → Prop}
    {otherRegion : Region}
    {otherOccurrence : Occurrence}
    {sign : Nat}
    (assigns : pattern.AssignsOnlyTo owned)
    (otherAssigns : other.AssignsOnlyTo otherOwned)
    (apart : ∀ name, owned name → ¬ otherOwned name)
    (isMatch : pattern.MatchesIn region occurrence)
    (isOther : other.MatchesIn otherRegion otherOccurrence)
    (sameText : otherRegion.text = region.text)
    (atSign : occurrence.AssignsAt sign) :
    ¬ otherOccurrence.AssignsAt sign := by
  intro otherAtSign
  obtain ⟨edge, name, isOwned, writes⟩ := assigns.exists_writesAt isMatch atSign
  obtain ⟨otherEdge, otherName, isOtherOwned, otherWrites⟩ :=
    otherAssigns.exists_writesAt isOther otherAtSign
  rw [sameText] at otherWrites
  obtain ⟨_, rfl⟩ := writes.unique otherWrites
  exact apart name isOwned isOtherOwned

end Pattern

end TestAudit
