import TestAudit.Proofs.Pattern.Ending
import TestAudit.Proofs.Pattern.Occurrence
import TestAudit.Rule.Catalog

namespace TestAudit

/-!
# Assignments in matches

A match of a rule that ends in an equals sign is a write: a property, white space, at
most one sign and the equals sign. In the part of a text that is searched, no equals or
greater-than sign follows, so a comparison or an arrow is no match as long as that part
does not end in the middle of it.
-/

/-- A text that ends in an assignment to a property. -/
def Text.EndsInAssignment (taken : Text) : Prop :=
  ∃ property last blanks sign,
    taken = property ++ last :: blanks ++ sign ++ ['='] ∧
      (Text.isWord last = true ∨ last = ']') ∧
      (∀ c ∈ blanks, Text.isBlank c = true) ∧
      (sign = [] ∨ sign = ['+'] ∨ sign = ['-'])

/-- What follows an equals sign makes a comparison or an arrow of it. -/
def ExtendsEquals (next : Option Char) : Prop :=
  next = some '=' ∨ next = some '>'

/-- A match from one place to another that is a write, if it ends in an equals sign. -/
def Place.AssignsTo (place stop : Place) : Prop :=
  ∃ front last,
    place.Taking (front ++ [last]) stop ∧
      (last = '=' →
        Text.EndsInAssignment (front ++ [last]) ∧ ¬ ExtendsEquals stop.after.head?)

/-- All matches of a pattern that end in an equals sign are writes. -/
def Pattern.Assigns (pattern : Pattern) : Prop :=
  ∀ place stop, stop ∈ pattern.ends place → place.AssignsTo stop

namespace Text

theorem EndsInAssignment.append
    {taken : Text}
    (front : Text)
    (assigns : taken.EndsInAssignment) :
    (front ++ taken).EndsInAssignment := by
  obtain ⟨property, last, blanks, sign, rfl, rest⟩ := assigns
  exact ⟨front ++ property, last, blanks, sign, by simp, rest⟩

end Text

/-- What is taken before a match does not matter. -/
theorem Place.AssignsTo.of_taking
    {place middle stop : Place}
    {front : Text}
    (takes : place.Taking front middle)
    (assigns : middle.AssignsTo stop) :
    place.AssignsTo stop := by
  obtain ⟨more, last, takesRest, ends⟩ := assigns
  refine ⟨front ++ more, last, ?_, ?_⟩
  · rw [List.append_assoc]
    exact takes.trans takesRest
  · intro isLast
    rw [List.append_assoc]
    exact ⟨(ends isLast).1.append front, (ends isLast).2⟩

namespace Pattern

/-! ## The assignment sign -/

/-- The sets that can end a property: word characters and the bracket of an index. -/
def isPropertyEnd (set : CharSet) : Bool :=
  set == .word || set.consistsOf fun c => Text.isWord c || c == ']'

theorem isWord_or_bracket_of_isPropertyEnd
    {set : CharSet}
    {c : Char}
    (ends : isPropertyEnd set = true)
    (accepted : set.accepts c = true) :
    Text.isWord c = true ∨ c = ']' := by
  simp only [isPropertyEnd, Bool.or_eq_true, beq_iff_eq] at ends
  rcases ends with rfl | consists
  · exact Or.inl accepted
  · simpa using CharSet.of_consistsOf consists accepted

theorem taking_of_mem_ends_assignmentSign
    {place stop : Place}
    (member : stop ∈ assignmentSign.ends place) :
    ∃ sign,
      (sign = [] ∨ sign = ['+'] ∨ sign = ['-']) ∧
        place.Taking (sign ++ ['=']) stop ∧
        ¬ ExtendsEquals stop.after.head? := by
  obtain ⟨afterSign, toSign, member⟩ := mem_ends_inOrder_cons member
  obtain ⟨afterEquals, toEquals, member⟩ := mem_ends_inOrder_cons member
  obtain ⟨beyond, notFollowed, member⟩ := mem_ends_inOrder_cons member
  obtain rfl : stop = beyond := List.mem_singleton.mp member
  obtain ⟨equals, isEquals, takesEquals⟩ := taking_of_mem_ends_one toEquals
  obtain rfl : '=' = equals := by simpa [CharSet.accepts] using isEquals
  simp only [ends] at notFollowed
  split at notFollowed
  · next noMatch =>
      obtain rfl : stop = afterEquals := List.mem_singleton.mp notFollowed
      have notExtended : ¬ ExtendsEquals stop.after.head? := by
        rcases stop with ⟨before, _ | ⟨c, after⟩⟩
        · rintro (none | none) <;> cases none
        · have rejected : (CharSet.oneOf "=>").accepts c = false := by
            simpa [ends] using noMatch
          have plain : c ≠ '=' ∧ c ≠ '>' := by
            simpa [CharSet.accepts] using rejected
          simpa [ExtendsEquals] using plain
      rcases List.mem_append.mp toSign with isSigned | isPlain
      · obtain ⟨sign, isSign, takesSign⟩ := taking_of_mem_ends_one isSigned
        refine ⟨[sign], ?_, takesSign.trans takesEquals, notExtended⟩
        simpa [CharSet.accepts] using isSign
      · obtain rfl : afterSign = place := List.mem_singleton.mp isPlain
        exact ⟨[], Or.inl rfl, takesEquals, notExtended⟩
  · simp at notFollowed

/-- An assignment takes blanks, at most one sign and an equals sign. -/
theorem taking_of_mem_ends_assignment
    {place stop : Place}
    (member : stop ∈ assignment.ends place) :
    ∃ blanks sign,
      (∀ c ∈ blanks, Text.isBlank c = true) ∧
        (sign = [] ∨ sign = ['+'] ∨ sign = ['-']) ∧
        place.Taking (blanks ++ sign ++ ['=']) stop ∧
        ¬ ExtendsEquals stop.after.head? := by
  obtain ⟨beforeSign, toBlanks, toSign⟩ := mem_ends_andThen member
  obtain ⟨blanks, areBlank, takesBlanks⟩ := taking_of_mem_ends_many toBlanks
  obtain ⟨sign, isSign, takesSign, notExtended⟩ := taking_of_mem_ends_assignmentSign toSign
  refine ⟨blanks, sign, areBlank, isSign, ?_, notExtended⟩
  rw [List.append_assoc]
  exact takesBlanks.trans takesSign

/-- A property, blanks and an assignment sign are a write. -/
theorem assignsTo_of_assignment
    {property : Pattern}
    {place middle stop : Place}
    (endsProperty : property.endsIn isPropertyEnd = true)
    (toMiddle : middle ∈ property.ends place)
    (toStop : stop ∈ assignment.ends middle) :
    place.AssignsTo stop := by
  obtain ⟨set, last, front, isGood, accepted, takesProperty⟩ :=
    exists_last_of_mem_ends endsProperty toMiddle
  obtain ⟨blanks, sign, areBlank, isSign, takesSign, notExtended⟩ :=
    taking_of_mem_ends_assignment toStop
  have takes := takesProperty.trans takesSign
  rw [← List.append_assoc] at takes
  refine ⟨_, '=', takes, fun _ => ⟨?_, notExtended⟩⟩
  exact ⟨front, last, blanks, sign, by simp,
    isWord_or_bracket_of_isPropertyEnd isGood accepted, areBlank, isSign⟩

/-! ## Patterns put together -/

namespace Assigns

variable {pattern other : Pattern} {pieces : List Pattern}

/-- A pattern that never ends in an equals sign has nothing to show. -/
theorem of_endsIn
    (endsElsewhere : pattern.endsIn (fun set => !set.accepts '=') = true) :
    pattern.Assigns := by
  intro place stop member
  obtain ⟨set, c, taken, rejects, accepted, takes⟩ :=
    exists_last_of_mem_ends endsElsewhere member
  refine ⟨taken, c, takes, ?_⟩
  rintro rfl
  simp [accepted] at rejects

theorem orElse
    (first : pattern.Assigns)
    (second : other.Assigns) :
    (pattern.orElse other).Assigns := by
  intro place stop member
  rcases List.mem_append.mp member with inFirst | inSecond
  · exact first place stop inFirst
  · exact second place stop inSecond

theorem andThen
    (assigns : other.Assigns) :
    (pattern.andThen other).Assigns := by
  intro place stop member
  obtain ⟨middle, toMiddle, toStop⟩ := mem_ends_andThen member
  obtain ⟨front, takes⟩ := taking_of_mem_ends toMiddle
  exact (assigns middle stop toStop).of_taking takes

theorem last
    (assigns : pattern.Assigns) :
    (inOrder [pattern]).Assigns := by
  intro place stop member
  obtain ⟨middle, toMiddle, toStop⟩ := mem_ends_inOrder_cons member
  obtain rfl : stop = middle := List.mem_singleton.mp toStop
  exact assigns place stop toMiddle

theorem andThen_assignment
    (endsProperty : pattern.endsIn isPropertyEnd = true) :
    (pattern.andThen assignment).Assigns := by
  intro place stop member
  obtain ⟨middle, toMiddle, toStop⟩ := mem_ends_andThen member
  exact assignsTo_of_assignment endsProperty toMiddle toStop

theorem inOrder_assignment
    (endsProperty : (inOrder pieces).endsIn isPropertyEnd = true) :
    (inOrder (pieces ++ [assignment])).Assigns := by
  intro place stop member
  obtain ⟨middle, toMiddle, member⟩ := mem_ends_inOrder_append member
  obtain ⟨afterSign, toStop, member⟩ := mem_ends_inOrder_cons member
  obtain rfl : stop = afterSign := List.mem_singleton.mp member
  exact assignsTo_of_assignment endsProperty toMiddle toStop

theorem memberAssignment
    {names : List Text}
    (endProperty : (inOrder [access, anyText names]).endsIn isPropertyEnd = true) :
    (Pattern.memberAssignment names).Assigns :=
  inOrder_assignment endProperty

end Assigns

end Pattern

/-! ## The rules -/

namespace MutationKind

open Pattern

theorem assigns_stylePattern :
    stylePattern.Assigns := by
  intro place stop member
  obtain ⟨afterStyle, toStyle, member⟩ :=
    @mem_ends_inOrder_append [access, literally "style"] _ _ _ member
  obtain ⟨front, takesStyle⟩ := taking_of_mem_ends toStyle
  obtain ⟨afterBlanks, toBlanks, member⟩ := mem_ends_inOrder_cons member
  obtain ⟨blanks, _, takesBlanks⟩ := taking_of_mem_ends_many toBlanks
  obtain ⟨afterWrite, toWrite, member⟩ := mem_ends_inOrder_cons member
  obtain rfl : stop = afterWrite := List.mem_singleton.mp member
  have behind
      {alternative : Pattern}
      (assigns : alternative.Assigns)
      (toStop : stop ∈ alternative.ends afterBlanks) :
      place.AssignsTo stop :=
    (assigns _ _ toStop).of_taking (takesStyle.trans takesBlanks)
  rcases List.mem_append.mp toWrite with named | toWrite
  · exact behind
      (@Assigns.inOrder_assignment [access, _, oneOrMore .word] (by decide)) named
  · rcases List.mem_append.mp toWrite with indexed | toWrite
    · exact behind
        (@Assigns.inOrder_assignment
          [.one (.exactly '['), .many (.noneOf "]\n"), .one (.exactly ']')] (by decide)) indexed
    · rcases List.mem_append.mp toWrite with whole | called
      · exact assignsTo_of_assignment (by decide) toStyle
          (List.mem_flatMap.mpr ⟨afterBlanks, toBlanks, whole⟩)
      · exact behind (.of_endsIn (by decide)) called

theorem assigns_displayPattern
    (language : Language) :
    (displayPattern language).Assigns := by
  cases language with
  | script =>
      exact .orElse
        (.andThen (.andThen (.andThen (.last (.memberAssignment (by decide))))))
        (.of_endsIn (by decide))
  | csharp | python | go => exact .memberAssignment (by decide)

end MutationKind

/-- A match of any rule that ends in an equals sign is a write. -/
theorem Rule.assigns_pattern
    (rule : Rule) :
    rule.pattern.Assigns := by
  rcases rule with ⟨language, kind⟩
  cases kind with
  | style => exact MutationKind.assigns_stylePattern
  | hidden => exact .orElse (.memberAssignment (by decide)) (.of_endsIn (by decide))
  | html => exact .memberAssignment (by decide)
  | className =>
      exact .andThen (.orElse (.andThen_assignment (by decide)) (.of_endsIn (by decide)))
  | display => exact MutationKind.assigns_displayPattern language
  | propertyById | propertyByQuery =>
      exact @Pattern.Assigns.inOrder_assignment
        [_, _, _, _, _, _, _, _, _] (by decide)
  | removal | injection | observer | styleTag | scriptTag =>
      exact .of_endsIn (by cases language <;> decide)

/-! ## Occurrences -/

/-- The offset behind an occurrence. -/
def Occurrence.stop (occurrence : Occurrence) : Nat :=
  occurrence.offset + occurrence.matched.length

/--
An occurrence that ends in an equals sign is a write, and no comparison or arrow, unless
the region that is searched stops with it.
-/
theorem Pattern.Assigns.of_mem_occurrences
    {pattern : Pattern}
    {region : Region}
    {occurrence : Occurrence}
    (assigns : pattern.Assigns)
    (member : occurrence ∈ pattern.occurrences region.excerpt)
    (isLast : occurrence.matched.getLast? = some '=') :
    occurrence.matched.EndsInAssignment ∧
      region.text[occurrence.stop - 1]? = some '=' ∧
      occurrence.stop ≤ region.stop ∧
      (occurrence.stop < region.stop → ¬ ExtendsEquals region.text[occurrence.stop]?) := by
  obtain ⟨passed, rest, length, shape, _, place, found, matched⟩ :=
    exists_of_mem_occurrencesFrom member
  obtain ⟨stop, isEnd, lengthOf⟩ := matchLength?_eq_some found
  obtain ⟨front, last, takes, ends⟩ := assigns _ _ isEnd
  have restShape : rest = front ++ [last] ++ stop.after := takes.1
  have isMatched : occurrence.matched = front ++ [last] := by
    rw [matched, lengthOf _ takes, restShape, List.take_left']
    rfl
  obtain rfl : last = '=' := by simpa [isMatched] using isLast
  obtain ⟨isWrite, notExtended⟩ := ends rfl
  have chars : region.chars = passed ++ (front ++ ['='] ++ stop.after) := by
    rw [← restShape]
    exact shape
  have inRegion
      {index : Nat}
      (inside : index < region.stop - region.start) :
      region.text[region.start + index]? = (passed ++ (front ++ ['='] ++ stop.after))[index]? := by
    rw [← chars, Region.getElem?_chars inside]
  have size : passed.length + front.length + 1 ≤ region.stop - region.start := by
    have lengths := congrArg List.length chars
    simp only [Region.chars, List.length_take, List.length_append, List.length_singleton]
      at lengths
    omega
  have startShape : region.excerpt.region.start = region.start := rfl
  have stopsAt : occurrence.stop = region.start + (passed.length + front.length + 1) := by
    rw [Occurrence.stop, isMatched, place, List.length_append, List.length_singleton]
    omega
  refine ⟨isMatched ▸ isWrite, ?_, by omega, ?_⟩
  · rw [stopsAt, ← Nat.add_assoc, Nat.add_sub_cancel, inRegion (by omega)]
    simp
  · intro inside
    have next :
        (passed ++ (front ++ ['='] ++ stop.after))[passed.length + front.length + 1]? =
          stop.after.head? := by
      rw [← List.append_assoc, ← List.append_assoc, List.getElem?_append_right (by simp; omega),
        List.head?_eq_getElem?]
      simp [Nat.add_assoc]
    rw [stopsAt, inRegion (by omega), next]
    exact notExtended

end TestAudit
