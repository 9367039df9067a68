import TestAudit.Proofs.Text.CharacterClass

namespace TestAudit.Text

/-!
# Writes in a text

An assignment is to the name in front of its equals sign, or to an index in brackets.
Between the two stand only blanks and signs, and in front of the name no character of a
word, so the text alone tells what an equals sign assigns to.
-/

/-- A character between the target of an assignment and its equals sign: a blank, or a sign. -/
def IsPadding (c : Char) : Prop :=
  isBlank c = true ∨ c = '+' ∨ c = '-'

instance (c : Char) : Decidable (IsPadding c) :=
  inferInstanceAs (Decidable (isBlank c = true ∨ c = '+' ∨ c = '-'))

/--
In a text, an equals sign assigns to the name behind another offset. The name is empty
where the target is an index in brackets.
-/
structure WritesAt (text : Text) (edge sign : Nat) (name : Text) : Prop where
  atEdge : ∃ c, text[edge]? = some c ∧ isWord c = false ∧ (name = [] → c = ']')
  spells : ∀ index < name.length, text[edge + 1 + index]? = name[index]?
  allWord : ∀ c ∈ name, isWord c = true
  padded :
    ∀ offset,
      edge + name.length < offset →
      offset < sign →
      ∃ c, text[offset]? = some c ∧ IsPadding c
  precedes : edge + name.length < sign
  atSign : text[sign]? = some '='

/-- The last equals sign of a text stands at an offset. -/
structure EqualsLastAt (text : Text) (sign : Nat) : Prop where
  atSign : text[sign]? = some '='
  none : ∀ offset, sign < offset → text[offset]? ≠ some '='

theorem IsPadding.isWord_eq_false
    {c : Char}
    (padding : IsPadding c) :
    isWord c = false := by
  rcases padding with blank | rfl | rfl
  · exact isWord_of_isBlank blank
  · decide
  · decide

/-- No padding ends a target. -/
theorem IsPadding.not_target
    {c : Char}
    (padding : IsPadding c) :
    ¬ (isWord c = true ∨ c = ']') := by
  rintro (isWordChar | rfl)
  · rw [padding.isWord_eq_false] at isWordChar
    cases isWordChar
  · exact absurd padding (by decide)

namespace WritesAt

variable {text : Text} {edge sign : Nat} {name : Text}

/-- The target ends in a word character or in a bracket. -/
theorem exists_last
    (writes : text.WritesAt edge sign name) :
    ∃ c, text[edge + name.length]? = some c ∧ (isWord c = true ∨ c = ']') := by
  rcases List.eq_nil_or_concat name with rfl | ⟨front, last, rfl⟩
  · obtain ⟨c, here, _, isBracket⟩ := writes.atEdge
    exact ⟨c, here, Or.inr (isBracket rfl)⟩
  · refine ⟨last, ?_, Or.inl (writes.allWord last (by simp))⟩
    have spelled := writes.spells front.length (by simp)
    rw [List.concat_eq_append, List.getElem?_concat_length] at spelled
    rw [List.concat_eq_append, List.length_append, List.length_singleton, ← spelled]
    congr 1
    omega

theorem isWord_of_inside
    (writes : text.WritesAt edge sign name)
    {offset : Nat}
    (after : edge < offset)
    (inside : offset ≤ edge + name.length) :
    ∃ c, text[offset]? = some c ∧ isWord c = true := by
  obtain ⟨index, rfl⟩ := Nat.exists_eq_add_of_le (show edge + 1 ≤ offset from after)
  have within : index < name.length := by omega
  refine ⟨name[index], ?_, writes.allWord _ (List.getElem_mem within)⟩
  rw [writes.spells index within, List.getElem?_eq_getElem within]

theorem end_le
    {other : Nat}
    {otherName : Text}
    (writes : text.WritesAt edge sign name)
    (otherWrites : text.WritesAt other sign otherName) :
    edge + name.length ≤ other + otherName.length := by
  apply Nat.le_of_not_lt
  intro behind
  obtain ⟨c, here, endsTarget⟩ := writes.exists_last
  obtain ⟨d, there, padding⟩ := otherWrites.padded _ behind writes.precedes
  rw [here] at there
  cases there
  exact padding.not_target endsTarget

theorem edge_le
    {other : Nat}
    {otherName : Text}
    (writes : text.WritesAt edge sign name)
    (otherWrites : text.WritesAt other sign otherName) :
    edge ≤ other := by
  apply Nat.le_of_not_lt
  intro behind
  have sameEnd := writes.end_le otherWrites
  obtain ⟨c, here, notWord, _⟩ := writes.atEdge
  obtain ⟨d, there, isWord⟩ :=
    otherWrites.isWord_of_inside behind (Nat.le_trans (Nat.le_add_right _ _) sameEnd)
  rw [here] at there
  cases there
  rw [notWord] at isWord
  cases isWord

/-- What an equals sign assigns to is told by the text. -/
theorem unique
    {other : Nat}
    {otherName : Text}
    (writes : text.WritesAt edge sign name)
    (otherWrites : text.WritesAt other sign otherName) :
    edge = other ∧ name = otherName := by
  obtain rfl : edge = other :=
    Nat.le_antisymm (writes.edge_le otherWrites) (otherWrites.edge_le writes)
  have sameLength : name.length = otherName.length :=
    Nat.add_left_cancel
      (Nat.le_antisymm (writes.end_le otherWrites) (otherWrites.end_le writes))
  refine ⟨rfl, List.ext_getElem? fun index => ?_⟩
  by_cases within : index < name.length
  · rw [← writes.spells index within, ← otherWrites.spells index (sameLength ▸ within)]
  · rw [List.getElem?_eq_none (Nat.le_of_not_lt within),
      List.getElem?_eq_none (sameLength ▸ Nat.le_of_not_lt within)]

/-- A write is one in every text that has the same characters at later offsets. -/
theorem shifted
    {whole : Text}
    {offset : Nat}
    (same : ∀ index c, text[index]? = some c → whole[offset + index]? = some c)
    (writes : text.WritesAt edge sign name) :
    whole.WritesAt (offset + edge) (offset + sign) name where
  atEdge := by
    obtain ⟨c, here, rest⟩ := writes.atEdge
    exact ⟨c, same _ c here, rest⟩
  spells := by
    intro index within
    have spelled := writes.spells index within
    rw [List.getElem?_eq_getElem within] at spelled ⊢
    rw [Nat.add_assoc, Nat.add_assoc, ← Nat.add_assoc edge]
    exact same _ _ spelled
  allWord := writes.allWord
  padded := by
    intro place after before
    obtain ⟨index, rfl⟩ := Nat.exists_eq_add_of_le (show offset ≤ place by omega)
    obtain ⟨c, here, padding⟩ := writes.padded index (by omega) (by omega)
    exact ⟨c, same _ c here, padding⟩
  precedes := by
    have := writes.precedes
    omega
  atSign := same _ _ writes.atSign

/-- A name behind an edge, padding and an equals sign make a write. -/
theorem of_parts
    {lead padding : Text}
    {c : Char}
    (notWord : isWord c = false)
    (isBracket : name = [] → c = ']')
    (allWord : ∀ d ∈ name, isWord d = true)
    (arePadding : ∀ d ∈ padding, IsPadding d) :
    (lead ++ c :: name ++ (padding ++ ['='])).WritesAt lead.length
      (lead ++ c :: name ++ padding).length name where
  atEdge := ⟨c, by simp, notWord, isBracket⟩
  spells := by
    intro index within
    rw [List.append_assoc, List.getElem?_append_right (by omega), List.cons_append,
      show lead.length + 1 + index - lead.length = index + 1 by omega, List.getElem?_cons_succ,
      List.getElem?_append_left within]
  allWord := allWord
  padded := by
    intro offset after before
    simp only [List.length_append, List.length_cons] at before
    have start : (lead ++ c :: name).length ≤ offset := by
      simp only [List.length_append, List.length_cons]
      omega
    obtain ⟨index, rfl⟩ := Nat.exists_eq_add_of_le start
    have within : index < padding.length := by
      simp only [List.length_append, List.length_cons] at before
      omega
    refine ⟨padding[index], ?_, arePadding _ (List.getElem_mem within)⟩
    rw [List.getElem?_append_right (Nat.le_add_right _ _), Nat.add_sub_cancel_left,
      List.getElem?_append_left within, List.getElem?_eq_getElem within]
  precedes := by
    simp only [List.length_append, List.length_cons]
    omega
  atSign := by
    rw [← List.append_assoc, List.getElem?_concat_length]

end WritesAt

namespace EqualsLastAt

variable {text : Text} {sign : Nat}

theorem unique
    {other : Nat}
    (last : text.EqualsLastAt sign)
    (otherLast : text.EqualsLastAt other) :
    sign = other := by
  rcases Nat.lt_trichotomy sign other with before | same | after
  · exact (last.none other before otherLast.atSign).elim
  · exact same
  · exact (otherLast.none sign after last.atSign).elim

theorem behind
    (front : Text)
    (last : text.EqualsLastAt sign) :
    (front ++ text).EqualsLastAt (front.length + sign) where
  atSign := by
    rw [List.getElem?_append_right (Nat.le_add_right _ _), Nat.add_sub_cancel_left]
    exact last.atSign
  none := by
    intro offset after
    rw [List.getElem?_append_right (by omega)]
    exact last.none _ (by omega)

theorem before
    {more : Text}
    (last : text.EqualsLastAt sign)
    (noEquals : '=' ∉ more) :
    (text ++ more).EqualsLastAt sign where
  atSign := by
    rw [List.getElem?_append_left (List.getElem?_eq_some_iff.mp last.atSign).1]
    exact last.atSign
  none := by
    intro offset after isEquals
    rcases Nat.lt_or_ge offset text.length with inText | inMore
    · rw [List.getElem?_append_left inText] at isEquals
      exact last.none offset after isEquals
    · rw [List.getElem?_append_right inMore] at isEquals
      exact noEquals (List.mem_of_getElem? isEquals)

theorem concat
    (front : Text) :
    (front ++ ['=']).EqualsLastAt front.length where
  atSign := List.getElem?_concat_length
  none := by
    intro offset after
    rw [List.getElem?_eq_none (by simpa using Nat.succ_le_of_lt after)]
    simp

end EqualsLastAt

end TestAudit.Text
