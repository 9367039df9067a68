import TestAudit.Pattern.Occurrence

namespace TestAudit

/-!
# What a match takes

Whatever a pattern looks like, a match takes a run of the characters after the
place where it begins, and the place where it stops has these characters behind
it. A pattern that is solid takes a character that is not blank first, which can be
decided from the pattern alone.
-/

/-- One place is reached from another by taking characters. -/
def Place.Taking (place : Place) (taken : Text) (stop : Place) : Prop :=
  place.after = taken ++ stop.after ∧
    stop.before = taken.reverse ++ place.before

namespace Place.Taking

theorem refl
    (place : Place) :
    place.Taking [] place :=
  ⟨rfl, rfl⟩

theorem trans
    {place middle stop : Place}
    {first second : Text}
    (takesFirst : place.Taking first middle)
    (takesSecond : middle.Taking second stop) :
    place.Taking (first ++ second) stop := by
  constructor
  · rw [takesFirst.1, takesSecond.1, List.append_assoc]
  · rw [takesSecond.2, takesFirst.2, List.reverse_append, List.append_assoc]

end Place.Taking

namespace Pattern

theorem taking_of_mem_passing
    {set : CharSet}
    {passed : List Place}
    {before after : Text}
    {stop : Place}
    (member : stop ∈ passing set passed before after) :
    stop ∈ passed ∨
      ∃ taken,
        (∀ c ∈ taken, set.accepts c = true) ∧ Place.Taking ⟨before, after⟩ taken stop := by
  induction after generalizing passed before with
  | nil =>
      simp only [passing, List.mem_cons] at member
      rcases member with rfl | earlier
      · exact Or.inr ⟨[], by simp, .refl _⟩
      · exact Or.inl earlier
  | cons c rest inductionHypothesis =>
      unfold passing at member
      split at member
      · next accepted =>
          rcases inductionHypothesis member with earlier | ⟨taken, allAccepted, takes⟩
          · rcases List.mem_cons.mp earlier with rfl | earlier
            · exact Or.inr ⟨[], by simp, .refl _⟩
            · exact Or.inl earlier
          · have takesOne : Place.Taking ⟨before, c :: rest⟩ [c] ⟨c :: before, rest⟩ :=
              ⟨rfl, rfl⟩
            refine Or.inr ⟨[c] ++ taken, ?_, takesOne.trans takes⟩
            intro d member
            rcases List.mem_append.mp member with isHead | inTaken
            · rw [List.mem_singleton.mp isHead]
              exact accepted
            · exact allAccepted d inTaken
      · rcases List.mem_cons.mp member with rfl | earlier
        · exact Or.inr ⟨[], by simp, .refl _⟩
        · exact Or.inl earlier

theorem taking_of_mem_ends_one
    {set : CharSet}
    {place stop : Place}
    (member : stop ∈ (one set).ends place) :
    ∃ c, set.accepts c = true ∧ place.Taking [c] stop := by
  rcases place with ⟨before, _ | ⟨c, rest⟩⟩
  · simp [ends] at member
  · by_cases accepted : set.accepts c
    · simp only [ends, accepted, ↓reduceIte, List.mem_singleton] at member
      exact ⟨c, accepted, member ▸ ⟨rfl, rfl⟩⟩
    · simp [ends, accepted] at member

theorem taking_of_mem_ends_many
    {set : CharSet}
    {place stop : Place}
    (member : stop ∈ (many set).ends place) :
    ∃ taken, (∀ c ∈ taken, set.accepts c = true) ∧ place.Taking taken stop := by
  rcases place with ⟨before, after⟩
  have passed :
      stop ∈ ([] : List Place) ∨
        ∃ taken, (∀ c ∈ taken, set.accepts c = true) ∧ Place.Taking ⟨before, after⟩ taken stop :=
    taking_of_mem_passing member
  simpa using passed

theorem mem_ends_andThen
    {first second : Pattern}
    {place stop : Place}
    (member : stop ∈ (andThen first second).ends place) :
    ∃ middle, middle ∈ first.ends place ∧ stop ∈ second.ends middle := by
  simpa [ends] using member

/-- A match takes characters after its place. -/
theorem taking_of_mem_ends
    {pattern : Pattern}
    {place stop : Place}
    (member : stop ∈ pattern.ends place) :
    ∃ taken, place.Taking taken stop := by
  induction pattern generalizing place stop with
  | nothing =>
      simp only [ends, List.mem_singleton] at member
      exact ⟨[], member ▸ .refl _⟩
  | one set =>
      obtain ⟨c, _, takes⟩ := taking_of_mem_ends_one member
      exact ⟨[c], takes⟩
  | many set =>
      obtain ⟨taken, _, takes⟩ := taking_of_mem_ends_many member
      exact ⟨taken, takes⟩
  | andThen first second firstHypothesis secondHypothesis =>
      obtain ⟨middle, toMiddle, toStop⟩ := mem_ends_andThen member
      obtain ⟨firstTaken, takesFirst⟩ := firstHypothesis toMiddle
      obtain ⟨secondTaken, takesSecond⟩ := secondHypothesis toStop
      exact ⟨_, takesFirst.trans takesSecond⟩
  | orElse first second firstHypothesis secondHypothesis =>
      rcases List.mem_append.mp member with inFirst | inSecond
      · exact firstHypothesis inFirst
      · exact secondHypothesis inSecond
  | notAhead pattern _ =>
      simp only [ends] at member
      split at member
      · exact ⟨[], List.mem_singleton.mp member ▸ .refl _⟩
      · simp at member
  | wordEdge =>
      simp only [ends] at member
      split at member
      · exact ⟨[], List.mem_singleton.mp member ▸ .refl _⟩
      · simp at member

/-! ## Texts -/

theorem taking_of_mem_ends_literally
    {text : Text}
    {place stop : Place}
    (member : stop ∈ (literally text).ends place) :
    place.Taking text stop := by
  induction text generalizing place with
  | nil =>
      have same : stop = place := List.mem_singleton.mp member
      rw [same]
      exact .refl place
  | cons c text inductionHypothesis =>
      obtain ⟨middle, toMiddle, toStop⟩ := mem_ends_andThen member
      obtain ⟨d, accepted, takesOne⟩ := taking_of_mem_ends_one toMiddle
      have same : c = d := by simpa [CharSet.accepts] using accepted
      subst same
      exact takesOne.trans (inductionHypothesis toStop)

theorem taking_of_mem_ends_anyText
    {texts : List Text}
    {place stop : Place}
    (member : stop ∈ (anyText texts).ends place) :
    ∃ text ∈ texts, place.Taking text stop := by
  induction texts with
  | nil => simp [anyText, firstOf, ends] at member
  | cons first others inductionHypothesis =>
      cases others with
      | nil => exact ⟨first, by simp, taking_of_mem_ends_literally member⟩
      | cons second others =>
          rcases List.mem_append.mp member with inFirst | inOthers
          · exact ⟨first, by simp, taking_of_mem_ends_literally inFirst⟩
          · obtain ⟨text, isText, takes⟩ := inductionHypothesis inOthers
            exact ⟨text, by simp [isText], takes⟩

theorem mem_ends_inOrder_cons
    {first : Pattern}
    {others : List Pattern}
    {place stop : Place}
    (member : stop ∈ (inOrder (first :: others)).ends place) :
    ∃ middle, middle ∈ first.ends place ∧ stop ∈ (inOrder others).ends middle :=
  mem_ends_andThen member

/-- A match of patterns in order goes through a match of any number of them. -/
theorem mem_ends_inOrder_append
    {patterns others : List Pattern}
    {place stop : Place}
    (member : stop ∈ (inOrder (patterns ++ others)).ends place) :
    ∃ middle, middle ∈ (inOrder patterns).ends place ∧ stop ∈ (inOrder others).ends middle := by
  induction patterns generalizing place with
  | nil => exact ⟨place, by simp [inOrder, ends], member⟩
  | cons first patterns inductionHypothesis =>
      obtain ⟨next, toNext, toStop⟩ := mem_ends_inOrder_cons member
      obtain ⟨middle, toMiddle, fromMiddle⟩ := inductionHypothesis toStop
      exact ⟨middle, List.mem_flatMap.mpr ⟨next, toNext, toMiddle⟩, fromMiddle⟩

/-- A match is as long as the characters that it takes. -/
theorem matchLength?_eq_some
    {pattern : Pattern}
    {place : Place}
    {length : Nat}
    (found : pattern.matchLength? place = some length) :
    ∃ stop,
      stop ∈ pattern.ends place ∧
        ∀ taken, place.Taking taken stop → length = taken.length := by
  obtain ⟨stop, first, rfl⟩ := Option.map_eq_some_iff.mp found
  refine ⟨stop, List.mem_of_mem_head? first, ?_⟩
  intro taken takes
  rw [takes.1, List.length_append]
  omega

theorem matchLength?_le
    {pattern : Pattern}
    {place : Place}
    {length : Nat}
    (found : pattern.matchLength? place = some length) :
    length ≤ place.after.length := by
  obtain ⟨stop, member, lengthOf⟩ := matchLength?_eq_some found
  obtain ⟨taken, takes⟩ := taking_of_mem_ends member
  rw [lengthOf taken takes, takes.1, List.length_append]
  omega

end Pattern

/-! ## First characters -/

namespace CharSet

/-- Whether a set is given by characters that all have a property. -/
def consistsOf (property : Char → Bool) : CharSet → Bool
  | .exactly c => property c
  | .oneOf chars => chars.all property
  | .noneOf _ | .blank | .word => false

theorem of_consistsOf
    {property : Char → Bool}
    {set : CharSet}
    {c : Char}
    (consists : set.consistsOf property = true)
    (accepted : set.accepts c = true) :
    property c = true := by
  cases set with
  | exactly d =>
      simp only [accepts, beq_iff_eq] at accepted
      subst accepted
      exact consists
  | oneOf chars =>
      have member : c ∈ chars := by
        simpa [accepts] using accepted
      exact List.all_eq_true.mp consists c member
  | noneOf | blank | word => cases consists

/-- Whether a set is given by characters none of which is blank. -/
def isSolid : CharSet → Bool
  | .exactly c => !Text.isBlank c
  | .oneOf chars => chars.all (!Text.isBlank ·)
  | .noneOf _ | .blank | .word => false

theorem isSolid_eq_consistsOf
    (set : CharSet) :
    set.isSolid = set.consistsOf (!Text.isBlank ·) := by
  cases set <;> rfl

end CharSet

namespace Pattern

/-- Whether a pattern can be told to take no character. -/
def isStill : Pattern → Bool
  | .nothing | .notAhead _ | .wordEdge => true
  | .andThen first second | .orElse first second => first.isStill && second.isStill
  | .one _ | .many _ => false

/-- Whether a pattern can be told to take a character of a good set before any other. -/
def beginsIn (good : CharSet → Bool) : Pattern → Bool
  | .one set => good set
  | .andThen first second => first.beginsIn good || (first.isStill && second.beginsIn good)
  | .orElse first second => first.beginsIn good && second.beginsIn good
  | .nothing | .many _ | .notAhead _ | .wordEdge => false

/-- Whether a pattern can be told to take a character that is not blank before any other. -/
def isSolid : Pattern → Bool
  | .one set => set.isSolid
  | .andThen first second => first.isSolid || (first.isStill && second.isSolid)
  | .orElse first second => first.isSolid && second.isSolid
  | .nothing | .many _ | .notAhead _ | .wordEdge => false

theorem isSolid_eq_beginsIn
    (pattern : Pattern) :
    pattern.isSolid = pattern.beginsIn (·.consistsOf (!Text.isBlank ·)) := by
  induction pattern with
  | one set => exact set.isSolid_eq_consistsOf
  | andThen first second firstHypothesis secondHypothesis =>
      rw [isSolid, beginsIn, firstHypothesis, secondHypothesis]
  | orElse first second firstHypothesis secondHypothesis =>
      rw [isSolid, beginsIn, firstHypothesis, secondHypothesis]
  | nothing | many | notAhead | wordEdge => rfl

theorem eq_of_mem_ends_of_isStill
    {pattern : Pattern}
    {place stop : Place}
    (still : pattern.isStill = true)
    (member : stop ∈ pattern.ends place) :
    stop = place := by
  induction pattern generalizing place stop with
  | nothing =>
      simpa [ends] using member
  | one set => simp [isStill] at still
  | many set => simp [isStill] at still
  | andThen first second firstHypothesis secondHypothesis =>
      simp only [isStill, Bool.and_eq_true] at still
      obtain ⟨middle, toMiddle, toStop⟩ := mem_ends_andThen member
      exact (secondHypothesis still.2 toStop).trans
        (firstHypothesis still.1 toMiddle)
  | orElse first second firstHypothesis secondHypothesis =>
      simp only [isStill, Bool.and_eq_true] at still
      rcases List.mem_append.mp member with inFirst | inSecond
      · exact firstHypothesis still.1 inFirst
      · exact secondHypothesis still.2 inSecond
  | notAhead pattern _ =>
      simp only [ends] at member
      split at member
      · exact List.mem_singleton.mp member
      · simp at member
  | wordEdge =>
      simp only [ends] at member
      split at member
      · exact List.mem_singleton.mp member
      · simp at member

/-- The first character of a match belongs to one of the good sets. -/
theorem exists_head_of_mem_ends
    {good : CharSet → Bool}
    {pattern : Pattern}
    {place stop : Place}
    (begins : pattern.beginsIn good = true)
    (member : stop ∈ pattern.ends place) :
    ∃ set c taken,
      good set = true ∧ set.accepts c = true ∧ place.Taking (c :: taken) stop := by
  induction pattern generalizing place stop with
  | one set =>
      obtain ⟨c, accepted, takes⟩ := taking_of_mem_ends_one member
      exact ⟨set, c, [], begins, accepted, takes⟩
  | andThen first second firstHypothesis secondHypothesis =>
      simp only [beginsIn, Bool.or_eq_true, Bool.and_eq_true] at begins
      obtain ⟨middle, toMiddle, toStop⟩ := mem_ends_andThen member
      rcases begins with firstBegins | ⟨firstStill, secondBegins⟩
      · obtain ⟨set, c, taken, isGood, accepted, takesFirst⟩ :=
          firstHypothesis firstBegins toMiddle
        obtain ⟨more, takesSecond⟩ := taking_of_mem_ends toStop
        exact ⟨set, c, taken ++ more, isGood, accepted, takesFirst.trans takesSecond⟩
      · have same : middle = place :=
          eq_of_mem_ends_of_isStill firstStill toMiddle
        subst same
        exact secondHypothesis secondBegins toStop
  | orElse first second firstHypothesis secondHypothesis =>
      simp only [beginsIn, Bool.and_eq_true] at begins
      rcases List.mem_append.mp member with inFirst | inSecond
      · exact firstHypothesis begins.1 inFirst
      · exact secondHypothesis begins.2 inSecond
  | nothing | many | notAhead | wordEdge => cases begins

/-- A match takes at least one character, and the first has what all of its sets have. -/
theorem matchLength?_of_beginsIn
    {property : Char → Bool}
    {pattern : Pattern}
    {place : Place}
    {length : Nat}
    (begins : pattern.beginsIn (·.consistsOf property) = true)
    (found : pattern.matchLength? place = some length) :
    0 < length ∧ ∃ c rest, place.after = c :: rest ∧ property c = true := by
  obtain ⟨stop, member, lengthOf⟩ := matchLength?_eq_some found
  obtain ⟨set, c, taken, isGood, accepted, takes⟩ := exists_head_of_mem_ends begins member
  refine ⟨?_, c, taken ++ stop.after, takes.1, CharSet.of_consistsOf isGood accepted⟩
  rw [lengthOf _ takes]
  exact Nat.succ_pos _

/-- A match of a solid pattern takes at least one character, and the first is not blank. -/
theorem matchLength?_of_isSolid
    {pattern : Pattern}
    {place : Place}
    {length : Nat}
    (solid : pattern.isSolid = true)
    (found : pattern.matchLength? place = some length) :
    0 < length ∧ ∃ c rest, place.after = c :: rest ∧ Text.isBlank c = false := by
  rw [isSolid_eq_beginsIn] at solid
  simpa using matchLength?_of_beginsIn solid found

end Pattern

/-! ## Patterns that stop at a character -/

/-- The place with a text put behind what is left to match. -/
def Place.followedBy (place : Place) (more : Text) : Place where
  before := place.before
  after := place.after ++ more

namespace Pattern

/-- Whether a pattern can be told neither to take a character nor to see whether it is there. -/
def stopsAt (barrier : Char) : Pattern → Bool
  | .nothing => true
  | .one set | .many set => !set.accepts barrier
  | .andThen first second | .orElse first second =>
      first.stopsAt barrier && second.stopsAt barrier
  | .notAhead pattern => pattern.stopsAt barrier
  | .wordEdge => !Text.isWord barrier

theorem passing_followedBy
    {set : CharSet}
    {barrier : Char}
    (rejected : set.accepts barrier = false)
    (passed : List Place)
    (before after more : Text) :
    passing set (passed.map (·.followedBy (barrier :: more))) before
        (after ++ barrier :: more) =
      (passing set passed before after).map (·.followedBy (barrier :: more)) := by
  induction after generalizing passed before with
  | nil => simp [passing, rejected, Place.followedBy]
  | cons c after inductionHypothesis =>
      rw [List.cons_append, passing, passing]
      split
      · rw [← inductionHypothesis]
        rfl
      · rfl

/-- Where a pattern stops at a character, what comes after it takes no part in the matches. -/
theorem ends_followedBy
    {pattern : Pattern}
    {barrier : Char}
    (stops : pattern.stopsAt barrier = true)
    (place : Place)
    (more : Text) :
    pattern.ends (place.followedBy (barrier :: more)) =
      (pattern.ends place).map (·.followedBy (barrier :: more)) := by
  induction pattern generalizing place with
  | nothing => rfl
  | one set =>
      rcases place with ⟨before, _ | ⟨c, after⟩⟩
      · simpa [stopsAt, ends, Place.followedBy] using stops
      · by_cases accepted : set.accepts c <;> simp [ends, Place.followedBy, accepted]
  | many set =>
      have rejected : set.accepts barrier = false := by
        simpa [stopsAt] using stops
      exact passing_followedBy rejected [] place.before place.after more
  | andThen first second firstHypothesis secondHypothesis =>
      rw [stopsAt, Bool.and_eq_true] at stops
      simp only [ends, firstHypothesis stops.1, List.flatMap_map, List.map_flatMap,
        secondHypothesis stops.2]
  | orElse first second firstHypothesis secondHypothesis =>
      rw [stopsAt, Bool.and_eq_true] at stops
      simp only [ends, firstHypothesis stops.1, secondHypothesis stops.2, List.map_append]
  | notAhead pattern inductionHypothesis =>
      simp only [ends, inductionHypothesis stops, List.isEmpty_map]
      split <;> rfl
  | wordEdge =>
      have notWord : Text.isWord barrier = false := by
        simpa [stopsAt] using stops
      have sameAfter :
          (place.followedBy (barrier :: more)).wordAfter = place.wordAfter := by
        rcases place with ⟨before, _ | ⟨c, after⟩⟩ <;>
          simp [Place.wordAfter, Place.followedBy, notWord]
      have sameBefore :
          (place.followedBy (barrier :: more)).wordBefore = place.wordBefore := rfl
      simp only [ends, sameBefore, sameAfter]
      split <;> rfl

theorem matchLength?_followedBy
    {pattern : Pattern}
    {barrier : Char}
    (stops : pattern.stopsAt barrier = true)
    (place : Place)
    (more : Text) :
    pattern.matchLength? (place.followedBy (barrier :: more)) =
      pattern.matchLength? place := by
  simp only [matchLength?, ends_followedBy stops, List.head?_map, Option.map_map]
  congr 1
  funext stop
  simp only [Function.comp_apply, Place.followedBy, List.length_append]
  omega

end Pattern

end TestAudit
