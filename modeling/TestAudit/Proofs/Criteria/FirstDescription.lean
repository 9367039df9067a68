import TestAudit.Proofs.Criteria.Describing
import TestAudit.Proofs.Criteria.Source

namespace TestAudit

/-!
# First descriptions

Where a criterion is described more than once, its first description counts. So the criteria
of a document that was put together are those of its first part, and behind them those of its
second part that are new, if the first part ends with a line. With titles it is the same.
-/

/-- A description that stands behind some items of a list is that of the next item. -/
def DescribedBehind
    {α : Type}
    (define : α → Option Criterion)
    (items before : List α)
    (criterion : Criterion) :
    Prop :=
  ∃ item after, items = before ++ item :: after ∧ define item = some criterion

section

variable {α : Type} (describes : List α → Criterion → Prop)

/-- Wherever an identifier is described, that place comes before or is the same. -/
def IsFirstPlace (before : List α) (id : Text) : Prop :=
  ∀ place criterion, describes place criterion → criterion.id = id → before <+: place

/-- Wherever the later criterion is described, the earlier one is described before. -/
def ComesBefore (earlier later : Criterion) : Prop :=
  ∀ before, describes before later →
    ∃ place, describes place earlier ∧ place <+: before ∧ place ≠ before

/--
Criteria are the first ones that are described, where `describes before criterion` tells that
one is described behind what stands before it: each identifier that is described has one
criterion, which is described before all others with this identifier, and in that order.
-/
structure FirstDescribed (criteria : List Criterion) : Prop where
  different : (criteria.map Criterion.id).Nodup
  first :
    ∀ criterion ∈ criteria, ∃ before,
      describes before criterion ∧ IsFirstPlace describes before criterion.id
  complete :
    ∀ before criterion, describes before criterion →
      ∃ chosen ∈ criteria, chosen.id = criterion.id
  inOrder : criteria.Pairwise (ComesBefore describes)

end

/-! ## Items one after the other -/

section

variable {α : Type} {define : α → Option Criterion} {item : α} {items : List α}

theorem describedBehind_nil_iff
    {criterion : Criterion} :
    DescribedBehind define (item :: items) [] criterion ↔ define item = some criterion := by
  constructor
  · rintro ⟨_, _, shape, defines⟩
    obtain ⟨rfl, _⟩ := List.cons.inj shape
    exact defines
  · exact fun defines => ⟨item, items, rfl, defines⟩

theorem describedBehind_cons_iff
    {other : α}
    {before : List α}
    {criterion : Criterion} :
    DescribedBehind define (item :: items) (other :: before) criterion ↔
      item = other ∧ DescribedBehind define items before criterion := by
  constructor
  · rintro ⟨next, after, shape, defines⟩
    obtain ⟨rfl, rfl⟩ := List.cons.inj shape
    exact ⟨rfl, next, after, rfl, defines⟩
  · rintro ⟨rfl, next, after, rfl, defines⟩
    exact ⟨next, after, rfl, defines⟩

/-- The first place stays the first one behind an item that does not describe the identifier. -/
theorem IsFirstPlace.cons
    {before : List α}
    {id : Text}
    (isFirst : IsFirstPlace (DescribedBehind define items) before id)
    (notHere : ∀ criterion, define item = some criterion → criterion.id ≠ id) :
    IsFirstPlace (DescribedBehind define (item :: items)) (item :: before) id := by
  intro place criterion describes same
  cases place with
  | nil => exact (notHere criterion (describedBehind_nil_iff.mp describes) same).elim
  | cons _ place =>
      obtain ⟨rfl, inItems⟩ := describedBehind_cons_iff.mp describes
      exact List.cons_prefix_cons.mpr ⟨rfl, isFirst place criterion inItems same⟩

/-- What comes before a criterion does so behind an item that does not describe this one. -/
theorem ComesBefore.cons
    {earlier later : Criterion}
    (comesBefore : ComesBefore (DescribedBehind define items) earlier later)
    (notHere : define item ≠ some later) :
    ComesBefore (DescribedBehind define (item :: items)) earlier later := by
  intro before describes
  cases before with
  | nil => exact (notHere (describedBehind_nil_iff.mp describes)).elim
  | cons _ before =>
      obtain ⟨rfl, inItems⟩ := describedBehind_cons_iff.mp describes
      obtain ⟨place, describesEarlier, isPrefix, differs⟩ := comesBefore before inItems
      exact ⟨item :: place, describedBehind_cons_iff.mpr ⟨rfl, describesEarlier⟩,
        List.cons_prefix_cons.mpr ⟨rfl, isPrefix⟩, fun same => differs (List.cons.inj same).2⟩

namespace FirstDescribed

variable {criteria : List Criterion}

/-- An item that describes nothing makes no difference. -/
theorem cons_of_none
    (firstDescribed : FirstDescribed (DescribedBehind define items) criteria)
    (nothing : define item = none) :
    FirstDescribed (DescribedBehind define (item :: items)) criteria where
  different := firstDescribed.different
  first := by
    intro criterion member
    obtain ⟨before, describes, isFirst⟩ := firstDescribed.first criterion member
    exact ⟨item :: before, describedBehind_cons_iff.mpr ⟨rfl, describes⟩,
      isFirst.cons (by simp [nothing])⟩
  complete := by
    intro before criterion describes
    cases before with
    | nil =>
        rw [describedBehind_nil_iff, nothing] at describes
        cases describes
    | cons _ before =>
        exact firstDescribed.complete before criterion (describedBehind_cons_iff.mp describes).2
  inOrder := firstDescribed.inOrder.imp fun comesBefore => comesBefore.cons (by simp [nothing])

/-- The criterion of an item comes before the others, which have other identifiers. -/
theorem cons_of_some
    {criterion : Criterion}
    (firstDescribed : FirstDescribed (DescribedBehind define items) criteria)
    (defines : define item = some criterion) :
    FirstDescribed (DescribedBehind define (item :: items))
      (criterion :: criteria.filter fun other => !decide (other.id = criterion.id)) := by
  have kept {other : Criterion}
      (member : other ∈ criteria.filter fun other => !decide (other.id = criterion.id)) :
      other ∈ criteria ∧ other.id ≠ criterion.id := by
    simpa using List.mem_filter.mp member
  have notHere {other : Criterion} (differs : other.id ≠ criterion.id) :
      define item ≠ some other := by
    rw [defines]
    rintro ⟨⟩
    exact differs rfl
  constructor
  · rw [List.map_cons, List.nodup_cons]
    refine ⟨fun member => ?_, firstDescribed.different.sublist (List.filter_sublist.map _)⟩
    obtain ⟨other, isOther, same⟩ := List.mem_map.mp member
    exact (kept isOther).2 same
  · refine List.forall_mem_cons.mpr ⟨⟨[], describedBehind_nil_iff.mpr defines,
      fun _ _ _ _ => List.nil_prefix⟩, fun other member => ?_⟩
    obtain ⟨isOther, differs⟩ := kept member
    obtain ⟨before, describes, isFirst⟩ := firstDescribed.first other isOther
    refine ⟨item :: before, describedBehind_cons_iff.mpr ⟨rfl, describes⟩, isFirst.cons ?_⟩
    intro again definesAgain same
    exact notHere (same.trans_ne differs) definesAgain
  · intro before other describes
    cases before with
    | nil =>
        rw [describedBehind_nil_iff, defines] at describes
        cases describes
        exact ⟨criterion, List.mem_cons_self, rfl⟩
    | cons _ before =>
        obtain ⟨chosen, member, same⟩ :=
          firstDescribed.complete before other (describedBehind_cons_iff.mp describes).2
        by_cases again : chosen.id = criterion.id
        · exact ⟨criterion, List.mem_cons_self, again.symm.trans same⟩
        · exact ⟨chosen, List.mem_cons_of_mem _ (List.mem_filter.mpr ⟨member, by simp [again]⟩),
            same⟩
  · refine .cons ?_ ((firstDescribed.inOrder.filter _).imp_of_mem ?_)
    · intro other member before describes
      refine ⟨[], describedBehind_nil_iff.mpr defines, List.nil_prefix, ?_⟩
      rintro rfl
      exact notHere (kept member).2 (describedBehind_nil_iff.mp describes)
    · intro earlier later _ isLater comesBefore
      exact comesBefore.cons (notHere (kept isLater).2)

end FirstDescribed

/-- The criteria that items define, each identifier once, are the first ones described. -/
theorem firstDescribed_distinctBy
    (define : α → Option Criterion)
    (items : List α) :
    FirstDescribed (DescribedBehind define items)
      (distinctBy Criterion.id (items.filterMap define)) := by
  induction items with
  | nil =>
      have nowhere {before criterion} : ¬ DescribedBehind define [] before criterion := by
        rintro ⟨item, after, shape, _⟩
        simp at shape
      exact {
        different := List.nodup_nil
        first := List.forall_mem_nil _
        complete := fun _ _ describes => (nowhere describes).elim
        inOrder := .nil
      }
  | cons item items inductionHypothesis =>
      cases defines : define item with
      | none =>
          rw [List.filterMap_cons_none defines]
          exact inductionHypothesis.cons_of_none defines
      | some criterion =>
          rw [List.filterMap_cons_some defines, distinctBy]
          exact inductionHypothesis.cons_of_some defines

end

/-! ## Titles -/

namespace Title

/-- A criterion is described by the title behind some of the titles. -/
def Describes (titles before : List Text) (criterion : Criterion) : Prop :=
  ∃ title after, titles = before ++ title :: after ∧ Tells title criterion

theorem criteria_append
    (titles others : List Text) :
    criteria (titles ++ others) = withNew Criterion.id (criteria titles) (criteria others) := by
  rw [criteria, List.filterMap_append, distinctBy_append_eq_withNew, criteria, criteria]

theorem firstDescribed_criteria
    (titles : List Text) :
    FirstDescribed (Describes titles) (criteria titles) := by
  have described : Describes titles = DescribedBehind definition? titles := by
    funext before criterion
    simp only [Describes, DescribedBehind, definition?_eq_some_iff]
  rw [described]
  exact firstDescribed_distinctBy definition? titles

end Title

/-! ## Documents -/

namespace Document

/-- A document is read part by part where a line ends. -/
theorem criteria_append
    {text : Text}
    (ends : Text.EndsLine text)
    (others : Text) :
    criteria (text ++ others) = withNew Criterion.id (criteria text) (criteria others) := by
  obtain ⟨lines, rfl, whole⟩ := Text.endsLine_iff.mp ends
  have alone :
      criteria (Text.ofLines lines) = distinctBy Criterion.id (lines.filterMap criterion?) := by
    have areLines := Text.splitOn_ofLines_append whole []
    rw [List.append_nil] at areLines
    rw [criteria, areLines, List.filterMap_append]
    exact congrArg (distinctBy _) (List.append_nil _)
  rw [alone, criteria, Text.splitOn_ofLines_append whole, List.filterMap_append,
    distinctBy_append_eq_withNew, criteria]

/-- Behind more lines is further on in the text. -/
theorem ofLines_mono
    {lines others : List Text}
    (isPrefix : lines <+: others) :
    Text.ofLines lines <+: Text.ofLines others ∧
      (lines ≠ others → Text.ofLines lines ≠ Text.ofLines others) := by
  obtain ⟨more, rfl⟩ := isPrefix
  rw [Text.ofLines_append]
  refine ⟨List.prefix_append _ _, fun differs same => ?_⟩
  cases more with
  | nil => exact differs (List.append_nil lines).symm
  | cons line more =>
      have nothing := List.self_eq_append_right.mp same
      rw [Text.ofLines_cons] at nothing
      simp at nothing

theorem firstDescribed_criteria
    (text : Text) :
    FirstDescribed (Describes text) (criteria text) := by
  have byLines := firstDescribed_distinctBy criterion? (text.splitOn '\n')
  have described {before : Text} {criterion : Criterion} :
      Describes text before criterion ↔
        ∃ lines,
          before = Text.ofLines lines ∧
            DescribedBehind criterion? (text.splitOn '\n') lines criterion := by
    rw [describes_iff]
    constructor
    · rintro ⟨lines, line, after, areLines, isBefore, defines⟩
      exact ⟨lines, isBefore, line, after, areLines, defines⟩
    · rintro ⟨lines, isBefore, line, after, areLines, defines⟩
      exact ⟨lines, line, after, areLines, isBefore, defines⟩
  constructor
  · exact byLines.different
  · intro criterion member
    obtain ⟨lines, describes, isFirst⟩ := byLines.first criterion member
    refine ⟨Text.ofLines lines, described.mpr ⟨lines, rfl, describes⟩, ?_⟩
    intro place other describesOther same
    obtain ⟨others, rfl, byLine⟩ := described.mp describesOther
    exact (ofLines_mono (isFirst others other byLine same)).1
  · intro before criterion describes
    obtain ⟨lines, _, byLine⟩ := described.mp describes
    exact byLines.complete lines criterion byLine
  · refine byLines.inOrder.imp fun isEarlier before describes => ?_
    obtain ⟨lines, rfl, byLine⟩ := described.mp describes
    obtain ⟨place, describesEarlier, isPrefix, differs⟩ := isEarlier lines byLine
    obtain ⟨prefixes, differ⟩ := ofLines_mono isPrefix
    exact ⟨Text.ofLines place, described.mpr ⟨place, rfl, describesEarlier⟩, prefixes,
      differ differs⟩

end Document

/-! ## Catalogs -/

namespace CriteriaSource

/-- The criteria of a catalog that was found; without a catalog there are none. -/
def foundCriteria : Option Catalog → List Criterion
  | none => []
  | some catalog => catalog.criteria

theorem foundCriteria_ofCriteria?
    (criteria : List Criterion)
    (projectName : Option Text)
    (source : Text) :
    foundCriteria (Catalog.ofCriteria? criteria projectName source) = criteria := by
  unfold Catalog.ofCriteria?
  split
  next isEmpty => exact isEmpty.symm
  next => rfl

/-- The criteria of the catalog that a document has. -/
def criteriaInDocument (tree : Tree) (path : Path) : Except Tree.Fault (List Criterion) :=
  (catalogInDocument tree path).value.map foundCriteria

theorem criteriaInDocument_eq
    {tree : Tree}
    {path : Path}
    {text : Text}
    (isText : tree.text? path = some text) :
    criteriaInDocument tree path = .ok (Document.criteria text) := by
  rw [criteriaInDocument, value_catalogInDocument, Tree.isFile_of_text? isText, isText]
  exact congrArg Except.ok (foundCriteria_ofCriteria? _ _ _)

/--
The first description of a criterion counts. The catalog of a document whose text is put
together behind the end of a line has the criteria of the first part, and behind them the new
ones of the second part; that of titles likewise. The criteria of either have identifiers of
their own, and are those that are described first.
-/
theorem first_description_counts :
    (∀ (tree other whole : Tree) (path otherPath wholePath : Path) (text others : Text),
      tree.text? path = some text →
      other.text? otherPath = some others →
      whole.text? wholePath = some (text ++ others) →
      Text.EndsLine text →
      ∃ first second, criteriaInDocument tree path = .ok first ∧
        criteriaInDocument other otherPath = .ok second ∧
        criteriaInDocument whole wholePath = .ok (withNew Criterion.id first second)) ∧
    (∀ titles others,
      foundCriteria (catalogInTitles (titles ++ others)) =
        withNew Criterion.id (foundCriteria (catalogInTitles titles))
          (foundCriteria (catalogInTitles others))) ∧
    (∀ (tree : Tree) (path : Path) (text : Text),
      tree.text? path = some text →
      ∃ criteria, criteriaInDocument tree path = .ok criteria ∧
        FirstDescribed (Document.Describes text) criteria) ∧
    ∀ titles,
      FirstDescribed (Title.Describes titles) (foundCriteria (catalogInTitles titles)) := by
  refine ⟨?_, ?_, ?_, ?_⟩
  · intro tree other whole path otherPath wholePath text others isText isOther isWhole ends
    refine ⟨_, _, criteriaInDocument_eq isText, criteriaInDocument_eq isOther, ?_⟩
    rw [criteriaInDocument_eq isWhole, Document.criteria_append ends]
  · intro titles others
    simp only [catalogInTitles, foundCriteria_ofCriteria?, Title.criteria_append]
  · intro tree path text isText
    exact ⟨_, criteriaInDocument_eq isText, Document.firstDescribed_criteria text⟩
  · intro titles
    rw [catalogInTitles, foundCriteria_ofCriteria?]
    exact Title.firstDescribed_criteria titles

/-- A description of asterisks only, one behind it, and titles that tell a criterion twice. -/
theorem first_description_counts_of_repeated :
    let tree (text : Text) : Tree := {
      nodes := [(["list.md"], .file (text.map fun c => UInt8.ofNat c.toNat))]
      workingDirectory := []
    }
    let path : Path := .ofText "list.md"
    let text : Text := "# AC-1: Login\n- AC-2: *\n"
    let others : Text := "* **AC-2** Logout\nAC-1: Again"
    let inDocument : List Criterion := [
      { id := "AC-1", description := "Login", provenance := .markdown },
      { id := "AC-2", description := "Logout", provenance := .markdown }]
    let inTitles : List Criterion := [
      { id := "AC-3", description := "Search", provenance := .titles },
      { id := "AC-4", description := "Sort", provenance := .titles }]
    Text.EndsLine text ∧
      criteriaInDocument (tree (text ++ others)) path = .ok inDocument ∧
      FirstDescribed (Document.Describes (text ++ others)) inDocument ∧
      foundCriteria (catalogInTitles (["AC-3: Search"] ++ ["AC-3: Find", "AC-4: Sort"])) =
        inTitles ∧
      FirstDescribed (Title.Describes ["AC-3: Search", "AC-3: Find", "AC-4: Sort"]) inTitles := by
  intro tree path text others inDocument inTitles
  obtain ⟨documents, titles, firstInDocument, firstInTitles⟩ := first_description_counts
  have ends : Text.EndsLine text := by decide
  have isText : (tree text).text? path = some text := by decide
  have isOther : (tree others).text? path = some others := by decide
  have isWhole : (tree (text ++ others)).text? path = some (text ++ others) := by decide
  obtain ⟨first, second, isFirst, isSecond, isBoth⟩ :=
    documents (tree text) (tree others) _ path path path text others isText isOther isWhole ends
  obtain ⟨criteria, areCriteria, describedFirst⟩ := firstInDocument _ path _ isWhole
  have found : criteriaInDocument (tree (text ++ others)) path = .ok inDocument := by
    have isFirstPart : criteriaInDocument (tree text) path =
        .ok [{ id := "AC-1", description := "Login", provenance := .markdown }] := by decide
    have isSecondPart : criteriaInDocument (tree others) path =
        .ok [{ id := "AC-2", description := "Logout", provenance := .markdown },
          { id := "AC-1", description := "Again", provenance := .markdown }] := by decide
    obtain rfl := Except.ok.inj (isFirst.symm.trans isFirstPart)
    obtain rfl := Except.ok.inj (isSecond.symm.trans isSecondPart)
    exact isBoth.trans (by decide)
  rw [found] at areCriteria
  cases areCriteria
  have foundInTitles :
      foundCriteria (catalogInTitles (["AC-3: Search"] ++ ["AC-3: Find", "AC-4: Sort"])) =
        inTitles :=
    (titles ["AC-3: Search"] ["AC-3: Find", "AC-4: Sort"]).trans (by decide)
  exact ⟨ends, found, describedFirst, foundInTitles, foundInTitles ▸ firstInTitles _⟩

end CriteriaSource

end TestAudit
