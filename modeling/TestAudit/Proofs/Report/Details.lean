import Mathlib.Algebra.GroupWithZero.Nat
import Mathlib.Tactic.SplitIfs
import TestAudit.Proofs.Outcome
import TestAudit.Proofs.Text.Mark
import TestAudit.Report.Markup

namespace TestAudit.Report

/-!
# Images and tests in the details

An image is shown at a mark of its own, and so is the title of a test. User texts are
escaped and numerals are made of digits, so neither has the character that opens a mark;
and no fixed markup ends within a mark. So the marks in the details are those of the
images and tests that they show.
-/

/-! ## Texts without markup -/

/-- A character that has an entity of its own, but for the one that entities begin with. -/
def isMarkup (c : Char) : Bool :=
  c = '<' || c = '>' || c = '\x27' || c = '\x22'

theorem not_mem_escaped_of_isMarkup
    {mark : Char}
    (markup : isMarkup mark = true)
    (text : Text) :
    mark ∉ escaped text := by
  have noEntity :
      ∀ entity ∈ (["&amp;", "&lt;", "&gt;", "&#39;", "&#34;"] : List Text),
        entity.all (!isMarkup ·) = true := by
    decide
  have ofEntity {entity : Text}
      (isEntity : entity ∈ (["&amp;", "&lt;", "&gt;", "&#39;", "&#34;"] : List Text))
      (member : mark ∈ entity) : isMarkup mark = false := by
    simpa using List.all_eq_true.mp (noEntity entity isEntity) mark member
  rw [escaped, Text.escapeMarkup, List.mem_flatMap]
  rintro ⟨c, _, member⟩
  have notMarkup : isMarkup mark = false := by
    unfold Text.entityFor at member
    split_ifs at member with isAmpersand isOpening isClosing isSingle isDouble
    · exact ofEntity (by simp) member
    · exact ofEntity (by simp) member
    · exact ofEntity (by simp) member
    · exact ofEntity (by simp [blockQuotes]) member
    · exact ofEntity (by simp [blockQuotes]) member
    · rw [List.mem_singleton.mp member]
      simp [isMarkup, isOpening, isClosing, isSingle, isDouble]
  rw [notMarkup] at markup
  cases markup

theorem not_mem_escaped
    (text : Text) :
    '<' ∉ escaped text :=
  not_mem_escaped_of_isMarkup rfl text

theorem not_mem_ofNat
    (number : Nat) :
    '<' ∉ Text.ofNat number := by
  intro member
  have isDigit := Nat.isDigit_of_mem_toDigits (by decide) (by decide) member
  exact absurd isDigit (by decide)

theorem not_mem_ofInt
    (number : Int) :
    '<' ∉ Text.ofInt number := by
  cases number with
  | ofNat number => exact not_mem_ofNat number
  | negSucc number => simp [Text.ofInt, not_mem_ofNat]

theorem not_mem_numeral
    {number : Int}
    {text : Text}
    (shown : numeral number = .ok text) :
    '<' ∉ text := by
  unfold numeral at shown
  split at shown
  · cases shown
  · cases shown
    exact not_mem_ofInt number

theorem not_mem_show?
    {milliseconds : Int}
    {text : Text}
    (shown : Duration.show? milliseconds = .ok text) :
    '<' ∉ text := by
  unfold Duration.show? at shown
  split_ifs at shown
  · cases shown
    simp [not_mem_ofInt]
  · split at shown
    · cases shown
      simp [Binary64.oneDecimal, not_mem_ofNat]
    · cases shown

theorem not_mem_testPlace
    {test : TestRecord}
    {text : Text}
    (shown : testPlace test = .ok text) :
    '<' ∉ text := by
  unfold testPlace at shown
  split at shown
  next line =>
    obtain ⟨number, isNumeral, same⟩ := Outcome.bind_eq_ok_iff.mp shown
    cases same
    simp [not_mem_escaped, not_mem_numeral isNumeral]
  next =>
    cases shown
    exact not_mem_escaped test.file

theorem not_mem_attemptsText
    (test : TestRecord) :
    '<' ∉ attemptsText test := by
  unfold attemptsText
  split
  · simp [not_mem_ofInt]
  · exact List.not_mem_nil

/-! ## Marks -/

/-- The mark at which an image begins. -/
def imageMark : Text :=
  "<img "

/-- The mark behind which the title of a test stands. -/
def testMark : Text :=
  "<span class=\"test-name\">"

/-- Markup with a number of images and a number of tests, none of which goes beyond it. -/
structure Shows (markup : Text) (images tests : Nat) : Prop where
  images : Text.Counts imageMark markup images
  tests : Text.Counts testMark markup tests

instance Shows.decidable (markup : Text) (images tests : Nat) :
    Decidable (Shows markup images tests) :=
  decidable_of_iff
    (Text.Counts imageMark markup images ∧ Text.Counts testMark markup tests)
    ⟨fun both => ⟨both.1, both.2⟩, fun shows => ⟨shows.1, shows.2⟩⟩

/-- Markup without images and tests. -/
abbrev Bare (markup : Text) : Prop :=
  Shows markup 0 0

theorem Shows.append
    {first second : Text}
    {images moreImages tests moreTests : Nat}
    (inFirst : Shows first images tests)
    (inSecond : Shows second moreImages moreTests) :
    Shows (first ++ second) (images + moreImages) (tests + moreTests) :=
  ⟨inFirst.images.append inSecond.images, inFirst.tests.append inSecond.tests⟩

/-- Fixed markup is judged by its characters. -/
theorem Shows.fixed
    {characters : List Char}
    {images tests : Nat}
    (shows : Shows characters images tests) :
    Shows (String.ofList characters).toList images tests := by
  rwa [String.toList_ofList]

/-- Texts without the character that opens a mark are bare. -/
theorem Shows.of_not_mem
    {text : Text}
    (absent : '<' ∉ text) :
    Bare text :=
  ⟨.of_not_mem absent, .of_not_mem absent⟩

theorem bare_escaped (text : Text) : Bare (escaped text) :=
  .of_not_mem (not_mem_escaped text)

theorem bare_ofNat (number : Nat) : Bare (Text.ofNat number) :=
  .of_not_mem (not_mem_ofNat number)

theorem Shows.append_bare
    {first second : Text}
    {images tests : Nat}
    (shows : Shows first images tests)
    (bare : Bare second) :
    Shows (first ++ second) images tests :=
  shows.append bare

theorem Shows.bare_append
    {first second : Text}
    {images tests : Nat}
    (bare : Bare first)
    (shows : Shows second images tests) :
    Shows (first ++ second) images tests := by
  simpa using bare.append shows

/-- A bare text between fixed markup on both sides. -/
theorem Shows.between
    {before after : List Char}
    {text : Text}
    {images tests : Nat}
    (opening : Shows before images tests)
    (bare : Bare text)
    (closing : Bare after) :
    Shows ((String.ofList before).toList ++ text ++ (String.ofList after).toList)
      images tests :=
  ((Shows.fixed opening).append_bare bare).append_bare (.fixed closing)

/-! ## Lines -/

theorem Shows.lineFeed
    {line : Text}
    {images tests : Nat}
    (shows : Shows line images tests) :
    Shows (line ++ ['\n']) images tests :=
  shows.append_bare (by decide)

theorem bare_markupLines
    {lines : List Text}
    (bare : ∀ line ∈ lines, Bare line) :
    Bare (markupLines lines) := by
  induction lines with
  | nil => exact .of_not_mem List.not_mem_nil
  | cons line others inductionHypothesis =>
      rw [List.forall_mem_cons] at bare
      exact bare.1.lineFeed.append_bare (inductionHypothesis bare.2)

theorem Shows.above_bare
    {line : Text}
    {others : List Text}
    {images tests : Nat}
    (shows : Shows line images tests)
    (bare : ∀ other ∈ others, Bare other) :
    Shows (markupLines (line :: others)) images tests :=
  shows.lineFeed.append_bare (bare_markupLines bare)

theorem Shows.below_bare
    {line : Text}
    {others : List Text}
    {images tests : Nat}
    (shows : Shows (markupLines others) images tests)
    (bare : Bare line) :
    Shows (markupLines (line :: others)) images tests :=
  .bare_append bare.lineFeed shows

theorem bare_lineIf
    {holds : Bool}
    {line : Text}
    (bare : Bare line) :
    ∀ other ∈ lineIf holds line, Bare other := by
  unfold lineIf
  split
  · simpa using bare
  · exact List.forall_mem_nil _

/-! ## Badges -/

/-- A badge is bare when its class does not make its beginning a mark. -/
theorem bare_badge
    {kind label : Text}
    (opening : Bare ("<span class=\"" ++ kind ++ "-badge\">"))
    (bare : Bare label) :
    Bare (badge kind label) :=
  (opening.append_bare bare).append_bare (.fixed (by decide))

theorem bare_verdictBadge
    (status : CoverageStatus) :
    Bare (verdictBadge status) := by
  cases status <;> exact bare_badge (by decide) (by decide)

theorem bare_testBadge
    (status : TestStatus) :
    Bare (testBadge status) := by
  cases status <;> exact bare_badge (by decide) (by decide)

theorem bare_laneBadge
    (lane : Lane) :
    Bare (badge lane.name lane.label) := by
  cases lane <;> exact bare_badge (by decide) (by decide)

/-! ## Images -/

theorem shows_imageMarkup
    (image : Image) :
    Shows (imageMarkup image) 1 0 := by
  have source :
      Shows
        ("    <img src=\"" ++ escaped image.dataUri ++ "\" alt=\"" ++ escaped image.caption ++
          "\" loading=\"lazy\" onclick=\"openLightbox(this.src, this.alt)\">")
        1 0 :=
    ((Shows.between (by decide) (bare_escaped image.dataUri) (by decide)).append_bare
      (bare_escaped image.caption)).append_bare (.fixed (by decide))
  have caption :
      Bare ("    <div class=\"caption\">" ++ escaped image.caption ++ "</div>") :=
    .between (by decide) (bare_escaped image.caption) (by decide)
  refine Shows.below_bare (source.above_bare ?_) (.fixed (by decide))
  exact List.forall_mem_cons.mpr
    ⟨caption, List.forall_mem_singleton.mpr (.fixed (by decide))⟩

theorem shows_imageGrid
    (images : List Image) :
    Shows (imageGrid images) images.length 0 := by
  have items : Shows (images.flatMap imageMarkup) images.length 0 := by
    induction images with
    | nil => exact .of_not_mem List.not_mem_nil
    | cons image others inductionHypothesis =>
        rw [List.flatMap_cons, List.length_cons, Nat.add_comm]
        exact (shows_imageMarkup image).append inductionHypothesis
  have opening : Bare (markupLines ["      <div class=\"screenshot-grid\">"]) :=
    bare_markupLines (List.forall_mem_singleton.mpr (.fixed (by decide)))
  have closing : Bare (markupLines ["</div>"]) :=
    bare_markupLines (List.forall_mem_singleton.mpr (.fixed (by decide)))
  exact (Shows.bare_append opening items).append_bare closing

/-! ## Tests -/

theorem bare_logLines
    (test : TestRecord) :
    ∀ line ∈ logLines test, Bare line := by
  intro line member
  rcases List.mem_append.mp member with output | error
  · exact bare_lineIf (.between (by decide) (bare_escaped _) (by decide)) line output
  · obtain ⟨text, _, rfl⟩ := List.mem_map.mp error
    exact .between (by decide) (bare_escaped text) (by decide)

theorem shows_cardMarkup
    {test : TestRecord}
    {duration place : Text}
    (bareDuration : Bare duration)
    (barePlace : Bare place) :
    Shows (cardMarkup test duration place) 0 1 := by
  have frame :
      Bare ("      <div class=\"test-card" ++ (if test.flaky then " flaky".toList else []) ++
        "\">") := by
    refine .between (by decide) ?_ (by decide)
    split
    · decide
    · decide
  have badges :
      Bare ("          " ++ testBadge test.status ++ " " ++ badge test.lane.name test.lane.label) :=
    (Shows.between (by decide) (bare_testBadge test.status) (by decide)).append_bare
      (bare_laneBadge test.lane)
  have title :
      Shows
        ("          <span class=\"test-name\">" ++ escaped (Title.withoutId test.title) ++
          "</span>")
        0 1 :=
    .between (by decide) (bare_escaped _) (by decide)
  have figures :
      Bare ("          <span class=\"test-meta\">" ++ duration ++ " &middot; " ++ place ++
        attemptsText test ++ "</span>") :=
    (((Shows.between (by decide) bareDuration (by decide)).append_bare barePlace).append_bare
      (.of_not_mem (not_mem_attemptsText test))).append_bare (.fixed (by decide))
  refine Shows.below_bare
    (.below_bare (.below_bare (title.above_bare ?_) badges) (.fixed (by decide))) frame
  change ∀ line ∈ [_, _] ++ logLines test ++ [_], Bare line
  simp only [List.forall_mem_append, List.forall_mem_cons, List.not_mem_nil, false_implies,
    implies_true, and_true]
  exact ⟨⟨⟨figures, .fixed (by decide)⟩, bare_logLines test⟩, .fixed (by decide)⟩

theorem shows_testCard
    {test : TestRecord}
    {text : Text}
    (shown : testCard test = .ok text) :
    Shows text 0 1 := by
  obtain ⟨duration, isDuration, rest⟩ := Outcome.bind_eq_ok_iff.mp shown
  obtain ⟨place, isPlace, same⟩ := Outcome.bind_eq_ok_iff.mp rest
  cases same
  exact shows_cardMarkup (.of_not_mem (not_mem_show? isDuration))
    (.of_not_mem (not_mem_testPlace isPlace))

/-- Several pieces show together what each of them shows. -/
theorem shows_inOrder
    {α : Type}
    {piece : α → Except Duration.Fault Text}
    {items : List α}
    {text : Text}
    {images tests : α → Nat}
    (each : ∀ item text, piece item = .ok text → Shows text (images item) (tests item))
    (shown : inOrder piece items = .ok text) :
    Shows text (items.map images).sum (items.map tests).sum := by
  induction items generalizing text with
  | nil =>
      cases shown
      exact .of_not_mem List.not_mem_nil
  | cons item others inductionHypothesis =>
      obtain ⟨first, isFirst, rest⟩ := Outcome.bind_eq_ok_iff.mp shown
      obtain ⟨behind, areOthers, same⟩ := Outcome.bind_eq_ok_iff.mp rest
      cases same
      rw [List.map_cons, List.map_cons, List.sum_cons, List.sum_cons]
      exact (each item first isFirst).append (inductionHypothesis areOthers)

/-! ## Sections -/

theorem bare_sectionHeading
    {coverage : Coverage}
    {duration : Text}
    (bareDuration : Bare duration) :
    Bare (markupLines (sectionHeading coverage duration)) := by
  have frame :
      Bare ("<div class=\"ac-section\" id=\"ac-" ++ escaped coverage.criterion.id ++
        "\" data-status=\"" ++ (if 0 < coverage.failed then "fail".toList else "pass") ++
        "\">") := by
    refine ((Shows.between (by decide) (bare_escaped _) (by decide)).append_bare ?_).append_bare
      (.fixed (by decide))
    split
    · decide
    · decide
  have title :
      Bare ("      <span class=\"ac-title\">" ++ escaped coverage.criterion.id ++ ": " ++
        escaped coverage.criterion.description ++ "</span>") :=
    ((Shows.between (by decide) (bare_escaped _) (by decide)).append_bare
      (bare_escaped _)).append_bare (.fixed (by decide))
  have verdict : Bare ("        " ++ verdictBadge coverage.status) :=
    (Shows.fixed (by decide)).append_bare (bare_verdictBadge coverage.status)
  have tests :
      Bare ("        <span>" ++ Text.ofNat coverage.tests.length ++ " tests</span>") :=
    .between (by decide) (bare_ofNat _) (by decide)
  have api : Bare ("        " ++ badge "api" ("API " ++ Text.ofNat coverage.apiCount)) :=
    (Shows.fixed (by decide)).append_bare
      (bare_badge (by decide) ((Shows.fixed (by decide)).append_bare (bare_ofNat _)))
  have e2e : Bare ("        " ++ badge "e2e" ("E2E " ++ Text.ofNat coverage.e2eCount)) :=
    (Shows.fixed (by decide)).append_bare
      (bare_badge (by decide) ((Shows.fixed (by decide)).append_bare (bare_ofNat _)))
  have images :
      Bare ("        <span>" ++ Text.ofNat coverage.images.length ++ " screenshots</span>") :=
    .between (by decide) (bare_ofNat _) (by decide)
  refine bare_markupLines ?_
  simp only [sectionHeading, List.forall_mem_append, List.forall_mem_cons, List.not_mem_nil,
    false_implies, implies_true, and_true]
  exact ⟨⟨⟨⟨⟨⟨frame, .fixed (by decide), .fixed (by decide), title, .fixed (by decide), verdict,
    tests⟩, bare_lineIf api⟩, bare_lineIf e2e⟩, .between (by decide) bareDuration (by decide)⟩,
    bare_lineIf images⟩, .fixed (by decide), .fixed (by decide), .fixed (by decide)⟩

theorem shows_sectionImages
    (coverage : Coverage) :
    Shows (sectionImages coverage) coverage.images.length 0 := by
  unfold sectionImages
  split
  next noImages =>
    rw [noImages]
    exact .of_not_mem List.not_mem_nil
  next =>
    exact .bare_append
      (bare_markupLines (List.forall_mem_singleton.mpr (.fixed (by decide))))
      (shows_imageGrid coverage.images)

theorem bare_sectionEnd :
    Bare sectionEnd := by
  refine bare_markupLines ?_
  simp only [List.forall_mem_cons, List.not_mem_nil, false_implies, implies_true, and_true]
  exact ⟨.fixed (by decide), .fixed (by decide), .fixed (by decide)⟩

theorem shows_detailSection
    {coverage : Coverage}
    {text : Text}
    (shown : detailSection coverage = .ok text) :
    Shows text coverage.images.length coverage.tests.length := by
  obtain ⟨duration, isDuration, rest⟩ := Outcome.bind_eq_ok_iff.mp shown
  obtain ⟨cards, areCards, same⟩ := Outcome.bind_eq_ok_iff.mp rest
  cases same
  have heading : Bare (markupLines (sectionHeading coverage duration)) :=
    bare_sectionHeading (.of_not_mem (not_mem_show? isDuration))
  have tests : Shows cards 0 coverage.tests.length := by
    simpa [List.map_const', List.sum_replicate_nat] using
      shows_inOrder (fun _ _ => shows_testCard) areCards
  have both := (heading.bare_append tests).append (shows_sectionImages coverage)
  rw [Nat.zero_add] at both
  exact both.append_bare bare_sectionEnd

theorem shows_gallerySection
    (images : List Image) :
    Shows (gallerySection images) images.length 0 := by
  unfold gallerySection
  split
  next noImages =>
    rw [noImages]
    exact .of_not_mem List.not_mem_nil
  next =>
    refine (Shows.bare_append (bare_markupLines ?_) (shows_imageGrid images)).append_bare
      bare_sectionEnd
    simp only [List.forall_mem_cons, List.not_mem_nil, false_implies, implies_true, and_true]
    exact ⟨.fixed (by decide), .fixed (by decide), .fixed (by decide), .fixed (by decide),
      .between (by decide) (bare_ofNat _) (by decide), .fixed (by decide), .fixed (by decide)⟩

/-- The details show the images and tests of the rows that have tests, and the gallery. -/
theorem shows_detailSections
    {report : Report}
    {text : Text}
    (shown : detailSections report = .ok text) :
    Shows text
      (((report.coverage.filter (·.tests ≠ [])).map (·.images.length)).sum +
        report.gallery.length)
      ((report.coverage.filter (·.tests ≠ [])).map (·.tests.length)).sum := by
  obtain ⟨sections, areSections, same⟩ := Outcome.bind_eq_ok_iff.mp shown
  cases same
  have rows := shows_inOrder (fun _ _ => shows_detailSection) areSections
  have opening : Bare "\n\n" := .fixed (by decide)
  exact (opening.bare_append rows).append (shows_gallerySection report.gallery)

end TestAudit.Report
