import TestAudit.Proofs.Outcome
import TestAudit.Report.Generate

namespace TestAudit.Report

/-!
# Preparing a report

Without a log file the files stay as they are while a report is prepared. So the prepared
report depends on what is found for it: the results, the template, the catalog, the images
and the name of the project.
-/

variable {project : Project} {tree changed : Tree} {timestamp : Text} {request : Request}

/-! ## Preparing on files that stay as they are -/

theorem value_prepareRecords_onFiles
    (project : Project)
    (timestamp : Text)
    (request : Request)
    (template : TemplateChoice)
    (records : List TestRecord)
    (tree : Tree) :
    ((prepareRecords project timestamp request template records).onFiles tree).value =
      (((CriteriaSource.resolve project (records.map (·.title)) request.config).onFiles
          tree).value.mapError .access >>= fun catalog =>
        (Image.ofProject project tree).value.mapError .access >>= fun images =>
          ((CriteriaSource.projectName project catalog request.config).onFiles
              tree).value.mapError .access >>= fun name =>
            (compile name timestamp records catalog images).value.mapError .invalidTag >>=
              fun report => template.read tree >>= fun text =>
                (rendered (outputPath project request.output) report text).mapError .duration) := by
  unfold prepareRecords
  simp only [Session.value_bind_onFiles, Session.value_onward_onFiles, Session.value_tree_onFiles,
    Session.value_lift_onFiles]
  rfl

theorem value_prepare_onFiles
    (project : Project)
    (timestamp : Text)
    (request : Request)
    (tree : Tree) :
    ((prepare project timestamp request).onFiles tree).value =
      findResults project tree request.results >>= fun path =>
        findTemplate project tree request.template >>= fun template =>
          (Results.loadRecords tree path).mapError .results >>= fun records =>
            ((prepareRecords project timestamp request template records).onFiles tree).value := by
  unfold prepare
  rw [Session.value_bind_onFiles, Session.value_tree_onFiles]
  cases findResults project tree request.results with
  | error fault => rfl
  | ok path =>
      cases findTemplate project tree request.template with
      | error fault => rfl
      | ok template =>
          dsimp only
          rw [Session.value_bind_onFiles, Session.value_bind_onFiles, Session.value_tree_onFiles]
          change _ = (Results.loadRecords tree path).mapError .results >>= fun records =>
            ((prepareRecords project timestamp request template records).onFiles tree).value
          cases Results.loadRecords tree path <;> rfl

theorem value_generate
    (project : Project)
    (tree : Tree)
    (timestamp : Text)
    (request : Request) :
    (generate project tree timestamp request).value =
      match ((prepare project timestamp request).onFiles tree).value with
      | .error fault => (tree, .error fault)
      | .ok prepared =>
          match prepared.store tree with
          | (changed, .ok ()) => (changed, .ok prepared)
          | (changed, .error fault) => (changed, .error (.output fault)) := by
  unfold generate
  rw [Logged.value_bind]
  cases ((prepare project timestamp request).onFiles tree).value with
  | error fault => rfl
  | ok prepared =>
      dsimp only
      rcases prepared.store tree with ⟨changed, fault | _⟩ <;> rfl

/-- A document is written to the place that was asked for. -/
theorem path_of_prepare
    {prepared : Prepared}
    (isPrepared : ((prepare project timestamp request).onFiles tree).value = .ok prepared) :
    prepared.path = outputPath project request.output := by
  rw [value_prepare_onFiles] at isPrepared
  obtain ⟨path, _, found⟩ := Outcome.bind_eq_ok_iff.mp isPrepared
  obtain ⟨template, _, chosen⟩ := Outcome.bind_eq_ok_iff.mp found
  obtain ⟨records, _, readRecords⟩ := Outcome.bind_eq_ok_iff.mp chosen
  rw [value_prepareRecords_onFiles] at readRecords
  obtain ⟨catalog, _, resolved⟩ := Outcome.bind_eq_ok_iff.mp readRecords
  obtain ⟨images, _, bound⟩ := Outcome.bind_eq_ok_iff.mp resolved
  obtain ⟨name, _, named⟩ := Outcome.bind_eq_ok_iff.mp bound
  obtain ⟨report, _, compiled⟩ := Outcome.bind_eq_ok_iff.mp named
  obtain ⟨text, _, isRendered⟩ := Outcome.bind_eq_ok_iff.mp compiled
  obtain ⟨document, _, isWritten⟩ :=
    Outcome.bind_eq_ok_iff.mp (Outcome.mapError_eq_ok_iff.mp isRendered)
  obtain ⟨duration, _, ⟨⟩⟩ := Outcome.bind_eq_ok_iff.mp isWritten
  rfl

/-! ## Inputs that stay the same -/

/-- What preparing a report finds in one tree is found in another. -/
structure SameInputs
    (project : Project)
    (request : Request)
    (tree changed : Tree) : Prop where
  catalog : ∀ titles catalog,
    ((CriteriaSource.resolve project titles request.config).onFiles tree).value = .ok catalog →
      ((CriteriaSource.resolve project titles request.config).onFiles changed).value = .ok catalog
  images : ∀ images, (Image.ofProject project tree).value = .ok images →
    (Image.ofProject project changed).value = .ok images
  name : ∀ catalog name,
    ((CriteriaSource.projectName project catalog request.config).onFiles tree).value = .ok name →
      ((CriteriaSource.projectName project catalog request.config).onFiles changed).value =
        .ok name
  results : ∀ path, findResults project tree request.results = .ok path →
    findResults project changed request.results = .ok path ∧
      Results.loadRecords changed path = Results.loadRecords tree path
  template : ∀ template, findTemplate project tree request.template = .ok template →
    findTemplate project changed request.template = .ok template ∧
      template.read changed = template.read tree

/-- A report that was prepared is prepared again on the same inputs. -/
theorem prepare_of_sameInputs
    (same : SameInputs project request tree changed)
    {prepared : Prepared}
    (isPrepared : ((prepare project timestamp request).onFiles tree).value = .ok prepared) :
    ((prepare project timestamp request).onFiles changed).value = .ok prepared := by
  rw [value_prepare_onFiles] at isPrepared ⊢
  obtain ⟨path, isPath, found⟩ := Outcome.bind_eq_ok_iff.mp isPrepared
  obtain ⟨template, isTemplate, chosen⟩ := Outcome.bind_eq_ok_iff.mp found
  obtain ⟨records, isRecords, readRecords⟩ := Outcome.bind_eq_ok_iff.mp chosen
  rw [value_prepareRecords_onFiles] at readRecords
  obtain ⟨catalog, isCatalog, resolved⟩ := Outcome.bind_eq_ok_iff.mp readRecords
  obtain ⟨images, areImages, bound⟩ := Outcome.bind_eq_ok_iff.mp resolved
  obtain ⟨name, isName, named⟩ := Outcome.bind_eq_ok_iff.mp bound
  obtain ⟨isPathAgain, sameRecords⟩ := same.results path isPath
  obtain ⟨isTemplateAgain, sameTemplate⟩ := same.template template isTemplate
  have isCatalogAgain := same.catalog _ _ (Outcome.mapError_eq_ok_iff.mp isCatalog)
  have areImagesAgain := same.images _ (Outcome.mapError_eq_ok_iff.mp areImages)
  have isNameAgain := same.name _ _ (Outcome.mapError_eq_ok_iff.mp isName)
  refine Outcome.bind_eq_ok_iff.mpr ⟨path, isPathAgain, ?_⟩
  refine Outcome.bind_eq_ok_iff.mpr ⟨template, isTemplateAgain, ?_⟩
  refine Outcome.bind_eq_ok_iff.mpr ⟨records, by rw [sameRecords, isRecords], ?_⟩
  rw [value_prepareRecords_onFiles, isCatalogAgain, areImagesAgain]
  dsimp only [Except.mapError, bind, Except.bind]
  rw [isNameAgain, sameTemplate]
  exact named

end TestAudit.Report
