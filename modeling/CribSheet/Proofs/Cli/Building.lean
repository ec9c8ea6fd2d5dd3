/-
Building changes all that it has to, or nothing.

A request is answered step by step, and the files change in the last step only.  So an error of any step
before it leaves them as they were.  A payload of which nothing is left is told apart from every other error
by the exit status.  When no engine can be started, the source of a sheet is written in place of the compiled
sheet: it is the file that a request for the source would have written.

Main definitions:

* `CribSheet.BuildRequest.Ready` — what is read before the work begins could be read.

Main results:

* `CribSheet.buildSheet_of_ready`, `CribSheet.buildSheet_of_not_ready` — the steps in front of the sheet;
* `CribSheet.Registry.publish_error_cases`, `CribSheet.Registry.files_publish` — publishing changes no file unless
  it writes one;
* `CribSheet.files_buildSheet_of_error`, `CribSheet.status_buildSheet` — an error, and the exit status that tells it;
* `CribSheet.buildSheet_all_or_nothing` — **building changes all that it has to, or nothing**.
-/
import CribSheet.Cli.Build
import CribSheet.Proofs.Artifact.Naming
import CribSheet.Proofs.Files.Storing
import CribSheet.Proofs.Sheet.Chain

set_option relaxedAutoImplicit false
set_option autoImplicit false

namespace CribSheet

open CribSheet.Text

/-! ### Formats -/

namespace Format

/-- Serializing in the format refuses no sheet and writes no file. -/
def OnlyMakes (f : Format) : Prop :=
  ∀ options doc e, (f.serializeWith options doc).2 = .error e →
    e ≠ .refused .emptyInput ∧ ∀ fault, e ≠ .io fault

theorem onlyMakes_latex : latex.OnlyMakes := by
  intro options doc e h
  change Except.ok (Artifact.text doc.text) = Except.error e at h
  simp at h

theorem onlyMakes_markdown : markdown.OnlyMakes := by
  intro options doc e h
  change Except.ok (Artifact.text (Markdown.preview doc).1) = Except.error e at h
  simp at h

theorem compilerOptions_error {compiler : CompilerOptions} {options : FormatOptions} {e : FormatError}
    (h : compilerOptions compiler options = .error e) : ∃ given, e = .badPassCount given := by
  rw [compilerOptions] at h
  split at h
  · simp at h
  · next given _ =>
      split at h
      · simp at h
      · exact ⟨given, (Except.error.inj h).symm⟩

theorem onlyMakes_pdf (available : Engines) (compiler : CompilerOptions) :
    (pdf available compiler).OnlyMakes := by
  intro options doc e h
  rw [pdf] at h
  simp only at h
  split at h
  · next e' hoptions =>
      obtain rfl : e' = e := Except.error.inj h
      obtain ⟨given, rfl⟩ := compilerOptions_error hoptions
      exact ⟨by simp, by simp⟩
  · next compiler' _ =>
      generalize (compile available compiler' ((options.lookup "stem".toList).getD defaultStem) doc).2 = made at h
      cases made with
      | ok bytes => simp [Except.map, Except.mapError] at h
      | error e' =>
          obtain rfl : FormatError.compile e' = e := Except.error.inj h
          exact ⟨by simp, by simp⟩

end Format

namespace Registry

section BuiltIn

variable (available : Engines) (compiler : CompilerOptions)

/-- The built-in formats, in the order of their names. -/
theorem formats_builtIn :
    (builtIn available compiler).formats = [.latex, .markdown, .pdf available compiler] := rfl

theorem names_builtIn :
    (builtIn available compiler).names = ["latex".toList, "markdown".toList, Format.pdfName] := rfl

/-- The text of a sheet is its artifact as a source. -/
theorem serializeWith_latex (options : FormatOptions) (doc : Document) :
    (builtIn available compiler).serializeWith "latex".toList options doc = ([], .ok (.text doc.text)) := rfl

theorem serializeWith_pdf (options : FormatOptions) (doc : Document) :
    (builtIn available compiler).serializeWith Format.pdfName options doc =
      (Format.pdf available compiler).serializeWith options doc := rfl

/-- No built-in format refuses a sheet or writes a file. -/
theorem serializeWith_builtIn_error {name : Text} {options : FormatOptions} {doc : Document} {e : FormatError}
    (h : ((builtIn available compiler).serializeWith name options doc).2 = .error e) :
    e ≠ .refused .emptyInput ∧ ∀ fault, e ≠ .io fault := by
  have honly : ∀ f ∈ (builtIn available compiler).formats, f.OnlyMakes := by
    rw [formats_builtIn]
    simp only [List.mem_cons, List.not_mem_nil, or_false]
    rintro f (rfl | rfl | rfl)
    exacts [Format.onlyMakes_latex, Format.onlyMakes_markdown, Format.onlyMakes_pdf available compiler]
  rw [serializeWith] at h
  split at h
  · next f hserializer =>
      refine honly f ?_ options doc e h
      rw [serializer, get] at hserializer
      cases hfind : (builtIn available compiler).find? name with
      | none => simp [hfind, bind, Except.bind] at hserializer
      | some g =>
          simp only [hfind, bind, Except.bind] at hserializer
          split at hserializer
          · obtain rfl := Except.ok.inj hserializer
            exact List.mem_of_find?_eq_some hfind
          · simp at hserializer
  · next e' hserializer =>
      obtain rfl : e' = e := Except.error.inj h
      rw [serializer, get] at hserializer
      cases hfind : (builtIn available compiler).find? name with
      | none =>
          simp only [hfind, bind, Except.bind, Except.error.injEq] at hserializer
          subst hserializer
          exact ⟨by simp, by simp⟩
      | some g =>
          simp only [hfind, bind, Except.bind] at hserializer
          split at hserializer
          · simp at hserializer
          · obtain rfl := Except.error.inj hserializer
            exact ⟨by simp, by simp⟩

end BuiltIn

/-! ### Publishing -/

variable {r : Registry} {files : FileTree} {order : Order}

/-- What publishing to a file does. -/
theorem publish_of_output (files : FileTree) (order : Order) {reports : List Report} {artifact : Artifact} {path : Text}
    (h : r.serializeWith order.format order.options order.document = (reports, .ok artifact))
    (ho : order.output = some path) :
    (r.publish files order).files = (files.store path artifact.bytes).1 ∧
      (r.publish files order).outcome =
        ((files.store path artifact.bytes).2.map fun _ => Published.file path).mapError .io := by
  constructor <;> simp only [publish, h, ho]

/-- **The errors of publishing**: a fault of the file that is written, or, with all files as they were, an error of
serializing or a binary artifact without a place. -/
theorem publish_error_cases {e : FormatError} (h : (r.publish files order).outcome = .error e) :
    (∃ fault, e = .io fault) ∨ (r.publish files order).files = files ∧
      ((r.serializeWith order.format order.options order.document).2 = .error e ∨ e = .needsOutputPath) := by
  cases hmade : r.serializeWith order.format order.options order.document with
  | mk reports made =>
      cases made with
      | error e' =>
          simp only [publish, hmade] at h ⊢
          exact .inr ⟨trivial, .inl (congrArg Except.error (Except.error.inj h))⟩
      | ok artifact =>
          cases ho : order.output with
          | none =>
              cases artifact with
              | text t => simp [publish, hmade, ho] at h
              | binary bytes =>
                  simp only [publish, hmade, ho] at h ⊢
                  exact .inr ⟨trivial, .inr (Except.error.inj h).symm⟩
          | some path =>
              obtain ⟨-, houtcome⟩ := publish_of_output files order hmade ho
              rw [houtcome] at h
              cases hstored : (files.store path artifact.bytes).2 with
              | ok u => simp [hstored, Except.map, Except.mapError] at h
              | error fault =>
                  rw [hstored] at h
                  exact .inl ⟨fault, (Except.error.inj h).symm⟩

/-- **Publishing changes no file unless it writes one**: only the last step fails with a fault of a file. -/
theorem files_publish {e : FormatError} (h : (r.publish files order).outcome = .error e)
    (he : ∀ fault, e ≠ .io fault) : (r.publish files order).files = files := by
  rcases publish_error_cases h with ⟨fault, hfault⟩ | ⟨hfiles, -⟩
  · exact absurd hfault (he fault)
  · exact hfiles

/-- Publishing in a built-in format refuses no sheet. -/
theorem publish_builtIn_error {available : Engines} {compiler : CompilerOptions} {e : FormatError}
    (h : ((builtIn available compiler).publish files order).outcome = .error e) :
    e ≠ .refused .emptyInput := by
  rcases publish_error_cases h with ⟨fault, rfl⟩ | ⟨-, hmade | rfl⟩
  · simp
  · exact (serializeWith_builtIn_error available compiler hmade).1
  · simp

end Registry

/-! ### The steps of a build -/

@[simp] theorem Work.files_after (work : Work) (notes : List Note) : (work.after notes).files = work.files := rfl

@[simp] theorem Work.result_after (work : Work) (notes : List Note) : (work.after notes).result = work.result := rfl

/-- **What is read before the work begins** could be read: the configuration, the format, the payload. -/
structure BuildRequest.Ready (b : BuildRequest) (s : Surroundings) (c : Configuration) (raw : Text) : Prop where
  /-- The configuration loads. -/
  configured : b.configuration s.files = .ok c
  /-- The format is one of the built-in ones. -/
  registered : b.format ∈ (Registry.builtIn s.engines c.compiler).names
  /-- The payload is readable. -/
  readable : b.payload s = .ok raw

theorem BuildRequest.Ready.payload_unique {b : BuildRequest} {s : Surroundings} {c c' : Configuration}
    {raw raw' : Text} (h : b.Ready s c raw) (h' : b.Ready s c' raw') : raw' = raw :=
  Except.ok.inj (h'.readable.symm.trans h.readable)

theorem BuildRequest.artifactName_pdf (names : ArtifactNames) :
    artifactName names Format.pdfName = names.pdf := rfl

theorem BuildRequest.artifactName_latex (names : ArtifactNames) :
    artifactName names "latex".toList = names.source := rfl

theorem Work.status_outcome_ok {work : Work} {output : Text} (h : work.result = .ok output) (level : Level) :
    (work.outcome level).status = 0 := by
  rw [Work.outcome, h]

theorem Work.status_outcome_error {work : Work} {e : ProgramError} (h : work.result = .error e) (level : Level) :
    (work.outcome level).status = e.status := by
  rw [Work.outcome, h]
  rfl

/-- All could be read, and nothing is left of the payload. -/
def BuildRequest.Empty (b : BuildRequest) (s : Surroundings) : Prop :=
  ∃ c raw, b.Ready s c raw ∧ Payload.sanitize raw = []

/-- Where the source goes in place of a compiled sheet. -/
def BuildRequest.sourcePath (b : BuildRequest) (names : ArtifactNames) : Text :=
  Path.withExtension ((b.destination names).getD names.pdf) "tex".toList

section Build

variable {s : Surroundings} {b : BuildRequest} {c : Configuration} {raw : Text}

theorem exists_get {r : Registry} {name : Text} (h : name ∈ r.names) : ∃ f, r.get name = .ok f := by
  rw [Registry.get]
  cases hfind : r.find? name with
  | some f => exact ⟨f, rfl⟩
  | none =>
      obtain ⟨f, hf, rfl⟩ := List.mem_map.1 h
      have hnone := List.find?_eq_none.1 hfind f hf
      simp at hnone

theorem mem_names_of_get {r : Registry} {name : Text} {f : Format} (h : r.get name = .ok f) : name ∈ r.names := by
  rw [Registry.get] at h
  cases hfind : r.find? name with
  | none => simp [hfind] at h
  | some g =>
      have hname : g.name = name := by simpa using List.find?_some hfind
      exact hname ▸ List.mem_map_of_mem (List.mem_of_find?_eq_some hfind)

/-- A payload of which nothing is left is refused, and nothing is done. -/
theorem buildSheet_of_sanitize_eq_nil (h : b.Ready s c raw) (hs : Payload.sanitize raw = []) :
    (buildSheet s b).files = s.files ∧ (buildSheet s b).result = .error (.load (.refused .emptyInput)) := by
  obtain ⟨f, hf⟩ := exists_get h.registered
  have hrefused : Payload.normalize c.pipelineOptions b.topic raw = .error (.refused .emptyInput) := by
    simp [Payload.normalize, PipelineOptions.document, PipelineOptions.stages, runStages, Stage.run, hs, Except.map,
      Except.mapError]
  simp only [buildSheet, h.configured, hf, h.readable, hrefused, bind, Except.bind, Except.mapError, pure, Except.pure,
    and_self]

/-- **When everything could be read**, a sheet is made and published. -/
theorem buildSheet_of_ready (h : b.Ready s c raw) (hs : Payload.sanitize raw ≠ []) :
    ∃ doc, c.pipelineOptions.document b.topic raw = .ok doc ∧
      (buildSheet s b).files =
        (publishSheet (Registry.builtIn s.engines c.compiler) b s.files (c.artifactNames b.topic) doc).files ∧
      (buildSheet s b).result =
        (publishSheet (Registry.builtIn s.engines c.compiler) b s.files (c.artifactNames b.topic) doc).result := by
  obtain ⟨f, hf⟩ := exists_get h.registered
  obtain ⟨doc, hdoc⟩ : ∃ doc, c.pipelineOptions.document b.topic raw = .ok doc :=
    ⟨_, PipelineOptions.document_eq_ok_iff.2 ⟨hs, rfl⟩⟩
  refine ⟨doc, hdoc, ?_⟩
  simp only [buildSheet, h.configured, hf, h.readable, Payload.normalize, hdoc, bind, Except.bind, Except.mapError,
    pure, Except.pure, Work.files_after, Work.result_after, and_self]

theorem status_of_configuration_error {files : FileTree} {e : ProgramError} (h : b.configuration files = .error e) :
    e.status = 1 := by
  rw [BuildRequest.configuration, readConfiguration] at h
  obtain ⟨fault, rfl⟩ : ∃ fault, e = .settings fault := by
    simp only [Except.mapError] at h
    split at h
    · exact ⟨_, (Except.error.inj h).symm⟩
    · simp at h
  rfl

theorem status_of_payload_error {e : ProgramError} (h : b.payload s = .error e) : e.status = 1 := by
  obtain ⟨fault, rfl⟩ : ∃ fault, e = .load (.unreadable fault) := by
    rw [BuildRequest.payload] at h
    split at h
    · exact ⟨_, (Except.error.inj h).symm⟩
    · next bytes _ =>
        rw [Payload.ofBytes] at h
        cases hdecode : decode? bytes with
        | none =>
            rw [hdecode] at h
            exact ⟨_, (Except.error.inj h).symm⟩
        | some raw => simp [hdecode, Except.mapError] at h
  rfl

/-- **When something could not be read**, nothing is done. -/
theorem buildSheet_of_not_ready (h : ∀ c raw, ¬ b.Ready s c raw) :
    ∃ e, (buildSheet s b).files = s.files ∧ (buildSheet s b).result = .error e ∧ e.status = 1 := by
  cases hc : b.configuration s.files with
  | error e =>
      refine ⟨e, ?_, ?_, status_of_configuration_error hc⟩ <;>
        simp only [buildSheet, hc, bind, Except.bind]
  | ok c =>
      cases hf : (Registry.builtIn s.engines c.compiler).get b.format with
      | error e =>
          refine ⟨.format e, ?_, ?_, ?_⟩
          · simp only [buildSheet, hc, hf, bind, Except.bind, Except.mapError]
          · simp only [buildSheet, hc, hf, bind, Except.bind, Except.mapError]
          · rw [Registry.get] at hf
            split at hf
            · simp at hf
            · rw [← Except.error.inj hf]
              rfl
      | ok f =>
          cases hp : b.payload s with
          | error e =>
              refine ⟨e, ?_, ?_, status_of_payload_error hp⟩ <;>
                simp only [buildSheet, hc, hf, hp, bind, Except.bind, Except.mapError]
          | ok raw => exact absurd ⟨hc, mem_names_of_get hf, hp⟩ (h c raw)

/-! ### The last step -/

variable {available : Engines} {compiler : CompilerOptions} {files : FileTree} {names : ArtifactNames} {doc : Document}

theorem ProgramError.status_format {e : FormatError} (h : e ≠ .refused .emptyInput) :
    (ProgramError.format e).status = 1 := by
  cases e with
  | refused refusal =>
      cases refusal
      exact absurd rfl h
  | _ => rfl

/-- An error of publishing is none of a payload of which nothing is left, and it changes no file unless the final
write fails. -/
theorem publish_work_error {order : Order} {e : ProgramError}
    (h : ((Registry.builtIn available compiler).publish files order).work.result = .error e) :
    e.status = 1 ∧ ((∀ fault, e ≠ .format (.io fault)) →
      ((Registry.builtIn available compiler).publish files order).files = files) := by
  rw [Publication.work] at h
  cases hp : ((Registry.builtIn available compiler).publish files order).outcome with
  | ok published => simp [hp, Except.map, Except.mapError] at h
  | error e' =>
      rw [hp] at h
      obtain rfl : ProgramError.format e' = e := Except.error.inj h
      refine ⟨ProgramError.status_format (Registry.publish_builtIn_error hp), fun hio => ?_⟩
      exact Registry.files_publish hp fun fault he => hio fault (by rw [he])

/-- **An error in front of the final write changes no file**, and it is none of a payload of which nothing is
left. -/
theorem publishSheet_error {e : ProgramError}
    (h : (publishSheet (.builtIn available compiler) b files names doc).result = .error e) :
    e.status = 1 ∧ ((∀ fault, e ≠ .format (.io fault)) →
      (publishSheet (.builtIn available compiler) b files names doc).files = files) := by
  rw [publishSheet] at h ⊢
  split at h
  · -- No engine can be started, and the source is published instead.
    next tried hp =>
      have hfiles := Registry.files_publish hp (by simp)
      rw [hfiles] at h ⊢
      exact publish_work_error h
  · next engine pass log hp =>
      obtain rfl := Except.error.inj h
      exact ⟨rfl, fun _ => Registry.files_publish hp (by simp)⟩
  · exact publish_work_error h

/-- A source is published to the place where it goes. -/
theorem publish_source (available : Engines) (compiler : CompilerOptions) (doc : Document) (options : FormatOptions)
    {path : Text} (hpath : files.Writable path) :
    ((Registry.builtIn available compiler).publish files ⟨doc, "latex".toList, some path, options⟩).files =
        (files.store path doc.text.encode).1 ∧
      ((Registry.builtIn available compiler).publish files ⟨doc, "latex".toList, some path, options⟩).outcome =
        .ok (.file path) := by
  obtain ⟨hfiles, houtcome⟩ := Registry.publish_of_output files ⟨doc, "latex".toList, some path, options⟩
    (Registry.serializeWith_latex available compiler options doc) rfl
  refine ⟨hfiles, ?_⟩
  rw [houtcome]
  have hstored := hpath.store doc.text.encode
  simp only [Artifact.bytes, hstored, Except.map, Except.mapError]

theorem compilerOptions_stem (compiler : CompilerOptions) (stem : Text) :
    Format.compilerOptions compiler [("stem".toList, stem)] = .ok compiler := rfl

/-- **Without an engine** the source is written in place of the compiled sheet. -/
theorem publishSheet_of_no_engine (names : ArtifactNames) (doc : Document) (hformat : b.format = Format.pdfName)
    (hengines : ∀ name ∈ compiler.engines, available name = none) {path : Text}
    (hpath : b.sourcePath names = path)
    (hwritable : files.Writable path) :
    (publishSheet (.builtIn available compiler) b files names doc).files = (files.store path doc.text.encode).1 ∧
      (publishSheet (.builtIn available compiler) b files names doc).result = .ok (path ++ ['\n']) := by
  have hnone : resolveEngine? available compiler.engines = none := by
    rw [resolveEngine?, List.findSome?_eq_none_iff]
    intro name hname
    rw [hengines name hname]
    rfl
  have hmade : (Registry.builtIn available compiler).serializeWith (b.order names doc).format
      (b.order names doc).options (b.order names doc).document =
        ([], .error (.compile (.unavailable compiler.engines))) := by
    simp only [BuildRequest.order, hformat, if_true, Registry.serializeWith_pdf, Format.pdf, compilerOptions_stem,
      compile, hnone, Except.map, Except.mapError]
  have hpublish : (Registry.builtIn available compiler).publish files (b.order names doc) =
      ⟨files, [], .error (.compile (.unavailable compiler.engines))⟩ := by
    rw [Registry.publish]
    simp only [hmade]
  obtain ⟨hfiles, houtcome⟩ := publish_source available compiler doc [] hwritable
  rw [publishSheet]
  simp only [hpublish, degrade, ← BuildRequest.sourcePath.eq_def, hpath, Work.files_after, Work.result_after,
    Publication.work, hfiles, houtcome]
  exact ⟨trivial, rfl⟩

/-- **A request for the source** writes it to its place. -/
theorem publishSheet_latex (available : Engines) (compiler : CompilerOptions) (doc : Document)
    (hformat : b.format = "latex".toList) {path : Text}
    (hpath : b.destination names = some path) (hwritable : files.Writable path) :
    (publishSheet (.builtIn available compiler) b files names doc).files = (files.store path doc.text.encode).1 ∧
      (publishSheet (.builtIn available compiler) b files names doc).result = .ok (path ++ ['\n']) := by
  have horder : b.order names doc = ⟨doc, "latex".toList, some path, (b.order names doc).options⟩ := by
    simp only [BuildRequest.order, hformat, hpath]
  obtain ⟨hfiles, houtcome⟩ := publish_source available compiler doc (b.order names doc).options hwritable
  rw [← horder] at hfiles houtcome
  rw [publishSheet]
  simp only [houtcome, Publication.work, hfiles]
  exact ⟨trivial, rfl⟩

end Build

/-! ### The work directory -/

theorem mem_of_mem_dropTexExtension {name : Text} {c : Char} (h : c ∈ dropTexExtension name) : c ∈ name := by
  have hreversed : ∀ t : Text, c ∈ dropReversedTex t → c ∈ t := by
    intro t h
    fun_induction dropReversedTex t with
    | case1 t ih => simp [ih h]
    | case2 => exact h
  exact List.mem_reverse.1 (hreversed _ (List.mem_reverse.1 h))

/-- A file without a slash in its name is written into an empty directory itself. -/
theorem FileTree.entries_write_empty {name : Text} (hslash : '/' ∉ name) (hlong : 2 < name.length)
    {content : ByteArray} {files : FileTree} (h : ({} : FileTree).write name content = .ok files) :
    files.entries = [([name], .file content)] := by
  rw [FileTree.write_empty hslash hlong] at h
  split at h
  · simp at h
  · split at h
    · simp at h
    · rw [← Except.ok.inj h]

/-! ### All or nothing -/

section Build

variable {s : Surroundings} {b : BuildRequest} {c : Configuration} {raw : Text}

/-- **The ways a build goes**: something cannot be read, nothing is left of the payload, or a sheet is made. -/
theorem buildSheet_cases (s : Surroundings) (b : BuildRequest) :
    (∀ c raw, ¬ b.Ready s c raw) ∨ (∃ c raw, b.Ready s c raw ∧ Payload.sanitize raw = []) ∨
      ∃ c raw, b.Ready s c raw ∧ Payload.sanitize raw ≠ [] := by
  rcases Classical.em (∃ c raw, b.Ready s c raw) with ⟨c, raw, h⟩ | hnot
  · rcases Classical.em (Payload.sanitize raw = []) with hs | hs
    · exact .inr (.inl ⟨c, raw, h, hs⟩)
    · exact .inr (.inr ⟨c, raw, h, hs⟩)
  · exact .inl fun c raw h => hnot ⟨c, raw, h⟩

/-- **An error in front of the final write changes no file.** -/
theorem files_buildSheet_of_error {e : ProgramError} (he : (buildSheet s b).result = .error e)
    (hio : ∀ fault, e ≠ .format (.io fault)) : (buildSheet s b).files = s.files := by
  rcases buildSheet_cases s b with hnot | ⟨c, raw, h, hs⟩ | ⟨c, raw, h, hs⟩
  · obtain ⟨-, hfiles, -⟩ := buildSheet_of_not_ready hnot
    exact hfiles
  · exact (buildSheet_of_sanitize_eq_nil h hs).1
  · obtain ⟨doc, -, hfiles, hresult⟩ := buildSheet_of_ready h hs
    rw [hfiles]
    exact (publishSheet_error (hresult ▸ he)).2 hio

/-- **The exit status** is 2 exactly for a payload of which nothing is left, and 1 exactly for the other errors. -/
theorem status_buildSheet (s : Surroundings) (b : BuildRequest) (level : Level) :
    (((buildSheet s b).outcome level).status = 2 ↔ b.Empty s) ∧
      (((buildSheet s b).outcome level).status = 1 ↔
        (∃ e, (buildSheet s b).result = .error e) ∧ ¬ b.Empty s) := by
  rcases buildSheet_cases s b with hnot | ⟨c, raw, h, hs⟩ | ⟨c, raw, h, hs⟩
  · obtain ⟨e, -, hresult, hstatus⟩ := buildSheet_of_not_ready hnot
    have hempty : ¬ b.Empty s := fun ⟨c, raw, h, _⟩ => hnot c raw h
    simp [Work.status_outcome_error hresult, hstatus, hempty, hresult]
  · have hresult := (buildSheet_of_sanitize_eq_nil h hs).2
    have hempty : b.Empty s := ⟨c, raw, h, hs⟩
    simp [Work.status_outcome_error hresult, ProgramError.status, hempty]
  · have hempty : ¬ b.Empty s := fun ⟨c', raw', h', hs'⟩ => hs (h.payload_unique h' ▸ hs')
    obtain ⟨doc, -, -, hresult⟩ := buildSheet_of_ready h hs
    cases hmade : (buildSheet s b).result with
    | ok output => simp [Work.status_outcome_ok hmade, hempty]
    | error e =>
        have hstatus := (publishSheet_error (hresult ▸ hmade)).1
        simp [Work.status_outcome_error hmade, hstatus, hempty]

/-- **Without an engine** a build stores the source of the sheet. -/
theorem buildSheet_of_no_engine {doc : Document} (h : b.Ready s c raw)
    (hdoc : c.pipelineOptions.document b.topic raw = .ok doc) (hs : Payload.sanitize raw ≠ [])
    (hformat : b.format = Format.pdfName) (hengines : ∀ name ∈ c.compiler.engines, s.engines name = none)
    (hwritable : s.files.Writable (b.sourcePath (c.artifactNames b.topic))) :
    (buildSheet s b).files = (s.files.store (b.sourcePath (c.artifactNames b.topic)) doc.text.encode).1 ∧
      (buildSheet s b).result = .ok (b.sourcePath (c.artifactNames b.topic) ++ ['\n']) := by
  obtain ⟨doc', hdoc', hfiles, hresult⟩ := buildSheet_of_ready h hs
  obtain rfl : doc = doc' := Except.ok.inj (hdoc.symm.trans hdoc')
  rw [hfiles, hresult]
  exact publishSheet_of_no_engine (c.artifactNames b.topic) doc hformat hengines rfl hwritable

/-- **A request for the source** stores it in its place. -/
theorem buildSheet_latex {doc : Document} {path : Text} (h : b.Ready s c raw)
    (hdoc : c.pipelineOptions.document b.topic raw = .ok doc) (hs : Payload.sanitize raw ≠ [])
    (hformat : b.format = "latex".toList) (hpath : b.destination (c.artifactNames b.topic) = some path)
    (hwritable : s.files.Writable path) :
    (buildSheet s b).files = (s.files.store path doc.text.encode).1 ∧
      (buildSheet s b).result = .ok (path ++ ['\n']) := by
  obtain ⟨doc', hdoc', hfiles, hresult⟩ := buildSheet_of_ready h hs
  obtain rfl : doc = doc' := Except.ok.inj (hdoc.symm.trans hdoc')
  rw [hfiles, hresult]
  exact publishSheet_latex s.engines c.compiler doc hformat hpath hwritable

/-- In a directory the source takes the name that it has as an artifact. -/
theorem sourcePath_of_directory {directory : Text} (hlead : '/' ∉ c.artifacts.lead)
    (hformat : b.format = Format.pdfName) (houtput : b.output = none) (hdirectory : b.directory = some directory) :
    b.sourcePath (c.artifactNames b.topic) = Path.join directory (c.artifactNames b.topic).source := by
  simp only [BuildRequest.sourcePath, BuildRequest.destination, houtput, hdirectory, hformat,
    Option.getD_some, BuildRequest.artifactName_pdf]
  exact ArtifactNames.withExtension_join_pdf hlead _ _ directory

end Build

/-- **Building changes all that it has to, or nothing.**  Let what the names of artifacts start with hold no slash.

* An error that comes before the final write leaves the files as they were.
* The exit status is 2 exactly when all could be read and nothing is left of the payload; it is 1 exactly for the
  other errors.
* When no engine can be started for a compiled sheet and the place of its source can be written, the build succeeds
  and stores one file, the source.  In a directory that is what a request for the source does there.
* What the compiler itself writes is one file in its work directory. -/
theorem buildSheet_all_or_nothing (s : Surroundings) (b : BuildRequest)
    (hlead : ∀ c, b.configuration s.files = .ok c → '/' ∉ c.artifacts.lead) :
    (∀ e, (buildSheet s b).result = .error e → (∀ fault, e ≠ .format (.io fault)) →
      (buildSheet s b).files = s.files) ∧
    (∀ level, (((buildSheet s b).outcome level).status = 2 ↔ b.Empty s) ∧
      (((buildSheet s b).outcome level).status = 1 ↔
        (∃ e, (buildSheet s b).result = .error e) ∧ ¬ b.Empty s)) ∧
    (∀ c raw, b.Ready s c raw → Payload.sanitize raw ≠ [] → b.format = Format.pdfName →
      (∀ name ∈ c.compiler.engines, s.engines name = none) →
      s.files.Writable (b.sourcePath (c.artifactNames b.topic)) →
      ∃ doc, c.pipelineOptions.document b.topic raw = .ok doc ∧
        (buildSheet s b).result = .ok (b.sourcePath (c.artifactNames b.topic) ++ ['\n']) ∧
        s.files.Stored (buildSheet s b).files (b.sourcePath (c.artifactNames b.topic)) doc.text.encode ∧
        ∀ directory, b.output = none → b.directory = some directory →
          b.sourcePath (c.artifactNames b.topic) = Path.join directory (c.artifactNames b.topic).source ∧
          (buildSheet s { b with format := "latex".toList }).files = (buildSheet s b).files ∧
          (buildSheet s { b with format := "latex".toList }).result = (buildSheet s b).result) ∧
    ∀ c, b.configuration s.files = .ok c → ∀ content files,
      ({} : FileTree).write ((c.artifactNames b.topic).stem ++ ".tex".toList) content = .ok files →
        files.entries = [([(c.artifactNames b.topic).stem ++ ".tex".toList], .file content)] := by
  refine ⟨fun e he hio => files_buildSheet_of_error he hio, status_buildSheet s b, ?_, ?_⟩
  · intro c raw h hs hformat hengines hwritable
    have hdoc : c.pipelineOptions.document b.topic raw = .ok _ := PipelineOptions.document_eq_ok_iff.2 ⟨hs, rfl⟩
    obtain ⟨hfiles, hresult⟩ := buildSheet_of_no_engine h hdoc hs hformat hengines hwritable
    refine ⟨_, hdoc, hresult, ?_, fun directory houtput hdirectory => ?_⟩
    · rw [hfiles]
      exact FileTree.stored_store (hwritable.store _)
    · have hpath := sourcePath_of_directory (hlead c h.configured) hformat houtput hdirectory
      have hlatex : BuildRequest.Ready { b with format := "latex".toList } s c raw :=
        ⟨h.configured, by rw [Registry.names_builtIn]; exact List.mem_cons_self, h.readable⟩
      have hdestination : BuildRequest.destination { b with format := "latex".toList } (c.artifactNames b.topic) =
          some (b.sourcePath (c.artifactNames b.topic)) := by
        simp only [BuildRequest.destination, houtput, hdirectory, BuildRequest.artifactName_latex, hpath]
      obtain ⟨hsource, hshown⟩ := buildSheet_latex hlatex hdoc hs rfl hdestination hwritable
      exact ⟨hpath, hsource.trans hfiles.symm, hshown.trans hresult.symm⟩
  · -- The work directory.
    intro c hc content files hwrite
    refine FileTree.entries_write_empty ?_ (by simp) hwrite
    have hsource : '/' ∉ (c.artifactNames b.topic).source :=
      ArtifactNames.slash_not_mem_source (hlead c hc) _ _
    rw [List.mem_append, not_or]
    exact ⟨fun h => hsource (mem_of_mem_dropTexExtension h), by decide⟩

/-- A compiled sheet in a directory that is not there yet, without any engine: its source stands there. -/
theorem buildSheet_without_engines :
    ∃ (s : Surroundings) (b : BuildRequest) (doc : Document),
      (∀ c, b.configuration s.files = .ok c → '/' ∉ c.artifacts.lead) ∧
      b.Ready s {} ['x'] ∧ b.format = Format.pdfName ∧
      (buildSheet s b).result = .ok "out/cheat_sheat_t.tex\n".toList ∧
      s.files.Stored (buildSheet s b).files "out/cheat_sheat_t.tex".toList doc.text.encode := by
  obtain ⟨s, hs⟩ : ∃ s : Surroundings, s = { input := encode ['x'] } := ⟨_, rfl⟩
  obtain ⟨b, hb⟩ : ∃ b : BuildRequest,
      b = { topic := ['T'], format := Format.pdfName, directory := some "out".toList } := ⟨_, rfl⟩
  have hconfiguration : b.configuration s.files = .ok {} := by
    subst hs hb
    decide +kernel
  have hlead : ∀ c, b.configuration s.files = .ok c → '/' ∉ c.artifacts.lead := by
    intro c hc
    obtain rfl : {} = c := Except.ok.inj (hconfiguration.symm.trans hc)
    decide
  have hready : b.Ready s {} ['x'] := by
    subst hs hb
    exact ⟨hconfiguration, by decide, by
      change (Payload.ofBytes (encode ['x'])).mapError .load = .ok ['x']
      rw [Payload.ofBytes, decode?_encode]
      rfl⟩
  have hpath : b.sourcePath (({} : Configuration).artifactNames b.topic) = "out/cheat_sheat_t.tex".toList := by
    subst hb
    decide +kernel
  have hwritable : s.files.Writable "out/cheat_sheat_t.tex".toList := by
    subst hs
    exact ⟨.empty, by decide +kernel⟩
  have hformat : b.format = Format.pdfName := by rw [hb]
  obtain ⟨-, -, hsource, -⟩ := buildSheet_all_or_nothing s b hlead
  obtain ⟨doc, -, hresult, hstored, -⟩ := hsource {} ['x'] hready (by decide +kernel) hformat
    (fun name _ => by rw [hs]) (hpath ▸ hwritable)
  rw [hpath] at hresult hstored
  refine ⟨s, b, doc, hlead, hready, hformat, ?_, hstored⟩
  rw [hresult]
  decide +kernel

end CribSheet
