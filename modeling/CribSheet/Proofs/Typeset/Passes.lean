/-
The passes of a compilation.

A compilation starts engines, and what they do depends on the work directory that they find.  Here every start is
noted, so that it can be told how often an engine was started, and with what.  The work directory is carried from
pass to pass; a pass that succeeds only hands its work directory on, so the first pass that fails, or the end of
the passes, decides what a compilation comes to.

Main definitions:

* `CribSheet.Start`, `CribSheet.Noted` — starts of engines, and work that notes them;
* `CribSheet.Noted.compile` — a compilation that notes the engines that it starts;
* `CribSheet.Engine.workAfter`, `CribSheet.Engine.passRun` — the work directory after some passes, and the next pass;
* `CribSheet.Engine.FailsFirst` — a pass is the first one that fails;
* `CribSheet.EngineRun.IsLog`, `CribSheet.IsFirst` — the log of a run, and the first engine that can be started.

Main results:

* `CribSheet.Noted.value_compile` — noting changes nothing;
* `CribSheet.Noted.runPasses_of_passed` — passes that succeed are followed by the passes that are left;
* `CribSheet.Noted.runPasses_of_failsFirst`, `CribSheet.Noted.runPasses_of_success` — how the passes end;
* `CribSheet.compile_keeps_pass_protocol` — **what a compilation starts, and what it comes to**.
-/
import CribSheet.Proofs.Files.Storing
import CribSheet.Typeset.Compile

set_option relaxedAutoImplicit false
set_option autoImplicit false

namespace CribSheet

/-! ### Starts of engines -/

/-- One start of an engine. -/
structure Start where
  /-- The name of the engine. -/
  engine : Text
  /-- The number of the pass. -/
  pass : Nat
  /-- The arguments. -/
  arguments : List Text
  /-- The work directory that the engine finds. -/
  files : FileTree

/-- What some work comes to, and the engines that were started for it, in order. -/
structure Noted (α : Type) where
  /-- What the work comes to. -/
  value : α
  /-- The starts. -/
  starts : List Start

namespace Noted

instance : Monad Noted where
  pure a := ⟨a, []⟩
  bind x f := ⟨(f x.value).value, x.starts ++ (f x.value).starts⟩

section Sequence

variable {α β : Type}

@[simp] theorem value_pure (a : α) : (pure a : Noted α).value = a := rfl

@[simp] theorem starts_pure (a : α) : (pure a : Noted α).starts = [] := rfl

@[simp] theorem value_bind (x : Noted α) (f : α → Noted β) : (x >>= f).value = (f x.value).value := rfl

@[simp] theorem starts_bind (x : Noted α) (f : α → Noted β) :
    (x >>= f).starts = x.starts ++ (f x.value).starts := rfl

end Sequence

/-- Start an engine, and note it. -/
def start (engine : Engine) (s : Start) : Noted EngineRun := ⟨engine.run s.pass s.arguments s.files, [s]⟩

/-- The passes, with a note of each. -/
def runPasses (name : Text) (engine : Engine) (stem : Text) :
    (left pass : Nat) → FileTree → Noted (List Report × Except CompileError FileTree)
  | 0, _, files => pure ([], .ok files)
  | left + 1, pass, files => do
    let r ← start engine ⟨name, pass, engineFlags ++ [stem ++ ".tex".toList], files⟩
    if r.status = 0 then
      let others ← runPasses name engine stem left (pass + 1) r.files
      pure (.passed name pass r.status :: others.1, others.2)
    else
      pure ([.passed name pass r.status, .compileFailed name pass], .error (.failed name pass (engineLog stem r)))

/-- **A compilation that notes the engines that it starts.** -/
def compile (available : Engines) (options : CompilerOptions) (stem : Text) (doc : Document) :
    Noted (List Report × Except CompileError ByteArray) :=
  match resolveEngine? available options.engines with
  | none => pure ([], .error (.unavailable options.engines))
  | some (name, engine) =>
    match ({} : FileTree).write (stem ++ ".tex".toList) doc.text.encode with
    | .error fault => pure ([], .error (.io fault))
    | .ok files => do
      let passes := max options.passes 1
      let work ← runPasses name engine stem passes 1 files
      pure (.compiling name passes stem :: work.1, work.2.bind (readArtifact name stem))

theorem value_runPasses (name : Text) (engine : Engine) (stem : Text) (left pass : Nat) (files : FileTree) :
    (runPasses name engine stem left pass files).value = CribSheet.runPasses name engine stem left pass files := by
  induction left generalizing pass files with
  | zero => rfl
  | succ left ih =>
      rw [runPasses, CribSheet.runPasses]
      simp only [value_bind, start]
      split
      · simp only [value_bind, value_pure, ih]
      · rfl

/-- **Noting changes nothing.** -/
theorem value_compile (available : Engines) (options : CompilerOptions) (stem : Text) (doc : Document) :
    (compile available options stem doc).value = CribSheet.compile available options stem doc := by
  rw [compile, CribSheet.compile]
  cases resolveEngine? available options.engines with
  | none => rfl
  | some found =>
      cases ({} : FileTree).write (stem ++ ".tex".toList) doc.text.encode with
      | error fault => rfl
      | ok files => simp only [value_bind, value_pure, value_runPasses]

end Noted

/-! ### Pass after pass -/

namespace Engine

/-- The work directory after so many passes. -/
def workAfter (engine : Engine) (stem : Text) (files : FileTree) : (passes : Nat) → FileTree
  | 0 => files
  | n + 1 =>
    (engine.run (n + 1) (engineFlags ++ [stem ++ ".tex".toList]) (engine.workAfter stem files n)).files

/-- What the engine does on the pass behind so many others. -/
def passRun (engine : Engine) (stem : Text) (files : FileTree) (n : Nat) : EngineRun :=
  engine.run (n + 1) (engineFlags ++ [stem ++ ".tex".toList]) (engine.workAfter stem files n)

/-- The start of the engine on the pass behind so many others. -/
def passStart (engine : Engine) (name stem : Text) (files : FileTree) (n : Nat) : Start :=
  ⟨name, n + 1, engineFlags ++ [stem ++ ".tex".toList], engine.workAfter stem files n⟩

/-- **The pass behind so many others is the first one that fails.** -/
def FailsFirst (engine : Engine) (stem : Text) (files : FileTree) (n : Nat) : Prop :=
  (∀ j < n, (engine.passRun stem files j).status = 0) ∧ (engine.passRun stem files n).status ≠ 0

end Engine

namespace Noted

variable (name : Text) {engine : Engine} {stem : Text} {files : FileTree}

/-- A pass that succeeds hands its work directory on. -/
theorem runPasses_of_status_eq_zero {n : Nat} (h : (engine.passRun stem files n).status = 0) (left : Nat) :
    (runPasses name engine stem (left + 1) (n + 1) (engine.workAfter stem files n)).value.2 =
        (runPasses name engine stem left (n + 2) (engine.workAfter stem files (n + 1))).value.2 ∧
      (runPasses name engine stem (left + 1) (n + 1) (engine.workAfter stem files n)).starts =
        engine.passStart name stem files n ::
          (runPasses name engine stem left (n + 2) (engine.workAfter stem files (n + 1))).starts := by
  rw [runPasses]
  simp only [value_bind, starts_bind, start]
  rw [← Engine.passRun, if_pos h]
  exact ⟨rfl, by rw [starts_bind, starts_pure, List.append_nil]; rfl⟩

/-- A pass that fails is the last one. -/
theorem runPasses_of_status_ne_zero {n : Nat} (h : (engine.passRun stem files n).status ≠ 0) (left : Nat) :
    (runPasses name engine stem (left + 1) (n + 1) (engine.workAfter stem files n)).value.2 =
        .error (.failed name (n + 1) (engineLog stem (engine.passRun stem files n))) ∧
      (runPasses name engine stem (left + 1) (n + 1) (engine.workAfter stem files n)).starts =
        [engine.passStart name stem files n] := by
  rw [runPasses]
  simp only [value_bind, starts_bind, start]
  rw [← Engine.passRun, if_neg h]
  exact ⟨rfl, rfl⟩

/-- **Passes that succeed** are followed by the passes that are left. -/
theorem runPasses_of_passed {n : Nat} (h : ∀ j < n, (engine.passRun stem files j).status = 0) (left : Nat) :
    (runPasses name engine stem (n + left) 1 files).value.2 =
        (runPasses name engine stem left (n + 1) (engine.workAfter stem files n)).value.2 ∧
      (runPasses name engine stem (n + left) 1 files).starts =
        (List.range n).map (engine.passStart name stem files) ++
          (runPasses name engine stem left (n + 1) (engine.workAfter stem files n)).starts := by
  induction n generalizing left with
  | zero =>
      rw [Nat.zero_add]
      exact ⟨rfl, rfl⟩
  | succ n ih =>
      obtain ⟨hvalue, hstarts⟩ := ih (fun j hj => h j (Nat.lt_succ_of_lt hj)) (left + 1)
      obtain ⟨hvalue', hstarts'⟩ := runPasses_of_status_eq_zero name (h n (Nat.lt_succ_self n)) left
      rw [Nat.succ_add_eq_add_succ]
      refine ⟨hvalue.trans hvalue', hstarts.trans ?_⟩
      rw [hstarts', List.range_succ, List.map_append, List.append_assoc]
      rfl

/-- **The first pass that fails** ends the passes. -/
theorem runPasses_of_failsFirst {n q : Nat} (hn : n < q) (h : engine.FailsFirst stem files n) :
    (runPasses name engine stem q 1 files).value.2 =
        .error (.failed name (n + 1) (engineLog stem (engine.passRun stem files n))) ∧
      (runPasses name engine stem q 1 files).starts =
        (List.range (n + 1)).map (engine.passStart name stem files) := by
  obtain ⟨left, rfl⟩ : ∃ left, q = n + (left + 1) := ⟨q - n - 1, by omega⟩
  obtain ⟨hvalue, hstarts⟩ := runPasses_of_passed name h.1 (left + 1)
  obtain ⟨hvalue', hstarts'⟩ := runPasses_of_status_ne_zero name h.2 left
  refine ⟨hvalue.trans hvalue', hstarts.trans ?_⟩
  rw [hstarts', List.range_succ, List.map_append]
  rfl

/-- **Without a failure** all passes are made. -/
theorem runPasses_of_success {q : Nat} (h : ∀ j < q, (engine.passRun stem files j).status = 0) :
    (runPasses name engine stem q 1 files).value.2 = .ok (engine.workAfter stem files q) ∧
      (runPasses name engine stem q 1 files).starts = (List.range q).map (engine.passStart name stem files) := by
  obtain ⟨hvalue, hstarts⟩ := runPasses_of_passed name h 0
  exact ⟨hvalue, hstarts.trans (List.append_nil _)⟩

end Noted

/-! ### What is read in the end -/

/-- A text stands at the path. -/
def FileTree.HoldsText (tree : FileTree) (path t : Text) : Prop :=
  ∃ content, tree.read path = .ok content ∧ Text.decode? content = some t

/-- **The log of a run**: the text that it leaves beside the source, or else what it wrote to its output, and then
what it wrote to its error output. -/
def EngineRun.IsLog (r : EngineRun) (stem log : Text) : Prop :=
  r.files.HoldsText (stem ++ ".log".toList) log ∨
    (∀ t, ¬ r.files.HoldsText (stem ++ ".log".toList) t) ∧ log = r.stdout ++ r.stderr

/-- A text that is left is the log. -/
theorem EngineRun.IsLog.eq_of_holdsText {r : EngineRun} {stem log t : Text} (h : r.IsLog stem log)
    (ht : r.files.HoldsText (stem ++ ".log".toList) t) : log = t := by
  obtain ⟨content, hcontent, hlog⟩ | ⟨hnone, -⟩ := h
  · obtain ⟨content', hcontent', hdecode⟩ := ht
    obtain rfl := Except.ok.inj (hcontent.symm.trans hcontent')
    exact Option.some.inj (hlog.symm.trans hdecode)
  · exact absurd ht (hnone t)

theorem isLog_engineLog (stem : Text) (r : EngineRun) : r.IsLog stem (engineLog stem r) := by
  rw [engineLog]
  cases hread : r.files.read (stem ++ ".log".toList) with
  | error fault =>
      refine .inr ⟨?_, rfl⟩
      rintro t ⟨content, hcontent, -⟩
      exact nomatch hread.symm.trans hcontent
  | ok content =>
      cases hdecode : Text.decode? content with
      | some t =>
          refine .inl ⟨content, hread, ?_⟩
          simp only [hdecode, Option.getD_some]
      | none =>
          refine .inr ⟨?_, by simp only [hdecode, Option.getD_none]; rfl⟩
          rintro t ⟨content', hcontent, ht⟩
          obtain rfl := Except.ok.inj (hread.symm.trans hcontent)
          exact nomatch hdecode.symm.trans ht

/-- **The source is written**, and the first pass finds nothing else, if a file can have the name. -/
theorem write_source {stem : Text} (hslash : '/' ∉ stem) (hnul : '\x00' ∉ stem)
    (hsize : (stem ++ ".tex".toList).size ≤ FileTree.longestName) (content : ByteArray) :
    ({} : FileTree).write (stem ++ ".tex".toList) content = .ok ⟨[([stem ++ ".tex".toList], .file content)]⟩ := by
  have hmem : ∀ c, c ∉ stem → c ∉ ".tex".toList → c ∉ stem ++ ".tex".toList := fun c h h' =>
    mt List.mem_append.1 (not_or.2 ⟨h, h'⟩)
  rw [FileTree.write_empty (hmem _ hslash (by decide)) (by simp) content, if_neg (hmem _ hnul (by decide)),
    if_neg (Nat.not_lt.2 hsize)]

theorem readArtifact_of_ne_notFound {name stem : Text} {files : FileTree} {fault : FileFault} (hne : fault ≠ .notFound)
    (hread : files.read (stem ++ ".pdf".toList) = .error fault) :
    readArtifact name stem files = .error (.io fault) := by
  rw [readArtifact, hread]
  cases fault with
  | notFound => exact absurd rfl hne
  | _ => rfl

/-! ### The engine that is started -/

/-- **The first one of some engines that can be started.** -/
structure IsFirst (available : Engines) (names : List Text) (name : Text) (engine : Engine) : Prop where
  /-- It can be started. -/
  available_eq : available name = some engine
  /-- None of those before it can be started. -/
  unavailable_before : ∃ others rest, names = others ++ name :: rest ∧ ∀ other ∈ others, available other = none

theorem IsFirst.resolveEngine? {available : Engines} {names : List Text} {name : Text} {engine : Engine}
    (h : IsFirst available names name engine) : CribSheet.resolveEngine? available names = some (name, engine) := by
  obtain ⟨others, rest, rfl, hothers⟩ := h.unavailable_before
  have hnone : (others.findSome? fun other => (available other).map fun engine => (other, engine)) = none := by
    rw [List.findSome?_eq_none_iff]
    intro other hother
    rw [hothers other hother]
    rfl
  rw [CribSheet.resolveEngine?, List.findSome?_append, hnone, Option.none_or, List.findSome?_cons, h.available_eq]
  rfl

theorem resolveEngine?_eq_none {available : Engines} {names : List Text}
    (h : ∀ name ∈ names, available name = none) : resolveEngine? available names = none := by
  rw [resolveEngine?, List.findSome?_eq_none_iff]
  intro name hname
  rw [h name hname]
  rfl

theorem exists_isFirst {available : Engines} {names : List Text} (h : ¬ ∀ name ∈ names, available name = none) :
    ∃ name engine, IsFirst available names name engine := by
  induction names with
  | nil => simp at h
  | cons name names ih =>
      cases hname : available name with
      | some engine => exact ⟨name, engine, hname, [], names, rfl, by simp⟩
      | none =>
          obtain ⟨name', engine, hengine, others, rest, rfl, hothers⟩ := ih fun hall => h (by simpa [hname] using hall)
          exact ⟨name', engine, hengine, name :: others, rest, rfl, by simpa [hname] using hothers⟩

/-! ### The whole work -/

section Compile

variable {available : Engines} {options : CompilerOptions} {stem : Text} {doc : Document} {name : Text}
  {engine : Engine} {files : FileTree}

/-- What is started are the passes, and what they come to is read in the end. -/
theorem compile_of_isFirst (h : IsFirst available options.engines name engine)
    (hfiles : ({} : FileTree).write (stem ++ ".tex".toList) doc.text.encode = .ok files) :
    (compile available options stem doc).2 =
        (Noted.runPasses name engine stem (max options.passes 1) 1 files).value.2.bind (readArtifact name stem) ∧
      (Noted.compile available options stem doc).starts =
        (Noted.runPasses name engine stem (max options.passes 1) 1 files).starts := by
  rw [← Noted.value_compile, Noted.compile, h.resolveEngine?]
  simp only [hfiles]
  exact ⟨rfl, List.append_nil _⟩

/-- Without a source nothing is started. -/
theorem compile_of_fault (h : IsFirst available options.engines name engine) {fault : FileFault}
    (hfault : ({} : FileTree).write (stem ++ ".tex".toList) doc.text.encode = .error fault) :
    (compile available options stem doc).2 = .error (.io fault) ∧
      (Noted.compile available options stem doc).starts = [] := by
  rw [← Noted.value_compile, Noted.compile, h.resolveEngine?]
  simp only [hfault]
  exact ⟨rfl, rfl⟩

theorem compile_of_unavailable (h : ∀ name ∈ options.engines, available name = none) :
    (compile available options stem doc).2 = .error (.unavailable options.engines) ∧
      (Noted.compile available options stem doc).starts = [] := by
  rw [← Noted.value_compile, Noted.compile, resolveEngine?_eq_none h]
  exact ⟨rfl, rfl⟩

end Compile

/-- **What a compilation starts, and what it comes to**, for any engines and any number of passes.

* Without an engine nothing is started, and the error names all that were looked for.
* Otherwise the first engine of the list that can be started is the only one that is.  Its source can be written when
  a file can have its name; when it cannot, nothing is started.
* When a pass fails, those up to the first one that does are made, and the error holds the log behind that pass.
* When none fails, all are made, and the artifact that the last one leaves is the result. -/
theorem compile_keeps_pass_protocol (available : Engines) (options : CompilerOptions) (stem : Text) (doc : Document) :
    (Noted.compile available options stem doc).value = compile available options stem doc ∧
    ((∀ name ∈ options.engines, available name = none) →
      (compile available options stem doc).2 = .error (.unavailable options.engines) ∧
      (Noted.compile available options stem doc).starts = []) ∧
    ((¬ ∀ name ∈ options.engines, available name = none) →
      ∃ name engine, IsFirst available options.engines name engine ∧
        ('/' ∉ stem → '\x00' ∉ stem → (stem ++ ".tex".toList).size ≤ FileTree.longestName →
          ({} : FileTree).write (stem ++ ".tex".toList) doc.text.encode =
            .ok ⟨[([stem ++ ".tex".toList], .file doc.text.encode)]⟩) ∧
        (∀ fault, ({} : FileTree).write (stem ++ ".tex".toList) doc.text.encode = .error fault →
          (compile available options stem doc).2 = .error (.io fault) ∧
          (Noted.compile available options stem doc).starts = []) ∧
        ∀ files, ({} : FileTree).write (stem ++ ".tex".toList) doc.text.encode = .ok files →
          (∀ n < max options.passes 1, engine.FailsFirst stem files n →
            (∃ log, (engine.passRun stem files n).IsLog stem log ∧
              (compile available options stem doc).2 = .error (.failed name (n + 1) log)) ∧
            (Noted.compile available options stem doc).starts =
              (List.range (n + 1)).map (engine.passStart name stem files)) ∧
          ((∀ n < max options.passes 1, (engine.passRun stem files n).status = 0) →
            (∀ content,
              (engine.workAfter stem files (max options.passes 1)).read (stem ++ ".pdf".toList) = .ok content →
                (compile available options stem doc).2 = .ok content) ∧
            ((engine.workAfter stem files (max options.passes 1)).read (stem ++ ".pdf".toList) = .error .notFound →
              (compile available options stem doc).2 = .error (.missingOutput name)) ∧
            (∀ fault ≠ .notFound,
              (engine.workAfter stem files (max options.passes 1)).read (stem ++ ".pdf".toList) = .error fault →
                (compile available options stem doc).2 = .error (.io fault)) ∧
            (Noted.compile available options stem doc).starts =
              (List.range (max options.passes 1)).map (engine.passStart name stem files))) := by
  refine ⟨Noted.value_compile available options stem doc, compile_of_unavailable, fun h => ?_⟩
  obtain ⟨name, engine, hfirst⟩ := exists_isFirst h
  refine ⟨name, engine, hfirst, fun hslash hnul hsize => write_source hslash hnul hsize _,
    fun fault => compile_of_fault hfirst, fun files hfiles => ?_⟩
  obtain ⟨hresult, hstarts⟩ := compile_of_isFirst hfirst hfiles
  refine ⟨fun n hn hfails => ?_, fun hall => ?_⟩
  · obtain ⟨hvalue, hpasses⟩ := Noted.runPasses_of_failsFirst name hn hfails
    rw [hvalue] at hresult
    exact ⟨⟨_, isLog_engineLog stem _, hresult⟩, hstarts.trans hpasses⟩
  · obtain ⟨hvalue, hpasses⟩ := Noted.runPasses_of_success name hall
    have hresult : _ = readArtifact name stem _ := hresult.trans (by rw [hvalue]; rfl)
    refine ⟨fun content hread => ?_, fun hread => ?_, fun fault hne hread => ?_, hstarts.trans hpasses⟩
    · rw [hresult, readArtifact, hread]
    · rw [hresult, readArtifact, hread]
    · rw [hresult, readArtifact_of_ne_notFound hne hread]

/-- Of three engines the second one can be started; it fails on the second of three passes and leaves a log. -/
theorem compile_keeps_pass_protocol_of_second_pass :
    ∃ (available : Engines) (options : CompilerOptions) (doc : Document),
      options = { engines := [['a'], ['b'], ['c']], passes := 3 } ∧
      (compile available options ['s'] doc).2 = .error (.failed ['b'] 2 ['!']) ∧
      (Noted.compile available options ['s'] doc).starts.map (fun s => (s.engine, s.pass)) =
        [(['b'], 1), (['b'], 2)] := by
  let script : EngineScript := { stdout := ['o'], log := some ['!'], failingPass := some 2 }
  let available : Engines := fun name => if name = ['b'] then some script.engine else none
  let options : CompilerOptions := { engines := [['a'], ['b'], ['c']], passes := 3 }
  obtain ⟨-, -, hsome⟩ := compile_keeps_pass_protocol available options ['s'] ⟨['x']⟩
  obtain ⟨name, engine, hfirst, -, -, hrun⟩ := hsome fun hnone => nomatch hnone ['b'] (by decide)
  have hresolve : resolveEngine? available options.engines = some (['b'], script.engine) := rfl
  obtain ⟨rfl, rfl⟩ := Prod.mk.inj (Option.some.inj (hresolve.symm.trans hfirst.resolveEngine?))
  obtain ⟨hpasses, -⟩ := hrun _ rfl
  obtain ⟨⟨log, hlog, hresult⟩, hstarts⟩ := hpasses 1 (by decide) ⟨by decide, by decide⟩
  refine ⟨available, options, ⟨['x']⟩, rfl, ?_, ?_⟩
  · rw [hresult, hlog.eq_of_holdsText ⟨Text.encode ['!'], rfl, Text.decode?_encode _⟩]
  · rw [hstarts]
    rfl

end CribSheet
