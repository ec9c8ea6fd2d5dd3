/-
Renaming leaves blanks in extensions only.

An entry that is to have another name gets it at its visit, or finds it taken, which is reported.  A visit changes
the name of no other entry, and nothing is visited twice; so what a visit did is still there when the run ends.  The
new name is the title case of the old one, in which only the extension can hold blanks.  No visited entry starts
with a dot, so the names whose last dot is one of several leading dots do not come up.

Main definitions:

* `CribSheet.FileTree.Treated` — an entry that has its new name, or was skipped;
* `CribSheet.FileTree.Tidied` — an entry that has its blanks in the extension it always had, or was skipped.

Main results:

* `CribSheet.FileTree.Progress.treated` — **a run that does not fail treats every entry** that it visits;
* `CribSheet.FileTree.blanks_stay_in_extensions` — **a name in title case has its blanks in the extension**, and
  so has every visited entry that was not skipped.
-/
import CribSheet.Proofs.Artifact.TitleCase
import CribSheet.Proofs.Files.Renaming

set_option relaxedAutoImplicit false
set_option autoImplicit false

namespace CribSheet

namespace FileTree

variable {tree now : FileTree} {base : Location} {names : Location → Text} {left : List Visit}

/-- **The entry has the name that it is to have**, or it is reported that this name was taken. -/
def Treated (base : Location) (names : Location → Text) (renamings : List Renaming) (v : Visit) : Prop :=
  ∀ name, v.1.getLast?.bind newName? = some name →
    names (base ++ v.1) = name ∨ Renaming.skipped v.1 name ∈ renamings

namespace Progress

/-- **A run that does not fail treats every entry** that it visits, and gives no other one another name. -/
theorem treated (hwf : tree.WellFormed) (h : Progress tree base now names left) :
    ∃ names', Progress tree base (now.renameAll base left).tree names' [] ∧
      (∀ loc, (∀ v ∈ left, loc ≠ base ++ v.1) → names' loc = names loc) ∧
      ((now.renameAll base left).fault = none →
        ∀ v ∈ left, Treated base names' (now.renameAll base left).renamings v) := by
  induction left generalizing now names with
  | nil => exact ⟨names, h, fun _ _ => rfl, fun _ v hv => absurd hv List.not_mem_nil⟩
  | cons v left ih =>
      cases h.outcome hwf with
      | kept hnew heq =>
          rw [heq]
          obtain ⟨names', hprogress, hother, htreated⟩ := ih h.skip
          refine ⟨names', hprogress, fun loc hloc => hother loc (List.forall_mem_cons.1 hloc).2, fun hfault => ?_⟩
          refine List.forall_mem_cons.2 ⟨fun name hname => ?_, htreated hfault⟩
          cases hnew.symm.trans hname
      | taken hnew heq =>
          rw [heq]
          obtain ⟨names', hprogress, hother, htreated⟩ := ih h.skip
          refine ⟨names', hprogress, fun loc hloc => hother loc (List.forall_mem_cons.1 hloc).2, fun hfault => ?_⟩
          refine List.forall_mem_cons.2 ⟨fun name hname => ?_, fun v' hv' name hname => ?_⟩
          · obtain rfl := Option.some.inj (hnew.symm.trans hname)
            exact .inr List.mem_cons_self
          · exact (htreated hfault v' hv' name hname).imp_right (List.mem_cons_of_mem _)
      | tooLong hnew hlong heq =>
          rw [heq]
          exact ⟨names, h.stop, fun _ _ => rfl, fun hfault => by cases hfault⟩
      | @done new hnew hmove hnext heq =>
          rw [heq]
          obtain ⟨names', hprogress, hother, htreated⟩ := ih hnext
          have hdistinct : ∀ v' ∈ left, base ++ v.1 ≠ base ++ v'.1 := fun v' hv' heq =>
            (List.pairwise_cons.1 h.distinct).1 v' hv' (List.append_cancel_left heq)
          refine ⟨names', hprogress, fun loc hloc => ?_, fun hfault => ?_⟩
          · obtain ⟨hv, hleft⟩ := List.forall_mem_cons.1 hloc
            rw [hother loc hleft, Function.update_of_ne hv]
          · refine List.forall_mem_cons.2 ⟨fun name hname => ?_, fun v' hv' name hname => ?_⟩
            · obtain rfl := Option.some.inj (hnew.symm.trans hname)
              rw [hother _ hdistinct, Function.update_self]
              exact .inl rfl
            · exact (htreated hfault v' hv' name hname).imp_right (List.mem_cons_of_mem _)

/-- An entry that is to have no other name keeps it. -/
theorem name_eq_of_newName?_eq_none (h : Progress tree base now names left) {loc : Location} {last : Text}
    (hnew : newName? last = none) : names (loc ++ [last]) = last := by
  obtain hsame | ⟨⟨-, -, hblank, hother⟩, -⟩ := h.titled loc last
  · exact hsame
  · rw [newName?_eq_some_iff.2 ⟨hblank, hother, rfl⟩] at hnew
    cases hnew

end Progress

/-- A name that is not to be changed is in title case, or holds no blank. -/
theorem titleCaseFileName_of_newName?_eq_none {name : Text} (hnew : newName? name = none)
    (hblank : name.any isBlank = true) : titleCaseFileName name = name := by
  by_contra hother
  rw [newName?_eq_some_iff.2 ⟨hblank, hother, rfl⟩] at hnew
  cases hnew

/-- **The blanks of the entry are in its extension**, which is that of its old name, or it was skipped. -/
def Tidied (base : Location) (names : Location → Text) (renamings : List Renaming) (v : Visit) : Prop :=
  (names (base ++ v.1)).any isBlank = true →
    (∃ old ∈ v.1.getLast?, ∃ stem extension titled, HasExtension stem extension old ∧
      names (base ++ v.1) = titled ++ '.' :: extension ∧ titled.any isBlank = false) ∨
    ∃ name, Renaming.skipped v.1 name ∈ renamings

/-- An entry that was treated is tidied, since its new name is a title case. -/
theorem Progress.tidied (h : Progress tree base now names left) {v : Visit} (hv : v ∈ tree.visibleBelow base)
    {renamings : List Renaming} (htreated : Treated base names renamings v) : Tidied base names renamings v := by
  intro hblank
  obtain ⟨-, hne, hvisible⟩ := mem_visibleBelow hv
  obtain ⟨dir, last, hlast⟩ : ∃ dir last, v.1 = dir ++ [last] := ⟨_, _, (List.dropLast_append_getLast hne).symm⟩
  have hgetLast : v.1.getLast? = some last := by rw [hlast, List.getLast?_concat]
  have hled : ¬ DotLed last := by
    have hlastVisible := List.all_eq_true.1 hvisible last (by simp [hlast])
    rw [isVisible, Bool.and_eq_true, bne_iff_ne] at hlastVisible
    exact not_dotLed hlastVisible.1
  -- an entry that keeps its name and its blanks has a title case for its name already
  have hnamed : names (base ++ v.1) = titleCaseFileName last ∨ ∃ name, Renaming.skipped v.1 name ∈ renamings := by
    cases hnew : newName? last with
    | none =>
        have hkept : names (base ++ v.1) = last := by
          rw [hlast, ← List.append_assoc, h.name_eq_of_newName?_eq_none hnew]
        rw [hkept] at hblank
        exact .inl (hkept.trans (titleCaseFileName_of_newName?_eq_none hnew hblank).symm)
    | some name =>
        obtain ⟨-, -, rfl⟩ := newName?_eq_some_iff.1 hnew
        exact (htreated _ (by rw [hgetLast, Option.bind_some, hnew])).imp_right fun hskipped => ⟨_, hskipped⟩
  obtain hnamed | hskipped := hnamed
  · rw [hnamed] at hblank
    obtain ⟨stem, extension, hextension, -⟩ := (any_isBlank_titleCaseFileName hled).1 hblank
    obtain ⟨titled, heq, htitled⟩ := hextension.titleCaseFileName
    exact .inl ⟨last, hgetLast, stem, extension, titled, hextension, hnamed.trans heq, htitled⟩
  · exact .inr hskipped

/-- **Blanks stay in extensions only**: a name in title case keeps its extension behind a stem without blanks, so it
holds a blank exactly when its extension does, unless its last dot is one of several leading dots; and after a
renaming, in whatever order the entries are listed, every visited entry with a blank in its name has its blanks in the
extension of its old name or was skipped, unless a new name was too long. -/
theorem blanks_stay_in_extensions :
    (∀ stem extension name : Text, HasExtension stem extension name →
      ∃ titled, titleCaseFileName name = titled ++ '.' :: extension ∧ titled.any isBlank = false) ∧
    (∀ name : Text, ¬ DotLed name → ((titleCaseFileName name).any isBlank = true ↔ HasBlankExtension name)) ∧
    ∀ (tree : FileTree) (base : Location) (listed : List Visit), tree.WellFormed →
      listed.Perm (tree.visibleBelow base) →
        let result := tree.renameAll base (deepestFirst listed)
        ∃ names, tree.Relabelled result.tree names ∧
          ((∀ v ∈ tree.visibleBelow base, Tidied base names result.renamings v) ∨
            result.fault = some .nameTooLong ∧
              ∃ v ∈ tree.visibleBelow base, ∃ name ∈ v.1.getLast?.bind newName?, longestName < Text.size name) := by
  refine ⟨fun _ _ _ h => h.titleCaseFileName, fun _ => any_isBlank_titleCaseFileName, ?_⟩
  intro tree base listed hwf hlisted result
  have hvisited : ∀ v, v ∈ deepestFirst listed ↔ v ∈ tree.visibleBelow base := fun _ =>
    ((deepestFirst_perm listed).trans hlisted).mem_iff
  obtain ⟨-, -, -, hends⟩ := (Progress.start hwf hlisted).renameAll hwf
  obtain ⟨names, hprogress, -, htreated⟩ := (Progress.start hwf hlisted).treated hwf
  refine ⟨names, hprogress.relabelled, ?_⟩
  obtain ⟨hfault, -⟩ | ⟨hfault, v, hv, hlong⟩ := hends
  · exact .inl fun v hv => hprogress.tidied hv (htreated hfault v ((hvisited v).2 hv))
  · exact .inr ⟨hfault, v, (hvisited v).1 hv, hlong⟩

/-- A directory with a blank in its extension, two files that come to the same name, and a file that comes to a name
with a dot in front. -/
def numbered : FileTree where
  entries :=
    [(["tema 2. dos".toList], .directory),
      (["tema 2. dos".toList, "x y".toList], .file ⟨#[1]⟩),
      (["tema 2. dos".toList, "x  y".toList], .file ⟨#[2]⟩),
      (["A.b c".toList], .file ⟨#[3]⟩),
      ([" .a b".toList], .file ⟨#[4]⟩)]

theorem wellFormed_numbered : numbered.WellFormed where
  nodup := by decide
  named := by decide
  ne_nil := by decide
  parent := by
    simp only [locations, numbered, List.map_cons, List.map_nil, List.forall_mem_cons]
    exact ⟨rfl, rfl, rfl, rfl, rfl, fun _ h => absurd h List.not_mem_nil⟩

theorem blanks_stay_in_extensions_numbered :
    let result := numbered.renameAll [] (deepestFirst (numbered.visibleBelow []))
    HasExtension " ".toList "a b".toList " .a b".toList ∧
      (∃ titled, titleCaseFileName " .a b".toList = titled ++ '.' :: "a b".toList ∧ titled.any isBlank = false) ∧
      ¬ DotLed ".a b".toList ∧
      ((titleCaseFileName ".a b".toList).any isBlank = true ↔ HasBlankExtension ".a b".toList) ∧
      numbered.WellFormed ∧ (numbered.visibleBelow []).Perm (numbered.visibleBelow []) ∧ result.fault = none ∧
      result.renamings =
        [.done ["tema 2. dos".toList, "x y".toList] "X_Y".toList false,
          .skipped ["tema 2. dos".toList, "x  y".toList] "X_Y".toList,
          .done ["tema 2. dos".toList] "Tema_2. dos".toList true, .done [" .a b".toList] ".a b".toList false] ∧
      ∃ names, numbered.Relabelled result.tree names ∧
        ((∀ v ∈ numbered.visibleBelow [], Tidied [] names result.renamings v) ∨
          result.fault = some .nameTooLong ∧
            ∃ v ∈ numbered.visibleBelow [], ∃ name ∈ v.1.getLast?.bind newName?, longestName < Text.size name) := by
  have hextension : HasExtension " ".toList "a b".toList " .a b".toList :=
    ⟨rfl, ⟨' ', List.mem_singleton_self _, by decide⟩, by decide⟩
  have hled : ¬ DotLed ".a b".toList := by
    rintro ⟨n, extension, heq, -⟩
    simp [List.replicate_succ] at heq
  exact ⟨hextension, blanks_stay_in_extensions.1 _ _ _ hextension, hled, blanks_stay_in_extensions.2.1 _ hled,
    wellFormed_numbered, .refl _, by decide +kernel, by decide +kernel,
    blanks_stay_in_extensions.2.2 numbered [] _ wellFormed_numbered (.refl _)⟩

/-- **Title case does not remove every blank**: one in an extension is kept, whether the name changes otherwise or
not, and no such entry is skipped; a hidden entry keeps its name. -/
theorem blank_kept_in_extension :
    titleCaseFileName "a.b c".toList = "A.b c".toList ∧ "A.b c".toList.any isBlank = true ∧
      let notes : FileTree :=
        { entries := [(["a.b c".toList], .file ⟨#[1]⟩), (["Z.y x".toList], .directory),
            ([".x y".toList], .file ⟨#[2]⟩)] }
      (notes.renameBelow []).tree.locations = [["A.b c".toList], ["Z.y x".toList], [".x y".toList]] ∧
        (notes.renameBelow []).renamings = [.done ["a.b c".toList] "A.b c".toList false] := by
  decide +kernel

end FileTree

end CribSheet
