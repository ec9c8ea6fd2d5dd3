/-
Renaming loses nothing.

The entries to be renamed are found once, and then the tree changes under their paths.  That does no harm,
since the deepest ones come first: when the turn of an entry comes, nothing on the way to it has another name
yet, so it still stands where it was found.  An entry only goes where nothing stands.  So at every moment
the tree is the old one under other names, and an entry is missing nowhere.

Main definitions:

* `CribSheet.FileTree.Titled` — an entry that is given the title case of its name;
* `CribSheet.FileTree.SafeMove` — an entry moves to where nothing stands;
* `CribSheet.FileTree.Progress` — how far the renaming has come;
* `CribSheet.FileTree.Progress.Outcome` — what one visit does;
* `CribSheet.RenamedTree.Faithful` — nothing got lost, and only the names that should have changed did.

Main results:

* `CribSheet.FileTree.Progress.rename` — **what one renaming preserves**;
* `CribSheet.FileTree.Progress.outcome` — an entry keeps its name, finds it taken or too long, or has a new one;
* `CribSheet.FileTree.Progress.renameAll` — what a run preserves;
* `CribSheet.FileTree.renaming_loses_nothing` — **renaming loses nothing**, in whatever order the entries are
  listed.
-/
import CribSheet.Proofs.Files.Relabelling
import Mathlib.Logic.Relation

set_option relaxedAutoImplicit false
set_option autoImplicit false

namespace CribSheet

open Location CribSheet.Text

namespace FileTree

variable {tree : FileTree} {base : Location}

/-! ### Visits -/

/-- The visit comes no later than another one: it is not less deep. -/
def NotLater (v v' : Visit) : Prop := v'.1.length ≤ v.1.length

/-- An entry that is visited stands in the tree, and visible names lead to it. -/
theorem mem_visibleBelow {v : Visit} (h : v ∈ tree.visibleBelow base) :
    base ++ v.1 ∈ tree.locations ∧ v.1 ≠ [] ∧ v.1.all isVisible = true := by
  obtain ⟨⟨loc, e⟩, hmem, hv⟩ := List.mem_filterMap.1 h
  simp only [Option.ite_none_right_eq_some, Bool.and_eq_true, decide_eq_true_eq, Option.some.injEq] at hv
  obtain ⟨⟨⟨hlead, hne⟩, hvisible⟩, rfl⟩ := hv
  obtain ⟨rest, rfl⟩ := List.isPrefixOf_iff_prefix.1 hlead
  rw [List.drop_left] at hne hvisible ⊢
  exact ⟨List.mem_map_of_mem hmem, hne, hvisible⟩

/-- No entry is visited twice. -/
theorem pairwise_visibleBelow (hwf : tree.WellFormed) (base : Location) :
    (tree.visibleBelow base).Pairwise fun v v' => v.1 ≠ v'.1 := by
  rw [visibleBelow, List.pairwise_filterMap]
  refine (List.pairwise_map.1 hwf.nodup).imp ?_
  rintro ⟨loc, e⟩ ⟨loc', e'⟩ hne v hv v' hv' heq
  simp only [Option.ite_none_right_eq_some, Bool.and_eq_true, decide_eq_true_eq, Option.some.injEq] at hv hv'
  obtain ⟨⟨⟨hlead, -⟩, -⟩, rfl⟩ := hv
  obtain ⟨⟨⟨hlead', -⟩, -⟩, rfl⟩ := hv'
  obtain ⟨rest, rfl⟩ := List.isPrefixOf_iff_prefix.1 hlead
  obtain ⟨rest', rfl⟩ := List.isPrefixOf_iff_prefix.1 hlead'
  rw [List.drop_left, List.drop_left] at heq
  exact hne (congrArg (base ++ ·) heq)

/-- The directory of an entry. -/
theorem parent_eq_dropLast {loc : Location} (hne : loc ≠ []) (hnamed : ∀ name ∈ loc, IsEntryName name) :
    loc.parent = loc.dropLast := by
  have habove := isAbove_eq_false hne hnamed
  have hroot : loc ≠ Location.root := by
    rintro rfl
    simp [isAbove] at habove
  rw [parent, if_neg hroot, if_neg (by simp [habove])]

theorem newName?_eq_some_iff {name titled : Text} :
    newName? name = some titled ↔
      name.any isBlank = true ∧ titleCaseFileName name ≠ name ∧ titled = titleCaseFileName name := by
  simp only [newName?, Option.ite_none_right_eq_some, Bool.and_eq_true, decide_eq_true_eq, Option.some.injEq, and_assoc]
  exact and_congr_right fun _ => and_congr_right fun _ => eq_comm

/-- The entry has a blank in its name, which is not in title case. -/
def IsUntitled (v : Visit) : Bool :=
  v.1.getLast?.any fun name => name.any isBlank && titleCaseFileName name ≠ name

theorem isSome_newName? (v : Visit) : (v.1.getLast?.bind newName?).isSome = IsUntitled v := by
  rw [IsUntitled]
  cases v.1.getLast? with
  | none => rfl
  | some name =>
      rw [Option.bind_some, Option.any_some, newName?]
      split
      · next h => exact h.symm
      · next h => exact (Bool.eq_false_iff.2 h).symm

/-! ### Progress -/

/-- **The entry is given the title case of its name**: visible names lead to it, and its own one holds a
blank. -/
def Titled (tree : FileTree) (base loc : Location) (name : Text) : Prop :=
  (∃ below, loc ++ [name] = base ++ below ∧ below ≠ [] ∧ below.all isVisible = true) ∧
    loc ++ [name] ∈ tree.locations ∧ name.any isBlank = true ∧ titleCaseFileName name ≠ name

/-- An entry moves to where nothing stands. -/
def SafeMove (before after : FileTree) : Prop :=
  ∃ source target, (before.find? source).isSome = true ∧ before.find? target = none ∧
    after = before.move source target

/-- How a run over some entries ends: each of those that are to have another name was renamed or skipped, or one of
the names was too long. -/
def Ends (result : RenamedTree) (visits : List Visit) : Prop :=
  result.fault = none ∧
      result.renamings.length = visits.countP (fun v => (v.1.getLast?.bind newName?).isSome) ∨
    result.fault = some .nameTooLong ∧
      ∃ v ∈ visits, ∃ name ∈ v.1.getLast?.bind newName?, longestName < Text.size name

namespace Ends

variable {result : RenamedTree} {v : Visit} {visits : List Visit}

theorem skip (h : Ends result visits) (hnew : v.1.getLast?.bind newName? = none) : Ends result (v :: visits) := by
  refine h.imp (fun ⟨hfault, hcount⟩ => ⟨hfault, ?_⟩) fun ⟨hfault, v', hv', hlong⟩ =>
    ⟨hfault, v', List.mem_cons_of_mem v hv', hlong⟩
  rw [List.countP_cons_of_neg (by simp [hnew]), hcount]

theorem after (h : Ends result visits) (r : Renaming) {name : Text} (hnew : v.1.getLast?.bind newName? = some name) :
    Ends (result.after r) (v :: visits) := by
  refine h.imp (fun ⟨hfault, hcount⟩ => ⟨hfault, ?_⟩) fun ⟨hfault, v', hv', hlong⟩ =>
    ⟨hfault, v', List.mem_cons_of_mem v hv', hlong⟩
  rw [List.countP_cons_of_pos (by simp [hnew]), ← hcount]
  rfl

end Ends

/-- **How far the renaming has come**: the tree is the old one under other names, only entries to be titled have
one, and nothing has that stands on the way to what is left. -/
structure Progress (tree : FileTree) (base : Location) (now : FileTree) (names : Location → Text)
    (left : List Visit) : Prop where
  /-- The tree is the old one under other names. -/
  relabelled : tree.Relabelled now names
  /-- The other names are title cases. -/
  titled : ∀ loc name, names (loc ++ [name]) = name ∨
    Titled tree base loc name ∧ names (loc ++ [name]) = titleCaseFileName name
  /-- What is left stands where it stood. -/
  untouched : ∀ v ∈ left, ∀ loc name, loc ++ [name] <+: base ++ v.1 → names (loc ++ [name]) = name
  /-- What is left is to be visited. -/
  visible : ∀ v ∈ left, v ∈ tree.visibleBelow base
  /-- The deepest entries come first. -/
  sorted : left.Pairwise NotLater
  /-- No entry comes twice. -/
  distinct : left.Pairwise fun v v' => v.1 ≠ v'.1

namespace Progress

variable {now : FileTree} {names : Location → Text} {v : Visit} {left : List Visit}

/-- An entry that is left out. -/
theorem skip (h : Progress tree base now names (v :: left)) : Progress tree base now names left where
  relabelled := h.relabelled
  titled := h.titled
  untouched v' hv' := h.untouched v' (List.mem_cons_of_mem v hv')
  visible v' hv' := h.visible v' (List.mem_cons_of_mem v hv')
  sorted := (List.pairwise_cons.1 h.sorted).2
  distinct := (List.pairwise_cons.1 h.distinct).2

theorem mem_locations (h : Progress tree base now names (v :: left)) : base ++ v.1 ∈ tree.locations :=
  (mem_visibleBelow (h.visible v List.mem_cons_self)).1

/-- Nothing on the way to the next entry has another name. -/
theorem relabel_isPrefix (h : Progress tree base now names (v :: left)) {l : Location} (hl : l <+: base ++ v.1) :
    relabel names l = l :=
  relabel_eq_self fun loc name hloc => h.untouched v List.mem_cons_self loc name (hloc.trans hl)

/-- **The next entry and everything on the way to it is there.** -/
theorem find?_isSome (h : Progress tree base now names (v :: left)) (hwf : tree.WellFormed) {l : Location}
    (hl : l <+: base ++ v.1) : (now.find? l).isSome = true := by
  rcases Classical.em (l = []) with rfl | hne
  · rfl
  · refine find?_isSome_of_mem ?_
    rw [h.relabelled.locations_eq]
    exact List.mem_map.2 ⟨l, hwf.mem_of_isPrefix h.mem_locations hl hne, h.relabel_isPrefix hl⟩

/-- The place of a new name beside the next entry, when nothing stands there. -/
theorem beside_eq (h : Progress tree base now names (v :: left)) (hwf : tree.WellFormed) {name : Text}
    (hfree : now.find? ((base ++ v.1).beside name) = none) :
    (base ++ v.1).beside name = (base ++ v.1).dropLast ++ [name] := by
  have hmem := h.mem_locations
  have hparent := parent_eq_dropLast (hwf.ne_nil _ hmem) (hwf.named _ hmem)
  -- The directory of the entry and the one above it are there, so no other spelling of them is free.
  have hthere : (now.find? (base ++ v.1).dropLast).isSome = true := h.find?_isSome hwf (List.dropLast_prefix _)
  have habove : (now.find? (parent (base ++ v.1).dropLast)).isSome = true := by
    rcases Classical.em ((base ++ v.1).dropLast = []) with hnil | hne
    · rw [hnil]
      rfl
    · have hnamed : ∀ n ∈ (base ++ v.1).dropLast, IsEntryName n := fun n hn =>
        hwf.named _ hmem n ((List.dropLast_sublist _).mem hn)
      rw [parent_eq_dropLast hne hnamed]
      exact h.find?_isSome hwf ((List.dropLast_prefix _).trans (List.dropLast_prefix _))
  rw [beside, hparent] at hfree ⊢
  split at hfree
  · simp [hfree] at hthere
  · next hne =>
      rw [if_neg hne]
      rw [child] at hfree ⊢
      split at hfree
      · simp [hfree] at hthere
      · split at hfree
        · simp [hfree] at habove
        · next hhere habove => rw [if_neg hhere, if_neg habove]

/-- **What one renaming preserves.** -/
theorem rename (h : Progress tree base now names (v :: left)) (hwf : tree.WellFormed) {last name : Text}
    (hlast : v.1.getLast? = some last) (hname : newName? last = some name)
    (hfree : now.find? ((base ++ v.1).beside name) = none) :
    Progress tree base (now.move (base ++ v.1) ((base ++ v.1).beside name))
      (Function.update names (base ++ v.1) name) left := by
  obtain ⟨-, hne, hvisible⟩ := mem_visibleBelow (h.visible v List.mem_cons_self)
  have hbeside := h.beside_eq hwf hfree
  rw [hbeside] at hfree ⊢
  have hnew : (base ++ v.1).dropLast ++ [name] ∉ now.locations := fun hmem => by
    have hsome := find?_isSome_of_mem hmem
    simp [hfree] at hsome
  refine { h.skip with
    relabelled := h.relabelled.move hwf h.mem_locations (h.relabel_isPrefix List.prefix_rfl) hnew
    titled := fun loc n => ?_
    untouched := fun v' hv' loc n hloc => ?_ }
  · by_cases hsource : loc ++ [n] = base ++ v.1
    · obtain rfl : n = last := by
        have hn := congrArg List.getLast? hsource
        rw [List.getLast?_concat, List.getLast?_append_of_ne_nil _ hne, hlast] at hn
        exact Option.some.inj hn
      obtain ⟨hblank, hother, rfl⟩ := newName?_eq_some_iff.1 hname
      refine Or.inr ⟨⟨⟨v.1, hsource, hne, hvisible⟩, hsource ▸ h.mem_locations, hblank, hother⟩, ?_⟩
      rw [hsource, Function.update_self]
    · rw [Function.update_of_ne hsource]
      exact h.titled loc n
  · -- An entry below the renamed one would be deeper, and would have come before.
    have hapart : loc ++ [n] ≠ base ++ v.1 := by
      intro hsource
      rw [hsource] at hloc
      have hlead : v.1 <+: v'.1 := (List.prefix_append_right_inj base).1 hloc
      have hdepth : v'.1.length ≤ v.1.length := (List.pairwise_cons.1 h.sorted).1 v' hv'
      exact (List.pairwise_cons.1 h.distinct).1 v' hv' (hlead.eq_of_length_le hdepth)
    rw [Function.update_of_ne hapart]
    exact h.skip.untouched v' hv' loc n hloc

/-- The next entry is there, so only the length of its new name can keep it from moving to a free place. -/
theorem rename_eq (h : Progress tree base now names (v :: left)) (hwf : tree.WellFormed) {name : Text}
    (hfree : now.find? ((base ++ v.1).beside name) = none) :
    now.rename (base ++ v.1) ((base ++ v.1).beside name) =
      if longestName < Text.size name then .error .nameTooLong
      else .ok (now.move (base ++ v.1) ((base ++ v.1).beside name)) := by
  have hthere : (now.find? (base ++ v.1)).isNone = false := by
    rw [Option.isNone_eq_false_iff, h.find?_isSome hwf List.prefix_rfl]
  have hname : ((base ++ v.1).beside name).getLast? = some name := by
    rw [h.beside_eq hwf hfree, List.getLast?_concat]
  rw [FileTree.rename, hthere, if_neg Bool.false_ne_true, hname]
  simp

/-- Nothing is done about what is left. -/
theorem stop (h : Progress tree base now names left) : Progress tree base now names [] where
  relabelled := h.relabelled
  titled := h.titled
  untouched _ hv := absurd hv List.not_mem_nil
  visible _ hv := absurd hv List.not_mem_nil
  sorted := .nil
  distinct := .nil

/-- **What one visit does**, when some entries are left to be visited behind it. -/
inductive Outcome (tree : FileTree) (base : Location) (now : FileTree) (names : Location → Text) (v : Visit)
    (left : List Visit) (result : RenamedTree) : Prop
  /-- The entry is to have no other name. -/
  | kept (hnew : v.1.getLast?.bind newName? = none) (heq : result = now.renameAll base left)
  /-- The name is taken. -/
  | taken {name : Text} (hnew : v.1.getLast?.bind newName? = some name)
    (heq : result = (now.renameAll base left).after (.skipped v.1 name))
  /-- The name is too long, and nothing happens any more. -/
  | tooLong {name : Text} (hnew : v.1.getLast?.bind newName? = some name) (hlong : longestName < Text.size name)
    (heq : result = { tree := now, fault := some .nameTooLong })
  /-- The entry has a new name. -/
  | done {name : Text} (hnew : v.1.getLast?.bind newName? = some name)
    (hmove : SafeMove now (now.move (base ++ v.1) ((base ++ v.1).beside name)))
    (hprogress : Progress tree base (now.move (base ++ v.1) ((base ++ v.1).beside name))
      (Function.update names (base ++ v.1) name) left)
    (heq : result = ((now.move (base ++ v.1) ((base ++ v.1).beside name)).renameAll base left).after
      (.done v.1 name v.2.isDirectory))

theorem outcome (hwf : tree.WellFormed) (h : Progress tree base now names (v :: left)) :
    Outcome tree base now names v left (now.renameAll base (v :: left)) := by
  obtain ⟨below, e⟩ := v
  rw [FileTree.renameAll]
  cases hnew : below.getLast?.bind newName? with
  | none => exact .kept hnew rfl
  | some name =>
      obtain ⟨last, hlast, hname⟩ := Option.bind_eq_some_iff.1 hnew
      simp only
      split
      · exact .taken hnew rfl
      · next hfree =>
          have hfree : now.find? ((base ++ below).beside name) = none := by simpa using hfree
          rw [h.rename_eq hwf hfree]
          by_cases hlong : longestName < Text.size name
          · rw [if_pos hlong]
            exact .tooLong hnew hlong rfl
          · rw [if_neg hlong]
            exact .done hnew ⟨_, _, h.find?_isSome hwf List.prefix_rfl, hfree, rfl⟩ (h.rename hwf hlast hname hfree) rfl

/-- **What a run preserves**, and that it only makes safe moves. -/
theorem renameAll (hwf : tree.WellFormed) (h : Progress tree base now names left) :
    ∃ names', Progress tree base (now.renameAll base left).tree names' [] ∧
      Relation.ReflTransGen SafeMove now (now.renameAll base left).tree ∧
      Ends (now.renameAll base left) left := by
  induction left generalizing now names with
  | nil => exact ⟨names, h, .refl, Or.inl ⟨rfl, rfl⟩⟩
  | cons v left ih =>
      cases h.outcome hwf with
      | kept hnew heq =>
          rw [heq]
          obtain ⟨names', hprogress, hmoves, hends⟩ := ih h.skip
          exact ⟨names', hprogress, hmoves, hends.skip hnew⟩
      | taken hnew heq =>
          rw [heq]
          obtain ⟨names', hprogress, hmoves, hends⟩ := ih h.skip
          exact ⟨names', hprogress, hmoves, hends.after _ hnew⟩
      | @tooLong name hnew hlong heq =>
          rw [heq]
          exact ⟨names, h.stop, .refl, Or.inr ⟨rfl, _, List.mem_cons_self, name, hnew, hlong⟩⟩
      | done hnew hmove hnext heq =>
          rw [heq]
          obtain ⟨names', hprogress, hmoves, hends⟩ := ih hnext
          exact ⟨names', hprogress, hmoves.head hmove, hends.after _ hnew⟩

end Progress

/-! ### The order of the visits -/

/-- Lists of what has one depth make up the whole list, when every depth is taken once. -/
theorem perm_flatMap_depth {depths : List Nat} (hdepths : depths.Nodup) {visits : List Visit}
    (hall : ∀ v ∈ visits, v.1.length ∈ depths) :
    (depths.flatMap fun depth => visits.filter (·.1.length = depth)).Perm visits := by
  induction depths generalizing visits with
  | nil =>
      have hnil : visits = [] := List.eq_nil_iff_forall_not_mem.2 fun v hv => List.not_mem_nil (hall v hv)
      rw [hnil]
      exact .nil
  | cons depth depths ih =>
      obtain ⟨hnew, hdepths⟩ := List.nodup_cons.1 hdepths
      -- What has another depth does not show in the lists that are left.
      have hrest : (depths.flatMap fun d => visits.filter (·.1.length = d)) =
          depths.flatMap fun d => (visits.filter fun v => !decide (v.1.length = depth)).filter (·.1.length = d) := by
        refine List.flatMap_congr fun d hd => ?_
        rw [List.filter_filter]
        refine List.filter_congr fun v _ => ?_
        have hne : d ≠ depth := fun heq => hnew (heq ▸ hd)
        by_cases hv : v.1.length = d
        · simp [hv, hne]
        · simp [hv]
      rw [List.flatMap_cons, hrest]
      refine ((ih hdepths fun v hv => ?_).append_left _).trans (List.filter_append_perm _ visits)
      obtain ⟨hv, hother⟩ := List.mem_filter.1 hv
      rcases List.mem_cons.1 (hall v hv) with heq | hmem
      · simp [heq] at hother
      · exact hmem

theorem le_foldl_max (visits : List Visit) (d : Nat) :
    d ≤ visits.foldl (fun d v => max d v.1.length) d ∧
      ∀ v ∈ visits, v.1.length ≤ visits.foldl (fun d v => max d v.1.length) d := by
  induction visits generalizing d with
  | nil => exact ⟨Nat.le_refl d, fun v hv => absurd hv List.not_mem_nil⟩
  | cons v visits ih =>
      obtain ⟨hd, hall⟩ := ih (max d v.1.length)
      rw [List.foldl_cons]
      refine ⟨by omega, fun v' hv' => ?_⟩
      rcases List.mem_cons.1 hv' with rfl | hv'
      · omega
      · exact hall v' hv'

/-- The order of the visits leaves out nothing and adds nothing. -/
theorem deepestFirst_perm (visits : List Visit) : (deepestFirst visits).Perm visits := by
  refine perm_flatMap_depth (List.nodup_reverse.2 List.nodup_range) fun v hv => ?_
  have hle := (le_foldl_max visits 0).2 v hv
  rw [List.mem_reverse, List.mem_range]
  omega

/-- **The deepest entries come first.** -/
theorem pairwise_deepestFirst (visits : List Visit) : (deepestFirst visits).Pairwise NotLater := by
  refine List.pairwise_flatMap.2 ⟨fun depth _ => ?_, ?_⟩
  · refine List.pairwise_of_forall_mem_list fun v hv v' hv' => ?_
    have hv : v.1.length = depth := by simpa using (List.mem_filter.1 hv).2
    have hv' : v'.1.length = depth := by simpa using (List.mem_filter.1 hv').2
    exact Nat.le_of_eq (hv'.trans hv.symm)
  · rw [List.pairwise_reverse]
    refine List.pairwise_lt_range.imp fun {depth depth'} hlt v hv v' hv' => ?_
    have hv : v.1.length = depth' := by simpa using (List.mem_filter.1 hv).2
    have hv' : v'.1.length = depth := by simpa using (List.mem_filter.1 hv').2
    rw [NotLater, hv, hv']
    exact Nat.le_of_lt hlt

/-- **The start**: every entry has its own name. -/
theorem Progress.start (hwf : tree.WellFormed) {listed : List Visit} (hlisted : listed.Perm (tree.visibleBelow base)) :
    Progress tree base tree (fun loc => loc.getLast?.getD []) (deepestFirst listed) := by
  have hself : ∀ loc, relabel (fun loc => loc.getLast?.getD []) loc = loc := fun loc =>
    relabel_eq_self fun l n _ => by rw [List.getLast?_concat, Option.getD_some]
  have hperm := (deepestFirst_perm listed).trans hlisted
  refine ⟨⟨?_, fun l _ l' _ heq => ?_⟩, fun loc name => Or.inl ?_, fun _ _ loc name _ => ?_,
    fun v hv => hperm.mem_iff.1 hv, pairwise_deepestFirst listed,
    (hperm.pairwise_iff Ne.symm).2 (pairwise_visibleBelow hwf base)⟩
  · simp only [hself, List.map_id']
  · rwa [hself, hself] at heq
  · rw [List.getLast?_concat, Option.getD_some]
  · rw [List.getLast?_concat, Option.getD_some]

end FileTree

/-! ### Nothing is lost -/

open FileTree in
/-- **Nothing was lost**, and only the names that should have changed did. -/
structure RenamedTree.Faithful (result : RenamedTree) (tree : FileTree) (base : Location) : Prop where
  /-- Every entry was there when its turn came: the work ends early only for a new name that is too long. -/
  fault : result.fault = none ∨
    result.fault = some .nameTooLong ∧
      ∃ v ∈ tree.visibleBelow base, IsUntitled v ∧
        ∃ name ∈ v.1.getLast?, longestName < Text.size (titleCaseFileName name)
  /-- The tree has its old entries under other names, and these are title cases of the old ones. -/
  names : ∃ names, tree.Relabelled result.tree names ∧
    ∀ loc name, names (loc ++ [name]) = name ∨
      Titled tree base loc name ∧ names (loc ++ [name]) = titleCaseFileName name
  /-- There are as many files and as many directories as before at each depth. -/
  counts : ∀ (depth : Nat) (b : Bool),
    (result.tree.entries.countP fun (loc, e) => loc.length = depth && e.isDirectory == b) =
      tree.entries.countP fun (loc, e) => loc.length = depth && e.isDirectory == b
  /-- No entry took the place of another one. -/
  moves : Relation.ReflTransGen SafeMove tree result.tree
  /-- Every entry that should have another name is reported once. -/
  total : result.fault = none →
    result.renamings.countP Renaming.isFile + result.renamings.countP Renaming.isDirectory +
      result.renamings.countP Renaming.isSkipped = (tree.visibleBelow base).countP IsUntitled

namespace FileTree

variable {tree : FileTree}

/-- Other names change no depth and no entry. -/
theorem Relabelled.countP_eq {now : FileTree} {names : Location → Text} (h : tree.Relabelled now names) (depth : Nat)
    (b : Bool) :
    (now.entries.countP fun (loc, e) => loc.length = depth && e.isDirectory == b) =
      tree.entries.countP fun (loc, e) => loc.length = depth && e.isDirectory == b := by
  rw [h.entries_eq, List.countP_map]
  refine List.countP_congr fun ⟨loc, e⟩ _ => ?_
  simp [length_relabel]

/-- A report is about a file, a directory or a name that was taken. -/
theorem countP_renamings (renamings : List Renaming) :
    renamings.countP Renaming.isFile + renamings.countP Renaming.isDirectory +
      renamings.countP Renaming.isSkipped = renamings.length := by
  induction renamings with
  | nil => rfl
  | cons r renamings ih =>
      simp only [List.countP_cons, List.length_cons]
      cases r with
      | done names name isDirectory =>
          cases isDirectory <;> simp [Renaming.isFile, Renaming.isDirectory, Renaming.isSkipped] <;> omega
      | skipped names name => simp [Renaming.isFile, Renaming.isDirectory, Renaming.isSkipped]; omega

/-- **Renaming loses nothing**, in whatever order the directories list their entries. -/
theorem renaming_loses_nothing (hwf : tree.WellFormed) (base : Location) :
    (tree.renameBelow base).Faithful tree base ∧
      ∀ listed : List Visit, listed.Perm (tree.visibleBelow base) →
        (tree.renameAll base (deepestFirst listed)).Faithful tree base := by
  have hall : ∀ listed : List Visit, listed.Perm (tree.visibleBelow base) →
      (tree.renameAll base (deepestFirst listed)).Faithful tree base := by
    intro listed hlisted
    have hperm := (deepestFirst_perm listed).trans hlisted
    obtain ⟨names, hprogress, hmoves, hends⟩ := (Progress.start hwf hlisted).renameAll hwf
    refine ⟨?_, ⟨names, hprogress.relabelled, hprogress.titled⟩, hprogress.relabelled.countP_eq, hmoves,
      fun hnone => ?_⟩
    · refine hends.imp (fun h => h.1) fun ⟨hfault, v, hv, name, hname, hlong⟩ => ⟨hfault, v, hperm.mem_iff.1 hv, ?_⟩
      obtain ⟨last, hlast, hnew⟩ := Option.bind_eq_some_iff.1 hname
      obtain ⟨-, -, rfl⟩ := newName?_eq_some_iff.1 hnew
      exact ⟨by rw [← isSome_newName?, hname]; rfl, last, hlast, hlong⟩
    · obtain ⟨-, hcount⟩ | ⟨hfault, -⟩ := hends
      · rw [countP_renamings, hcount, hperm.countP_eq]
        exact List.countP_congr fun v _ => by rw [isSome_newName?]
      · rw [hnone] at hfault
        cases hfault
  exact ⟨hall _ (.refl _), hall⟩

/-- A directory with a blank in its name, in which two files come to the same name, beside a file whose name is a
blank, and a tool's directory. -/
def crowded : FileTree where
  entries :=
    [(["my notes".toList], .directory),
      (["my notes".toList, "a b.txt".toList], .file ⟨#[1]⟩),
      (["my notes".toList, "a  b.txt".toList], .file ⟨#[2]⟩),
      ([" ".toList], .file ⟨#[3]⟩),
      ([".git".toList], .directory),
      ([".git".toList, "x y".toList], .file ⟨#[4]⟩)]

theorem wellFormed_crowded : crowded.WellFormed where
  nodup := by decide
  named := by decide
  ne_nil := by decide
  parent := by
    simp only [locations, crowded, List.map_cons, List.map_nil, List.forall_mem_cons]
    exact ⟨rfl, rfl, rfl, rfl, rfl, rfl, fun _ h => absurd h List.not_mem_nil⟩

theorem renaming_loses_nothing_crowded :
    crowded.WellFormed ∧
      ((crowded.renameBelow []).Faithful crowded [] ∧
        ∀ listed : List Visit, listed.Perm (crowded.visibleBelow []) →
          (crowded.renameAll [] (deepestFirst listed)).Faithful crowded []) ∧
      (crowded.renameBelow []).renamings =
        [.done ["my notes".toList, "a b.txt".toList] "A_B.txt".toList false,
          .skipped ["my notes".toList, "a  b.txt".toList] "A_B.txt".toList,
          .done ["my notes".toList] "My_Notes".toList true,
          .skipped [" ".toList] []] :=
  ⟨wellFormed_crowded, renaming_loses_nothing wellFormed_crowded [], by decide +kernel⟩

end FileTree

end CribSheet
