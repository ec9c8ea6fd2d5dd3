/-
Storing a file.

Storing makes the directories on the way to a file and then writes the file.  Directories are only added,
and a file is written where none of them stands; so whatever the tree held before, it holds afterwards,
except for what the file replaces.  Whether a file can be stored does not depend on its content.

Main definitions:

* `CribSheet.Location.along` — where names lead to from a location;
* `CribSheet.FileTree.Grows` — a tree with some more directories;
* `CribSheet.FileTree.Stored` — a tree with one more file, and the directories on the way to it;
* `CribSheet.FileTree.Writable` — a file can be stored at the path.

Main results:

* `CribSheet.FileTree.find?_put` — what stands in a tree after an entry was put there;
* `CribSheet.FileTree.grows_makeDirectories` — making directories only adds directories on the way;
* `CribSheet.FileTree.write_empty` — a plain file name can be written in an empty directory;
* `CribSheet.FileTree.stored_store` — **storing writes one file**;
* `CribSheet.FileTree.Writable.store` — a writable path takes every content.
-/
import CribSheet.Files.Tree
import CribSheet.Proofs.Text.Deletion

set_option relaxedAutoImplicit false
set_option autoImplicit false

namespace CribSheet

open CribSheet.Text

/-! ### Names -/

namespace Path

/-- The names could stand on a path. -/
def AreNames (names : List Text) : Prop := ∀ name ∈ names, name ≠ [] ∧ '/' ∉ name

theorem areNames_names (path : Text) : AreNames (names path) := by
  intro name hname
  obtain ⟨hsplit, hne⟩ := List.mem_filter.1 hname
  exact ⟨by simpa using hne, not_mem_of_mem_splitOn hsplit⟩

theorem areNames_components (path : Text) : AreNames (components path) := by
  intro name hname
  refine areNames_names path name ?_
  rw [components] at hname
  split at hname
  · simp at hname
  · next first rest heq =>
      rw [heq]
      split at hname
      · exact List.mem_of_mem_filter hname
      · rcases List.mem_cons.1 hname with rfl | hname
        · exact List.mem_cons_self
        · exact List.mem_cons_of_mem _ (List.mem_of_mem_filter hname)

/-- The path that names form. -/
def ofNames (absolute : Bool) (names : List Text) : Text :=
  (if absolute then ['/'] else []) ++ joinWith ['/'] names

/-- Names form a path with these names. -/
theorem names_ofNames {ns : List Text} (h : AreNames ns) (absolute : Bool) : names (ofNames absolute ns) = ns := by
  have hrelative : names (joinWith ['/'] ns) = ns := by
    rcases Classical.em (ns = []) with rfl | hne
    · rfl
    · rw [names, splitOn_joinWith hne fun name hname => (h name hname).2, List.filter_eq_self]
      exact fun name hname => by simpa using (h name hname).1
  cases absolute with
  | false => exact hrelative
  | true =>
      rw [ofNames, if_pos rfl, List.singleton_append, names, splitOn, if_pos rfl]
      exact hrelative

theorem isAbsolute_ofNames {ns : List Text} (h : AreNames ns) (absolute : Bool) :
    isAbsolute (ofNames absolute ns) = absolute := by
  cases absolute with
  | true => rfl
  | false =>
      cases ns with
      | nil => rfl
      | cons name ns =>
          obtain ⟨hne, hslash⟩ := h name List.mem_cons_self
          obtain ⟨c, name, rfl⟩ := List.exists_cons_of_ne_nil hne
          have hc : c ≠ '/' := fun he => hslash (he ▸ List.mem_cons_self)
          cases ns <;> simp [isAbsolute, ofNames, joinWith, hc]

end Path

namespace Location

/-- Where names lead to from a location. -/
def along (loc : Location) (names : List Text) : Location := names.foldl child loc

/-- Where a path starts, absolute or not. -/
def origin (absolute : Bool) : Location := if absolute then root else []

end Location

namespace FileTree

open Location CribSheet.Path

variable {tree : FileTree}

theorem reach_eq_along {loc l : Location} {names : List Text} (h : tree.reach loc names = .ok l) :
    l = loc.along names := by
  induction names generalizing loc with
  | nil => exact (Except.ok.inj h).symm
  | cons name names ih =>
      rw [reach] at h
      split at h
      · simp at h
      · split at h
        · simp at h
        · simp at h
        · exact ih h

/-- A path that leads somewhere leads there in every tree with the same directories. -/
theorem reach_of_directories {tree' : FileTree}
    (hkept : ∀ l, tree.find? l = some .directory → tree'.find? l = some .directory) {loc l : Location}
    {names : List Text} (h : tree.reach loc names = .ok l) : tree'.reach loc names = .ok l := by
  induction names generalizing loc with
  | nil => exact h
  | cons name names ih =>
      rw [reach] at h ⊢
      split at h
      · simp at h
      · next hsize =>
          rw [if_neg hsize]
          split at h
          · simp at h
          · simp at h
          · next hfind =>
              rw [hkept _ hfind]
              exact ih h

theorem locate_of_directories {tree' : FileTree}
    (hkept : ∀ l, tree.find? l = some .directory → tree'.find? l = some .directory) {path : Text}
    {l : Location} (h : tree.locate path = .ok l) : tree'.locate path = .ok l := by
  rw [locate] at h ⊢
  split at h
  · simp at h
  · next hnul =>
      rw [if_neg hnul]
      split at h
      · exact h
      · next name hnames =>
          cases hreach : tree.reach (start path) (names path).dropLast with
          | error fault => simp [hreach, bind, Except.bind] at h
          | ok loc =>
              rw [hreach] at h
              rw [reach_of_directories hkept hreach]
              exact h

/-- Names lead where they lead to one after the other. -/
theorem locate_ofNames {absolute : Bool} {ns : List Text} (hns : AreNames ns) {l : Location}
    (h : tree.locate (ofNames absolute ns) = .ok l) : l = (origin absolute).along ns := by
  have hstart : start (ofNames absolute ns) = origin absolute := by
    rw [start, isAbsolute_ofNames hns, origin]
  rw [locate] at h
  split at h
  · simp at h
  · rw [names_ofNames hns, hstart, isAbsolute_ofNames hns] at h
    split at h
    · next hnil =>
        obtain rfl := List.getLast?_eq_none_iff.1 hnil
        cases absolute with
        | true => exact (Except.ok.inj h).symm
        | false => simp at h
    · next name hname =>
        cases hreach : tree.reach (origin absolute) ns.dropLast with
        | error fault => simp [hreach, bind, Except.bind] at h
        | ok loc =>
            rw [hreach] at h
            simp only [bind, Except.bind] at h
            split at h
            · simp at h
            · obtain rfl := Except.ok.inj h
              have hsplit : ns = ns.dropLast ++ [name] := by
                rw [List.dropLast_append_getLast? _ hname]
              rw [reach_eq_along hreach]
              conv => rhs; rw [hsplit]
              simp [along]

/-- **A plain file name names an entry of the top**, unless no file can have it. -/
theorem locate_plain (tree : FileTree) {name : Text} (hslash : '/' ∉ name) (hlong : 2 < name.length) :
    tree.locate name =
      if '\x00' ∈ name then .error .nulInPath
      else if longestName < name.size then .error .nameTooLong else .ok [name] := by
  have hne : name ≠ [] := by rintro rfl; simp at hlong
  have hhere : name ≠ Path.here := by rintro rfl; simp [Path.here] at hlong
  have habove : name ≠ Path.above := by rintro rfl; simp [Path.above] at hlong
  have hnames : Path.names name = [name] := by simp [Path.names, splitOn_eq_singleton hslash, hne]
  have hstart : start name = [] := by
    obtain ⟨c, name, rfl⟩ := List.exists_cons_of_ne_nil hne
    have hc : c ≠ '/' := fun he => hslash (he ▸ List.mem_cons_self)
    simp [start, isAbsolute, hc]
  have hchild : Location.child [] name = [name] := by simp [Location.child, hhere, habove]
  rw [locate, hnames, hstart]
  simp only [List.getLast?_singleton, List.dropLast_singleton, reach, bind, Except.bind, hchild]

/-! ### Entries -/

theorem lookup_cons_eq (l' : Location) (e : Entry) (es : List (Location × Entry)) (l : Location) :
    ((l', e) :: es).lookup l = if l = l' then some e else es.lookup l := by
  rw [List.lookup_cons]
  by_cases hl : l = l'
  · simp [hl]
  · rw [beq_eq_false_iff_ne.2 hl, if_neg hl]

theorem lookup_map_put {loc : Location} {entry : Entry} (es : List (Location × Entry)) (l : Location) :
    (es.map fun (l', e) => if l' = loc then (l', entry) else (l', e)).lookup l =
      if l = loc then (es.lookup l).map fun _ => entry else es.lookup l := by
  induction es with
  | nil => simp
  | cons x es ih =>
      obtain ⟨l', e⟩ := x
      rw [List.map_cons, lookup_cons_eq]
      by_cases hl' : l' = loc
      · simp only [if_pos hl', lookup_cons_eq, ih]
        by_cases hl : l = l'
        · simp [hl, hl']
        · simp [hl]
      · simp only [if_neg hl', lookup_cons_eq, ih]
        by_cases hl : l = l'
        · simp [hl, hl']
        · simp [hl]

/-- **What stands in a tree** after an entry was put there. -/
theorem find?_put (tree : FileTree) {loc : Location} (hloc : loc.isAbove = false) (entry : Entry) (l : Location) :
    (tree.put loc entry).find? l = if l = loc then some entry else tree.find? l := by
  rw [find?, find?, put]
  by_cases habove : l.isAbove = true
  · have hne : l ≠ loc := by
      rintro rfl
      rw [hloc] at habove
      simp at habove
    rw [if_pos habove, if_pos habove, if_neg hne]
  · rw [if_neg habove, if_neg habove]
    split
    · next hany =>
        rw [lookup_map_put]
        split
        · next heq =>
            obtain ⟨x, hx, hxl⟩ := List.any_eq_true.1 hany
            cases hlookup : tree.entries.lookup l with
            | some e => rfl
            | none =>
                have hnone := List.lookup_eq_none_iff.1 hlookup x hx
                simp [heq, beq_iff_eq.1 hxl] at hnone
        · rfl
    · next hany =>
        rw [List.lookup_append]
        split
        · next heq =>
            have hnone : tree.entries.lookup l = none := by
              refine List.lookup_eq_none_iff.2 fun x hx => ?_
              have hne : ¬ x.1 = loc := fun he => hany (List.any_eq_true.2 ⟨x, hx, by simp [he]⟩)
              rw [heq, bne_iff_ne]
              exact fun he => hne he.symm
            rw [hnone, heq]
            simp
        · next hne =>
            rw [lookup_cons_eq, if_neg hne, List.lookup_nil, Option.or_none]

/-! ### Directories -/

/-- **The tree with more directories**: whatever stood in it stands there, and where something new stands,
it is a directory at one of the places. -/
def Grows (before after : FileTree) (places : Location → Prop) : Prop :=
  ∀ l, after.find? l = before.find? l ∨
    before.find? l = none ∧ after.find? l = some .directory ∧ places l

theorem Grows.refl (tree : FileTree) (places : Location → Prop) : tree.Grows tree places :=
  fun _ => Or.inl rfl

theorem Grows.trans {a b c : FileTree} {places : Location → Prop} (hab : a.Grows b places)
    (hbc : b.Grows c places) : a.Grows c places := by
  intro l
  rcases hbc l with h | ⟨hnone, hdirectory, hplace⟩
  · rw [h]
    exact hab l
  · rcases hab l with h | ⟨-, hother, -⟩
    · exact Or.inr ⟨h ▸ hnone, hdirectory, hplace⟩
    · rw [hnone] at hother
      simp at hother

theorem Grows.mono {a b : FileTree} {places places' : Location → Prop} (h : a.Grows b places)
    (hsub : ∀ l, places l → places' l) : a.Grows b places' :=
  fun l => (h l).imp_right fun ⟨hnone, hdirectory, hplace⟩ => ⟨hnone, hdirectory, hsub l hplace⟩

/-- Directories stay. -/
theorem Grows.directory {a b : FileTree} {places : Location → Prop} (h : a.Grows b places) {l : Location}
    (hl : a.find? l = some .directory) : b.find? l = some .directory := by
  rcases h l with heq | ⟨hnone, -, -⟩
  · rw [heq, hl]
  · rw [hnone] at hl
    simp at hl

theorem isAbove_of_find?_eq_none {l : Location} (h : tree.find? l = none) : l.isAbove = false := by
  rw [find?] at h
  split at h
  · simp at h
  · next habove => exact Bool.eq_false_iff.2 habove

/-- The places that names lead to on their way. -/
def Along (absolute : Bool) (names : List Text) (l : Location) : Prop :=
  ∃ lead, lead <+: names ∧ l = (origin absolute).along lead

theorem grows_makeDirectory {tree' : FileTree} {absolute : Bool} {ns : List Text} (hns : AreNames ns)
    (h : tree.makeDirectory absolute ns = .ok tree') : tree.Grows tree' (Along absolute ns) := by
  rw [makeDirectory] at h
  cases hlocate : tree.locate (ofNames absolute ns) with
  | error fault =>
      rw [ofNames] at hlocate
      simp [hlocate, bind, Except.bind] at h
  | ok loc =>
      have halong := locate_ofNames hns hlocate
      rw [ofNames] at hlocate
      simp only [hlocate, bind, Except.bind] at h
      split at h
      · simp at h
      · next hfind =>
          obtain rfl := Except.ok.inj h
          intro l
          rw [find?_put tree (isAbove_of_find?_eq_none hfind)]
          split
          · next heq => exact Or.inr ⟨heq ▸ hfind, rfl, ns, List.prefix_rfl, heq.trans halong⟩
          · exact Or.inl rfl

/-- **Making directories only adds directories on the way.** -/
theorem grows_makeDirectories (absolute : Bool) {reversed : List Text} (hns : AreNames reversed) (tree : FileTree) :
    tree.Grows (tree.makeDirectories absolute reversed).1 (Along absolute reversed.reverse) := by
  induction reversed generalizing tree with
  | nil => exact Grows.refl _ _
  | cons name before ih =>
      have hbefore : AreNames before := fun n hn => hns n (List.mem_cons_of_mem _ hn)
      have hnames : AreNames (before.reverse ++ [name]) := by
        intro n hn
        exact hns n (by simpa [or_comm] using hn)
      have hway : ∀ l, Along absolute before.reverse l → Along absolute (name :: before).reverse l := by
        rintro l ⟨lead, hlead, rfl⟩
        exact ⟨lead, hlead.trans (by simp), rfl⟩
      rw [List.reverse_cons] at hway ⊢
      rw [makeDirectories]
      split
      · next tree' hmade => exact grows_makeDirectory hnames hmade
      · split
        · next tree' fault hrest =>
            have hgrows := (ih hbefore tree).mono hway
            rwa [hrest] at hgrows
        · next tree' hrest =>
            have hgrows := (ih hbefore tree).mono hway
            rw [hrest] at hgrows
            split
            · next tree'' hmade => exact hgrows.trans (grows_makeDirectory hnames hmade)
            · exact hgrows
      · exact Grows.refl _ _

/-! ### Files -/

/-- The place of a file that can be written at a path. -/
def place (tree : FileTree) (path : Text) : Except FileFault Location := do
  let loc ← tree.locate path
  if Path.endsWithSlash path ∨ (tree.find? loc).any Entry.isDirectory then .error .isDirectory else .ok loc

theorem write_eq (tree : FileTree) (path : Text) (content : ByteArray) :
    tree.write path content = (tree.place path).map fun loc => tree.put loc (.file content) := by
  rw [write, place]
  cases tree.locate path with
  | error fault => rfl
  | ok loc =>
      simp only [bind, Except.bind]
      split <;> rfl

/-- **A plain file name can be written in an empty directory**, unless no file can have it. -/
theorem write_empty {name : Text} (hslash : '/' ∉ name) (hlong : 2 < name.length) (content : ByteArray) :
    ({} : FileTree).write name content =
      if '\x00' ∈ name then .error .nulInPath
      else if longestName < name.size then .error .nameTooLong else .ok ⟨[([name], .file content)]⟩ := by
  have hend : Path.endsWithSlash name = false := by
    rw [Path.endsWithSlash, endsWith]
    cases hlast : name.getLast? with
    | none => rfl
    | some c =>
        have hne : c ≠ '/' := fun he => hslash (he ▸ List.mem_of_getLast? hlast)
        simpa using hne
  have hfree : ({} : FileTree).find? [name] = none := by
    have habove : name ≠ Path.above := by rintro rfl; simp [Path.above] at hlong
    have hroot : name ≠ ['/'] := by rintro rfl; simp at hlong
    simp [find?, isAbove, root, habove, hroot]
  rw [write, locate_plain _ hslash hlong]
  split
  · rfl
  · split
    · rfl
    · simp only [bind, Except.bind, hend, hfree]
      rfl

theorem place_eq_ok {path : Text} {loc : Location} (h : tree.place path = .ok loc) :
    tree.locate path = .ok loc ∧ tree.find? loc ≠ some .directory := by
  rw [place] at h
  cases hlocate : tree.locate path with
  | error fault => simp [hlocate, bind, Except.bind] at h
  | ok loc' =>
      simp only [hlocate, bind, Except.bind] at h
      split at h
      · simp at h
      · next hdirectory =>
          obtain rfl := Except.ok.inj h
          refine ⟨rfl, fun hfind => hdirectory (Or.inr ?_)⟩
          simp [hfind, Entry.isDirectory]

/-- The tree with the directories on the way to a file. -/
def makeWay (tree : FileTree) (path : Text) : FileTree × Except FileFault Unit :=
  match Path.parent? path with
  | some parent => tree.makeDirectories (Path.isAbsolute parent) (Path.components parent).reverse
  | none => (tree, .ok ())

/-- The places on the way to a file. -/
def OnWay (path : Text) (l : Location) : Prop :=
  ∃ parent, Path.parent? path = some parent ∧ Along (Path.isAbsolute parent) (Path.components parent) l

theorem grows_makeWay (tree : FileTree) (path : Text) : tree.Grows (tree.makeWay path).1 (OnWay path) := by
  rw [makeWay]
  split
  · next parent hparent =>
      have hnames : AreNames (Path.components parent).reverse := fun n hn =>
        areNames_components parent n (List.mem_reverse.1 hn)
      have hgrows := grows_makeDirectories (Path.isAbsolute parent) hnames tree
      rw [List.reverse_reverse] at hgrows
      exact hgrows.mono fun l hl => ⟨parent, hparent, hl⟩
  · exact Grows.refl _ _

theorem store_eq (tree : FileTree) (path : Text) (content : ByteArray) :
    tree.store path content =
      match tree.makeWay path with
      | (tree, .error fault) => (tree, .error fault)
      | (tree, .ok ()) =>
        match tree.write path content with
        | .ok tree => (tree, .ok ())
        | .error fault => (tree, .error fault) := rfl

/-- **The tree with one more file**: the path leads to the file, everything else stands where it stood, and
all that is new are directories on the way. -/
def Stored (before after : FileTree) (path : Text) (content : ByteArray) : Prop :=
  ∃ loc, after.locate path = .ok loc ∧ after.find? loc = some (.file content) ∧
    before.find? loc ≠ some .directory ∧
    ∀ l ≠ loc, after.find? l = before.find? l ∨
      before.find? l = none ∧ after.find? l = some .directory ∧ OnWay path l

/-- **Storing writes one file.** -/
theorem stored_store {tree : FileTree} {path : Text} {content : ByteArray}
    (h : (tree.store path content).2 = .ok ()) : tree.Stored (tree.store path content).1 path content := by
  have hgrows := grows_makeWay tree path
  rw [store_eq] at h ⊢
  generalize tree.makeWay path = made at hgrows h ⊢
  obtain ⟨way, fault | _⟩ := made
  · simp at h
  · simp only [write_eq] at h ⊢
    cases hplace : way.place path with
    | error fault => simp [hplace, Except.map] at h
    | ok loc =>
        obtain ⟨hlocate, hfile⟩ := place_eq_ok hplace
        have habove : loc.isAbove = false := by
          refine Bool.eq_false_iff.2 fun habove => hfile ?_
          rw [find?, if_pos habove]
        have hput := find?_put way habove (.file content)
        -- The file stands where no directory is, so the path still leads to it.
        have hkept : ∀ l, way.find? l = some .directory →
            (way.put loc (.file content)).find? l = some .directory := by
          intro l hl
          have hne : l ≠ loc := fun he => hfile (he ▸ hl)
          rw [hput, if_neg hne, hl]
        refine ⟨loc, locate_of_directories hkept hlocate, ?_, fun hl => hfile (hgrows.directory hl), ?_⟩
        · exact (hput loc).trans (if_pos rfl)
        · intro l hl
          have hsame : (way.put loc (.file content)).find? l = way.find? l := (hput l).trans (if_neg hl)
          exact hsame ▸ hgrows l

/-- A file can be stored at the path. -/
def Writable (tree : FileTree) (path : Text) : Prop := ∃ content, (tree.store path content).2 = .ok ()

/-- **A writable path takes every content.** -/
theorem Writable.store {tree : FileTree} {path : Text} (h : tree.Writable path) (content : ByteArray) :
    (tree.store path content).2 = .ok () := by
  obtain ⟨some, hsome⟩ := h
  rw [store_eq] at hsome ⊢
  generalize tree.makeWay path = made at hsome ⊢
  obtain ⟨way, fault | _⟩ := made
  · exact hsome
  · simp only [write_eq] at hsome ⊢
    cases hplace : way.place path with
    | error fault => simp [hplace, Except.map] at hsome
    | ok loc => rfl

end FileTree

end CribSheet
