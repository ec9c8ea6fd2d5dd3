/-
Trees with other names.

A tree whose entries get other last names, one for each entry, has its entries at other locations: every name
on the way to an entry is replaced by the new one of the entry that stands there.  Moving an entry beside
itself, to a place where nothing stands, gives one entry another name and leaves all others as they are.

Main definitions:

* `CribSheet.FileTree.WellFormed` — every entry stands in a directory, and no two stand at one location;
* `CribSheet.Location.relabel` — a location under other names;
* `CribSheet.FileTree.Relabelled` — a tree under other names.

Main results:

* `CribSheet.FileTree.WellFormed.mem_of_isPrefix` — what stands on the way to an entry stands in the tree;
* `CribSheet.FileTree.Relabelled.move` — **moving an entry gives it another name**.
-/
import CribSheet.Files.Renaming
import Mathlib.Data.List.Induction
import Mathlib.Data.List.Nodup

set_option relaxedAutoImplicit false
set_option autoImplicit false

namespace CribSheet

/-! ### Well-formed trees -/

/-- An entry can have the name. -/
structure IsEntryName (name : Text) : Prop where
  /-- It is no empty name. -/
  ne_nil : name ≠ []
  /-- It does not stand for the directory itself. -/
  ne_here : name ≠ Path.here
  /-- It does not stand for the directory above. -/
  ne_above : name ≠ Path.above
  /-- It is no path. -/
  noSlash : '/' ∉ name

instance : DecidablePred IsEntryName := fun name =>
  decidable_of_iff (name ≠ [] ∧ name ≠ Path.here ∧ name ≠ Path.above ∧ '/' ∉ name)
    ⟨fun ⟨h₁, h₂, h₃, h₄⟩ => ⟨h₁, h₂, h₃, h₄⟩, fun h => ⟨h.ne_nil, h.ne_here, h.ne_above, h.noSlash⟩⟩

namespace FileTree

/-- The locations of the entries. -/
def locations (tree : FileTree) : List Location := tree.entries.map Prod.fst

/-- **A tree of directories and files**: every entry has a name and stands in a directory, and no two entries
stand at one location. -/
structure WellFormed (tree : FileTree) : Prop where
  /-- No location is used twice. -/
  nodup : tree.locations.Nodup
  /-- All names on the way are names of entries. -/
  named : ∀ loc ∈ tree.locations, ∀ name ∈ loc, IsEntryName name
  /-- An entry is not the top. -/
  ne_nil : ∀ loc ∈ tree.locations, loc ≠ []
  /-- An entry stands in a directory. -/
  parent : ∀ loc ∈ tree.locations, tree.find? loc.dropLast = some .directory

variable {tree : FileTree}

/-- A location with names of entries is below the top. -/
theorem isAbove_eq_false {loc : Location} (hne : loc ≠ []) (hnamed : ∀ name ∈ loc, IsEntryName name) :
    loc.isAbove = false := by
  have hroot : loc ≠ Location.root := by
    rintro rfl
    exact (hnamed ['/'] (List.mem_singleton_self _)).noSlash (List.mem_singleton_self _)
  obtain ⟨name, hname⟩ := List.exists_mem_of_ne_nil loc hne
  have habove : loc.all (· == Path.above) = false := by
    rw [List.all_eq_false]
    exact ⟨name, hname, by simpa using (hnamed name hname).ne_above⟩
  rw [Location.isAbove, habove]
  simpa using hroot

theorem mem_locations_of_find? {loc : Location} {e : Entry} (habove : loc.isAbove = false)
    (h : tree.find? loc = some e) : loc ∈ tree.locations := by
  rw [find?, if_neg (by simp [habove])] at h
  obtain ⟨x, y, hxy, -⟩ := List.lookup_eq_some_iff.1 h
  rw [locations, hxy]
  simp

theorem find?_isSome_of_mem {loc : Location} (h : loc ∈ tree.locations) : (tree.find? loc).isSome = true := by
  rw [find?]
  split
  · rfl
  · obtain ⟨⟨l, e⟩, hmem, rfl⟩ := List.mem_map.1 h
    cases hlookup : tree.entries.lookup l with
    | some e' => rfl
    | none =>
        have hne := List.lookup_eq_none_iff.1 hlookup (l, e) hmem
        simp at hne

/-- **What stands on the way to an entry stands in the tree.** -/
theorem WellFormed.mem_of_isPrefix (h : tree.WellFormed) {loc l : Location} (hloc : loc ∈ tree.locations)
    (hl : l <+: loc) (hne : l ≠ []) : l ∈ tree.locations := by
  induction loc using List.reverseRecOn with
  | nil => exact absurd (List.prefix_nil.1 hl) hne
  | append_singleton loc name ih =>
      rcases List.prefix_concat_iff.1 hl with rfl | hl
      · exact hloc
      · have hparent := h.parent _ hloc
        rw [List.dropLast_concat] at hparent
        have hloc' : loc ≠ [] := by
          rintro rfl
          exact hne (List.prefix_nil.1 hl)
        have hnamed : ∀ n ∈ loc, IsEntryName n := fun n hn => h.named _ hloc n (List.mem_append_left _ hn)
        exact ih (mem_locations_of_find? (isAbove_eq_false hloc' hnamed) hparent) hl

end FileTree

/-! ### Other names -/

namespace Location

/-- **The location under other names**: `names` gives the last name of everything on the way. -/
def relabel (names : Location → Text) (loc : Location) : Location :=
  (List.range loc.length).map fun k => names (loc.take (k + 1))

variable {names names' : Location → Text}

@[simp] theorem relabel_nil (names : Location → Text) : relabel names [] = [] := rfl

@[simp] theorem length_relabel (names : Location → Text) (loc : Location) :
    (relabel names loc).length = loc.length := by simp [relabel]

theorem relabel_concat (names : Location → Text) (loc : Location) (name : Text) :
    relabel names (loc ++ [name]) = relabel names loc ++ [names (loc ++ [name])] := by
  rw [relabel, relabel, List.length_append, List.length_singleton, List.range_succ, List.map_append]
  congr 1
  · refine List.map_congr_left fun k hk => ?_
    rw [List.take_append_of_le_length (by have := List.mem_range.1 hk; omega)]
  · simp [List.take_of_length_le]

/-- The way to a relabelled location is the relabelled way. -/
theorem take_relabel (names : Location → Text) (loc : Location) (k : Nat) :
    (relabel names loc).take k = relabel names (loc.take k) := by
  refine List.ext_getElem (by simp) fun i hi hi' => ?_
  have hik : i < k := by simp at hi; omega
  simp [relabel, List.take_take, Nat.min_eq_left hik]

/-- Only the names on the way matter. -/
theorem relabel_congr {loc : Location} (h : ∀ l, l <+: loc → l ≠ [] → names l = names' l) :
    relabel names loc = relabel names' loc := by
  refine List.map_congr_left fun k hk => h _ (List.take_prefix _ _) ?_
  have hlt := List.mem_range.1 hk
  exact List.ne_nil_of_length_pos (by rw [List.length_take]; omega)

/-- Only the names from there on matter. -/
theorem drop_relabel_congr {loc : Location} {k : Nat} (h : ∀ l, l <+: loc → k < l.length → names l = names' l) :
    (relabel names loc).drop k = (relabel names' loc).drop k := by
  refine List.ext_getElem (by simp) fun i hi hi' => ?_
  have hlt : k + i < loc.length := by simp at hi; omega
  simp only [relabel, List.getElem_drop, List.getElem_map, List.getElem_range]
  exact h _ (List.take_prefix _ _) (by rw [List.length_take]; omega)

/-- A location keeps its name when no name on the way changes. -/
theorem relabel_eq_self {loc : Location} (h : ∀ l n, l ++ [n] <+: loc → names (l ++ [n]) = n) :
    relabel names loc = loc := by
  induction loc using List.reverseRecOn with
  | nil => rfl
  | append_singleton loc name ih =>
      rw [relabel_concat, h loc name List.prefix_rfl,
        ih fun l n hl => h l n (hl.trans (List.prefix_append loc [name]))]

end Location

namespace FileTree

open Location

/-- **The tree under other names**: it has the same entries in the same order, and no two of them come to stand
at one location. -/
structure Relabelled (tree now : FileTree) (names : Location → Text) : Prop where
  /-- The entries stand at the relabelled locations. -/
  entries_eq : now.entries = tree.entries.map fun (loc, e) => (relabel names loc, e)
  /-- No two locations become one. -/
  injective : ∀ l ∈ tree.locations, ∀ l' ∈ tree.locations, relabel names l = relabel names l' → l = l'

namespace Relabelled

variable {tree now : FileTree} {names : Location → Text}

theorem locations_eq (h : tree.Relabelled now names) : now.locations = tree.locations.map (relabel names) := by
  rw [locations, locations, h.entries_eq, List.map_map, List.map_map]
  rfl

theorem nodup (h : tree.Relabelled now names) (hwf : tree.WellFormed) : now.locations.Nodup := by
  rw [h.locations_eq]
  exact List.Nodup.map_on h.injective hwf.nodup

section Move

variable {source : Location} {name : Text}

/-- What is below an entry that kept its location is below it under other names, too. -/
theorem prefix_iff (h : tree.Relabelled now names) (hwf : tree.WellFormed) (hsource : source ∈ tree.locations)
    (hsame : relabel names source = source) {loc : Location} (hloc : loc ∈ tree.locations) :
    source <+: relabel names loc ↔ source <+: loc := by
  rw [List.prefix_iff_eq_take, List.prefix_iff_eq_take, take_relabel]
  constructor
  · intro heq
    have hne : loc.take source.length ≠ [] := by
      intro hnil
      rw [hnil, relabel_nil] at heq
      exact hwf.ne_nil source hsource heq
    exact h.injective _ hsource _ (hwf.mem_of_isPrefix hloc (List.take_prefix _ _) hne) (hsame.trans heq)
  · intro heq
    rw [← heq, hsame]

/-- Nothing stands below a free location. -/
theorem not_isPrefix (h : tree.Relabelled now names) (hwf : tree.WellFormed) {target : Location}
    (htarget : target ≠ []) (hfree : target ∉ now.locations) {loc : Location} (hloc : loc ∈ tree.locations) :
    ¬ target <+: relabel names loc := by
  rw [List.prefix_iff_eq_take, take_relabel]
  intro heq
  have hne : loc.take target.length ≠ [] := by
    intro hnil
    rw [hnil, relabel_nil] at heq
    exact htarget heq
  refine hfree ?_
  rw [h.locations_eq, heq]
  exact List.mem_map_of_mem (hwf.mem_of_isPrefix hloc (List.take_prefix _ _) hne)

/-- The location of what does not stand below the entry with another name. -/
theorem relabel_update_of_not_below {loc : Location} (hloc : ¬ source <+: loc) :
    relabel (Function.update names source name) loc = relabel names loc := by
  refine relabel_congr fun l hl _ => Function.update_of_ne ?_ _ _
  rintro rfl
  exact hloc hl

/-- The location of what stands below the entry with another name. -/
theorem relabel_update_of_below (hsource : source ≠ []) (hsame : relabel names source = source) {loc : Location}
    (hloc : source <+: loc) :
    relabel (Function.update names source name) loc =
      source.dropLast ++ [name] ++ (relabel names loc).drop source.length := by
  have htake : (relabel (Function.update names source name) loc).take source.length = source.dropLast ++ [name] := by
    obtain ⟨l, last, rfl⟩ : ∃ l last, source = l ++ [last] :=
      ⟨_, _, (List.dropLast_append_getLast hsource).symm⟩
    have hl : relabel (Function.update names (l ++ [last]) name) l = relabel names l := by
      refine relabel_update_of_not_below fun hlead => ?_
      have hlength := hlead.length_le
      rw [List.length_append, List.length_singleton] at hlength
      omega
    rw [relabel_concat] at hsame
    rw [take_relabel, ← List.prefix_iff_eq_take.1 hloc, relabel_concat, List.dropLast_concat, Function.update_self, hl,
      (List.append_inj' hsame rfl).1]
  have hdrop : (relabel (Function.update names source name) loc).drop source.length =
      (relabel names loc).drop source.length := by
    refine drop_relabel_congr fun l _ hlong => Function.update_of_ne ?_ _ _
    rintro rfl
    exact Nat.lt_irrefl _ hlong
  rw [← htake, ← hdrop, List.take_append_drop]

/-- **Moving an entry gives it another name**: when it has kept its location so far, and nothing stands where it
goes. -/
theorem move (h : tree.Relabelled now names) (hwf : tree.WellFormed) (hsource : source ∈ tree.locations)
    (hsame : relabel names source = source) (hfree : source.dropLast ++ [name] ∉ now.locations) :
    tree.Relabelled (now.move source (source.dropLast ++ [name])) (Function.update names source name) := by
  have hne := hwf.ne_nil source hsource
  have htarget : source.dropLast ++ [name] ≠ [] := by simp
  constructor
  · have hkept : now.entries.filter (fun (loc, _) =>
        source.isPrefixOf loc || !(source.dropLast ++ [name]).isPrefixOf loc) = now.entries := by
      refine List.filter_eq_self.2 fun ⟨l, e⟩ hmem => ?_
      rw [h.entries_eq] at hmem
      obtain ⟨⟨loc, e⟩, hloc, heq⟩ := List.mem_map.1 hmem
      obtain ⟨rfl, rfl⟩ := Prod.mk.inj heq
      have hfalse : (source.dropLast ++ [name]).isPrefixOf (relabel names loc) = false := by
        rw [← Bool.not_eq_true, List.isPrefixOf_iff_prefix]
        exact h.not_isPrefix hwf htarget hfree (List.mem_map_of_mem hloc)
      simp [hfalse]
    rw [FileTree.move]
    simp only
    rw [hkept, h.entries_eq, List.map_map]
    refine List.map_congr_left ?_
    rintro ⟨loc, e⟩ hmem
    have hiff : source <+: relabel names loc ↔ source <+: loc :=
      h.prefix_iff hwf hsource hsame (List.mem_map_of_mem hmem)
    simp only [Function.comp_apply, List.isPrefixOf_iff_prefix, hiff]
    split
    · next hloc => rw [relabel_update_of_below hne hsame hloc]
    · next hloc => rw [relabel_update_of_not_below hloc]
  · -- What is below the entry stays apart from the rest, since nothing stands where it goes.
    have happart : ∀ l ∈ tree.locations, ∀ l' ∈ tree.locations, source <+: l → ¬ source <+: l' →
        relabel (Function.update names source name) l ≠ relabel (Function.update names source name) l' := by
      intro l hl l' hl' hbelow hbeside heq
      rw [relabel_update_of_below hne hsame hbelow, relabel_update_of_not_below hbeside] at heq
      exact h.not_isPrefix hwf htarget hfree hl' ⟨_, heq⟩
    intro l hl l' hl' heq
    by_cases hbelow : source <+: l
    · by_cases hbelow' : source <+: l'
      · refine h.injective l hl l' hl' ?_
        rw [relabel_update_of_below hne hsame hbelow, relabel_update_of_below hne hsame hbelow'] at heq
        obtain ⟨z, hz⟩ := (h.prefix_iff hwf hsource hsame hl).2 hbelow
        obtain ⟨z', hz'⟩ := (h.prefix_iff hwf hsource hsame hl').2 hbelow'
        have hdrop := List.append_cancel_left heq
        rw [← hz, ← hz', List.drop_left, List.drop_left] at hdrop
        rw [← hz, ← hz', hdrop]
      · exact absurd heq (happart l hl l' hl' hbelow hbelow')
    · by_cases hbelow' : source <+: l'
      · exact absurd heq.symm (happart l' hl' l hl hbelow' hbelow)
      · rw [relabel_update_of_not_below hbelow, relabel_update_of_not_below hbelow'] at heq
        exact h.injective l hl l' hl' heq

end Move

end Relabelled

end FileTree

end CribSheet
