import VirtualFs.Proofs.Spelling.Joined

namespace VirtualFs.Path

/-- What stands behind the last separator is cut off. What stands in front is the directory, and the
    root where nothing does. -/
theorem split_append (front : String) {name : String} (hname : '/' ∉ name.toList) :
    split (front ++ "/" ++ name) = (if front = "" then "/" else front, name) := by
  have hreversed : (front ++ "/" ++ name).toList.reverse =
      name.toList.reverse ++ '/' :: front.toList.reverse := by simp
  have hbehind : ∀ c ∈ name.toList.reverse, decide (c ≠ '/') = true := by
    intro c hc
    exact decide_eq_true fun h => hname (h ▸ List.mem_reverse.1 hc)
  have hcut : ((name.toList.reverse ++ '/' :: front.toList.reverse).dropWhile (· ≠ '/')).tail =
      front.toList.reverse := by
    rw [List.dropWhile_append_of_pos hbehind, List.dropWhile_cons_of_neg (by simp), List.tail_cons]
  rw [split, hreversed, hcut, List.takeWhile_append_of_pos hbehind,
    List.takeWhile_cons_of_neg (by simp), List.append_nil, List.reverse_reverse,
    String.ofList_toList]
  by_cases hfront : front = ""
  · subst hfront
    rfl
  · rw [if_neg hfront]
    split
    · rename_i hnil
      exact absurd (String.toList_eq_nil_iff.1 (List.reverse_eq_nil_iff.1 hnil)) hfront
    · rw [List.reverse_reverse, String.ofList_toList]

theorem steps_eq_empty_iff {path : Path} : path.steps = "" ↔ path = root := by
  constructor
  · intro hsteps
    rw [← ofString_steps path, hsteps]
    rfl
  · rintro rfl
    rfl

/-- The canonical spelling of a path other than the root is cut into that of its directory and its
    last name. -/
theorem split_text_child (dir : Path) (name : Segment) :
    split (dir.child name).text = (dir.text, name.text) := by
  have htext : (dir.child name).text = dir.steps ++ "/" ++ name.text := rfl
  rw [htext, split_append _ name.usable.2.2.2]
  cases dir with
  | root => rfl
  | child dir other =>
    have hsteps : (dir.child other).steps ≠ "" := mt steps_eq_empty_iff.1 (by simp)
    rw [if_neg hsteps]
    rfl

/-- A spelling cut into a directory, which has all its names but one, and the last name. Put
    together again, the two give the spelling back. -/
structure PartedInto (spelling dir name : String) : Prop where
  split : split spelling = (dir, name)
  canonical : Canonical dir
  length : (names spelling).length = (names dir).length + 1
  usable : Usable name
  join : (join dir name).text = spelling

theorem ofString_segment (name : Segment) : ofString name.text = root.child name := by
  have hplain : '/' ∉ name.text.toList := name.usable.2.2.2
  rw [ofString, List.splitOn_eq_singleton hplain, List.foldl_cons, List.foldl_nil,
    String.ofList_toList, enter, dif_pos name.usable]

theorem join_text_segment (dir : Path) (name : Segment) :
    join dir.text name.text = dir.child name := by
  refine place_injective ?_
  rw [place_join, ofString_segment]
  rfl

theorem join_eq_root_iff {base : Path} {name : String} :
    join base.text name = root ↔ base = root ∧ ofString name = root := by
  rw [← place_eq_nil_iff, place_join, List.append_eq_nil_iff, place_eq_nil_iff, place_eq_nil_iff]

/-- By the paths, of which the canonical spellings are those. -/
theorem Canonical.partedInto {spelling : String} (hspelling : Canonical spelling)
    (hroot : spelling ≠ "/") : ∃ dir name, PartedInto spelling dir name := by
  obtain ⟨path, rfl⟩ := canonical_iff_exists_text.1 hspelling
  cases path with
  | root => exact absurd rfl hroot
  | child dir name =>
    refine ⟨dir.text, name.text, split_text_child dir name, canonical_text dir, ?_, name.usable, ?_⟩
    · rw [names_text, names_text, place, List.length_append, List.length_singleton]
    · rw [join_text_segment]

/-- A spelling that is not canonical may keep all its names. -/
example : split "/a/" = ("/a", "") ∧ names "/a/" = names "/a" := by decide +kernel

theorem length_split_lt (spelling : String) (hspelling : Canonical spelling)
    (hroot : spelling ≠ "/") : (names (split spelling).1).length < (names spelling).length := by
  obtain ⟨dir, name, hparted⟩ := hspelling.partedInto hroot
  rw [hparted.split, hparted.length]
  exact Nat.lt_succ_self _

/-- The root is cut as well, into the root and no name. -/
theorem split_root : split "/" = ("/", "") := by decide +kernel

theorem Canonical.split_fst {spelling : String} (hspelling : Canonical spelling) :
    Canonical (split spelling).1 := by
  by_cases hroot : spelling = "/"
  · rw [hroot, split_root]
    exact .inl rfl
  · obtain ⟨dir, name, hparted⟩ := hspelling.partedInto hroot
    rw [hparted.split]
    exact hparted.canonical

theorem length_split_le (spelling : String) (hspelling : Canonical spelling) :
    (names (split spelling).1).length ≤ (names spelling).length := by
  by_cases hroot : spelling = "/"
  · exact Nat.le_of_eq (by rw [hroot, split_root])
  · exact Nat.le_of_lt (length_split_lt spelling hspelling hroot)

/-- Joining a canonical directory and a name is undone by splitting. -/
theorem Canonical.split_join {dir name : String} (hdir : Canonical dir) (hname : Usable name) :
    split (join dir name).text = (dir, name) := by
  obtain ⟨path, rfl⟩ := canonical_iff_exists_text.1 hdir
  rw [join_text_segment path ⟨name, hname⟩, split_text_child]

end VirtualFs.Path
