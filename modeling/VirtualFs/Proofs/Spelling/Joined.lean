import VirtualFs.Proofs.Spelling.Canonical

namespace VirtualFs.Path

/-- The names that stand between the separators of a spelling. -/
def names (spelling : String) : Place :=
  ((spelling.toList.splitOn '/').map String.ofList).filter (· ≠ "")

theorem names_append (front back : String) :
    names (front ++ "/" ++ back) = names front ++ names back := by
  have hlist : (front ++ "/" ++ back).toList = front.toList ++ '/' :: back.toList := by simp
  rw [names, hlist, List.splitOn_append_cons_self, List.map_append, List.filter_append]
  rfl

theorem names_segment (name : Segment) : names name.text = [name.text] := by
  have hplain : '/' ∉ name.text.toList := name.usable.2.2.2
  rw [names, List.splitOn_eq_singleton hplain]
  simp [name.usable.1]

theorem names_steps (path : Path) : names path.steps = path.place := by
  induction path with
  | root => rfl
  | child dir name ih => rw [steps, names_append, ih, names_segment, place]

/-- In the canonical spelling of a path stand the names that lead to it. -/
theorem names_text (path : Path) : names path.text = path.place := by
  cases path with
  | root => decide +kernel
  | child dir name => exact names_steps _

theorem clean_eq_clean_iff {spelling other : String} :
    clean spelling = clean other ↔ ofString spelling = ofString other := by
  rw [clean, clean, text_injective.eq_iff]

theorem clean_eq_root_iff {spelling : String} : clean spelling = "/" ↔ ofString spelling = root :=
  text_injective.eq_iff (b := root)

/-- How the places below a base are spelled: the base, when it is not the root, stands in front of
    them all, and each has the spelling that its name has by itself. -/
structure Prefixes (base : String) : Prop where
  root : base = "/" → ∀ name, (join base name).text = clean name
  under : base ≠ "/" → ∀ name,
    (join base name).text = base ∨ ∃ below, (join base name).text = base ++ "/" ++ below
  eq_base_iff : ∀ name, (join base name).text = base ↔ clean name = "/"
  injective : ∀ {name other}, (join base name).text = (join base other).text →
    clean name = clean other

theorem Canonical.prefixes {base : String} (hbase : Canonical base) : Prefixes base := by
  obtain ⟨path, rfl⟩ := canonical_iff_exists_text.1 hbase
  constructor
  case root =>
    intro hroot name
    obtain rfl : path = Path.root := text_injective hroot
    refine congrArg text (place_injective ?_)
    rw [place_join, place, List.nil_append]
  case under =>
    intro hroot name
    have hpath : path ≠ Path.root := fun h => hroot (h ▸ rfl)
    have hplace := place_join path name
    cases hname : (ofString name).place with
    | nil => exact .inl (congrArg text (join_of_root path (place_eq_nil_iff.1 hname)))
    | cons first later =>
      have hjoin : join path.text name ≠ Path.root := by
        intro h
        rw [h, hname, place] at hplace
        simp at hplace
      refine .inr ⟨first ++ row later, ?_⟩
      rw [text_eq_row hjoin, hplace, hname, row_append, ← text_eq_row hpath, row_cons,
        String.append_assoc]
  case eq_base_iff =>
    intro name
    rw [text_injective.eq_iff, join_eq_base_iff, clean_eq_root_iff]
  case injective =>
    intro name other hsame
    have hplace := congrArg place (text_injective hsame)
    rw [place_join, place_join] at hplace
    exact clean_eq_clean_iff.2 (place_injective (List.append_cancel_left hplace))

/-- Joining puts the names of two clean spellings in a row. So what is joined to a canonical base is
    spelled with the base in front, only cleaned spellings count, and it does not matter which of two
    joints is made first. -/
theorem join_concatenates :
    (∀ base name : String, names (join base name).text = names (clean base) ++ names (clean name)) ∧
      (∀ base : String, Canonical base → Prefixes base) ∧
      (∀ base name : String, (join base name).text = (join (clean base) (clean name)).text) ∧
      ∀ a b c : String,
        (join (join a b).text c).text = (join a (join b c).text).text := by
  refine ⟨fun base name => ?_, fun base => Canonical.prefixes, fun base name => ?_,
    fun a b c => ?_⟩
  · rw [names_text, clean, clean, names_text, names_text, place_join_eq]
  · refine congrArg text (place_injective ?_)
    rw [place_join_eq, place_join_eq, ofString_clean, ofString_clean]
  · refine congrArg text (place_injective ?_)
    rw [place_join_eq, ofString_text, place_join_eq, place_join_eq, ofString_text, place_join_eq,
      List.append_assoc]

/-- A name that goes back further than it went down, below a base of two steps. -/
theorem join_concatenates_climbing :
    Canonical "/a/b" ∧ Prefixes "/a/b" ∧ (join "/a/b" "c/../../../d//.").text = "/a/b/d" := by
  have hbase : Canonical "/a/b" := .inr ⟨["a", "b"], by decide, by decide +kernel, by decide +kernel⟩
  exact ⟨hbase, join_concatenates.2.1 _ hbase, by decide +kernel⟩

end VirtualFs.Path
