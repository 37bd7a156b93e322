import Mathlib.Data.List.Induction
import VirtualFs.Proofs.Path

namespace VirtualFs.Path

/-- The spelling of a row of names, each with a separator in front. -/
def row (names : Place) : String :=
  String.join (names.map ("/" ++ ·))

/-- A spelling is canonical if it is a lone separator, or else a row of names none of which is empty,
    stays, goes back or has a separator in it. -/
def Canonical (spelling : String) : Prop :=
  spelling = "/" ∨ ∃ names : Place, names ≠ [] ∧
    (∀ name ∈ names, name ≠ "" ∧ name ≠ "." ∧ name ≠ ".." ∧ '/' ∉ name.toList) ∧
    spelling = row names

@[simp] theorem row_nil : row [] = "" := rfl

theorem row_append (front back : Place) : row (front ++ back) = row front ++ row back := by
  rw [row, List.map_append, String.join_append, row, row]

theorem row_cons (name : String) (later : Place) :
    row (name :: later) = "/" ++ (name ++ row later) := by
  rw [row, List.map_cons, String.join_cons, String.append_assoc, row]

theorem steps_eq_row (path : Path) : path.steps = row path.place := by
  induction path with
  | root => rfl
  | child dir name ih =>
    rw [steps, place, row_append, ih, row_cons, row_nil, String.append_empty, String.append_assoc]

theorem usable_of_mem_place {path : Path} {name : String} (hmem : name ∈ path.place) :
    Usable name := by
  induction path with
  | root => cases hmem
  | child dir last ih =>
    rcases List.mem_append.1 hmem with hdir | hlast
    · exact ih hdir
    · rw [List.mem_singleton.1 hlast]
      exact last.usable

/-- Names that can each name a step lead somewhere together. By induction from the last of them. -/
theorem exists_place_eq {names : Place} (husable : ∀ name ∈ names, Usable name) :
    ∃ path : Path, path.place = names := by
  induction names using List.reverseRecOn with
  | nil => exact ⟨root, rfl⟩
  | append_singleton front last ih =>
    obtain ⟨dir, rfl⟩ := ih fun name hname => husable name (List.mem_append_left _ hname)
    exact ⟨dir.child ⟨last, husable last (by simp)⟩, rfl⟩

theorem place_eq_nil_iff {path : Path} : path.place = [] ↔ path = root := by
  constructor
  · intro hplace
    exact place_injective hplace
  · rintro rfl
    rfl

/-- Everywhere but at the root, the canonical spelling is the row of the names on the way. -/
theorem text_eq_row {path : Path} (hpath : path ≠ root) : path.text = row path.place := by
  cases path with
  | root => exact absurd rfl hpath
  | child dir name => exact steps_eq_row _

/-- The canonical spellings are those of the paths. -/
theorem canonical_iff_exists_text {spelling : String} :
    Canonical spelling ↔ ∃ path : Path, path.text = spelling := by
  constructor
  · rintro (rfl | ⟨names, hnames, husable, rfl⟩)
    · exact ⟨root, rfl⟩
    · obtain ⟨path, rfl⟩ := exists_place_eq husable
      exact ⟨path, text_eq_row fun hroot => hnames (place_eq_nil_iff.2 hroot)⟩
  · rintro ⟨path, rfl⟩
    by_cases hpath : path = root
    · exact .inl (hpath ▸ rfl)
    · exact .inr ⟨path.place, fun hplace => hpath (place_eq_nil_iff.1 hplace),
        fun _ => usable_of_mem_place, text_eq_row hpath⟩

theorem canonical_text (path : Path) : Canonical path.text :=
  canonical_iff_exists_text.2 ⟨path, rfl⟩

/-- A spelling is left as it is if it is the one spelling of its path. -/
theorem clean_eq_self_iff {spelling : String} : clean spelling = spelling ↔ Canonical spelling := by
  constructor
  · intro hclean
    rw [← hclean]
    exact canonical_text _
  · intro hcanonical
    obtain ⟨path, rfl⟩ := canonical_iff_exists_text.1 hcanonical
    rw [clean, ofString_text]

/-- Where a spelling leads is all that counts for what is behind it. -/
theorem clean_clean_append (front back : String) :
    clean (clean front ++ "/" ++ back) = clean (front ++ "/" ++ back) := by
  rw [clean, ofString_append, ofString_clean, ← ofString_append, clean]

/-- How a spelling is followed. It starts at the root, whether or not it says so. Pieces that stay can
    be left out, and one that goes back takes away the name in front of it. -/
structure Follows (spelling : String) : Prop where
  rooted : clean ("/" ++ spelling) = clean spelling
  stay_empty : clean (spelling ++ "/" ++ "") = clean spelling
  stay_dot : clean (spelling ++ "/" ++ ".") = clean spelling
  back : ∀ name : Segment, clean (spelling ++ "/" ++ name.text ++ "/" ++ "..") = clean spelling

theorem follows (spelling : String) : Follows spelling where
  rooted := by
    have hfront : ofString ("" ++ "/" ++ spelling) = ofString spelling := by
      rw [ofString_append]
      rfl
    rw [String.empty_append] at hfront
    rw [clean, hfront, clean]
  stay_empty := by
    rw [clean, ofString_append_piece _ (by decide), clean]
    rfl
  stay_dot := by
    rw [clean, ofString_append_piece _ (by decide), clean]
    rfl
  back name := by
    rw [clean, ofString_append_piece _ (by decide), ofString_append_segment, clean]
    rfl

/-- Cleaning gives every spelling its canonical form. The canonical spellings are those that it
    leaves as they are, and no others come out of it. A part in front can be cleaned first, also if
    what follows goes back beyond it, and there is nothing to go back to from the root. -/
theorem clean_canonicalizes (spelling other : String) :
    Canonical (clean spelling) ∧
      (clean spelling = spelling ↔ Canonical spelling) ∧
      clean (clean spelling) = clean spelling ∧
      (Canonical spelling ↔ ∃ source, clean source = spelling) ∧
      clean (spelling ++ "/" ++ other) = clean (clean spelling ++ "/" ++ other) ∧
      Follows spelling ∧ clean "/.." = "/" := by
  have hcanonical : Canonical (clean spelling) := canonical_text _
  refine ⟨hcanonical, clean_eq_self_iff, clean_eq_self_iff.2 hcanonical, ?_,
    (clean_clean_append spelling other).symm, follows spelling, by decide +kernel⟩
  constructor
  · intro hspelling
    exact ⟨spelling, clean_eq_self_iff.2 hspelling⟩
  · rintro ⟨source, rfl⟩
    exact canonical_text _

/-- Back beyond the part in front, with steps that stay and one that goes down again. -/
example : clean ("a//b" ++ "/" ++ "../.././../c/.") = "/c" := by decide +kernel

end VirtualFs.Path
