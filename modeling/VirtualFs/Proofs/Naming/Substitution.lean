import Mathlib.Data.List.Basic
import VirtualFs.NameMapping
import VirtualFs.Text.OneLine

namespace VirtualFs

/-- A single character is replaced wherever it stands, each by itself. -/
theorem substitute_singleton (old : Char) (new text : List Char) :
    substitute [old] new 0 text = Text.replaceChar old new text := by
  induction text with
  | nil => rfl
  | cons c rest ih =>
    by_cases hfound : c = old
    · subst hfound
      simpa [substitute, Text.replaceChar] using ih
    · have hother : old ≠ c := fun h => hfound h.symm
      simpa [substitute, Text.replaceChar, hfound, hother] using ih

/-- What stands in the result has come with a replacement or stood there before. -/
theorem mem_of_mem_substitute {old new text : List Char} {skip : Nat} {c : Char}
    (hmem : c ∈ substitute old new skip text) : c ∈ new ∨ c ∈ text := by
  fun_induction substitute old new skip text with
  | case1 => simp at hmem
  | case2 skip d rest ih => exact (ih hmem).imp_right (List.mem_cons_of_mem d)
  | case3 d rest hfound ih =>
    rcases List.mem_append.1 hmem with hnew | hlater
    · exact .inl hnew
    · exact (ih hlater).imp_right (List.mem_cons_of_mem d)
  | case4 d rest hnone ih =>
    rcases List.mem_cons.1 hmem with rfl | hlater
    · exact .inr List.mem_cons_self
    · exact (ih hlater).imp_right (List.mem_cons_of_mem d)

namespace Text

/-- A text stays as it is if each of its characters stands for itself. -/
theorem flatMap_eq_self {form : Char → List Char} {text : List Char}
    (hform : ∀ c ∈ text, form c = [c]) : text.flatMap form = text :=
  (List.flatMap_congr hform).trans (List.flatMap_singleton' text)

/-- A character that is replaced is gone, unless the replacement brings it back. -/
theorem not_mem_replaceChar {old : Char} {new : List Char} (hnew : old ∉ new) (text : List Char) :
    old ∉ replaceChar old new text := by
  intro hmem
  obtain ⟨c, -, hc⟩ := List.mem_flatMap.1 hmem
  split at hc
  case isTrue => exact hnew hc
  case isFalse hother => exact hother (List.mem_singleton.1 hc).symm

end Text

namespace NameMapping

variable {c : Char} {name : String} {entries : List (String × String)}

/-- A substitution brings no character into a name that its replacement is free of. -/
theorem not_mem_substituteOne {substitution : String × String} (hname : c ∉ name.toList)
    (hnew : c ∉ substitution.2.toList) : c ∉ (substituteOne name substitution).toList := by
  unfold substituteOne
  split
  case isTrue => exact hname
  case isFalse =>
    rw [String.toList_ofList]
    intro hmem
    rcases mem_of_mem_substitute hmem with h | h
    · exact hnew h
    · exact hname h

/-- A substitution for a character alone takes it out of a name, whatever the name was. -/
theorem not_mem_substituteOne_self {new : String} (hnew : c ∉ new.toList) :
    c ∉ (substituteOne name (String.singleton c, new)).toList := by
  have hkey : String.singleton c ≠ "" := by simp
  rw [substituteOne, if_neg hkey, String.toList_ofList, String.toList_singleton,
    substitute_singleton]
  exact Text.not_mem_replaceChar hnew _

/-- The substitutions that come later do not bring back what is gone. -/
theorem not_mem_foldl (hnew : ∀ substitution ∈ entries, c ∉ substitution.2.toList)
    (hname : c ∉ name.toList) : c ∉ (entries.foldl substituteOne name).toList := by
  induction entries generalizing name with
  | nil => exact hname
  | cons substitution later ih =>
    obtain ⟨hfirst, hlater⟩ := List.forall_mem_cons.1 hnew
    exact ih hlater (not_mem_substituteOne hname hfirst)

/-- A character with a substitution of its own does not occur in any shown name, if no replacement
    brings it back. The substitutions before its own do not matter. -/
theorem not_mem_apply {mapping : NameMapping} {new : String}
    (hkey : (String.singleton c, new) ∈ mapping.substitutions.entries)
    (hnew : ∀ substitution ∈ mapping.substitutions.entries, c ∉ substitution.2.toList)
    (name : String) : c ∉ (mapping.apply name).toList := by
  unfold apply
  obtain ⟨earlier, later, hentries⟩ := List.append_of_mem hkey
  rw [hentries] at hnew ⊢
  rw [List.foldl_append, List.foldl_cons]
  have hgone : c ∉ (substituteOne (earlier.foldl substituteOne name)
      (String.singleton c, new)).toList :=
    not_mem_substituteOne_self (hnew (String.singleton c, new) (by simp))
  exact not_mem_foldl (fun substitution hmem => hnew substitution (by simp [hmem])) hgone

end NameMapping

end VirtualFs
