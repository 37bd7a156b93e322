import Mathlib.Data.List.Nodup
import VirtualFs.Proofs.Naming.Substitution

namespace VirtualFs.NameMapping

variable {entries : List (String × String)} {c : Char}

/-- A character that some substitution replaces. -/
def Replaces (entries : List (String × String)) (c : Char) : Prop :=
  ∃ new, (String.singleton c, new) ∈ entries

/-- What the first substitution for a character puts in its place. A character without one stands
    for itself. -/
def form (entries : List (String × String)) (c : Char) : List Char :=
  match entries.find? (fun substitution => substitution.1 = String.singleton c) with
  | some substitution => substitution.2.toList
  | none => [c]

/-- Substitutions for single characters that do not get in the way of one another: no replacement
    contains what another one replaces, or the same one. An empty key replaces nothing, so its entry
    does not count. -/
structure Independent (entries : List (String × String)) : Prop where
  single : ∀ substitution ∈ entries, substitution.1 ≠ "" → substitution.1.length = 1
  apart : ∀ substitution ∈ entries, substitution.1 ≠ "" →
    ∀ other ∈ entries, ∀ c ∈ other.1.toList, c ∉ substitution.2.toList

/-- Whether substitutions are independent can be seen from their characters. -/
theorem independent_iff_all : Independent entries ↔
    entries.all (fun substitution => substitution.1 = "" || substitution.1.length = 1 &&
      entries.all (fun other => other.1.toList.all (· ∉ substitution.2.toList))) = true := by
  simp only [List.all_eq_true, Bool.or_eq_true, Bool.and_eq_true, decide_eq_true_iff]
  constructor
  · intro hall substitution hmem
    by_cases hkey : substitution.1 = ""
    · exact .inl hkey
    · exact .inr ⟨hall.single substitution hmem hkey, hall.apart substitution hmem hkey⟩
  · intro hall
    exact ⟨fun substitution hmem hkey => ((hall substitution hmem).resolve_left hkey).1,
      fun substitution hmem hkey => ((hall substitution hmem).resolve_left hkey).2⟩

instance (entries : List (String × String)) : Decidable (Independent entries) :=
  decidable_of_iff _ independent_iff_all.symm

theorem form_of_not_replaces (hnone : ¬ Replaces entries c) : form entries c = [c] := by
  have hfind : entries.find? (fun substitution => substitution.1 = String.singleton c) = none := by
    rw [List.find?_eq_none]
    rintro ⟨key, new⟩ hmem hkey
    obtain rfl : key = String.singleton c := by simpa using hkey
    exact hnone ⟨new, hmem⟩
  rw [form, hfind]

theorem exists_form_eq (hreplaces : Replaces entries c) :
    ∃ new, (String.singleton c, new) ∈ entries ∧ form entries c = new.toList := by
  obtain ⟨old, hmem⟩ := hreplaces
  have hsome : (entries.find? (fun substitution => substitution.1 = String.singleton c)).isSome :=
    List.find?_isSome.2 ⟨_, hmem, by simp⟩
  obtain ⟨⟨key, new⟩, hfind⟩ := Option.isSome_iff_exists.1 hsome
  obtain rfl : key = String.singleton c := by simpa using List.find?_some hfind
  exact ⟨new, List.mem_of_find?_eq_some hfind, by rw [form, hfind]⟩

/-- Where each key stands once, the substitution for a character is the one that is there. -/
theorem form_of_mem (hkeys : (entries.map Prod.fst).Nodup) {new : String}
    (hmem : (String.singleton c, new) ∈ entries) : form entries c = new.toList := by
  obtain ⟨other, hother, hform⟩ := exists_form_eq ⟨new, hmem⟩
  have hsame := List.inj_on_of_nodup_map hkeys hother hmem rfl
  rw [hform, (Prod.mk.inj hsame).2]

theorem form_cons_of_ne {substitution : String × String}
    (hne : substitution.1 ≠ String.singleton c) :
    form (substitution :: entries) c = form entries c := by
  rw [form, List.find?_cons_of_neg (by simpa using hne), form]

theorem form_cons_self {new : String} :
    form ((String.singleton c, new) :: entries) c = new.toList := by
  rw [form, List.find?_cons_of_pos (by simp)]

theorem Replaces.cons {substitution : String × String} (hreplaces : Replaces entries c) :
    Replaces (substitution :: entries) c :=
  hreplaces.imp fun _ => List.mem_cons_of_mem _

theorem Replaces.perm {other : List (String × String)} (hreplaces : Replaces entries c)
    (hperm : entries.Perm other) : Replaces other c :=
  hreplaces.imp fun _ => hperm.mem_iff.1

namespace Independent

theorem tail {substitution : String × String} (hall : Independent (substitution :: entries)) :
    Independent entries where
  single := fun later hlater => hall.single later (List.mem_cons_of_mem _ hlater)
  apart := fun later hlater hkey other hother =>
    hall.apart later (List.mem_cons_of_mem _ hlater) hkey other (List.mem_cons_of_mem _ hother)

theorem perm {other : List (String × String)} (hall : Independent entries)
    (hperm : entries.Perm other) : Independent other where
  single := fun substitution hmem => hall.single substitution (hperm.mem_iff.2 hmem)
  apart := fun substitution hmem hkey other hother =>
    hall.apart substitution (hperm.mem_iff.2 hmem) hkey other (hperm.mem_iff.2 hother)

theorem exists_key_eq (hall : Independent entries) {substitution : String × String}
    (hmem : substitution ∈ entries) (hkey : substitution.1 ≠ "") :
    ∃ c, substitution.1 = String.singleton c := by
  have hlength : substitution.1.toList.length = 1 :=
    String.length_toList.trans (hall.single substitution hmem hkey)
  obtain ⟨c, hc⟩ := List.length_eq_one_iff.1 hlength
  exact ⟨c, String.toList_inj.1 (hc.trans (String.toList_singleton c).symm)⟩

/-- No replacement brings back what some substitution replaces. -/
theorem not_mem_new {new : String} {d : Char} (hall : Independent entries)
    (hmem : (String.singleton c, new) ∈ entries) (hreplaces : Replaces entries d) :
    d ∉ new.toList := by
  obtain ⟨other, hother⟩ := hreplaces
  exact hall.apart _ hmem String.singleton_ne_empty _ hother d (by simp)

/-- The later passes leave alone what the first one has put in. -/
theorem flatMap_form_later {new : String} {later : List (String × String)}
    (hall : Independent ((String.singleton c, new) :: later)) :
    new.toList.flatMap (form later) = new.toList := by
  refine Text.flatMap_eq_self fun d hd => form_of_not_replaces fun hreplaces => ?_
  exact hall.not_mem_new List.mem_cons_self hreplaces.cons hd

/-- One pass after the other comes to one pass over the characters. By induction on the passes: what
    the first has put in is left alone by all others, and what it has left is taken by them as it
    was. -/
theorem toList_foldl (hall : Independent entries) (name : String) :
    (entries.foldl substituteOne name).toList = name.toList.flatMap (form entries) := by
  induction entries generalizing name with
  | nil => exact (List.flatMap_singleton' _).symm
  | cons substitution later ih =>
    obtain ⟨key, new⟩ := substitution
    rw [List.foldl_cons, ih hall.tail]
    by_cases hempty : key = ""
    · subst hempty
      have hform : form (("", new) :: later) = form later :=
        funext fun c => form_cons_of_ne String.singleton_ne_empty.symm
      rw [substituteOne, if_pos rfl, hform]
    · obtain ⟨k, rfl⟩ : ∃ k, key = String.singleton k :=
        hall.exists_key_eq List.mem_cons_self hempty
      rw [substituteOne, if_neg hempty, String.toList_ofList, String.toList_singleton,
        substitute_singleton, Text.replaceChar, List.flatMap_assoc]
      refine List.flatMap_congr fun c _ => ?_
      by_cases hfound : c = k
      · subst hfound
        rw [if_pos rfl, form_cons_self]
        exact hall.flatMap_form_later
      · have hother : String.singleton k ≠ String.singleton c :=
          fun h => hfound (String.singleton_inj.1 h).symm
        rw [if_neg hfound, form_cons_of_ne hother, List.flatMap_singleton]

theorem not_mem_flatMap_form (hall : Independent entries) (hreplaces : Replaces entries c)
    (text : List Char) : c ∉ text.flatMap (form entries) := by
  intro hmem
  obtain ⟨d, -, hc⟩ := List.mem_flatMap.1 hmem
  by_cases hd : Replaces entries d
  · obtain ⟨new, hnew, hform⟩ := exists_form_eq hd
    exact hall.not_mem_new hnew hreplaces (hform ▸ hc)
  · rw [form_of_not_replaces hd, List.mem_singleton] at hc
    exact hd (hc ▸ hreplaces)

/-- In what order the passes are made does not matter, as each character has one substitution. -/
theorem foldl_eq_of_perm {other : List (String × String)} (hall : Independent entries)
    (hkeys : (entries.map Prod.fst).Nodup) (hperm : other.Perm entries) (name : String) :
    other.foldl substituteOne name = entries.foldl substituteOne name := by
  refine String.toList_inj.1 ?_
  rw [(hall.perm hperm.symm).toList_foldl, hall.toList_foldl]
  refine List.flatMap_congr fun c _ => ?_
  by_cases hreplaces : Replaces other c
  · obtain ⟨new, hnew, hform⟩ := exists_form_eq hreplaces
    rw [hform, form_of_mem hkeys (hperm.mem_iff.1 hnew)]
  · have hnone : ¬ Replaces entries c := fun h => hreplaces (h.perm hperm.symm)
    rw [form_of_not_replaces hreplaces, form_of_not_replaces hnone]

end Independent

theorem nodup_keys (mapping : NameMapping) :
    (mapping.substitutions.entries.map Prod.fst).Nodup :=
  List.pairwise_map.2 (mapping.substitutions.ordered.imp fun hlt => String.ne_of_lt hlt)

/-- Substitutions for single characters of which none undoes or extends another act all at once:
    each character of a name gives way to its replacement or stays. So their order does not matter,
    what they replace is gone, a name can be taken piece by piece, and a second round finds nothing
    to do. -/
theorem substitutes_at_once {mapping : NameMapping}
    (hindependent : Independent mapping.substitutions.entries) :
    (∀ name, mapping.apply name =
        String.ofList (name.toList.flatMap (form mapping.substitutions.entries))) ∧
      (∀ entries : List (String × String), entries.Perm mapping.substitutions.entries →
        ∀ name, entries.foldl substituteOne name = mapping.apply name) ∧
      (∀ c, Replaces mapping.substitutions.entries c →
        ∀ name, c ∉ (mapping.apply name).toList) ∧
      (∀ front back, mapping.apply (front ++ back) = mapping.apply front ++ mapping.apply back) ∧
      ∀ name, mapping.apply (mapping.apply name) = mapping.apply name := by
  have hchars : ∀ name, (mapping.apply name).toList =
      name.toList.flatMap (form mapping.substitutions.entries) := hindependent.toList_foldl
  have hgone : ∀ c, Replaces mapping.substitutions.entries c →
      ∀ name, c ∉ (mapping.apply name).toList := by
    intro c hreplaces name
    rw [hchars]
    exact hindependent.not_mem_flatMap_form hreplaces _
  refine ⟨fun name => ?_, fun entries hperm name => ?_, hgone, fun front back => ?_, fun name => ?_⟩
  · rw [← hchars, String.ofList_toList]
  · exact hindependent.foldl_eq_of_perm mapping.nodup_keys hperm name
  · refine String.toList_inj.1 ?_
    rw [String.toList_append, hchars, hchars, hchars, String.toList_append, List.flatMap_append]
  · refine String.toList_inj.1 ?_
    rw [hchars (mapping.apply name)]
    exact Text.flatMap_eq_self fun c hc =>
      form_of_not_replaces fun hreplaces => hgone c hreplaces name hc

/-- Two characters with a substitute, one that is dropped, and an entry that has nothing to find. -/
def tidy : NameMapping :=
  ⟨.ofList [(":", "--"), ("/", "|"), ("ß", ""), ("", ":")]⟩

theorem independent_tidy : Independent tidy.substitutions.entries := by decide +kernel

/-- All of a name's separators and colons at once, also where the passes go the other way round. -/
theorem substitutes_at_once_tidy :
    Independent tidy.substitutions.entries ∧ tidy.apply "a/:ß" = "a|--" ∧
      tidy.substitutions.entries.reverse.foldl substituteOne "a/:ß" = "a|--" ∧
      ':' ∉ (tidy.apply "a/:ß").toList ∧
      tidy.apply ("a/" ++ ":ß") = tidy.apply "a/" ++ tidy.apply ":ß" ∧
      tidy.apply (tidy.apply "a/:ß") = tidy.apply "a/:ß" := by
  obtain ⟨honce, horder, hgone, happend, htwice⟩ := substitutes_at_once independent_tidy
  have hshown : tidy.apply "a/:ß" = "a|--" := by
    rw [honce]
    decide +kernel
  have hcolon : Replaces tidy.substitutions.entries ':' := ⟨"--", by decide +kernel⟩
  exact ⟨independent_tidy, hshown, (horder _ (List.reverse_perm _) _).trans hshown,
    hgone ':' hcolon _, happend _ _, htwice _⟩

end VirtualFs.NameMapping
