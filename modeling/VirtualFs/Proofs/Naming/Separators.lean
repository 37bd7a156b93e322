import VirtualFs.Proofs.Naming.Listed
import VirtualFs.Proofs.Naming.Substitution
import VirtualFs.Proofs.Path
import VirtualFs.Scenario.Script

namespace VirtualFs

/-- A text without a separator in it. It leads one step down at most. -/
structure AtMostOneStep (name : String) : Prop where
  plain : '/' ∉ name.toList
  short : (Path.ofString name).place.length ≤ 1

theorem atMostOneStep_of_plain {name : String} (hplain : '/' ∉ name.toList) :
    AtMostOneStep name := by
  refine ⟨hplain, ?_⟩
  unfold Path.ofString
  rw [List.splitOn_eq_singleton hplain, List.foldl_cons, List.foldl_nil, String.ofList_toList]
  unfold Path.enter
  split
  case isTrue => simp [Path.place]
  case isFalse =>
    split
    · simp [Path.place, Path.dir]
    · simp [Path.place]

namespace NameMapping

open World

/-- A mapping that has something to put in the place of a separator, and puts a separator in the place
    of nothing. Its other keys may hold separators, or be empty. -/
structure RemovesSeparators (mapping : NameMapping) : Prop where
  key : ∃ new, ("/", new) ∈ mapping.substitutions.entries
  plain : ∀ substitution ∈ mapping.substitutions.entries, '/' ∉ substitution.2.toList

theorem removesSeparators_standard : standard.RemovesSeparators where
  key := ⟨"|", by decide +kernel⟩
  plain := by decide +kernel

theorem RemovesSeparators.atMostOneStep {mapping : NameMapping}
    (hremoves : mapping.RemovesSeparators) (name : String) :
    AtMostOneStep (mapping.apply name) := by
  obtain ⟨new, hkey⟩ := hremoves.key
  exact atMostOneStep_of_plain (not_mem_apply (c := '/') hkey hremoves.plain name)

/-- Where separators are removed from names, as they are unless something else is asked for, every
    shown name is one step of a path at most, whatever the backend calls its objects. So is every name
    in a listing, whatever the backend does and whoever else calls. -/
theorem names_at_most_one_step {mapping : NameMapping} (hremoves : mapping.RemovesSeparators) :
    (∀ name, AtMostOneStep (mapping.apply name)) ∧
      (∀ {σ : Type} {backend : Backend σ} {surroundings : Surroundings σ} {mount : Mount}
        {calls : List Call} {moves : List (Move σ)} {index : Nat} {entries : List Entry},
        mount.mapping = mapping →
        ((gatherCalls surroundings mount calls : World backend _).run moves).result? index =
          some (.ok (.entries entries)) →
        ∀ entry ∈ entries, AtMostOneStep entry.name) ∧
      standard.RemovesSeparators := by
  refine ⟨hremoves.atMostOneStep, ?_, removesSeparators_standard⟩
  rintro σ backend surroundings mount calls moves index entries rfl hreturned entry hentry
  have hshown : ShownBy mount.mapping entries := shownBy_run hreturned
  rw [hshown entry hentry]
  exact hremoves.atMostOneStep _

section Overlapping

open Scenario

/-- Substitutions of which some find separators before the one for a separator alone has taken them
    out, some come too late for that, and one has nothing to find. -/
def overlapping : NameMapping :=
  ⟨.ofList [("/", "|"), ("", "!"), ("$/", "&"), ("//", "-"), ("|", "||")]⟩

theorem removesSeparators_overlapping : overlapping.RemovesSeparators where
  key := ⟨"|", by decide +kernel⟩
  plain := by decide +kernel

/-- A store with a file whose name has separators in it. -/
def untidy : Script where
  store :=
    { nodes :=
      [⟨{ id := "/", path := "/", isFolder := true }, none, [], .data []⟩,
        ⟨{ id := "/f", path := "/f", name := "a//b$/c", size := 1 }, some "/", [7], .data [7]⟩] }

/-- A file whose name reads as three steps of a path is listed under a name that is one. -/
theorem names_at_most_one_step_overlapping :
    let mount : Mount := ⟨0, .root, "root", overlapping, none⟩
    let start : World Script.backend _ := gatherCalls ⟨untidy, []⟩ mount [.readDir "/"]
    overlapping.RemovesSeparators ∧ AtMostOneStep (overlapping.apply "a//b$/c") ∧
      ∃ entries, (start.run [.turn 0]).result? 0 = some (.ok (.entries entries)) ∧
        entries.map Entry.name = ["a||||b&c"] ∧ ∀ entry ∈ entries, AtMostOneStep entry.name := by
  intro mount start
  have hlisted : (((start.run [.turn 0]).result? 0).bind listed?).any
      (fun entries => decide (entries.map Entry.name = ["a||||b&c"])) = true := by
    decide +kernel
  obtain ⟨entries, hentries, hnames⟩ := (Option.any_eq_true _ _).1 hlisted
  obtain ⟨result, hresult, hlisted⟩ := Option.bind_eq_some_iff.1 hentries
  obtain rfl := listed?_eq_some_iff.1 hlisted
  obtain ⟨happly, hlistings, -⟩ := names_at_most_one_step removesSeparators_overlapping
  exact ⟨removesSeparators_overlapping, happly _, entries, hresult, by simpa using hnames,
    hlistings rfl hresult⟩

end Overlapping

end NameMapping

end VirtualFs
