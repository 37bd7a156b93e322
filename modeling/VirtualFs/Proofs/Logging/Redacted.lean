import Mathlib.Data.List.Permutation
import Mathlib.Data.List.Sort
import VirtualFs.Proofs.Logging.Logs

namespace VirtualFs

/-- A table is in the order of its keys, so the keys alone determine how they stand. -/
theorem Dict.map_fst_eq {α β : Type} {first : Dict α} {second : Dict β}
    (hkeys : ∀ key, key ∈ first.entries.map Prod.fst ↔ key ∈ second.entries.map Prod.fst) :
    first.entries.map Prod.fst = second.entries.map Prod.fst :=
  (List.pairwise_map.2 first.ordered).eq_of_mem_iff (List.pairwise_map.2 second.ordered) hkeys

namespace Redaction

/-- Values that are not to be told apart where they stand under a key. -/
inductive Alike (redaction : Redaction) (key : String) : Json.Value → Json.Value → Prop
  | hidden {value other : Json.Value} (hides : redaction.hidesKey key = true) :
      Alike redaction key value other
  | same (value : Json.Value) : Alike redaction key value value
  | arrays (items others : List Json.Value) : Alike redaction key (.array items) (.array others)
  | objects (fields others : List (String × Json.Value)) :
      Alike redaction key (.object fields) (.object others)
  | secrets {text other : String} (likely : Secret.isLikely text = true)
      (otherLikely : Secret.isLikely other = true) :
      Alike redaction key (.string text) (.string other)

/-- Objects with the same keys whose values are not to be told apart. -/
structure SameButSecrets (redaction : Redaction) (first second : Dict Json.Value) : Prop where
  keys : ∀ key, key ∈ first.entries.map Prod.fst ↔ key ∈ second.entries.map Prod.fst
  alike : ∀ {key value other}, (key, value) ∈ first.entries → (key, other) ∈ second.entries →
    redaction.Alike key value other

variable {redaction : Redaction}

theorem showText_of_isLikely (hactive : redaction.active = true) {text : String}
    (hlikely : Secret.isLikely text = true) : redaction.showText text = hidden := by
  rw [showText, hactive, hlikely]
  rfl

/-- The key is looked at first, then what sort of value it is, and of a text whether it has the looks
    of a secret. Nothing is cut short before that. -/
theorem Alike.showField_eq (hactive : redaction.active = true) {key : String}
    {value other : Json.Value} (halike : redaction.Alike key value other) :
    redaction.showField (key, value) = redaction.showField (key, other) := by
  cases halike with
  | hidden hides => simp only [showField, hides, if_true]
  | same => rfl
  | arrays items others => rfl
  | objects fields others => rfl
  | secrets likely otherLikely =>
    have hshown : redaction.showText _ = redaction.showText _ :=
      (showText_of_isLikely hactive likely).trans (showText_of_isLikely hactive otherLikely).symm
    simp only [showField, showValue, hshown]

/-- By induction on the fields, which stand in one order. -/
theorem map_showField_eq (hactive : redaction.active = true)
    {first second : List (String × Json.Value)} (hkeys : first.map Prod.fst = second.map Prod.fst)
    (halike : ∀ {key value other}, (key, value) ∈ first → (key, other) ∈ second →
      redaction.Alike key value other) :
    first.map redaction.showField = second.map redaction.showField := by
  induction first generalizing second with
  | nil =>
    obtain rfl : second = [] := List.map_eq_nil_iff.1 hkeys.symm
    rfl
  | cons field rest ih =>
    obtain ⟨⟨key, other⟩, rest', rfl, hkey, hrest⟩ := List.map_eq_cons_iff.1 hkeys.symm
    obtain ⟨key', value⟩ := field
    obtain rfl : key = key' := hkey
    have hfield := (halike List.mem_cons_self List.mem_cons_self).showField_eq hactive
    have htail := ih hrest.symm fun hvalue hother =>
      halike (List.mem_cons_of_mem _ hvalue) (List.mem_cons_of_mem _ hother)
    rw [List.map_cons, List.map_cons, hfield, htail]

theorem SameButSecrets.render_eq (hactive : redaction.active = true) {first second : Dict Json.Value}
    (hsame : redaction.SameButSecrets first second) :
    redaction.render (.object first.entries) = redaction.render (.object second.entries) :=
  congrArg (" ".intercalate ·)
    (map_showField_eq hactive (Dict.map_fst_eq hsame.keys) hsame.alike)

/-- What is shown of settings is the same for settings that differ in nothing but what lies under
    a key that gives it away, in nested values and in texts with the looks of a secret. So no mount
    that is built from such settings logs anything of these, whatever the backend answers. -/
theorem noninterference (hactive : redaction.active = true) {first second : Dict Json.Value}
    (hsame : redaction.SameButSecrets first second) :
    redaction.render (.object first.entries) = redaction.render (.object second.entries) ∧
      (redaction = {} → ∀ {settings settings' : String},
        Json.Value.ofText? settings = some (.object first.entries) →
        Json.Value.ofText? settings' = some (.object second.entries) →
        ∀ number number' config config' shown,
          (Mount.buildFrom number config settings).Logs (.initializing shown) ↔
            (Mount.buildFrom number' config' settings').Logs (.initializing shown)) := by
  have hrender := hsame.render_eq hactive
  refine ⟨hrender, ?_⟩
  rintro rfl settings settings' hsettings hsettings' number number' config config' shown
  rw [Mount.logs_initializing_buildFrom hsettings, Mount.logs_initializing_buildFrom hsettings',
    hrender]

/-- The settings of a drive with a note, an owner and a password. -/
def driveSettings (note : String) (owner : List (String × Json.Value)) (password : String) :
    Dict Json.Value where
  entries := [("note", .string note), ("owner", .object owner), ("password", .string password)]
  ordered := by
    have hkeys : ["note", "owner", "password"].Pairwise (· < ·) := by decide +kernel
    exact (List.pairwise_map (f := Prod.fst)).1 hkeys

theorem sameButSecrets_driveSettings {note note' : String} (hnote : Secret.isLikely note = true)
    (hnote' : Secret.isLikely note' = true) (owner owner' : List (String × Json.Value))
    (password password' : String) :
    ({} : Redaction).SameButSecrets (driveSettings note owner password)
      (driveSettings note' owner' password') where
  keys key := by rfl
  alike := by
    intro key value other hvalue hother
    have hpassword : ({} : Redaction).hidesKey "password" = true := by decide +kernel
    simp only [driveSettings, List.mem_cons, Prod.mk.injEq, List.not_mem_nil, or_false]
      at hvalue hother
    rcases hvalue with ⟨rfl, rfl⟩ | ⟨rfl, rfl⟩ | ⟨rfl, rfl⟩
    · obtain rfl : other = .string note' := by simpa using hother
      exact .secrets hnote hnote'
    · obtain rfl : other = .object owner' := by simpa using hother
      exact .objects owner owner'
    · exact .hidden hpassword

/-- Two drives that differ in nothing but what is secret about them. -/
theorem noninterference_drives :
    ∃ shown, shown = "note=[REDACTED] owner=[object] password=[REDACTED]" ∧
      (Mount.buildFrom 0 {}
        "\x7b\"password\":\"a\",\"note\":\"sk-0123456789abc\",\"owner\":\x7b\x7d\x7d").Logs
          (.initializing shown) ∧
      (Mount.buildFrom 0 {}
        "\x7b\"password\":\"b\",\"note\":\"ghp_0123456789abc\",\"owner\":\x7b\"pin\":null\x7d\x7d").Logs
          (.initializing shown) := by
  have hsettings : Json.Value.ofText?
      "\x7b\"password\":\"a\",\"note\":\"sk-0123456789abc\",\"owner\":\x7b\x7d\x7d" =
        some (.object (driveSettings "sk-0123456789abc" [] "a").entries) := by
    rw [driveSettings]
    cbv
  have hsettings' : Json.Value.ofText?
      "\x7b\"password\":\"b\",\"note\":\"ghp_0123456789abc\",\"owner\":\x7b\"pin\":null\x7d\x7d" =
        some (.object (driveSettings "ghp_0123456789abc" [("pin", .null)] "b").entries) := by
    rw [driveSettings]
    cbv
  have hlikely : Secret.isLikely "sk-0123456789abc" = true := by decide +kernel
  have hlikely' : Secret.isLikely "ghp_0123456789abc" = true := by decide +kernel
  have hsame := sameButSecrets_driveSettings hlikely hlikely' [] [("pin", .null)] "a" "b"
  have hshown : "note=[REDACTED] owner=[object] password=[REDACTED]" = ({} : Redaction).render
      (.object (driveSettings "sk-0123456789abc" [] "a").entries) := by
    decide +kernel
  refine ⟨_, rfl, (Mount.logs_initializing_buildFrom hsettings).2 hshown, ?_⟩
  exact ((noninterference rfl hsame).2 rfl hsettings hsettings' 0 0 {} {} _).1
    ((Mount.logs_initializing_buildFrom hsettings).2 hshown)

end Redaction

end VirtualFs
