import Mathlib.Data.List.Infix
import VirtualFs.Proofs.Naming.Substitution
import VirtualFs.Redaction

namespace VirtualFs

namespace Text

theorem occursIn_iff {part text : List Char} : occursIn part text = true ↔ part <:+: text := by
  induction text with
  | nil => simp [occursIn]
  | cons c rest ih => simp [occursIn, List.infix_cons_iff, ih]

/-- Texts that differ in nothing but the case of letters from A to Z. -/
def SameLetters (text other : List Char) : Prop :=
  text.map Char.toLower = other.map Char.toLower

/-- A letter from A to Z is the upper-case form of itself and of its counterpart. -/
theorem upperChar_of_isUpper {c : Char} (hupper : c.isUpper = true) :
    upperChar c = [c] ∧ upperChar c.toLower = [c] := by
  have hletters : ∀ code < 91, 65 ≤ code →
      upperChar (Char.ofNat code) = [Char.ofNat code] ∧
        upperChar (Char.ofNat code).toLower = [Char.ofNat code] := by
    decide +kernel
  have hcode : 65 ≤ c.toNat ∧ c.toNat ≤ 90 := by
    have hrange : c.val ≥ 'A'.val ∧ c.val ≤ 'Z'.val := of_decide_eq_true hupper
    simpa [UInt32.le_iff_toNat_le, ← Char.toNat_val] using hrange
  have hletter := hletters c.toNat (by omega) hcode.1
  rwa [Char.ofNat_toNat] at hletter

theorem upperChar_toLower (c : Char) : upperChar c.toLower = upperChar c := by
  by_cases hupper : c.isUpper = true
  · obtain ⟨hself, hlower⟩ := upperChar_of_isUpper hupper
    rw [hlower, hself]
  · have hsame : c.toLower = c := dif_neg fun hrange => hupper (decide_eq_true hrange)
    rw [hsame]

/-- The upper-case form of a text is made character by character, so what differs in the case of
    letters alone has the same one. -/
theorem SameLetters.flatMap_upperChar {text other : List Char} (hsame : SameLetters text other) :
    text.flatMap upperChar = other.flatMap upperChar := by
  have hlower : ∀ text : List Char,
      (text.map Char.toLower).flatMap upperChar = text.flatMap upperChar := by
    intro text
    simp only [List.flatMap_map, upperChar_toLower]
  rw [← hlower text, hsame, hlower other]

theorem upper_of_all_isUpper {text : String} (hupper : text.toList.all Char.isUpper = true) :
    upper text = text := by
  have hforms : text.toList.flatMap upperChar = text.toList :=
    flatMap_eq_self fun c hc => (upperChar_of_isUpper (List.all_eq_true.1 hupper c hc)).1
  rw [upper, hforms, String.ofList_toList]

theorem toList_upper (text : String) : (upper text).toList = text.toList.flatMap upperChar := by
  rw [upper, String.toList_ofList]

end Text

namespace Redaction

/-- What can be asked for beyond what holds anyway. -/
inductive Adjustment where
  | hideKey (pattern : String)
  | limit (length : Nat)

def adjust (redaction : Redaction) : Adjustment → Redaction
  | .hideKey pattern => redaction.hideKey pattern
  | .limit length => { redaction with maxLength := length }

/-- The redaction after some adjustments, of which the first is made first. -/
def adjusted (adjustments : List Adjustment) : Redaction :=
  adjustments.foldl adjust {}

/-- A pattern of keys that are hidden, because they always are or because it was asked for. -/
def Sensitive (adjustments : List Adjustment) (pattern : String) : Prop :=
  pattern ∈ ({} : Redaction).patterns ∨ .hideKey pattern ∈ adjustments

variable {redaction : Redaction} {adjustment : Adjustment} {adjustments : List Adjustment}
  {pattern key form : String}

theorem active_adjust : (redaction.adjust adjustment).active = redaction.active := by
  cases adjustment <;> rfl

theorem mem_patterns_adjust : form ∈ (redaction.adjust adjustment).patterns ↔
    form ∈ redaction.patterns ∨
      ∃ pattern, adjustment = .hideKey pattern ∧ Text.upper pattern = form := by
  cases adjustment with
  | hideKey pattern => simp [adjust, hideKey, eq_comm]
  | limit length => simp [adjust]

theorem active_adjusted : (adjusted adjustments).active = true := by
  induction adjustments using List.reverseRecOn with
  | nil => rfl
  | append_singleton earlier last ih =>
    rw [adjusted, List.foldl_append, List.foldl_cons, List.foldl_nil, active_adjust]
    exact ih

/-- No adjustment takes a pattern away, and the others stay as they are. -/
theorem mem_patterns_adjusted : form ∈ (adjusted adjustments).patterns ↔
    form ∈ ({} : Redaction).patterns ∨
      ∃ pattern, .hideKey pattern ∈ adjustments ∧ Text.upper pattern = form := by
  induction adjustments using List.reverseRecOn with
  | nil => simp [adjusted]
  | append_singleton earlier last ih =>
    rw [adjusted, List.foldl_append, List.foldl_cons, List.foldl_nil, mem_patterns_adjust,
      ← adjusted, ih]
    simp only [List.mem_append, List.mem_singleton, or_and_right, exists_or, or_assoc, eq_comm]

/-- The patterns that stand from the start need no other form. -/
theorem upper_of_mem_patterns (hpattern : pattern ∈ ({} : Redaction).patterns) :
    Text.upper pattern = pattern := by
  have hupper : ∀ pattern ∈ ({} : Redaction).patterns,
      pattern.toList.all Char.isUpper = true := by
    decide +kernel
  exact Text.upper_of_all_isUpper (hupper pattern hpattern)

/-- A key is hidden if its upper-case form has the one of a pattern in it. -/
theorem hidesKey_adjusted_iff : (adjusted adjustments).hidesKey key = true ↔
    ∃ pattern, Sensitive adjustments pattern ∧
      pattern.toList.flatMap Text.upperChar <:+: key.toList.flatMap Text.upperChar := by
  unfold hidesKey
  rw [active_adjusted, Bool.true_and, List.any_eq_true]
  simp only [mem_patterns_adjusted, Text.occursIn_iff]
  constructor
  · rintro ⟨form, hstands | ⟨pattern, hasked, rfl⟩, hoccurs⟩
    · refine ⟨form, .inl hstands, ?_⟩
      rwa [← Text.toList_upper, ← Text.toList_upper, upper_of_mem_patterns hstands]
    · exact ⟨pattern, .inr hasked, by simpa only [Text.toList_upper] using hoccurs⟩
  · rintro ⟨pattern, hstands | hasked, hoccurs⟩
    · refine ⟨pattern, .inl hstands, ?_⟩
      rwa [← Text.toList_upper, ← Text.toList_upper, upper_of_mem_patterns hstands] at hoccurs
    · exact ⟨Text.upper pattern, .inr ⟨pattern, hasked, rfl⟩,
        by simpa only [Text.toList_upper] using hoccurs⟩

/-- A sensitive pattern is found in every key that has it in any place and in any case. Whether a
    key is hidden is not a question of case, and it stays hidden whatever else is asked for, before
    or after. -/
theorem keys_hidden_in_any_case (adjustments : List Adjustment) :
    (∀ {pattern key part}, Sensitive adjustments pattern → part <:+: key.toList →
        Text.SameLetters part pattern.toList → (adjusted adjustments).hidesKey key = true) ∧
      (∀ {key other : String}, Text.SameLetters key.toList other.toList →
        (adjusted adjustments).hidesKey key = (adjusted adjustments).hidesKey other) ∧
      ∀ {more key}, adjustments ⊆ more → (adjusted adjustments).hidesKey key = true →
        (adjusted more).hidesKey key = true := by
  refine ⟨?_, ?_, ?_⟩
  · intro pattern key part hsensitive hpart hsame
    refine hidesKey_adjusted_iff.2 ⟨pattern, hsensitive, ?_⟩
    rw [← hsame.flatMap_upperChar]
    exact hpart.flatMap _
  · intro key other hsame
    rw [Bool.eq_iff_iff, hidesKey_adjusted_iff, hidesKey_adjusted_iff, hsame.flatMap_upperChar]
  · intro more key hmore hhides
    obtain ⟨pattern, hsensitive, hoccurs⟩ := hidesKey_adjusted_iff.1 hhides
    exact hidesKey_adjusted_iff.2
      ⟨pattern, hsensitive.imp_right fun hasked => hmore hasked, hoccurs⟩

/-- A pattern whose upper-case form is longer than itself, asked for between two other adjustments,
    and a key that has it within, in another case. -/
theorem keys_hidden_in_any_case_sharp :
    let adjustments : List Adjustment := [.limit 3, .hideKey "straße", .hideKey "Plz"]
    "hausSTRAßEnr".toList.flatMap Text.upperChar = "HAUSSTRASSENR".toList ∧
      (adjusted adjustments).hidesKey "hausSTRAßEnr" = true ∧
      (adjusted adjustments).hidesKey "HAUSstraßeNR" = true ∧
      (adjusted (.limit 0 :: adjustments)).hidesKey "hausSTRAßEnr" = true := by
  intro adjustments
  obtain ⟨hfound, hcase, hstays⟩ := keys_hidden_in_any_case adjustments
  have hpart : "STRAßE".toList <:+: "hausSTRAßEnr".toList :=
    ⟨"haus".toList, "nr".toList, by decide +kernel⟩
  have hsame : Text.SameLetters "STRAßE".toList "straße".toList := by
    unfold Text.SameLetters
    decide +kernel
  have hsame' : Text.SameLetters "hausSTRAßEnr".toList "HAUSstraßeNR".toList := by
    unfold Text.SameLetters
    decide +kernel
  have hsensitive : Sensitive adjustments "straße" := .inr (by simp [adjustments])
  have hhides := hfound hsensitive hpart hsame
  refine ⟨by decide +kernel, hhides, ?_, hstays (List.subset_cons_self _ _) hhides⟩
  rw [← hcase hsame']
  exact hhides

end Redaction

end VirtualFs
