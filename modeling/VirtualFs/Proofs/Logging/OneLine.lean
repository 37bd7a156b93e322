import Mathlib.Data.List.Basic
import VirtualFs.Proofs.Logging.Logs
import VirtualFs.Proofs.Naming.Substitution

namespace VirtualFs

namespace Text

/-- What stands for one character within a line. -/
def spelled (c : Char) : List Char :=
  if c = '\n' then ['\\', 'n']
  else if c = '\r' then ['\\', 'r']
  else if c = '\t' then ['\\', 't']
  else if isControl c then []
  else [c]

theorem spelled_of_not_isControl {c : Char} (hplain : isControl c = false) : spelled c = [c] := by
  have hother : ∀ {control : Char}, isControl control = true → c ≠ control := by
    rintro control hcontrol rfl
    rw [hplain] at hcontrol
    cases hcontrol
  have hbreak : c ≠ '\n' := hother (by decide)
  have hreturn : c ≠ '\r' := hother (by decide)
  have htab : c ≠ '\t' := hother (by decide)
  simp [spelled, hbreak, hreturn, htab, hplain]

/-- What one pass puts in is left alone by those after it, so all of them are one. -/
theorem oneLine_eq (text : String) :
    oneLine text = String.ofList (text.toList.flatMap spelled) := by
  unfold oneLine replaceChar
  rw [List.flatMap_assoc, List.flatMap_assoc, List.filter_flatMap]
  congr 1
  apply List.flatMap_congr
  intro c _
  by_cases hbreak : c = '\n'
  · subst hbreak
    decide
  · by_cases hreturn : c = '\r'
    · subst hreturn
      decide
    · by_cases htab : c = '\t'
      · subst htab
        decide
      · by_cases hcontrol : isControl c = true <;>
          simp [spelled, hbreak, hreturn, htab, hcontrol]

/-- A text that has no control in it, and so cannot leave its line. -/
def WithinLine (text : String) : Prop :=
  ∀ c ∈ text.toList, isControl c = false

instance (text : String) : Decidable (WithinLine text) :=
  List.decidableBAll (fun c => isControl c = false) text.toList

theorem withinLine_oneLine (text : String) : WithinLine (oneLine text) := by
  unfold WithinLine oneLine
  intro c hc
  rw [String.toList_ofList] at hc
  simpa using (List.mem_filter.1 hc).2

/-- A text that is within its line stays as it is. -/
theorem WithinLine.oneLine_eq_self {text : String} (hwithin : WithinLine text) :
    oneLine text = text := by
  have hspelled : text.toList.flatMap spelled = text.toList :=
    flatMap_eq_self fun c hc => spelled_of_not_isControl (hwithin c hc)
  rw [oneLine_eq, hspelled, String.ofList_toList]

variable {first second : String}

theorem WithinLine.append (hfirst : WithinLine first) (hsecond : WithinLine second) :
    WithinLine (first ++ second) := by
  intro c hc
  rw [String.toList_append] at hc
  rcases List.mem_append.1 hc with hc | hc
  · exact hfirst c hc
  · exact hsecond c hc

theorem WithinLine.intercalate {separator : String} (hseparator : WithinLine separator)
    {parts : List String} (hparts : ∀ part ∈ parts, WithinLine part) :
    WithinLine (separator.intercalate parts) := by
  induction parts with
  | nil => simp [WithinLine]
  | cons part later ih =>
    obtain ⟨hpart, hlater⟩ := List.forall_mem_cons.1 hparts
    cases later with
    | nil => simpa using hpart
    | cons next rest =>
      rw [String.intercalate_cons_cons]
      exact (hpart.append hseparator).append (ih hlater)

end Text

open Text

namespace Redaction

theorem withinLine_showField (redaction : Redaction) (field : String × Json.Value) :
    WithinLine (redaction.showField field) :=
  ((withinLine_oneLine _).append (by decide)).append (withinLine_oneLine _)

theorem withinLine_kind (value : Json.Value) : WithinLine ("[" ++ value.kind ++ "]") := by
  cases value <;> simp only [Json.Value.kind] <;> decide

/-- Keys and values are spelled out field by field, and what joins them is within the line too. -/
theorem withinLine_render (redaction : Redaction) (value : Json.Value) :
    WithinLine (redaction.render value) := by
  cases value with
  | object fields =>
    refine WithinLine.intercalate (by decide) fun part hpart => ?_
    obtain ⟨field, -, rfl⟩ := List.mem_map.1 hpart
    exact redaction.withinLine_showField field
  | _ => exact withinLine_kind _

end Redaction

namespace Mount

/-- Nothing is said of settings that cannot be read, and what is said of others is what redaction
    shows of them. -/
theorem withinLine_of_logs_initializing {number : Nat} {config : Config} {settings shown : String}
    (hlogs : (buildFrom number config settings).Logs (.initializing shown)) :
    WithinLine (LogEvent.initializing shown).line := by
  cases hvalue : Json.Value.ofText? settings with
  | none =>
    obtain ⟨past, next, hreaches⟩ := hlogs
    rw [buildFrom, hvalue] at hreaches
    cases hreaches
  | some value =>
    obtain rfl := (logs_initializing_buildFrom hvalue).1 hlogs
    have hlevel : WithinLine "INFO initializing storage addition=" := by decide
    exact hlevel.append (Redaction.withinLine_render _ _)

end Mount

namespace Redaction

/-- Whatever stands in the settings of a backend, what is shown of them is within one line. So no
    mount that is built from settings puts another line into its log by what they hold. A text is
    made safe for a line character by character, once and for all. -/
theorem rendered_within_line :
    (∀ (redaction : Redaction) (value : Json.Value), WithinLine (redaction.render value)) ∧
      (∀ {number : Nat} {config : Config} {settings shown : String},
        (Mount.buildFrom number config settings).Logs (.initializing shown) →
          WithinLine (LogEvent.initializing shown).line) ∧
      ∀ text : String,
        oneLine text = String.ofList (text.toList.flatMap spelled) ∧
          oneLine (oneLine text) = oneLine text ∧ WithinLine (oneLine text) := by
  refine ⟨withinLine_render, Mount.withinLine_of_logs_initializing, fun text => ?_⟩
  exact ⟨oneLine_eq text, (withinLine_oneLine text).oneLine_eq_self, withinLine_oneLine text⟩

/-- Settings with a key that would begin another line, and a value with more controls in it. -/
theorem rendered_within_line_forgery :
    let settings := "\x7b\"a\\nWARN all\":\"b\\tc\\u007f\"\x7d"
    let shown := "a\\nWARN all=b\\tc"
    (Mount.buildFrom 0 {} settings).Logs (.initializing shown) ∧
      WithinLine (LogEvent.initializing shown).line := by
  intro settings shown
  have hrender : (Json.Value.ofText? settings).map ({} : Redaction).render = some shown := by
    decide +kernel
  obtain ⟨value, hvalue, hshown⟩ := Option.map_eq_some_iff.1 hrender
  have hlogs : (Mount.buildFrom 0 {} settings).Logs (.initializing shown) :=
    (Mount.logs_initializing_buildFrom hvalue).2 hshown.symm
  exact ⟨hlogs, rendered_within_line.2.1 hlogs⟩

end Redaction

end VirtualFs
