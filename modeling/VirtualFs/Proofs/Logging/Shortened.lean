import Mathlib.Data.List.Infix
import Mathlib.Data.String.Basic
import VirtualFs.Proofs.Logging.Redacted

namespace VirtualFs

namespace Text

variable {limit : Nat}

/-- Of two beginnings of a text the one with fewer bytes is a beginning of the other. -/
theorem prefix_of_utf8Len_le {first second text : List Char} (hfirst : first <+: text)
    (hsecond : second <+: text) (hle : String.utf8Len first ≤ String.utf8Len second) :
    first <+: second := by
  rcases List.prefix_or_prefix_of_prefix hfirst hsecond with hearlier | ⟨tail, rfl⟩
  · exact hearlier
  · rw [String.utf8Len_append] at hle
    obtain rfl : tail = [] := String.utf8Len_eq_zero.1 (by omega)
    simp

theorem fitting_prefix (limit : Nat) (text : List Char) : fitting limit text <+: text := by
  induction text generalizing limit with
  | nil => simp [fitting]
  | cons c rest ih =>
    rw [fitting]
    split
    case isTrue => simpa using ih (limit - c.utf8Size)
    case isFalse => simp

theorem utf8Len_fitting_le (limit : Nat) (text : List Char) :
    String.utf8Len (fitting limit text) ≤ limit := by
  induction text generalizing limit with
  | nil => simp [fitting]
  | cons c rest ih =>
    rw [fitting]
    split
    case isTrue hroom =>
      have hrest := ih (limit - c.utf8Size)
      rw [String.utf8Len_cons]
      omega
    case isFalse => simp

/-- Nothing that fits goes beyond what is taken. -/
theorem prefix_fitting {front text : List Char} (hbegins : front <+: text)
    (hfits : String.utf8Len front ≤ limit) : front <+: fitting limit text := by
  induction text generalizing limit front with
  | nil => simpa [fitting] using hbegins
  | cons c rest ih =>
    cases front with
    | nil => exact List.nil_prefix
    | cons d later =>
      obtain ⟨rfl, hlater⟩ := List.cons_prefix_cons.1 hbegins
      rw [String.utf8Len_cons] at hfits
      rw [fitting, if_pos (by omega), List.cons_prefix_cons]
      exact ⟨rfl, ih hlater (by omega)⟩

/-- The longest beginning of a text that takes up no more than a number of bytes. It is made up of
    whole characters. -/
structure LongestWithin (limit : Nat) (text front : String) : Prop where
  begins : front.toList <+: text.toList
  fits : front.utf8ByteSize ≤ limit
  longest : ∀ {other : String}, other.toList <+: text.toList → other.utf8ByteSize ≤ limit →
    other.toList <+: front.toList

variable {text front : String}

theorem longestWithin_fitting (limit : Nat) (text : String) :
    LongestWithin limit text (String.ofList (fitting limit text.toList)) where
  begins := by simpa using fitting_prefix limit text.toList
  fits := by
    rw [String.utf8ByteSize_ofList]
    exact utf8Len_fitting_le limit text.toList
  longest := by
    intro other hbegins hfits
    rw [String.toList_ofList]
    exact prefix_fitting hbegins (by rwa [String.utf8Len_toList])

theorem LongestWithin.unique {other : String} (hfront : LongestWithin limit text front)
    (hother : LongestWithin limit text other) : front = other := by
  have hearlier := hother.longest hfront.begins hfront.fits
  have hlater := hfront.longest hother.begins hother.fits
  exact String.toList_inj.1 (hearlier.eq_of_length_le hlater.length_le)

/-- What is shown of a text when only so many bytes of it may be shown. -/
inductive Shortened (limit : Nat) (text : String) : String → Prop
  | whole (hroom : text.utf8ByteSize ≤ limit) : Shortened limit text text
  | cut {front : String} {missing : Nat} (hover : limit < text.utf8ByteSize)
      (hfront : LongestWithin limit text front)
      (hmissing : front.utf8ByteSize + missing = text.utf8ByteSize) :
      Shortened limit text (front ++ "...[truncated " ++ toString missing ++ " bytes]")

theorem truncate_eq_iff {shown : String} : truncate limit text = shown ↔
    Shortened limit text shown := by
  have hfitting := longestWithin_fitting limit text
  constructor
  · rintro rfl
    unfold truncate
    split
    case isTrue hroom => exact .whole hroom
    case isFalse hover =>
      have hfits := hfitting.fits
      refine .cut (by omega) hfitting ?_
      omega
  · intro hshown
    cases hshown with
    | whole hroom => rw [truncate, if_pos hroom]
    | @cut front missing hover hfront hmissing =>
      obtain rfl := hfront.unique hfitting
      have hcount : text.utf8ByteSize - (String.ofList (fitting limit text.toList)).utf8ByteSize =
          missing := by
        omega
      rw [truncate, if_neg (by omega)]
      simp only [hcount]

/-- Nothing is left of a text whose first character is too long. -/
example : truncate 2 "€ 5" = "...[truncated 5 bytes]" := by decide +kernel

section Scan

open String.Pos.Raw

/-- The last place between two characters of a text that is not behind an offset. It is looked for
    from the offset backwards. -/
def boundary (text : String) : Nat → Nat
  | 0 => 0
  | offset + 1 => if isValid text ⟨offset + 1⟩ then offset + 1 else boundary text offset

/-- The text before an offset, which has to lie between two characters. -/
def before? (text : String) (offset : Nat) : Option String :=
  if hvalid : isValid text ⟨offset⟩ = true then
    some (text.sliceTo ⟨⟨offset⟩, isValid_eq_true_iff.1 hvalid⟩).copy
  else none

/-- The same as truncating a text, as it is done with offsets into the bytes of it. -/
def truncateAt? (limit : Nat) (text : String) : Option String :=
  if text.utf8ByteSize ≤ limit then some text
  else do
    let stop := boundary text limit
    let shown ← before? text stop
    return shown ++ "...[truncated " ++ toString (text.utf8ByteSize - stop) ++ " bytes]"

variable {offset : Nat}

theorem boundary_le (text : String) (offset : Nat) : boundary text offset ≤ offset := by
  induction offset with
  | zero => simp [boundary]
  | succ offset ih =>
    rw [boundary]
    split
    · simp
    · omega

/-- The scan comes to an end, if not before then at the very beginning. -/
theorem isValid_boundary (text : String) (offset : Nat) :
    IsValid text ⟨boundary text offset⟩ := by
  induction offset with
  | zero => exact isValid_zero
  | succ offset ih =>
    rw [boundary]
    split
    case isTrue hvalid => exact isValid_eq_true_iff.1 hvalid
    case isFalse => exact ih

theorem le_boundary {place : Nat} (hvalid : IsValid text ⟨place⟩) (hplace : place ≤ offset) :
    place ≤ boundary text offset := by
  induction offset with
  | zero => omega
  | succ offset ih =>
    rw [boundary]
    split
    case isTrue => exact hplace
    case isFalse hinvalid =>
      have hother : place ≠ offset + 1 := by
        rintro rfl
        exact hinvalid (isValid_eq_true_iff.2 hvalid)
      exact ih (by omega)

theorem isValid_of_begins (hbegins : front.toList <+: text.toList) :
    IsValid text ⟨front.utf8ByteSize⟩ := by
  obtain ⟨rest, hrest⟩ := hbegins
  have htext : text = front ++ String.ofList rest := by
    rw [← String.toList_inj, String.toList_append, String.toList_ofList, hrest]
  exact isValid_iff_exists_append.2 ⟨front, _, htext, rfl⟩

/-- What stands before the place where the scan ends is the longest beginning that fits. -/
theorem before?_boundary (limit : Nat) (text : String) : ∃ front,
    before? text (boundary text limit) = some front ∧ LongestWithin limit text front ∧
      front.utf8ByteSize = boundary text limit := by
  have hvalid := isValid_boundary text limit
  let place : text.Pos := ⟨⟨boundary text limit⟩, hvalid⟩
  have hsplits := place.splits
  let front := (text.sliceTo place).copy
  have hfound : before? text (boundary text limit) = some front := by
    rw [before?, dif_pos (isValid_eq_true_iff.2 hvalid)]
  have hsize : boundary text limit = front.utf8ByteSize :=
    congrArg byteIdx hsplits.offset_eq_rawEndPos
  have hbegins : front.toList <+: text.toList := by
    refine ⟨(text.sliceFrom place).copy.toList, ?_⟩
    rw [← String.toList_append, ← hsplits.eq_append]
  refine ⟨front, hfound, ⟨hbegins, ?_, ?_⟩, hsize.symm⟩
  · rw [← hsize]
    exact boundary_le text limit
  · intro other hother hfits
    have hle := le_boundary (isValid_of_begins hother) hfits
    rw [hsize] at hle
    exact prefix_of_utf8Len_le hother hbegins (by simpa only [String.utf8Len_toList] using hle)

/-- The bytes are never cut within a character, and what comes of it is the same. -/
theorem truncateAt?_eq (limit : Nat) (text : String) :
    truncateAt? limit text = some (truncate limit text) := by
  unfold truncateAt?
  split
  case isTrue hroom => rw [truncate, if_pos hroom]
  case isFalse hover =>
    obtain ⟨front, hfound, hfront, hsize⟩ := before?_boundary limit text
    have hfits := hfront.fits
    have hmissing : front.utf8ByteSize + (text.utf8ByteSize - front.utf8ByteSize) =
        text.utf8ByteSize := by
      omega
    have hshown := Shortened.cut (Nat.lt_of_not_le hover) hfront hmissing
    rw [truncate_eq_iff.2 hshown, hsize]
    simp only [hfound, Option.pure_def, Option.bind_eq_bind, Option.bind_some]

end Scan

end Text

open Text

namespace Redaction

/-- Truncation shows the whole of a text that fits, and of any other the longest beginning that
    does, with the number of bytes that are missing. Offsets into the bytes come to the same and
    never lie within a character, whatever the limit. So this is what is shown of a text that is not
    hidden. -/
theorem shortened_within_limit :
    (∀ (limit : Nat) (text shown : String),
        truncate limit text = shown ↔ Shortened limit text shown) ∧
      (∀ (limit : Nat) (text : String), truncateAt? limit text = some (truncate limit text)) ∧
      ∀ (redaction : Redaction) (text : String),
        redaction.active = true ∧ Secret.isLikely text = true ∧ redaction.showText text = hidden ∨
          Shortened redaction.maxLength text (redaction.showText text) := by
  refine ⟨fun limit text shown => truncate_eq_iff, truncateAt?_eq, fun redaction text => ?_⟩
  by_cases hsecret : redaction.active = true ∧ Secret.isLikely text = true
  · exact .inl ⟨hsecret.1, hsecret.2, showText_of_isLikely hsecret.1 hsecret.2⟩
  · right
    have hshown : redaction.showText text = truncate redaction.maxLength text := by
      rw [showText, if_neg (by simpa using hsecret)]
    exact truncate_eq_iff.1 hshown.symm

end Redaction

end VirtualFs
