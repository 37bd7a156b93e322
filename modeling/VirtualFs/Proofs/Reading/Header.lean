import VirtualFs.Proofs.Reading.Ranges

namespace VirtualFs

/-- Read a number from its decimal digits. -/
def decimal? (digits : List Char) : Option Nat :=
  if digits ≠ [] ∧ digits.all Char.isDigit then some (Nat.ofDigitChars 10 digits 0) else none

theorem toList_toString (number : UInt64) :
    (toString number).toList = Nat.toDigits 10 number.toNat :=
  Nat.toList_repr

theorem isDigit_of_mem_toString {number : UInt64} {char : Char}
    (hmem : char ∈ (toString number).toList) : char.isDigit = true := by
  rw [toList_toString] at hmem
  exact Nat.isDigit_of_mem_toDigits (by decide) (by decide) hmem

theorem dash_not_mem_toString (number : UInt64) : '-' ∉ (toString number).toList := by
  intro hmem
  cases isDigit_of_mem_toString hmem

theorem toList_toString_ne_nil (number : UInt64) : (toString number).toList ≠ [] :=
  fun hempty => Nat.repr_ne_empty (String.toList_eq_nil_iff.1 hempty)

theorem decimal?_toString (number : UInt64) :
    decimal? (toString number).toList = some number.toNat := by
  have hall : (toString number).toList.all Char.isDigit = true :=
    List.all_eq_true.2 fun _ => isDigit_of_mem_toString
  rw [decimal?, if_pos ⟨toList_toString_ne_nil number, hall⟩, toList_toString,
    Nat.ofDigitChars_ten_toDigits]

/-- The positions that a request names: those from the first one to the last one, or all that
    follow the first one. -/
structure HeaderRange where
  first : Nat
  last : Option Nat
deriving DecidableEq

namespace HeaderRange

/-- Read the value of a header, `bytes=a-b` or `bytes=a-`. The last position may not lie before the
    first one. -/
def ofText? (text : String) : Option HeaderRange := do
  let positions ← text.toList.dropPrefix? "bytes=".toList
  match positions.splitOn '-' with
  | [first, last] =>
    let first ← decimal? first
    if last = [] then some ⟨first, none⟩
    else
      let last ← decimal? last
      if first ≤ last then some ⟨first, some last⟩ else none
  | _ => none

def names (range : HeaderRange) (position : Nat) : Bool :=
  range.first ≤ position && range.last.all (position ≤ ·)

/-- What a request asks for by its header. Without a header nothing is asked for. -/
def requested? : Option String → Option (Nat → Bool)
  | none => some fun _ => false
  | some text => (ofText? text).map names

/-- The digits of a number stand between the unit and the dash, and what follows is read by itself. -/
theorem ofText?_eq (first : UInt64) {last : String} (hlast : '-' ∉ last.toList) :
    ofText? ("bytes=" ++ toString first ++ "-" ++ last) =
      if last.toList = [] then some ⟨first.toNat, none⟩
      else (decimal? last.toList).bind fun last =>
        if first.toNat ≤ last then some ⟨first.toNat, some last⟩ else none := by
  have hlist : ("bytes=" ++ toString first ++ "-" ++ last).toList =
      "bytes=".toList ++ ((toString first).toList ++ '-' :: last.toList) := by simp
  have hsplit : ((toString first).toList ++ '-' :: last.toList).splitOn '-' =
      [(toString first).toList, last.toList] := by
    rw [List.splitOn_append_cons_self, List.splitOn_eq_singleton (dash_not_mem_toString first),
      List.splitOn_eq_singleton hlast, List.singleton_append]
  rw [ofText?, hlist, List.dropPrefix?_append_of_beq _ (BEq.refl _), Option.bind_eq_bind,
    Option.bind_some, hsplit]
  dsimp only
  rw [decimal?_toString]
  rfl

theorem ofText?_open (first : UInt64) :
    ofText? ("bytes=" ++ toString first ++ "-") = some ⟨first.toNat, none⟩ := by
  have hopen : ofText? ("bytes=" ++ toString first ++ "-" ++ "") = some ⟨first.toNat, none⟩ :=
    ofText?_eq first (by simp)
  rwa [String.append_empty] at hopen

theorem ofText?_closed {first last : UInt64} (hle : first ≤ last) :
    ofText? ("bytes=" ++ toString first ++ "-" ++ toString last) =
      some ⟨first.toNat, some last.toNat⟩ := by
  rw [ofText?_eq first (dash_not_mem_toString last), if_neg (toList_toString_ne_nil last),
    decimal?_toString]
  exact if_pos (UInt64.le_iff_toNat_le.1 hle)

end HeaderRange

namespace ByteRange

/-- The last position of a range is its start and one less than its length further, or the largest
    position there is if that lies before. -/
theorem toNat_lastOffset (start : UInt64) {length : UInt64} (hlength : length ≠ 0) :
    (length - 1).toNat + 1 = length.toNat ∧
      (lastOffset start length).toNat =
        min (start.toNat + (length - 1).toNat) (2 ^ 64 - 1) := by
  have hpositive : 0 < length.toNat := by
    rw [Nat.pos_iff_ne_zero]
    exact fun hzero => hlength (UInt64.toNat_inj.1 hzero)
  have hless : (length - 1).toNat = length.toNat - 1 :=
    UInt64.toNat_sub_of_le length 1 (UInt64.le_iff_toNat_le.2 hpositive)
  have hsum : (start + (length - 1)).toNat = (start.toNat + (length - 1).toNat) % 2 ^ 64 :=
    UInt64.toNat_add _ _
  have hstart := start.toNat_lt
  have hlast := (length - 1).toNat_lt
  refine ⟨by omega, ?_⟩
  rw [lastOffset]
  split
  case isTrue hover =>
    rw [UInt64.lt_iff_toNat_lt] at hover
    show 2 ^ 64 - 1 = _
    omega
  case isFalse hwithin =>
    rw [UInt64.lt_iff_toNat_lt] at hwithin
    omega

/-- What a range has left of a size are the positions below the size that it asks for. -/
theorem covers_clamp_iff (range : ByteRange) (size : UInt64) (position : Nat) :
    (range.clamp size).covers position = true ↔
      position < size.toNat ∧ range.covers position = true := by
  obtain ⟨start, length, hclamp, -, -⟩ := exists_clamp_eq range size
  have hstop := stop_le_of_clamp hclamp
  have hleft : (range.clamp size).covers position = true ↔
      start.toNat ≤ position ∧ position < start.toNat + length.toNat := by
    simp only [hclamp, covers, Option.all_some, Bool.and_eq_true, decide_eq_true_eq]
    omega
  rw [hleft]
  constructor
  · intro hinside
    have hbelow : position < size.toNat := by omega
    exact ⟨hbelow, (covers_iff_of_clamp hclamp hbelow).2 hinside⟩
  · rintro ⟨hbelow, hcovers⟩
    exact (covers_iff_of_clamp hclamp hbelow).1 hcovers

theorem clamp_clamp (range : ByteRange) (size : UInt64) :
    (range.clamp size).clamp size = range.clamp size := by
  obtain ⟨start, length, hclamp, -, -⟩ := exists_clamp_eq range size
  obtain ⟨start', length', hclamp', hstart, hlength⟩ := exists_clamp_eq ⟨start, some length⟩ size
  have hstop := stop_le_of_clamp hclamp
  dsimp only at hstart hlength
  have hsame : start' = start := UInt64.toNat_inj.1 (by omega)
  have hsame' : length' = length := by
    rw [Option.elim_some, hsame] at hlength
    exact UInt64.toNat_inj.1 (by omega)
  rw [hclamp, hclamp', hsame, hsame']

theorem requested?_closed (start : UInt64) {length : UInt64} (hlength : length ≠ 0) :
    HeaderRange.requested? (header? ⟨start, some length⟩) =
      some (HeaderRange.names ⟨start.toNat, some (lastOffset start length).toNat⟩) := by
  obtain ⟨-, hlast⟩ := toNat_lastOffset start hlength
  have hstart := start.toNat_lt
  have hle : start ≤ lastOffset start length := by
    rw [UInt64.le_iff_toNat_le]
    omega
  have hheader : header? ⟨start, some length⟩ =
      some ("bytes=" ++ toString start ++ "-" ++ toString (lastOffset start length)) :=
    if_neg hlength
  rw [hheader, HeaderRange.requested?, HeaderRange.ofText?_closed hle, Option.map_some]

/-- The header of a range can be read, and it names the positions that the range asks for, as far as
    positions can be counted. There are three forms: open, without any header, and closed. -/
theorem exists_requested (range : ByteRange) :
    ∃ requested, HeaderRange.requested? range.header? = some requested ∧
      ∀ position < 2 ^ 64, requested position = range.covers position := by
  obtain ⟨start, length⟩ := range
  cases length with
  | none =>
    refine ⟨HeaderRange.names ⟨start.toNat, none⟩, ?_, fun position _ => rfl⟩
    exact congrArg (Option.map _) (HeaderRange.ofText?_open start)
  | some length =>
    by_cases hzero : length = 0
    · subst hzero
      exact ⟨fun _ => false, rfl, fun position _ => by simp [covers]⟩
    · refine ⟨_, requested?_closed start hzero, fun position hposition => ?_⟩
      obtain ⟨hless, hlast⟩ := toNat_lastOffset start hzero
      rw [HeaderRange.names, covers, Bool.eq_iff_iff]
      simp only [Option.all_some, Bool.and_eq_true, decide_eq_true_eq]
      -- A last position that was brought down to the largest one still lies behind this one.
      omega

/-- A range and its header denote the same bytes of content of any size: the positions that the
    header names are, as far as the content goes, those of the range cut to the size. Cutting it
    stays within the size and is done once and for all. The last position of the header is reached
    without going below zero, and where it would lie behind all that can be counted it is the last
    that can. -/
theorem header_denotes_clamp (range : ByteRange) (size : UInt64) :
    (∃ requested, HeaderRange.requested? range.header? = some requested ∧ ∀ position,
      (range.clamp size).covers position = true ↔
        position < size.toNat ∧ requested position = true) ∧
      (∀ position, (range.clamp size).covers position = true ↔
        position < size.toNat ∧ range.covers position = true) ∧
      range.Fits size ∧
      (range.clamp size).clamp size = range.clamp size ∧
      ∀ length ∈ range.length, length = 0 ∨ ((length - 1).toNat + 1 = length.toNat ∧
        (lastOffset range.start length).toNat =
          min (range.start.toNat + (length - 1).toNat) (2 ^ 64 - 1)) := by
  refine ⟨?_, covers_clamp_iff range size, range.fits size, clamp_clamp range size,
    fun length _ => ?_⟩
  · obtain ⟨requested, hrequested, hcovers⟩ := exists_requested range
    refine ⟨requested, hrequested, fun position => ?_⟩
    rw [covers_clamp_iff]
    refine and_congr_right fun hbelow => ?_
    rw [hcovers position (Nat.lt_trans hbelow size.toNat_lt)]
  · by_cases hzero : length = 0
    · exact .inl hzero
    · exact .inr (toNat_lastOffset _ hzero)

/-- A range that runs past the largest position there is ends there in its header. -/
theorem header_denotes_clamp_at_limit :
    let range : ByteRange := ⟨0xFFFFFFFFFFFFFFFE, some 5⟩
    5 ∈ range.length ∧
      range.header? = some "bytes=18446744073709551614-18446744073709551615" ∧
      (lastOffset range.start 5).toNat = 2 ^ 64 - 1 := by
  intro range
  have hlength : 5 ∈ range.length := rfl
  obtain ⟨-, -, -, -, hexact⟩ := header_denotes_clamp range 0xFFFFFFFFFFFFFFFF
  obtain ⟨-, hlast⟩ := (hexact 5 hlength).resolve_left (by decide)
  exact ⟨hlength, by decide +kernel, hlast.trans (by decide)⟩

end ByteRange

end VirtualFs
