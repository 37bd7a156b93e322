import Mathlib.Algebra.Group.Nat.Defs
import Mathlib.Data.List.Basic
import VirtualFs.Scenario.Reading

namespace VirtualFs

namespace ByteRange

variable {range : ByteRange} {size : UInt64} {content : List UInt8} {position : Nat}

/-- A range asks for the byte at a position. -/
def covers (range : ByteRange) (position : Nat) : Bool :=
  range.start.toNat ≤ position &&
    range.length.all (fun length => position - range.start.toNat < length.toNat)

/-- The bytes at the positions that a range asks for, in their order. -/
def covered (range : ByteRange) (content : List UInt8) : List UInt8 :=
  (content.zipIdx.filter (fun (_, position) => range.covers position)).map Prod.fst

/-- A range cut to a size lies within it, and its end is reached without running past the largest
    number there is. -/
structure Fits (range : ByteRange) (size : UInt64) : Prop where
  start_le : (range.clamp size).start ≤ size
  stop_le : ∃ length, (range.clamp size).length = some length ∧
    ((range.clamp size).start + length).toNat = (range.clamp size).start.toNat + length.toNat ∧
    (range.clamp size).start + length ≤ size

theorem toNat_min (a b : UInt64) : (min a b).toNat = min a.toNat b.toNat := by
  rw [show min a b = if a ≤ b then a else b from rfl, apply_ite UInt64.toNat, Nat.min_def]
  simp only [UInt64.le_iff_toNat_le]

/-- What is left of a range that is cut to a size, in numbers that know no bound. -/
theorem exists_clamp_eq (range : ByteRange) (size : UInt64) :
    ∃ start length, range.clamp size = ⟨start, some length⟩ ∧
      start.toNat = min range.start.toNat size.toNat ∧
      length.toNat = range.length.elim (size.toNat - start.toNat)
        (fun length => min length.toNat (size.toNat - start.toNat)) := by
  have hstart := toNat_min range.start size
  have hle : min range.start size ≤ size := by
    rw [UInt64.le_iff_toNat_le, hstart]
    exact Nat.min_le_right _ _
  have havailable := UInt64.toNat_sub_of_le size (min range.start size) hle
  refine ⟨_, _, rfl, hstart, ?_⟩
  cases range.length with
  | none => exact havailable
  | some length =>
    show (min length (size - min range.start size)).toNat = _
    rw [toNat_min, havailable]
    rfl

/-- What is left of a range ends within the size. -/
theorem stop_le_of_clamp {start length : UInt64} (hclamp : range.clamp size = ⟨start, some length⟩) :
    start.toNat + length.toNat ≤ size.toNat := by
  obtain ⟨start', length', hclamp', hstart, hlength⟩ := exists_clamp_eq range size
  obtain ⟨rfl, hsame⟩ := ByteRange.mk.inj (hclamp.symm.trans hclamp')
  obtain rfl := Option.some.inj hsame
  cases hrange : range.length with
  | none =>
    simp only [hrange, Option.elim_none] at hlength
    omega
  | some asked =>
    simp only [hrange, Option.elim_some] at hlength
    omega

theorem fits (range : ByteRange) (size : UInt64) : range.Fits size := by
  obtain ⟨start, length, hclamp, -, -⟩ := exists_clamp_eq range size
  have hsum := stop_le_of_clamp hclamp
  have hexact : (start + length).toNat = start.toNat + length.toNat := by
    rw [UInt64.toNat_add]
    exact Nat.mod_eq_of_lt (Nat.lt_of_le_of_lt hsum size.toNat_lt)
  refine ⟨?_, length, ?_⟩
  · rw [hclamp, UInt64.le_iff_toNat_le]
    exact Nat.le_trans (Nat.le_add_right _ _) hsum
  · rw [hclamp]
    refine ⟨rfl, hexact, ?_⟩
    rw [UInt64.le_iff_toNat_le, hexact]
    exact hsum

/-- Of the positions in some content, a range asks for those that lie in it once it is cut to the
    size of the content. -/
theorem covers_iff_of_clamp {start length : UInt64} (hclamp : range.clamp size = ⟨start, some length⟩)
    (hposition : position < size.toNat) :
    range.covers position = true ↔
      start.toNat ≤ position ∧ position < start.toNat + length.toNat := by
  obtain ⟨start', length', hclamp', hstart, hlength⟩ := exists_clamp_eq range size
  obtain ⟨rfl, hsame⟩ := ByteRange.mk.inj (hclamp.symm.trans hclamp')
  obtain rfl := Option.some.inj hsame
  cases hrange : range.length with
  | none =>
    simp only [hrange, Option.elim_none] at hlength
    simp only [covers, hrange, Option.all_none, Bool.and_true, decide_eq_true_eq]
    omega
  | some asked =>
    simp only [hrange, Option.elim_some] at hlength
    simp only [covers, hrange, Option.all_some, Bool.and_eq_true, decide_eq_true_eq]
    omega

/-- Bytes at positions that are all judged alike are kept or left out together. -/
theorem map_filter_zipIdx_of_forall (content : List UInt8) (offset : Nat) (keeps : Nat → Bool)
    (verdict : Bool)
    (halike : ∀ position, offset ≤ position → position < offset + content.length →
      keeps position = verdict) :
    ((content.zipIdx offset).filter (fun (_, position) => keeps position)).map Prod.fst =
      if verdict then content else [] := by
  have hsame : (content.zipIdx offset).filter (fun (_, position) => keeps position) =
      (content.zipIdx offset).filter (fun _ => verdict) := by
    refine List.filter_congr ?_
    rintro ⟨byte, position⟩ hmem
    obtain ⟨hlower, hupper, -⟩ := List.mem_zipIdx hmem
    exact halike position hlower hupper
  rw [hsame]
  cases verdict with
  | true => rw [List.filter_true, List.zipIdx_map_fst, if_pos rfl]
  | false => rw [List.filter_false, List.map_nil, if_neg Bool.false_ne_true]

/-- The positions from one on and before another are those of a part of the content. What is in
    front of the part and what is behind it is left out. -/
theorem map_filter_zipIdx (content : List UInt8) {first past : Nat} (hle : first ≤ past) :
    (content.zipIdx.filter (fun (_, position) => first ≤ position && position < past)).map Prod.fst =
      (content.drop first).take (past - first) := by
  let inside : Nat → Bool := fun position => first ≤ position && position < past
  have hparts : content = content.take first ++ ((content.drop first).take (past - first) ++
      (content.drop first).drop (past - first)) := by
    rw [List.take_append_drop, List.take_append_drop]
  have hfront := map_filter_zipIdx_of_forall (content.take first) 0 inside false
  have hpart := map_filter_zipIdx_of_forall ((content.drop first).take (past - first))
    (0 + (content.take first).length) inside true
  have hback := map_filter_zipIdx_of_forall ((content.drop first).drop (past - first))
    (0 + (content.take first).length + ((content.drop first).take (past - first)).length) inside
    false
  simp only [inside, List.length_take, List.length_drop] at hfront hpart hback
  conv_lhs => rw [hparts]
  rw [List.zipIdx_append, List.zipIdx_append, List.filter_append, List.filter_append,
    List.map_append, List.map_append]
  simp only [List.length_take, List.length_drop]
  rw [hfront, hpart, hback]
  · simp
  all_goals
    intro position hlower hupper
    simp only [Bool.and_eq_true, Bool.and_eq_false_iff, decide_eq_true_eq, decide_eq_false_iff_not]
    omega

/-- A range is served with the bytes at the positions that it asks for and no others. -/
theorem slice_eq_covered (hsize : content.length < 2 ^ 64) (range : ByteRange) :
    range.slice content = range.covered content := by
  have hlength : (UInt64.ofNat content.length).toNat = content.length :=
    UInt64.toNat_ofNat_of_lt hsize
  obtain ⟨start, length, hclamp, -, -⟩ := exists_clamp_eq range (UInt64.ofNat content.length)
  have hsame : content.zipIdx.filter (fun (_, position) => range.covers position) =
      content.zipIdx.filter
        (fun (_, position) => start.toNat ≤ position && position < start.toNat + length.toNat) := by
    refine List.filter_congr ?_
    rintro ⟨byte, position⟩ hmem
    have hposition : position < content.length := List.snd_lt_of_mem_zipIdx hmem
    rw [Bool.eq_iff_iff, covers_iff_of_clamp hclamp (hlength.symm ▸ hposition)]
    simp
  rw [covered, hsame, map_filter_zipIdx content (Nat.le_add_right _ _), slice, hclamp,
    Nat.add_sub_cancel_left]
  rfl

/-- A range is served with the content from its start on, as far as it goes. -/
theorem slice_eq (hsize : content.length < 2 ^ 64) (range : ByteRange) :
    range.slice content = range.length.elim (content.drop range.start.toNat)
      (fun length => (content.drop range.start.toNat).take length.toNat) := by
  have hlength : (UInt64.ofNat content.length).toNat = content.length :=
    UInt64.toNat_ofNat_of_lt hsize
  obtain ⟨start, length, hclamp, hstart, hpart⟩ :=
    exists_clamp_eq range (UInt64.ofNat content.length)
  rw [hlength] at hstart hpart
  have hdrop : content.drop start.toNat = content.drop range.start.toNat := by
    rw [hstart]
    rcases Nat.le_total range.start.toNat content.length with hle | hle
    · rw [Nat.min_eq_left hle]
    · rw [Nat.min_eq_right hle, List.drop_length, List.drop_of_length_le hle]
  rw [slice, hclamp]
  dsimp only [Option.getD]
  rw [hpart, hdrop, hstart]
  cases range.length with
  | none =>
    refine List.take_of_length_le ?_
    rw [List.length_drop, Option.elim_none]
    omega
  | some length =>
    rw [Option.elim_some, Option.elim_some, List.take_eq_take_iff, List.length_drop]
    omega

/-- Ranges that follow one another without a gap, from an offset up to the end of all that can be
    counted. The last of them may be open. -/
inductive Consecutive : Nat → List ByteRange → Prop
  | done {offset : Nat} (reached : offset = 2 ^ 64) : Consecutive offset []
  | rest {offset : Nat} {start : UInt64} (begins : start.toNat = offset) :
      Consecutive offset [⟨start, none⟩]
  | next {offset : Nat} {start length : UInt64} {later : List ByteRange}
      (begins : start.toNat = offset) (follow : Consecutive (offset + length.toNat) later) :
      Consecutive offset (⟨start, some length⟩ :: later)

/-- What is served for ranges that follow one another is the content from the first of them on. -/
theorem Consecutive.flatMap_slice {offset : Nat} {ranges : List ByteRange}
    (hconsecutive : Consecutive offset ranges) (hsize : content.length < 2 ^ 64) :
    ranges.flatMap (slice · content) = content.drop offset := by
  induction hconsecutive with
  | done reached =>
    rw [List.drop_of_length_le (reached ▸ Nat.le_of_lt hsize), List.flatMap_nil]
  | rest begins => rw [List.flatMap_singleton, slice_eq hsize, Option.elim_none, begins]
  | next begins _ ih =>
    rw [List.flatMap_cons, slice_eq hsize, Option.elim_some, ih, begins, ← List.drop_drop,
      List.take_append_drop]

end ByteRange

/-- What has been cut to a length is not cut any more by the same length. -/
theorem Stream.take_take (limit : UInt64) (bytes : List UInt8) :
    (⟨bytes.take limit.toNat, none⟩ : Stream).take limit = ⟨bytes.take limit.toNat, none⟩ := by
  rw [take]
  split
  · rw [List.take_take, Nat.min_self]
  · rfl

namespace Readable

/-- Read ranges of a file, one after the other. -/
def readAll (readable : Readable) (ranges : List ByteRange) : Operation (List Stream) :=
  ranges.mapM readable.read

variable {σ : Type} {service : Service σ} {content : List UInt8}

/-- Content in memory is served as it lies there, whatever else a service does meanwhile. -/
def FromMemory (service : Service σ) (content : List UInt8) : Prop :=
  ∀ range s, (service.answer (.readRange (.memory content) range) s).1 =
    (Reader.memory content).read range

theorem exists_alone_read (hserves : FromMemory service content)
    (hsize : content.length < 2 ^ 64) (file : Entry) (range : ByteRange) (s : σ) :
    ∃ s', ((⟨file, .memory content⟩ : Readable).read range).alone service s =
      (.ok ⟨range.slice content, none⟩, s') := by
  obtain ⟨s', hserved⟩ : ∃ s', (Operation.ask (.readRange (.memory content) range)).alone service s =
      (.ok (⟨range.slice content, none⟩ : Stream), s') :=
    ⟨_, Prod.ext (hserves range s) rfl⟩
  refine ⟨s', ?_⟩
  refine (Operation.alone_bind_of_ok (Operation.alone_log ..)).trans ?_
  refine (Operation.alone_bind_of_ok hserved).trans ?_
  rw [Operation.alone_pure, ByteRange.slice_eq hsize]
  cases range.length with
  | none => rfl
  | some length =>
    dsimp only [Option.elim]
    rw [Stream.take_take]

/-- Ranges are read one after the other, each to its own end. By induction on the ranges. -/
theorem exists_alone_readAll (hserves : FromMemory service content)
    (hsize : content.length < 2 ^ 64) (file : Entry) (ranges : List ByteRange) (s : σ) :
    ∃ s', ((⟨file, .memory content⟩ : Readable).readAll ranges).alone service s =
      (.ok (ranges.map fun range => ⟨range.slice content, none⟩), s') := by
  induction ranges generalizing s with
  | nil => exact ⟨s, rfl⟩
  | cons range ranges ih =>
    obtain ⟨s₁, hread⟩ := exists_alone_read hserves hsize file range s
    obtain ⟨s₂, hrest⟩ := ih s₁
    refine ⟨s₂, ?_⟩
    rw [readAll] at hrest ⊢
    rw [List.mapM_cons, Operation.alone_bind_of_ok hread, Operation.alone_bind_of_ok hrest]
    rfl

/-- Ranges are read exactly from content in memory. The arithmetic behind each of them stays within
    the content, and what is served are the bytes at the positions that the range asks for. So ranges
    that follow one another over all positions there are give the whole content, whatever is told of
    its size. -/
theorem ranges_read_exactly (hsize : content.length < 2 ^ 64) :
    (∀ range : ByteRange, range.Fits (UInt64.ofNat content.length) ∧
      (Reader.memory content).read range = .ok ⟨range.covered content, none⟩) ∧
    ∀ {σ : Type} {service : Service σ}, FromMemory service content →
      ∀ (file : Entry) (opener : Option Opener) {ranges : List ByteRange},
      ByteRange.Consecutive 0 ranges →
      ranges.flatMap (·.covered content) = content ∧ ∀ s : σ, ∃ s',
        (do
          let readable ← ofLink file opener (.data content)
          readable.readAll ranges).alone service s =
        (.ok (ranges.map fun range => ⟨range.covered content, none⟩), s') := by
  have hcovered : (fun range : ByteRange => range.slice content) = (·.covered content) :=
    funext (ByteRange.slice_eq_covered hsize)
  refine ⟨fun range => ⟨range.fits _, ?_⟩, ?_⟩
  · rw [Reader.read, ByteRange.slice_eq_covered hsize]
  intro σ service hserves file opener ranges hconsecutive
  refine ⟨?_, fun s => ?_⟩
  · rw [← hcovered, hconsecutive.flatMap_slice hsize, List.drop_zero]
  · obtain ⟨s', hread⟩ := exists_alone_readAll hserves hsize file ranges s
    have hopened : (ofLink file opener (.data content)).alone service s =
        (.ok ⟨file, .memory content⟩, s) := rfl
    refine ⟨s', (Operation.alone_bind_of_ok hopened).trans (hread.trans ?_)⟩
    simp only [ByteRange.slice_eq_covered hsize]

/-- A file is told to be empty and holds three bytes. They are read in ranges one of which asks for
    nothing and the last of which ends behind the largest offset there is. -/
theorem ranges_read_exactly_to_limit :
    let content : List UInt8 := [1, 2, 3]
    let file : Entry := ⟨"f", { name := "f", size := 0 }⟩
    let limit : UInt64 := 0xFFFFFFFFFFFFFFFF
    let ranges : List ByteRange :=
      [⟨0, some 2⟩, ⟨2, some 0⟩, ⟨2, some (limit - 2)⟩, ⟨limit, some 1⟩]
    content.length < 2 ^ 64 ∧ ByteRange.Consecutive 0 ranges ∧ ∃ s',
      (do
        let readable ← ofLink file none (.data content)
        readable.readAll ranges).alone Scenario.Store.service {} =
      (.ok [⟨[1, 2], none⟩, ⟨[], none⟩, ⟨[3], none⟩, ⟨[], none⟩], s') := by
  intro content file limit ranges
  have hsize : content.length < 2 ^ 64 := by decide
  have hconsecutive : ByteRange.Consecutive 0 ranges := by
    refine .next rfl (.next ?_ (.next ?_ (.next ?_ (.done ?_))))
    all_goals decide
  have hmemory : FromMemory Scenario.Store.service content := fun _ _ => rfl
  obtain ⟨-, hread⟩ := (ranges_read_exactly hsize).2 hmemory file none hconsecutive
  have hcovered : ranges.map (fun range => (⟨range.covered content, none⟩ : Stream)) =
      [⟨[1, 2], none⟩, ⟨[], none⟩, ⟨[3], none⟩, ⟨[], none⟩] := by decide +kernel
  rw [hcovered] at hread
  exact ⟨hsize, hconsecutive, hread {}⟩

end Readable

end VirtualFs
