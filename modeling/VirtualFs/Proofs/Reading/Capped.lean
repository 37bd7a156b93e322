import VirtualFs.Proofs.Returns
import VirtualFs.Transfer

namespace VirtualFs

/-- What comes of a stream as it is read. Whoever reads brings room for some bytes. How many of them
    come at a time is up to the stream, and it can depend on the room. -/
inductive Feed where
  | ended (fault : Option String)
  | more (piece : Nat → List UInt8) (rest : Nat → Feed)

namespace Feed

/-- Stop a feed after some bytes. Until then it is never given more room than is left, and from then
    on it is not read any more. -/
def take : Feed → Nat → Feed
  | _, 0 => ended none
  | ended fault, _ + 1 => ended fault
  | more piece rest, left + 1 =>
    more (fun room => piece (min room (left + 1)))
      (fun room => (rest (min room (left + 1))).take (left + 1 - (piece (min room (left + 1))).length))

/-- Stop a feed at a length, if there is one. -/
def within (feed : Feed) : Option UInt64 → Feed
  | none => feed
  | some length => feed.take length.toNat

/-- Whatever room is brought, the same bytes come in the end, and then the same fault if there is one.
    Each time there is some room, at least one byte comes and no more than there is room for. -/
inductive Delivers : Feed → Stream → Prop
  | ended (fault : Option String) : Delivers (.ended fault) ⟨[], fault⟩
  | more {piece : Nat → List UInt8} {rest : Nat → Feed} {bytes : List UInt8} {fault : Option String}
      (later : Nat → List UInt8)
      (comes : ∀ {room}, 0 < room → piece room ≠ [] ∧ (piece room).length ≤ room)
      (splits : ∀ {room}, 0 < room → bytes = piece room ++ later room)
      (follow : ∀ {room}, 0 < room → Delivers (rest room) ⟨later room, fault⟩) :
      Delivers (.more piece rest) ⟨bytes, fault⟩

end Feed

/-- The fault of a stream is met by whoever reads on behind its last byte. -/
theorem Stream.take_eq (limit : UInt64) (stream : Stream) :
    stream.take limit = ⟨stream.bytes.take limit.toNat,
      if limit.toNat ≤ stream.bytes.length then none else stream.fault⟩ := by
  rw [take]
  split
  · rfl
  case isFalse hshort => rw [List.take_of_length_le (Nat.le_of_not_le hshort)]

/-- Stopping a feed stops what it delivers. By induction on what it delivers, for all limits: each
    piece uses up part of the limit. -/
theorem Feed.Delivers.take {feed : Feed} {stream : Stream} (hdelivers : feed.Delivers stream)
    (limit : Nat) :
    (feed.take limit).Delivers
      ⟨stream.bytes.take limit, if limit ≤ stream.bytes.length then none else stream.fault⟩ := by
  induction hdelivers generalizing limit with
  | ended fault =>
    cases limit with
    | zero => exact .ended none
    | succ left => exact .ended fault
  | @more piece rest bytes fault later comes splits follow ih =>
    cases limit with
    | zero =>
      rw [Feed.take, List.take_zero, if_pos (Nat.zero_le _)]
      exact .ended none
    | succ left =>
      -- What is left of the limit is positive, so the stream is given some room whenever there is
      -- some, and whatever comes then fits into what is left.
      have hroom : ∀ {room}, 0 < room → 0 < min room (left + 1) := fun hpositive =>
        Nat.lt_min.2 ⟨hpositive, Nat.succ_pos left⟩
      have hfits : ∀ {room}, 0 < room → (piece (min room (left + 1))).length ≤ left + 1 :=
        fun hpositive => Nat.le_trans (comes (hroom hpositive)).2 (Nat.min_le_right _ _)
      refine .more
        (fun room => (later (min room (left + 1))).take
          (left + 1 - (piece (min room (left + 1))).length))
        (fun hpositive => ?_) (fun hpositive => ?_) (fun {room} hpositive => ?_)
      · obtain ⟨hcomes, hle⟩ := comes (hroom hpositive)
        exact ⟨hcomes, Nat.le_trans hle (Nat.min_le_left _ _)⟩
      · dsimp only
        rw [splits (hroom hpositive), List.take_append, List.take_of_length_le (hfits hpositive)]
      · have hle := hfits hpositive
        have hlength : bytes.length =
            (piece (min room (left + 1))).length + (later (min room (left + 1))).length := by
          rw [splits (hroom hpositive), List.length_append]
        have hmet : left + 1 - (piece (min room (left + 1))).length ≤
            (later (min room (left + 1))).length ↔ left + 1 ≤ bytes.length := by omega
        simpa only [hmet] using
          ih (hroom hpositive) (left + 1 - (piece (min room (left + 1))).length)

namespace Readable

/-- What is handed on of what a reader answers to a request for a range. A failure is handed on as it
    is. Of a stream come as many bytes as the range is long, or all of them if there are fewer or if
    the range has no end, and its fault is met only if the range goes on behind the last of them. In
    whatever pieces the stream comes, this is what comes of it when it is stopped at the length. -/
inductive HandsOn (range : ByteRange) : Except Failure Stream → Except Failure Stream → Prop
  | failure (failure : Failure) : HandsOn range (.error failure) (.error failure)
  | stream {stream capped : Stream}
      (bytes : capped.bytes = range.length.elim stream.bytes
        (fun length => stream.bytes.take (min length.toNat stream.bytes.length)))
      (fault : ∀ message, capped.fault = some message ↔ stream.fault = some message ∧
        ∀ length ∈ range.length, stream.bytes.length < length.toNat)
      (pieces : ∀ {feed : Feed}, feed.Delivers stream →
        (feed.within range.length).Delivers capped) :
      HandsOn range (.ok stream) (.ok capped)

/-- What is handed on of a stream when a range is read. -/
def cut (range : ByteRange) (stream : Stream) : Stream :=
  match range.length with
  | some length => stream.take length
  | none => stream

theorem handsOn_cut (range : ByteRange) (stream : Stream) :
    HandsOn range (.ok stream) (.ok (cut range stream)) := by
  obtain ⟨start, length⟩ := range
  cases length with
  | none => exact .stream rfl (fun message => by simp [cut]) id
  | some length =>
    have hcut : cut ⟨start, some length⟩ stream = stream.take length := rfl
    rw [hcut, Stream.take_eq]
    refine .stream ?_ (fun message => ?_) fun hdelivers => hdelivers.take _
    · rw [Option.elim_some, ← List.take_eq_take_min]
    · dsimp only
      split
      case isTrue hmet => simp [Nat.not_lt.2 hmet]
      case isFalse hshort => simp [Nat.lt_of_not_le hshort]

theorem HandsOn.unique {range : ByteRange} {answer result result' : Except Failure Stream}
    (hands : HandsOn range answer result) (hands' : HandsOn range answer result') :
    result = result' := by
  cases hands with
  | failure => cases hands'; rfl
  | @stream stream capped hbytes hfault =>
    cases hands' with
    | @stream _ capped' hbytes' hfault' =>
      obtain ⟨bytes, fault⟩ := capped
      obtain ⟨bytes', fault'⟩ := capped'
      obtain rfl : bytes = bytes' := hbytes.trans hbytes'.symm
      obtain rfl : fault = fault' :=
        Option.ext fun message => (hfault message).trans (hfault' message).symm
      rfl

theorem returns_read {readable : Readable} {range : ByteRange} {past : List Act}
    {result : Except Failure Stream} :
    Operation.Returns (readable.read range) past result ↔
      ∃ answer : Except Failure Stream,
        past = [.noted (.rangeRead readable.file.name range.header?),
          .asked ⟨.readRange readable.reader range, answer⟩] ∧
        result = answer.map (cut range) := by
  constructor
  · intro hreturns
    cases hreturns with
    | log later =>
      cases later with
      | ask answer later =>
        refine ⟨answer, ?_⟩
        cases answer with
        | error failure =>
          cases later
          exact ⟨rfl, rfl⟩
        | ok stream =>
          cases later
          exact ⟨rfl, rfl⟩
  · rintro ⟨answer, rfl, rfl⟩
    refine .log (@Procedure.Goes.ask _ (.readRange readable.reader range) _ _ _ answer ?_)
    cases answer with
    | error failure => exact .rest _
    | ok stream => exact .rest _

/-- A range is read by asking the reader for it, once and for nothing else. Whatever the answer is,
    and whether or not the reader keeps to the range, no more is handed on than the range is long. -/
theorem read_hands_on {readable : Readable} {range : ByteRange} {past : List Act}
    {result : Except Failure Stream} :
    Operation.Returns (readable.read range) past result ↔
      ∃ answer : Except Failure Stream,
        past = [.noted (.rangeRead readable.file.name range.header?),
          .asked ⟨.readRange readable.reader range, answer⟩] ∧
        HandsOn range answer result := by
  rw [returns_read]
  refine exists_congr fun answer => and_congr_right fun _ => ?_
  have hands : HandsOn range answer (answer.map (cut range)) := by
    cases answer with
    | error failure => exact .failure failure
    | ok stream => exact handsOn_cut range stream
  constructor
  · rintro rfl
    exact hands
  · exact fun hands' => hands'.unique hands

/-- A stream that comes byte by byte and breaks off behind the second byte is read by a reader that
    ignores where the range begins. The range ends with the second byte, so nobody learns of the
    fault. -/
theorem read_hands_on_before_fault :
    let stream : Stream := ⟨[1, 2], some "lost"⟩
    let feed : Feed :=
      .more (fun _ => [1]) fun _ => .more (fun _ => [2]) fun _ => .ended (some "lost")
    let readable : Readable := ⟨⟨"f", { name := "f" }⟩, .remote fun _ => .ok stream⟩
    let range : ByteRange := ⟨5, some 2⟩
    feed.Delivers stream ∧
      Operation.Returns (readable.read range)
        [.noted (.rangeRead readable.file.name range.header?),
          .asked ⟨.readRange readable.reader range, .ok stream⟩]
        (.ok ⟨[1, 2], none⟩) ∧
      (feed.within range.length).Delivers ⟨[1, 2], none⟩ := by
  intro stream feed readable range
  have hsecond : Feed.Delivers (.more (fun _ => [2]) fun _ => .ended (some "lost"))
      ⟨[2], some "lost"⟩ :=
    .more (fun _ => []) (fun hroom => ⟨by simp, hroom⟩) (fun _ => rfl) (fun _ => .ended _)
  have hfeed : feed.Delivers stream :=
    .more (fun _ => [2]) (fun hroom => ⟨by simp, hroom⟩) (fun _ => rfl) (fun _ => hsecond)
  have hands : HandsOn range (.ok stream) (.ok ⟨[1, 2], none⟩) := handsOn_cut range stream
  refine ⟨hfeed, read_hands_on.2 ⟨.ok stream, rfl, hands⟩, ?_⟩
  cases hands with
  | stream _ _ pieces => exact pieces hfeed

end Readable

end VirtualFs
