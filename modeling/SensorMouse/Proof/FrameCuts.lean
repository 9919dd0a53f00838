import SensorMouse.Lib.Run
import SensorMouse.Proof.StartCodes

/-!
# Frames do not depend on the buffers

Where the parser is in a start code when a buffer ends is part of its state, and what it holds back it
writes later. So the frames of a stream are those of the bytes alone: the stream is cut where a start
code ends, the bytes of the start code begin the next frame, and what follows a header stays with it.
-/

namespace SensorMouse.Frameworks.FrameParse

open Lib CodecType

/-! ### Cutting -/

/-- A stream cut into frames. The last one has `before`, then its last start code, then the bytes since
that. -/
structure Cut where
  frames : List (List UInt8) := []
  before : List UInt8 := []
  code : List UInt8 := []
  payload : List UInt8 := []
  headerFound : Bool := false

namespace Cut

/-- The frame that is not finished. -/
def last (cut : Cut) : List UInt8 := cut.before ++ cut.code ++ cut.payload

/-- Whether the start code is that of a header. -/
def inHeader (codec : CodecType) (cut : Cut) : Bool := codec.isHeader (cut.code.getLast?.getD 0)

/-- One more byte. -/
def push (codec : CodecType) (cut : Cut) (byte : UInt8) : Cut :=
  let headerFound := seesHeader codec cut.headerFound cut.payload byte
  match marker codec cut.headerFound cut.payload byte with
  | none => { cut with payload := cut.payload ++ [byte], headerFound := headerFound }
  | some k =>
      let frame := cut.before ++ cut.code ++ cut.payload.take (cut.payload.length + 1 - k)
      if cut.inHeader codec then
        { frames := cut.frames, before := frame, code := codeOf codec byte, headerFound := headerFound }
      else
        { frames := cut.frames ++ [frame], code := codeOf codec byte, headerFound := headerFound }

/-- The cut has got `bytes` and no start code ended in them. -/
structure Longer (cut next : Cut) (bytes : List UInt8) : Prop where
  frames : next.frames = cut.frames
  before : next.before = cut.before
  code : next.code = cut.code
  payload : next.payload = cut.payload ++ bytes

end Cut

/-- The frames of a stream. -/
def cutOf (codec : CodecType) (bytes : List UInt8) : Cut := bytes.foldl (Cut.push codec) {}

/-- What the parser has read of the frame and not written. -/
def pending (parser : FrameParse) : List UInt8 :=
  if parser.Found then parser.codeFound
  else parser.codec.startCode.take parser.parseState.matched

variable {codec : CodecType} {parser next : FrameParse} {cut : Cut} {byte : UInt8}
  {written rest : List UInt8}

/-! ### The parser and the cut -/

/-- The parser a cut leaves, with no byte under way. -/
def Cut.ideal (cut : Cut) (parser : FrameParse) : FrameParse :=
  { parser with
    parseState := searchState parser.codec cut.payload
    headerFound := cut.headerFound }

/-- The parser looks for the next start code. It may have looked at the first byte of the rest already,
but then to the same end. -/
structure Tracks (cut : Cut) (parser : FrameParse) (rest : List UInt8) : Prop where
  search : ¬ parser.Found
  skip : parser.skipFrameBoundary = cut.inHeader parser.codec
  last : rest = [] → parser = cut.ideal parser
  settle : ∀ byte, rest.head? = some byte → parser.settle byte = (cut.ideal parser).settle byte

/-- The parser has used up the last byte of a start code. -/
structure Stops (cut : Cut) (parser : FrameParse) (byte : UInt8) : Prop where
  found : parser.Found
  skip : parser.skipFrameBoundary = cut.inHeader parser.codec
  marker : marker parser.codec cut.headerFound cut.payload byte = some (heldBack parser.parseState)
  header : parser.headerFound = seesHeader parser.codec cut.headerFound cut.payload byte
  code : parser.codeFound = codeOf parser.codec byte

theorem searchState_ne (codec : CodecType) (payload : List UInt8) :
    searchState codec payload ≠ .A4 ∧ searchState codec payload ≠ .A5 := by
  unfold searchState
  split_ifs <;> exact ⟨nofun, nofun⟩

/-- Nothing is under way when the last byte was used up. -/
theorem tracks_of_state (hstate : parser.parseState = searchState parser.codec cut.payload)
    (hheader : parser.headerFound = cut.headerFound)
    (hskip : parser.skipFrameBoundary = cut.inHeader parser.codec) (rest : List UInt8) :
    Tracks cut parser rest := by
  obtain ⟨hA4, hA5⟩ := searchState_ne parser.codec cut.payload
  have hideal : parser = cut.ideal parser := by
    unfold Cut.ideal
    rw [← hstate, ← hheader]
  refine ⟨not_found hstate hA4 hA5, hskip, fun _ => hideal, fun byte _ => ?_⟩
  rw [← hideal]

theorem Tracks.settled (htracks : Tracks cut parser (byte :: rest)) :
    Settled (cut.ideal parser) (parser.settle byte) cut.payload byte := by
  rw [htracks.settle byte rfl]
  exact FrameParse.settled rfl byte

theorem Tracks.left {copied : Nat} (htracks : Tracks cut parser (byte :: rest))
    (hround : parser.matchByte byte = (next, false, copied)) : Tracks cut next (byte :: rest) := by
  have hback := fallsBack htracks.search hround
  refine ⟨hback.search, ?_, nofun, fun other hother => ?_⟩
  · rw [hback.skip_eq, hback.codec_eq]
    exact htracks.skip
  · obtain rfl : byte = other := Option.some.inj hother
    have hsame := congrArg cut.ideal hback.same
    have hideal : cut.ideal next = cut.ideal parser := hsame
    rw [← settle_of_left htracks.search hround, htracks.settle byte rfl, hideal]

theorem marker_le {headerFound : Bool} {payload : List UInt8} {k : Nat}
    (hmarker : marker codec headerFound payload byte = some k) : 0 < k ∧ k ≤ payload.length + 1 := by
  have hsuffix : ∃ front : List UInt8, front <:+ payload ∧ k = front.length + 1 := by
    cases codec with
    | h264 =>
        simp only [marker] at hmarker
        split_ifs at hmarker with hfour hthree
        · exact ⟨_, hfour.2, (Option.some.inj hmarker).symm⟩
        · exact ⟨_, hthree.2, (Option.some.inj hmarker).symm⟩
    | _ =>
        simp only [marker] at hmarker
        obtain ⟨⟨-, hsuffix⟩, hk⟩ := Option.ite_none_right_eq_some.mp hmarker
        exact ⟨_, hsuffix, (Option.some.inj hk).symm⟩
  obtain ⟨front, hfront, rfl⟩ := hsuffix
  exact ⟨Nat.succ_pos _, Nat.succ_le_succ hfront.length_le⟩

theorem Tracks.used {copied : Nat} (htracks : Tracks cut parser (byte :: rest))
    (hround : parser.matchByte byte = (next, true, copied)) (hsearch : ¬ next.Found) :
    Tracks (cut.push parser.codec byte) next rest ∧
      Cut.Longer cut (cut.push parser.codec byte) [byte] := by
  have hsettled := htracks.settled
  rw [settle_of_used htracks.search hround] at hsettled
  have hcodec : next.codec = parser.codec := hsettled.codec
  cases hmarker : marker parser.codec cut.headerFound cut.payload byte with
  | some k => exact absurd (hsettled.found k hmarker).1 hsearch
  | none =>
      have hpush : cut.push parser.codec byte = { cut with
          payload := cut.payload ++ [byte]
          headerFound := seesHeader parser.codec cut.headerFound cut.payload byte } := by
        unfold Cut.push
        simp only [hmarker]
      rw [hpush]
      refine ⟨tracks_of_state ?_ hsettled.header ?_ rest, rfl, rfl, rfl, rfl⟩
      · rw [hcodec]
        exact hsettled.search hmarker
      · rw [hcodec, hsettled.skip]
        exact htracks.skip

theorem Tracks.stops {copied : Nat} (htracks : Tracks cut parser (byte :: rest))
    (hround : parser.matchByte byte = (next, true, copied)) (hfound : next.Found) :
    Stops cut next byte := by
  have hsettled := htracks.settled
  rw [settle_of_used htracks.search hround] at hsettled
  have hcodec : next.codec = parser.codec := hsettled.codec
  cases hmarker : marker parser.codec cut.headerFound cut.payload byte with
  | none =>
      obtain ⟨hA4, hA5⟩ := searchState_ne parser.codec (cut.payload ++ [byte])
      exact absurd hfound (not_found (hsettled.search hmarker) hA4 hA5)
  | some k =>
      obtain ⟨-, hheld, hcode⟩ := hsettled.found k hmarker
      refine ⟨hfound, ?_, ?_, ?_, ?_⟩
      · rw [hcodec, hsettled.skip]
        exact htracks.skip
      · rw [hcodec, hheld, hmarker]
      · rw [hcodec]
        exact hsettled.header
      · rw [hcodec]
        exact hcode

/-! ### The two loops -/

/-- The destination has what was read but for a part of a start code. -/
def Written (cut : Cut) (parser : FrameParse) (written : List UInt8) : Prop :=
  written ++ parser.codec.startCode.take parser.parseState.matched = cut.last

theorem Cut.Longer.last {cut next : Cut} {bytes : List UInt8} (hlonger : Cut.Longer cut next bytes) :
    next.last = cut.last ++ bytes := by
  unfold Cut.last
  rw [hlonger.before, hlonger.code, hlonger.payload]
  simp only [List.append_assoc]

theorem Cut.Longer.trans {cut middle next : Cut} {first second : List UInt8}
    (hfirst : Cut.Longer cut middle first) (hsecond : Cut.Longer middle next second) :
    Cut.Longer cut next (first ++ second) := by
  refine ⟨hsecond.frames.trans hfirst.frames, hsecond.before.trans hfirst.before,
    hsecond.code.trans hfirst.code, ?_⟩
  rw [hsecond.payload, hfirst.payload, List.append_assoc]

/-- What has to be in the destination when a start code is found. -/
def Cut.front (cut : Cut) (k : Nat) : List UInt8 :=
  cut.before ++ cut.code ++ cut.payload.take (cut.payload.length + 1 - k)

theorem Written.front (hwritten : Written cut parser written) (hstops : Stops cut next byte)
    (hround : GoesOn parser next byte) : written = cut.front (heldBack next.parseState) := by
  obtain ⟨hpos, hle⟩ := marker_le hstops.marker
  rw [hround.held hstops.found] at hpos hle ⊢
  unfold Written Cut.last at hwritten
  have hlength := length_take_matched parser.codec parser.parseState
  have hsplit : cut.payload = cut.payload.take (cut.payload.length - parser.parseState.matched) ++
      cut.payload.drop (cut.payload.length - parser.parseState.matched) :=
    (List.take_append_drop _ _).symm
  rw [hsplit, ← List.append_assoc] at hwritten
  obtain ⟨hwritten, -⟩ := List.append_inj' hwritten (by rw [hlength, List.length_drop]; omega)
  unfold Cut.front
  rw [Nat.add_sub_add_right]
  exact hwritten

theorem Written.left {copied : Nat} (hwritten : Written cut parser written)
    (hback : FallsBack parser next copied) :
    Written cut next (written ++ parser.codec.startCode.take copied) := by
  unfold Written at hwritten ⊢
  rw [hback.codec_eq, List.append_assoc, ← hback.take]
  exact hwritten

theorem Written.used (hwritten : Written cut parser written) (hround : GoesOn parser next byte)
    (hbegun : parser.parseState ≠ .A0) (hsearch : ¬ next.Found) {longer : Cut}
    (hlonger : Cut.Longer cut longer [byte]) : Written longer next written := by
  unfold Written at hwritten ⊢
  rw [hround.codec, hround.take hbegun hsearch, hlonger.last, ← hwritten, List.append_assoc]

/-- A piece of the stream in which no start code ended. -/
structure Searched (cut : Cut) (parser next : FrameParse) (used rest : List UInt8) : Prop where
  tracks : Tracks (used.foldl (Cut.push parser.codec) cut) next rest
  longer : Cut.Longer cut (used.foldl (Cut.push parser.codec) cut) used

/-- A piece of the stream with the end of a start code. -/
structure Stopped (cut : Cut) (parser next : FrameParse) (front : List UInt8) (byte : UInt8) :
    Prop where
  stops : Stops (front.foldl (Cut.push parser.codec) cut) next byte
  longer : Cut.Longer cut (front.foldl (Cut.push parser.codec) cut) front

theorem searched_nil (htracks : Tracks cut parser rest) : Searched cut parser parser [] rest :=
  ⟨htracks, rfl, rfl, rfl, (List.append_nil _).symm⟩

theorem Searched.cons {last : FrameParse} {used : List UInt8} (hcodec : next.codec = parser.codec)
    (hlonger : Cut.Longer cut (cut.push parser.codec byte) [byte])
    (hrest : Searched (cut.push parser.codec byte) next last used rest) :
    Searched cut parser last (byte :: used) rest := by
  obtain ⟨htracks, hmore⟩ := hrest
  rw [hcodec] at htracks hmore
  exact ⟨htracks, hlonger.trans hmore⟩

theorem Stopped.cons {last : FrameParse} {front : List UInt8} {found : UInt8}
    (hcodec : next.codec = parser.codec)
    (hlonger : Cut.Longer cut (cut.push parser.codec byte) [byte])
    (hrest : Stopped (cut.push parser.codec byte) next last front found) :
    Stopped cut parser last (byte :: front) found := by
  obtain ⟨hstops, hmore⟩ := hrest
  rw [hcodec] at hstops hmore
  exact ⟨hstops, hlonger.trans hmore⟩

theorem entryLoop_of_stop {source : List UInt8} {dest : BufferHeader}
    (hstop : parser.parseState = .A0 ∨ parser.Found ∨ dest.room = 0) :
    parser.entryLoop source dest = .ok (parser, source, dest) := by
  unfold entryLoop
  cases source with
  | nil => rfl
  | cons byte rest => exact dif_pos hstop

theorem entryLoop_of_used {source : List UInt8} {dest : BufferHeader} {copied : Nat}
    (hgo : ¬ (parser.parseState = .A0 ∨ parser.Found ∨ dest.room = 0))
    (hround : parser.matchByte byte = (next, true, copied)) :
    parser.entryLoop (byte :: source) dest = next.entryLoop source dest := by
  rw [entryLoop.eq_def parser]
  simp only
  rw [dif_neg hgo]
  split
  · rename_i heq
    rw [hround] at heq
    cases heq
    rfl
  · rename_i heq
    rw [hround] at heq
    cases heq

theorem entryLoop_of_left {source : List UInt8} {dest : BufferHeader} {copied : Nat}
    (hgo : ¬ (parser.parseState = .A0 ∨ parser.Found ∨ dest.room = 0))
    (hround : parser.matchByte byte = (next, false, copied)) :
    parser.entryLoop (byte :: source) dest =
      dest.append (parser.codec.startCode.take copied) >>= fun dest =>
        next.entryLoop (byte :: source) dest := by
  rw [entryLoop.eq_def parser]
  simp only
  rw [dif_neg hgo]
  split
  · rename_i heq
    rw [hround] at heq
    cases heq
  · rename_i heq
    rw [hround] at heq
    cases heq
    rfl

end SensorMouse.Frameworks.FrameParse
