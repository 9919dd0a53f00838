import Mathlib.Data.List.Basic

/-!
# `frame_parse`

Cuts the bytes of a video into frames. The bytes come in source buffers of any size and go into
destination buffers of any size, so the parser has to remember how much of a start code it has seen;
those bytes are neither in the source any more nor in the destination yet.
-/

namespace SensorMouse.Frameworks

/-- The start codes a parser is initialised with. -/
inductive CodecType where
  | mpeg4
  | h263
  | h264
  | vc1
  | mpeg2
  deriving DecidableEq, Repr

namespace CodecType

def startCode : CodecType → List UInt8
  | mpeg4 => [0x00, 0x00, 0x01, 0xB6]
  | h263 => [0x00, 0x00, 0x80, 0x00]
  | h264 => [0x00, 0x00, 0x00, 0x01]
  | vc1 => [0x00, 0x00, 0x01, 0x0C]
  | mpeg2 => [0x00, 0x00, 0x01, 0x00]

def maskCode : CodecType → List UInt8
  | h263 => [0xFF, 0xFF, 0xFC, 0x00]
  | vc1 => [0xFF, 0xFF, 0xFF, 0xFC]
  | mpeg4 | h264 | mpeg2 => [0xFF, 0xFF, 0xFF, 0xFF]

/-- `(byte & mask_code[k]) == start_code[k]`. -/
def isMatch (codec : CodecType) (k : Nat) (byte : UInt8) : Bool :=
  byte &&& codec.maskCode.getD k 0 == codec.startCode.getD k 0

/-- `start_code[i] == start_code[j]`. -/
def isSame (codec : CodecType) (i j : Nat) : Bool :=
  codec.startCode.getD i 0 == codec.startCode.getD j 0

/-- The last byte of the start code of a header. -/
def isHeader : CodecType → UInt8 → Bool
  | mpeg4, byte => byte &&& 0xF0 == 0x20
  | mpeg2, byte => byte == 0xB3
  | h263, _ | h264, _ | vc1, _ => false

end CodecType

/-- How much of a start code was read; after `A4` and `A5` all of it. -/
inductive ParseState where
  | A0
  | A1
  | A2
  | A3
  | A4
  | A5
  deriving DecidableEq, Repr

inductive NalState where
  | nalLengthAcc
  | nalParsing
  deriving DecidableEq, Repr

/-- `OMX_BUFFERHEADERTYPE`: the `nFilledLen` bytes of the buffer, and how many more fit behind them. -/
structure BufferHeader where
  data : List UInt8
  room : Nat
  nFlags : UInt32 := 0
  nTimeStamp : Int := 0
  deriving DecidableEq, Repr

/-- `overrun` is a write behind the end of the destination. -/
inductive ParseError where
  | badParameter
  | overrun
  deriving DecidableEq, Repr

/-- `memcpy` behind what is filled. -/
def BufferHeader.append (dest : BufferHeader) (bytes : List UInt8) :
    Except ParseError BufferHeader :=
  if bytes.length ≤ dest.room then
    .ok { dest with data := dest.data ++ bytes, room := dest.room - bytes.length }
  else .error .overrun

structure FrameParse where
  codec : CodecType
  parseState : ParseState := .A0
  lastByteH263 : UInt8 := 0
  lastByte : UInt8 := 0
  stateNal : NalState := .nalLengthAcc
  nalLength : Nat := 0
  accumLength : Nat := 0
  bytesTobeparsed : UInt32 := 0
  headerFound : Bool := false
  skipFrameBoundary : Bool := false
  deriving DecidableEq, Repr

/-- What a call leaves behind. -/
structure Parsed where
  parser : FrameParse
  source : BufferHeader
  dest : BufferHeader
  partialframe : Bool
  deriving DecidableEq, Repr

namespace FrameParse

open CodecType

variable (parser : FrameParse)

def initNalLength (nalLen : Nat) : Int × FrameParse :=
  if nalLen = 0 ∨ 4 < nalLen ∨ parser.stateNal ≠ .nalLengthAcc then (-1, parser)
  else (1, { parser with nalLength := nalLen })

def flush : FrameParse :=
  { parser with
    parseState := .A0
    stateNal := .nalLengthAcc
    accumLength := 0
    bytesTobeparsed := 0
    headerFound := false
    skipFrameBoundary := false }

/-! ### Start codes -/

/-- From the second header on, its start code begins a frame; then the state is `A4`. -/
def parseAdditionalStartCode (byte : UInt8) : FrameParse :=
  if parser.codec.isHeader byte then
    if parser.headerFound then { parser with lastByte := byte, parseState := .A4 }
    else { parser with headerFound := true }
  else parser

/-- `partialframe` at the end of a frame. -/
def checkSkipFrameBoundary : Bool × FrameParse :=
  match parser.codec with
  | .mpeg4 | .mpeg2 => (parser.skipFrameBoundary, { parser with skipFrameBoundary := false })
  | .h263 | .h264 | .vc1 => (false, parser)

/-- What follows a header belongs to its frame. -/
def updateSkipFrame : FrameParse :=
  if parser.codec.isHeader parser.lastByte then { parser with skipFrameBoundary := true } else parser

/-- A start code was read. -/
def Found : Prop := parser.parseState = .A4 ∨ parser.parseState = .A5

instance : Decidable parser.Found := inferInstanceAs (Decidable (_ ∨ _))

/-- One round of either state machine, with the byte at `psource`: whether the byte is used up, and how
many bytes of the start code turn out to be none of it. -/
def matchByte (byte : UInt8) : FrameParse × Bool × Nat :=
  match parser.parseState with
  | .A3 =>
      let parser := parser.parseAdditionalStartCode byte
      if parser.parseState = .A4 then (parser, true, 0)
      else if parser.codec.isMatch 3 byte then
        ({ parser with lastByte := byte, parseState := .A4 }, true, 0)
      else if parser.codec.isSame 1 0 && parser.codec.isSame 2 1 then
        ({ parser with parseState := .A2 }, false, 1)
      else if parser.codec.isSame 2 0 then ({ parser with parseState := .A1 }, false, 2)
      else ({ parser with parseState := .A0 }, false, 3)
  | .A2 =>
      let isByteMatch := parser.codec.isMatch 2 byte
      if parser.codec = .h263 ∧ isByteMatch then
        ({ parser with lastByteH263 := byte, parseState := .A5 }, true, 0)
      else if parser.codec = .h264 ∧ parser.codec.isMatch 3 byte then
        ({ parser with parseState := .A5 }, true, 0)
      else if parser.codec ≠ .h263 ∧ isByteMatch then ({ parser with parseState := .A3 }, true, 0)
      else if parser.codec.isSame 1 0 then ({ parser with parseState := .A1 }, false, 1)
      else ({ parser with parseState := .A0 }, false, 2)
  | .A1 =>
      if parser.codec.isMatch 1 byte then ({ parser with parseState := .A2 }, true, 0)
      else ({ parser with parseState := .A0 }, false, 1)
  | .A0 =>
      if parser.codec.isMatch 0 byte then ({ parser with parseState := .A1 }, true, 0)
      else (parser, true, 0)
  | .A4 | .A5 => (parser, false, 0)

end FrameParse

/-- The bytes of a start code that were read, unless all of it was. -/
def ParseState.matched : ParseState → Nat
  | A0 | A4 | A5 => 0
  | A1 => 1
  | A2 => 2
  | A3 => 3

namespace FrameParse

/-- A round that leaves the byte falls back to a shorter part of the start code. -/
theorem matched_matchByte_lt {parser next : FrameParse} {byte : UInt8} {copied : Nat}
    (hsearch : ¬ parser.Found) (hround : parser.matchByte byte = (next, false, copied)) :
    next.parseState.matched < parser.parseState.matched := by
  unfold Found at hsearch
  unfold matchByte at hround
  cases hstate : parser.parseState with
  | A4 => exact absurd (Or.inl hstate) hsearch
  | A5 => exact absurd (Or.inr hstate) hsearch
  | A0 =>
      simp only [hstate] at hround
      split_ifs at hround <;> cases hround
  | A1 =>
      simp only [hstate] at hround
      split_ifs at hround <;> cases hround
      exact Nat.one_pos
  | A2 =>
      simp only [hstate] at hround
      split_ifs at hround <;> cases hround <;> simp [ParseState.matched]
  | A3 =>
      simp only [hstate] at hround
      split_ifs at hround <;> cases hround <;> simp [ParseState.matched]

/-- The entry state machine: what was read before and is no start code goes into the destination. -/
def entryLoop (parser : FrameParse) (source : List UInt8) (dest : BufferHeader) :
    Except ParseError (FrameParse × List UInt8 × BufferHeader) :=
  match source with
  | [] => .ok (parser, [], dest)
  | byte :: rest =>
      if _hstop : parser.parseState = .A0 ∨ parser.Found ∨ dest.room = 0 then
        .ok (parser, byte :: rest, dest)
      else
        match _hround : parser.matchByte byte with
        | (next, true, _) => next.entryLoop rest dest
        | (next, false, copied) => do
            let dest ← dest.append (parser.codec.startCode.take copied)
            next.entryLoop (byte :: rest) dest
  termination_by (source.length, parser.parseState.matched)
  decreasing_by
    · simp_wf
      exact Prod.Lex.left _ _ (Nat.lt_succ_self _)
    · exact Prod.Lex.right _ (matched_matchByte_lt (fun h => _hstop (Or.inr (Or.inl h))) _hround)

/-- The parsing state machine on the bytes that fit; it stops behind a start code. -/
def parseLoop (parser : FrameParse) (psource : List UInt8) (parsedLength : Nat) :
    FrameParse × Nat :=
  match psource with
  | [] => (parser, parsedLength)
  | byte :: rest =>
      if _hstop : parser.Found then (parser, parsedLength)
      else
        match _hround : parser.matchByte byte with
        | (next, true, _) => next.parseLoop rest (parsedLength + 1)
        | (next, false, _) => next.parseLoop (byte :: rest) parsedLength
  termination_by (psource.length, parser.parseState.matched)
  decreasing_by
    · simp_wf
      exact Prod.Lex.left _ _ (Nat.lt_succ_self _)
    · exact Prod.Lex.right _ (matched_matchByte_lt _hstop _hround)

/-- The parsed bytes that stay out of the destination. -/
def heldBack : ParseState → Nat
  | .A0 => 0
  | .A1 => 1
  | .A2 => 2
  | .A3 | .A5 => 3
  | .A4 => 4

/-- The start code that the last call has found begins the destination of this one. -/
def writeStartCode (parser : FrameParse) (source dest : BufferHeader) :
    Except ParseError (FrameParse × BufferHeader) :=
  if parser.Found then do
    let dest := { dest with nFlags := source.nFlags, nTimeStamp := source.nTimeStamp }
    if parser.codec = .h263 then
      let dest ← dest.append (parser.codec.startCode.take 2 ++ [parser.lastByteH263])
      pure ({ parser with parseState := .A0 }, dest)
    else if parser.codec = .h264 then
      let dest ← dest.append parser.codec.startCode
      pure ({ parser with parseState := .A0 }, dest)
    else
      let dest ← dest.append (parser.codec.startCode.take 3 ++ [parser.lastByte])
      pure ({ parser.updateSkipFrame with parseState := .A0 }, dest)
  else pure (parser, dest)

/-- The least room of a destination. -/
def startCodeSize (parser : FrameParse) : Nat := if parser.codec = .h263 then 3 else 4

def parseScFrame (parser : FrameParse) (source dest : BufferHeader) :
    Except ParseError Parsed :=
  if dest.room < parser.startCodeSize ∨ source.data = [] then
    if source.data = [] ∧ source.nFlags &&& 0x01 ≠ 0 then .ok ⟨parser, source, dest, false⟩
    else .error .badParameter
  else do
    let (parser, dest) ← parser.writeStartCode source dest
    let (parser, data, dest) ← parser.entryLoop source.data dest
    if parser.Found then
      let (partialframe, parser) := parser.checkSkipFrameBoundary
      pure ⟨parser, { source with data := data }, dest, partialframe⟩
    else
      -- nothing is left to parse if there are no bytes or there is no room for them
      let (parser, parsedLength) := parser.parseLoop (data.take dest.room) 0
      let dest ← dest.append (data.take (parsedLength - heldBack parser.parseState))
      let (partialframe, parser) :=
        if parser.Found then parser.checkSkipFrameBoundary else (true, parser)
      pure ⟨parser, { source with data := data.drop parsedLength }, dest, partialframe⟩

/-! ### Lengths -/

/-- The length in front of a unit, most significant byte first; it stops behind the length. -/
def accumulate (parser : FrameParse) : List UInt8 → FrameParse × List UInt8
  | [] => (parser, [])
  | byte :: rest =>
      let shift := (parser.nalLength - parser.accumLength - 1) * 8
      let parser := { parser with
        bytesTobeparsed := parser.bytesTobeparsed ||| byte.toUInt32 <<< UInt32.ofNat shift
        accumLength := parser.accumLength + 1 }
      if parser.accumLength = parser.nalLength then
        ({ parser with accumLength := 0, stateNal := .nalParsing }, rest)
      else parser.accumulate rest

/-- The length of the next unit is read, and a start code takes its place. -/
def readNalLength (parser : FrameParse) (data : List UInt8) (dest : BufferHeader) :
    Except ParseError (FrameParse × List UInt8 × BufferHeader) :=
  if parser.stateNal = .nalLengthAcc then
    let (parser, rest) := parser.accumulate (data.take dest.room)
    let data := rest ++ data.drop dest.room
    if parser.stateNal = .nalParsing then do
      let dest ← dest.append CodecType.h264.startCode
      pure (parser, data, dest)
    else pure (parser, data, dest)
  else pure (parser, data, dest)

/-- As much of the unit as there is and as fits. -/
def copyNal (parser : FrameParse) (data : List UInt8) (dest : BufferHeader) :
    Except ParseError (FrameParse × List UInt8 × BufferHeader) :=
  let tempLen := min data.length dest.room
  if parser.stateNal = .nalParsing ∧ 0 < tempLen then
    if tempLen < parser.bytesTobeparsed.toNat then do
      let dest ← dest.append (data.take tempLen)
      pure ({ parser with
        bytesTobeparsed := parser.bytesTobeparsed - UInt32.ofNat tempLen }, data.drop tempLen, dest)
    else do
      let dest ← dest.append (data.take parser.bytesTobeparsed.toNat)
      pure ({ parser with bytesTobeparsed := 0 }, data.drop parser.bytesTobeparsed.toNat, dest)
  else pure (parser, data, dest)

def parseH264Nallength (parser : FrameParse) (source dest : BufferHeader) :
    Except ParseError Parsed :=
  if dest.room < 4 ∨ source.data = [] ∨ parser.nalLength = 0 then .error .badParameter
  else do
    let (parser, data, dest) ← parser.readNalLength source.data dest
    let dest := { dest with nTimeStamp := source.nTimeStamp, nFlags := source.nFlags }
    let (parser, data, dest) ← parser.copyNal data dest
    let source := { source with data := data }
    if parser.bytesTobeparsed = 0 ∧ parser.stateNal = .nalParsing then
      pure ⟨{ parser with stateNal := .nalLengthAcc }, source, dest, false⟩
    else pure ⟨parser, source, dest, true⟩

/-! ### A stream -/

/-- A stream on its way through a parser: what is left of it, the frames so far and what there is of
the next one. -/
structure Reading where
  parser : FrameParse
  rest : List UInt8
  frames : List (List UInt8) := []
  frame : List UInt8 := []
  deriving DecidableEq, Repr

/-- The bytes in the source buffer of a call, and the room in its destination. -/
structure Offer where
  bytes : Nat
  room : Nat
  deriving DecidableEq, Repr

/-- One call; `parse` is one of the two functions. -/
def Reading.step (parse : FrameParse → BufferHeader → BufferHeader → Except ParseError Parsed)
    (reading : Reading) (offer : Offer) : Option Reading :=
  match parse reading.parser ⟨reading.rest.take offer.bytes, 0, 0, 0⟩
      ⟨reading.frame, offer.room, 0, 0⟩ with
  | .error _ => none
  | .ok parsed =>
      let rest := parsed.source.data ++ reading.rest.drop offer.bytes
      if parsed.partialframe then
        some { parser := parsed.parser, rest := rest, frames := reading.frames,
               frame := parsed.dest.data }
      else
        some { parser := parsed.parser, rest := rest,
               frames := reading.frames ++ [parsed.dest.data] }

end FrameParse

end SensorMouse.Frameworks
