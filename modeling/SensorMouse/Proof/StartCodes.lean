import SensorMouse.Frameworks.FrameParse
import Mathlib.Data.List.Infix

/-!
# What the rounds of the parser add up to

A byte that does not continue the start code is looked at again from a shorter part of it, and again,
until it is used up. `settle` is where that ends. It depends on the bytes since the last start code
alone, through the longest part of a start code they end with, and a start code is found exactly where
one ends.
-/

namespace SensorMouse.Frameworks.FrameParse

open CodecType

variable {codec : CodecType} {parser next : FrameParse} {payload : List UInt8} {byte : UInt8}

/-! ### One round -/

theorem and_mask (byte : UInt8) : byte &&& 255 = byte := UInt8.and_neg_one

theorem isMatch_zero (codec : CodecType) (byte : UInt8) : codec.isMatch 0 byte = (byte == 0) := by
  cases codec <;> simp [isMatch, maskCode, startCode, and_mask]

theorem isMatch_one (codec : CodecType) (byte : UInt8) : codec.isMatch 1 byte = (byte == 0) := by
  cases codec <;> simp [isMatch, maskCode, startCode, and_mask]

/-- Start codes that begin with `00 00 01`. -/
def IsPrefixed (codec : CodecType) : Prop := codec = .mpeg4 ∨ codec = .vc1 ∨ codec = .mpeg2

theorem length_startCode (codec : CodecType) : codec.startCode.length = 4 := by
  cases codec <;> rfl

theorem matched_le (state : ParseState) : state.matched ≤ 3 := by
  cases state <;> decide

theorem length_take_matched (codec : CodecType) (state : ParseState) :
    (codec.startCode.take state.matched).length = state.matched := by
  rw [List.length_take, length_startCode]
  exact Nat.min_eq_left ((matched_le state).trans (by decide))

theorem matchByte_A0 (hstate : parser.parseState = .A0) (byte : UInt8) :
    parser.matchByte byte =
      (if byte = 0 then { parser with parseState := .A1 } else parser, true, 0) := by
  unfold matchByte
  simp only [hstate, isMatch_zero, beq_iff_eq]
  split_ifs
  · rfl
  · rfl

theorem matchByte_A1 (hstate : parser.parseState = .A1) (byte : UInt8) :
    parser.matchByte byte =
      if byte = 0 then ({ parser with parseState := .A2 }, true, 0)
      else ({ parser with parseState := .A0 }, false, 1) := by
  unfold matchByte
  simp only [hstate, isMatch_one, beq_iff_eq]

theorem matchByte_A2_h263 (hcodec : parser.codec = .h263) (hstate : parser.parseState = .A2)
    (byte : UInt8) :
    parser.matchByte byte =
      if byte &&& 0xFC = 0x80 then
        ({ parser with lastByteH263 := byte, parseState := .A5 }, true, 0)
      else ({ parser with parseState := .A1 }, false, 1) := by
  unfold matchByte
  simp [hstate, hcodec, isMatch, isSame, maskCode, startCode]

theorem matchByte_A2_h264 (hcodec : parser.codec = .h264) (hstate : parser.parseState = .A2)
    (byte : UInt8) :
    parser.matchByte byte =
      if byte = 1 then ({ parser with parseState := .A5 }, true, 0)
      else if byte = 0 then ({ parser with parseState := .A3 }, true, 0)
      else ({ parser with parseState := .A1 }, false, 1) := by
  unfold matchByte
  simp [hstate, hcodec, isMatch, isSame, maskCode, startCode, and_mask]

theorem matchByte_A2_prefixed (hcodec : IsPrefixed parser.codec) (hstate : parser.parseState = .A2)
    (byte : UInt8) :
    parser.matchByte byte =
      if byte = 1 then ({ parser with parseState := .A3 }, true, 0)
      else ({ parser with parseState := .A1 }, false, 1) := by
  unfold matchByte
  rcases hcodec with hcodec | hcodec | hcodec <;>
    simp [hstate, hcodec, isMatch, isSame, maskCode, startCode, and_mask]

theorem matchByte_A3_h264 (hcodec : parser.codec = .h264) (hstate : parser.parseState = .A3)
    (byte : UInt8) :
    parser.matchByte byte =
      if byte = 1 then ({ parser with lastByte := byte, parseState := .A4 }, true, 0)
      else ({ parser with parseState := .A2 }, false, 1) := by
  unfold matchByte parseAdditionalStartCode
  simp [hstate, hcodec, isMatch, isSame, isHeader, maskCode, startCode, and_mask]

/-- The last byte of a start code that is read to its end. -/
def Ends (codec : CodecType) (headerFound : Bool) (byte : UInt8) : Prop :=
  codec.isMatch 3 byte = true ∨ codec.isHeader byte = true ∧ headerFound = true

instance (codec : CodecType) (headerFound : Bool) (byte : UInt8) :
    Decidable (Ends codec headerFound byte) := inferInstanceAs (Decidable (_ ∨ _))

theorem parseAdditionalStartCode_of_not {parser : FrameParse} {byte : UInt8}
    (hends : ¬ (parser.codec.isHeader byte = true ∧ parser.headerFound = true)) :
    parser.parseAdditionalStartCode byte =
      { parser with headerFound := parser.headerFound || parser.codec.isHeader byte } := by
  unfold parseAdditionalStartCode
  cases hheader : parser.codec.isHeader byte with
  | false => simp
  | true =>
      cases hfound : parser.headerFound with
      | true => exact absurd ⟨hheader, hfound⟩ hends
      | false => simp

theorem matchByte_A3_prefixed (hcodec : IsPrefixed parser.codec) (hstate : parser.parseState = .A3)
    (byte : UInt8) :
    parser.matchByte byte =
      if Ends parser.codec parser.headerFound byte then
        ({ parser with
            lastByte := byte
            parseState := .A4
            headerFound := parser.headerFound || parser.codec.isHeader byte }, true, 0)
      else
        ({ parser with
            parseState := .A0
            headerFound := parser.headerFound || parser.codec.isHeader byte }, false, 3) := by
  have hsame : parser.codec.isSame 2 1 = false ∧ parser.codec.isSame 2 0 = false := by
    rcases hcodec with hcodec | hcodec | hcodec <;> rw [hcodec] <;> decide
  unfold matchByte
  simp only [hstate]
  by_cases hheader : parser.codec.isHeader byte = true ∧ parser.headerFound = true
  · have hadditional : parser.parseAdditionalStartCode byte =
        { parser with lastByte := byte, parseState := .A4 } := by
      rw [parseAdditionalStartCode, if_pos hheader.1, if_pos hheader.2]
    have hends : Ends parser.codec parser.headerFound byte := Or.inr hheader
    rw [hadditional, if_pos rfl, if_pos hends]
    simp only [hheader.2, Bool.true_or]
  · rw [parseAdditionalStartCode_of_not hheader]
    simp only [hstate, reduceCtorEq, if_false, hsame.1, hsame.2, Bool.and_false,
      Bool.false_eq_true]
    refine if_congr ?_ rfl rfl
    unfold Ends
    rw [or_iff_left hheader]

theorem matchByte_A3_h263 (hcodec : parser.codec = .h263) (hstate : parser.parseState = .A3)
    (byte : UInt8) :
    parser.matchByte byte = ({ parser with lastByte := byte, parseState := .A4 }, true, 0) := by
  unfold matchByte parseAdditionalStartCode
  simp [hstate, hcodec, isMatch, isHeader, maskCode, startCode]

theorem prefixed_or (codec : CodecType) : IsPrefixed codec ∨ codec = .h263 ∨ codec = .h264 := by
  unfold IsPrefixed
  cases codec <;> simp

theorem not_found {state : ParseState} (hstate : parser.parseState = state) (hA4 : state ≠ .A4)
    (hA5 : state ≠ .A5) : ¬ parser.Found := by
  rintro (hfound | hfound)
  · exact hA4 (hstate.symm.trans hfound)
  · exact hA5 (hstate.symm.trans hfound)

/-- A round that leaves its byte gives the first bytes of the start code away. -/
structure FallsBack (parser next : FrameParse) (copied : Nat) : Prop where
  same : { next with parseState := parser.parseState, headerFound := parser.headerFound } = parser
  search : ¬ next.Found
  matched : next.parseState.matched + copied = parser.parseState.matched
  take : parser.codec.startCode.take parser.parseState.matched =
    parser.codec.startCode.take copied ++ parser.codec.startCode.take next.parseState.matched

theorem FallsBack.codec_eq {copied : Nat} (hback : FallsBack parser next copied) :
    next.codec = parser.codec :=
  (congrArg FrameParse.codec hback.same :)

theorem FallsBack.skip_eq {copied : Nat} (hback : FallsBack parser next copied) :
    next.skipFrameBoundary = parser.skipFrameBoundary :=
  (congrArg FrameParse.skipFrameBoundary hback.same :)

theorem fallsBack {copied : Nat} (hsearch : ¬ parser.Found)
    (hround : parser.matchByte byte = (next, false, copied)) : FallsBack parser next copied := by
  have hzeros : parser.codec.startCode.take 2 = [0] ++ [0] ∧ parser.codec.startCode.take 1 = [0] := by
    cases parser.codec <;> exact ⟨rfl, rfl⟩
  cases hstate : parser.parseState with
  | A4 => exact absurd (Or.inl hstate) hsearch
  | A5 => exact absurd (Or.inr hstate) hsearch
  | A0 =>
      rw [matchByte_A0 hstate] at hround
      cases hround
  | A1 =>
      rw [matchByte_A1 hstate] at hround
      split_ifs at hround
      · cases hround
      · cases hround
        refine ⟨rfl, @not_found _ .A0 rfl (by decide) (by decide), by rw [hstate]; rfl, ?_⟩
        rw [hstate]
        simp [ParseState.matched]
  | A2 =>
      have hnext : ({ parser with parseState := .A1 }, false, 1) = (next, false, copied) := by
        rcases prefixed_or parser.codec with hcodec | hcodec | hcodec
        · rw [matchByte_A2_prefixed hcodec hstate] at hround
          split_ifs at hround
          · cases hround
          · exact hround
        · rw [matchByte_A2_h263 hcodec hstate] at hround
          split_ifs at hround
          · cases hround
          · exact hround
        · rw [matchByte_A2_h264 hcodec hstate] at hround
          split_ifs at hround
          · cases hround
          · cases hround
          · exact hround
      cases hnext
      refine ⟨rfl, @not_found _ .A1 rfl (by decide) (by decide), by rw [hstate]; rfl, ?_⟩
      rw [hstate]
      simp only [ParseState.matched, hzeros.1, hzeros.2]
  | A3 =>
      rcases prefixed_or parser.codec with hcodec | hcodec | hcodec
      · rw [matchByte_A3_prefixed hcodec hstate] at hround
        split_ifs at hround
        · cases hround
        · cases hround
          refine ⟨rfl, @not_found _ .A0 rfl (by decide) (by decide), by rw [hstate]; rfl, ?_⟩
          rw [hstate]
          simp [ParseState.matched]
      · rw [matchByte_A3_h263 hcodec hstate] at hround
        cases hround
      · rw [matchByte_A3_h264 hcodec hstate] at hround
        split_ifs at hround
        · cases hround
        · cases hround
          refine ⟨rfl, @not_found _ .A2 rfl (by decide) (by decide), by rw [hstate]; rfl, ?_⟩
          rw [hstate, hcodec]
          rfl

/-- A round that uses its byte up has read one byte more of the start code, or starts anew. -/
structure GoesOn (parser next : FrameParse) (byte : UInt8) : Prop where
  codec : next.codec = parser.codec
  take : parser.parseState ≠ .A0 → ¬ next.Found →
    parser.codec.startCode.take next.parseState.matched =
      parser.codec.startCode.take parser.parseState.matched ++ [byte]
  matched : ¬ next.Found → next.parseState.matched ≤ parser.parseState.matched + 1
  held : next.Found → heldBack next.parseState = parser.parseState.matched + 1

theorem goesOn_of_search {copied : Nat} {state : ParseState}
    (hnext : ({ parser with parseState := state }, true, 0) = (next, true, copied))
    (hsearch : state ≠ .A4 ∧ state ≠ .A5)
    (hmatched : state.matched ≤ parser.parseState.matched + 1)
    (htake : parser.parseState ≠ .A0 → parser.codec.startCode.take state.matched =
      parser.codec.startCode.take parser.parseState.matched ++ [byte]) :
    GoesOn parser next byte := by
  cases hnext
  exact ⟨rfl, fun hstate _ => htake hstate, fun _ => hmatched,
    fun hfound => absurd hfound (not_found rfl hsearch.1 hsearch.2)⟩

theorem goesOn_of_found (hcodec : next.codec = parser.codec) (hfound : next.Found)
    (hheld : heldBack next.parseState = parser.parseState.matched + 1) : GoesOn parser next byte :=
  ⟨hcodec, fun _ hsearch => absurd hfound hsearch, fun hsearch => absurd hfound hsearch,
    fun _ => hheld⟩

theorem goesOn {copied : Nat} (hsearch : ¬ parser.Found)
    (hround : parser.matchByte byte = (next, true, copied)) : GoesOn parser next byte := by
  cases hstate : parser.parseState with
  | A4 => exact absurd (Or.inl hstate) hsearch
  | A5 => exact absurd (Or.inr hstate) hsearch
  | A0 =>
      rw [matchByte_A0 hstate] at hround
      have hother : parser.parseState ≠ .A0 → False := fun h => h hstate
      by_cases hbyte : byte = 0
      · rw [if_pos hbyte] at hround
        refine goesOn_of_search hround ⟨nofun, nofun⟩ ?_ fun h => (hother h).elim
        rw [hstate]
        exact le_rfl
      · rw [if_neg hbyte] at hround
        cases hround
        exact ⟨rfl, fun h => (hother h).elim, fun _ => Nat.le_succ _,
          fun hfound => absurd hfound hsearch⟩
  | A1 =>
      rw [matchByte_A1 hstate] at hround
      split_ifs at hround with hbyte
      · refine goesOn_of_search hround ⟨nofun, nofun⟩ ?_ fun _ => ?_
        · rw [hstate]
          exact le_rfl
        · rw [hstate, hbyte]
          cases parser.codec <;> rfl
      · cases hround
  | A2 =>
      rcases prefixed_or parser.codec with hcodec | hcodec | hcodec
      · rw [matchByte_A2_prefixed hcodec hstate] at hround
        split_ifs at hround with hbyte
        · refine goesOn_of_search hround ⟨nofun, nofun⟩ ?_ fun _ => ?_
          · rw [hstate]
            exact le_rfl
          · rw [hstate, hbyte]
            rcases hcodec with h | h | h <;> rw [h] <;> rfl
        · cases hround
      · rw [matchByte_A2_h263 hcodec hstate] at hround
        split_ifs at hround
        · cases hround
          exact goesOn_of_found rfl (Or.inr rfl) (by rw [hstate]; rfl)
        · cases hround
      · rw [matchByte_A2_h264 hcodec hstate] at hround
        split_ifs at hround with hone hzero
        · cases hround
          exact goesOn_of_found rfl (Or.inr rfl) (by rw [hstate]; rfl)
        · refine goesOn_of_search hround ⟨nofun, nofun⟩ ?_ fun _ => ?_
          · rw [hstate]
            exact le_rfl
          · rw [hstate, hcodec, hzero]
            rfl
        · cases hround
  | A3 =>
      rcases prefixed_or parser.codec with hcodec | hcodec | hcodec
      · rw [matchByte_A3_prefixed hcodec hstate] at hround
        split_ifs at hround
        · cases hround
          exact goesOn_of_found rfl (Or.inl rfl) (by rw [hstate]; rfl)
        · cases hround
      · rw [matchByte_A3_h263 hcodec hstate] at hround
        cases hround
        exact goesOn_of_found rfl (Or.inl rfl) (by rw [hstate]; rfl)
      · rw [matchByte_A3_h264 hcodec hstate] at hround
        split_ifs at hround
        · cases hround
          exact goesOn_of_found rfl (Or.inl rfl) (by rw [hstate]; rfl)
        · cases hround

/-! ### All rounds with a byte -/

/-- Rounds with one byte until it is used up. -/
def settle (parser : FrameParse) (byte : UInt8) : FrameParse :=
  if _hstop : parser.Found then parser
  else
    match _hround : parser.matchByte byte with
    | (next, true, _) => next
    | (next, false, _) => next.settle byte
  termination_by parser.parseState.matched
  decreasing_by exact matched_matchByte_lt _hstop _hround

theorem settle_of_used {copied : Nat} (hsearch : ¬ parser.Found)
    (hround : parser.matchByte byte = (next, true, copied)) : parser.settle byte = next := by
  unfold settle
  rw [dif_neg hsearch]
  split
  · rename_i heq
    rw [hround] at heq
    cases heq
    rfl
  · rename_i heq
    rw [hround] at heq
    cases heq

theorem settle_of_left {copied : Nat} (hsearch : ¬ parser.Found)
    (hround : parser.matchByte byte = (next, false, copied)) :
    parser.settle byte = next.settle byte := by
  rw [settle.eq_def parser, dif_neg hsearch]
  split
  · rename_i heq
    rw [hround] at heq
    cases heq
  · rename_i heq
    rw [hround] at heq
    cases heq
    rfl

theorem settle_A0 (hstate : parser.parseState = .A0) (byte : UInt8) :
    parser.settle byte = if byte = 0 then { parser with parseState := .A1 } else parser :=
  settle_of_used (not_found hstate nofun nofun) (matchByte_A0 hstate byte)

theorem settle_A1 (hstate : parser.parseState = .A1) (byte : UInt8) :
    parser.settle byte =
      if byte = 0 then { parser with parseState := .A2 } else { parser with parseState := .A0 } := by
  have hround := matchByte_A1 hstate byte
  split_ifs at hround ⊢ with hzero
  · exact settle_of_used (not_found hstate nofun nofun) hround
  · rw [settle_of_left (not_found hstate nofun nofun) hround, settle_A0 rfl, if_neg hzero]

/-- What is left of `A2` by a byte that does not go on with the start code. -/
theorem settle_A2 {copied : Nat} (hstate : parser.parseState = .A2)
    (hround : parser.matchByte byte = ({ parser with parseState := .A1 }, false, copied)) :
    parser.settle byte =
      if byte = 0 then { parser with parseState := .A2 } else { parser with parseState := .A0 } := by
  rw [settle_of_left (not_found hstate nofun nofun) hround, settle_A1 rfl]

theorem settle_A2_h263 (hcodec : parser.codec = .h263) (hstate : parser.parseState = .A2)
    (byte : UInt8) :
    parser.settle byte =
      if byte &&& 0xFC = 0x80 then { parser with lastByteH263 := byte, parseState := .A5 }
      else if byte = 0 then { parser with parseState := .A2 }
      else { parser with parseState := .A0 } := by
  have hround := matchByte_A2_h263 hcodec hstate byte
  split_ifs at hround with hends
  · rw [if_pos hends]
    exact settle_of_used (not_found hstate nofun nofun) hround
  · rw [if_neg hends]
    exact settle_A2 hstate hround

theorem settle_A2_h264 (hcodec : parser.codec = .h264) (hstate : parser.parseState = .A2)
    (byte : UInt8) :
    parser.settle byte =
      if byte = 1 then { parser with parseState := .A5 }
      else if byte = 0 then { parser with parseState := .A3 }
      else { parser with parseState := .A0 } := by
  have hround := matchByte_A2_h264 hcodec hstate byte
  split_ifs at hround ⊢ with hone hzero
  · exact settle_of_used (not_found hstate nofun nofun) hround
  · exact settle_of_used (not_found hstate nofun nofun) hround
  · rw [settle_A2 hstate hround, if_neg hzero]

theorem settle_A2_prefixed (hcodec : IsPrefixed parser.codec) (hstate : parser.parseState = .A2)
    (byte : UInt8) :
    parser.settle byte =
      if byte = 1 then { parser with parseState := .A3 }
      else if byte = 0 then { parser with parseState := .A2 }
      else { parser with parseState := .A0 } := by
  have hround := matchByte_A2_prefixed hcodec hstate byte
  split_ifs at hround with hone
  · rw [if_pos hone]
    exact settle_of_used (not_found hstate nofun nofun) hround
  · rw [if_neg hone]
    exact settle_A2 hstate hround

theorem settle_A3_h264 (hcodec : parser.codec = .h264) (hstate : parser.parseState = .A3)
    (byte : UInt8) :
    parser.settle byte =
      if byte = 1 then { parser with lastByte := byte, parseState := .A4 }
      else if byte = 0 then { parser with parseState := .A3 }
      else { parser with parseState := .A0 } := by
  have hround := matchByte_A3_h264 hcodec hstate byte
  split_ifs at hround with hone
  · rw [if_pos hone]
    exact settle_of_used (not_found hstate nofun nofun) hround
  · have hleft : parser.settle byte = ({ parser with parseState := .A2 } : FrameParse).settle byte :=
      settle_of_left (not_found hstate nofun nofun) hround
    rw [hleft, @settle_A2_h264 { parser with parseState := .A2 } hcodec rfl byte, if_neg hone, if_neg hone]

theorem settle_A3_prefixed (hcodec : IsPrefixed parser.codec) (hstate : parser.parseState = .A3)
    (byte : UInt8) :
    parser.settle byte =
      if Ends parser.codec parser.headerFound byte then
        { parser with
          lastByte := byte
          parseState := .A4
          headerFound := parser.headerFound || parser.codec.isHeader byte }
      else
        { parser with
          parseState := if byte = 0 then .A1 else .A0
          headerFound := parser.headerFound || parser.codec.isHeader byte } := by
  have hround := matchByte_A3_prefixed hcodec hstate byte
  split_ifs at hround ⊢ with hends hzero
  · exact settle_of_used (not_found hstate nofun nofun) hround
  · rw [settle_of_left (not_found hstate nofun nofun) hround, settle_A0 rfl, if_pos hzero]
  · rw [settle_of_left (not_found hstate nofun nofun) hround, settle_A0 rfl, if_neg hzero]

/-! ### What the bytes so far end with -/

theorem concat_suffix_concat {α : Type} {first second : List α} {x y : α} :
    (first ++ [x]) <:+ (second ++ [y]) ↔ first <:+ second ∧ x = y := by
  constructor
  · rintro ⟨before, hbefore⟩
    rw [← List.append_assoc] at hbefore
    obtain ⟨hfirst, hlast⟩ := List.append_inj' hbefore rfl
    exact ⟨⟨before, hfirst⟩, (List.cons.inj hlast).1⟩
  · rintro ⟨⟨before, rfl⟩, rfl⟩
    exact ⟨before, (List.append_assoc ..).symm⟩

/-- The state of a search that has seen `payload` since the last start code. -/
def searchState (codec : CodecType) (payload : List UInt8) : ParseState :=
  if codec ≠ .h263 ∧ codec.startCode.take 3 <:+ payload then .A3
  else if [0, 0] <:+ payload then .A2
  else if [0] <:+ payload then .A1
  else .A0

/-- How many bytes of the start code end with `byte` behind `payload`, if one does. The header of a
`.mpeg4` or `.mpeg2` stream counts from the second one on. -/
def marker (codec : CodecType) (headerFound : Bool) (payload : List UInt8) (byte : UInt8) :
    Option Nat :=
  match codec with
  | .h264 =>
      if byte = 1 ∧ [0, 0, 0] <:+ payload then some 4
      else if byte = 1 ∧ [0, 0] <:+ payload then some 3
      else none
  | .h263 => if byte &&& 0xFC = 0x80 ∧ [0, 0] <:+ payload then some 3 else none
  | .mpeg4 | .vc1 | .mpeg2 =>
      if Ends codec headerFound byte ∧ [0, 0, 1] <:+ payload then some 4 else none

/-- A header was there before or ends with `byte`. -/
def seesHeader (codec : CodecType) (headerFound : Bool) (payload : List UInt8) (byte : UInt8) : Bool :=
  headerFound || (codec.isHeader byte && decide ([0, 0, 1] <:+ payload))

/-- The start code that is written for one that ends with `byte`. -/
def codeOf (codec : CodecType) (byte : UInt8) : List UInt8 :=
  match codec with
  | .h263 => [0, 0, byte]
  | .h264 => [0, 0, 0, 1]
  | .mpeg4 | .vc1 | .mpeg2 => [0, 0, 1, byte]

/-- The start code that the next call writes. -/
def codeFound (parser : FrameParse) : List UInt8 :=
  codeOf parser.codec (if parser.codec = .h263 then parser.lastByteH263 else parser.lastByte)

/-- What using up `byte` behind `payload` comes to. -/
structure Settled (parser last : FrameParse) (payload : List UInt8) (byte : UInt8) : Prop where
  codec : last.codec = parser.codec
  skip : last.skipFrameBoundary = parser.skipFrameBoundary
  header : last.headerFound = seesHeader parser.codec parser.headerFound payload byte
  search : marker parser.codec parser.headerFound payload byte = none →
    last.parseState = searchState parser.codec (payload ++ [byte])
  found : ∀ k, marker parser.codec parser.headerFound payload byte = some k →
    last.Found ∧ heldBack last.parseState = k ∧ last.codeFound = codeOf parser.codec byte

theorem zero_suffix_concat : [0] <:+ payload ++ [byte] ↔ byte = 0 := by
  rw [show [(0 : UInt8)] = [] ++ [0] from rfl, concat_suffix_concat]
  simp [eq_comm]

theorem zeros_suffix_concat : [0, 0] <:+ payload ++ [byte] ↔ [0] <:+ payload ∧ byte = 0 := by
  rw [show [(0 : UInt8), 0] = [0] ++ [0] from rfl, concat_suffix_concat, eq_comm]

theorem one_suffix_concat : [0, 0, 1] <:+ payload ++ [byte] ↔ [0, 0] <:+ payload ∧ byte = 1 := by
  rw [show [(0 : UInt8), 0, 1] = [0, 0] ++ [1] from rfl, concat_suffix_concat, eq_comm (a := 1)]

theorem three_zeros_suffix_concat :
    [0, 0, 0] <:+ payload ++ [byte] ↔ [0, 0] <:+ payload ∧ byte = 0 := by
  rw [show [(0 : UInt8), 0, 0] = [0, 0] ++ [0] from rfl, concat_suffix_concat, eq_comm (a := 0)]

theorem zero_of_zeros (hzeros : [0, 0] <:+ payload) : [0] <:+ payload :=
  (show [(0 : UInt8)] <:+ [0, 0] from ⟨[0], rfl⟩).trans hzeros

theorem zeros_of_three_zeros (hzeros : [0, 0, 0] <:+ payload) : [0, 0] <:+ payload :=
  (show [(0 : UInt8), 0] <:+ [0, 0, 0] from ⟨[0], rfl⟩).trans hzeros

theorem not_zero_of_one (hone : [0, 0, 1] <:+ payload) : ¬ [0] <:+ payload := by
  rcases List.eq_nil_or_concat payload with rfl | ⟨front, last, rfl⟩
  · simp at hone
  · rw [List.concat_eq_append] at hone ⊢
    rw [zero_suffix_concat, (one_suffix_concat.mp hone).2]
    decide

theorem searchState_h263 (payload : List UInt8) :
    searchState .h263 payload =
      if [0, 0] <:+ payload then .A2 else if [0] <:+ payload then .A1 else .A0 := by
  unfold searchState
  simp only [ne_eq, not_true_eq_false, false_and, if_false]

theorem searchState_h264 (payload : List UInt8) :
    searchState .h264 payload =
      if [0, 0, 0] <:+ payload then .A3 else if [0, 0] <:+ payload then .A2
      else if [0] <:+ payload then .A1 else .A0 := by
  unfold searchState
  simp only [ne_eq, reduceCtorEq, not_false_eq_true, true_and, startCode, List.take_succ_cons,
    List.take_zero]

theorem searchState_prefixed (hcodec : IsPrefixed codec) (payload : List UInt8) :
    searchState codec payload =
      if [0, 0, 1] <:+ payload then .A3 else if [0, 0] <:+ payload then .A2
      else if [0] <:+ payload then .A1 else .A0 := by
  have hlead : codec ≠ .h263 ∧ codec.startCode.take 3 = [0, 0, 1] := by
    rcases hcodec with rfl | rfl | rfl <;> decide
  unfold searchState
  simp only [hlead.1, hlead.2, ne_eq, not_false_eq_true, true_and]

theorem searchState_h263_concat (payload : List UInt8) (byte : UInt8) :
    searchState .h263 (payload ++ [byte]) =
      if byte = 0 then if [0] <:+ payload then .A2 else .A1 else .A0 := by
  simp only [searchState_h263, zeros_suffix_concat, zero_suffix_concat]
  by_cases hbyte : byte = 0
  · simp [hbyte]
  · simp [hbyte]

theorem searchState_h264_concat (payload : List UInt8) (byte : UInt8) :
    searchState .h264 (payload ++ [byte]) =
      if byte = 0 then
        if [0, 0] <:+ payload then .A3 else if [0] <:+ payload then .A2 else .A1
      else .A0 := by
  simp only [searchState_h264, three_zeros_suffix_concat, zeros_suffix_concat, zero_suffix_concat]
  by_cases hbyte : byte = 0
  · simp [hbyte]
  · simp [hbyte]

theorem searchState_prefixed_concat (hcodec : IsPrefixed codec) (payload : List UInt8)
    (byte : UInt8) :
    searchState codec (payload ++ [byte]) =
      if byte = 1 ∧ [0, 0] <:+ payload then .A3
      else if byte = 0 then if [0] <:+ payload then .A2 else .A1
      else .A0 := by
  simp only [searchState_prefixed hcodec, one_suffix_concat, zeros_suffix_concat,
    zero_suffix_concat]
  by_cases hbyte : byte = 0
  · simp [hbyte]
  · simp [hbyte, and_comm]

/-- Behind less than two zeros only the zeros count. -/
theorem searchState_concat_of_not_zeros (hzeros : ¬ [0, 0] <:+ payload) (codec : CodecType)
    (byte : UInt8) :
    searchState codec (payload ++ [byte]) =
      if byte = 0 then if [0] <:+ payload then .A2 else .A1 else .A0 := by
  cases codec with
  | h263 => exact searchState_h263_concat payload byte
  | h264 =>
      rw [searchState_h264_concat, if_neg hzeros]
  | mpeg4 =>
      rw [searchState_prefixed_concat (Or.inl rfl), if_neg fun h => hzeros h.2]
  | vc1 =>
      rw [searchState_prefixed_concat (Or.inr (Or.inl rfl)), if_neg fun h => hzeros h.2]
  | mpeg2 =>
      rw [searchState_prefixed_concat (Or.inr (Or.inr rfl)), if_neg fun h => hzeros h.2]

theorem not_header (hcodec : ¬ IsPrefixed codec) (byte : UInt8) : codec.isHeader byte = false := by
  cases codec with
  | h263 => rfl
  | h264 => rfl
  | mpeg4 => exact absurd (Or.inl rfl) hcodec
  | vc1 => rfl
  | mpeg2 => exact absurd (Or.inr (Or.inr rfl)) hcodec

theorem seesHeader_of_not (headerFound : Bool) (byte : UInt8)
    (hlead : IsPrefixed codec → ¬ [0, 0, 1] <:+ payload) :
    seesHeader codec headerFound payload byte = headerFound := by
  unfold seesHeader
  by_cases hcodec : IsPrefixed codec
  · simp [hlead hcodec]
  · simp [not_header hcodec]

theorem marker_of_not (headerFound : Bool) (byte : UInt8) (hzeros : ¬ [0, 0] <:+ payload)
    (hlead : IsPrefixed codec → ¬ [0, 0, 1] <:+ payload) :
    marker codec headerFound payload byte = none := by
  cases codec with
  | h263 => simp [marker, hzeros]
  | h264 =>
      have hthree : ¬ [0, 0, 0] <:+ payload := fun h => hzeros (zeros_of_three_zeros h)
      simp [marker, hzeros, hthree]
  | mpeg4 => simp [marker, hlead (Or.inl rfl)]
  | vc1 => simp [marker, hlead (Or.inr (Or.inl rfl))]
  | mpeg2 => simp [marker, hlead (Or.inr (Or.inr rfl))]

theorem settled_search {last : FrameParse}
    (hmarker : marker parser.codec parser.headerFound payload byte = none)
    (hlast : last = { parser with
      parseState := searchState parser.codec (payload ++ [byte])
      headerFound := seesHeader parser.codec parser.headerFound payload byte }) :
    Settled parser last payload byte := by
  subst hlast
  refine ⟨rfl, rfl, rfl, fun _ => rfl, fun k hk => ?_⟩
  rw [hmarker] at hk
  cases hk

theorem settled_found {last : FrameParse} {k : Nat}
    (hmarker : marker parser.codec parser.headerFound payload byte = some k)
    (hcodec : last.codec = parser.codec) (hskip : last.skipFrameBoundary = parser.skipFrameBoundary)
    (hheader : last.headerFound = seesHeader parser.codec parser.headerFound payload byte)
    (hfound : last.Found) (hheld : heldBack last.parseState = k)
    (hcode : last.codeFound = codeOf parser.codec byte) : Settled parser last payload byte := by
  refine ⟨hcodec, hskip, hheader, fun hnone => ?_, fun other hother => ?_⟩
  · rw [hmarker] at hnone
    cases hnone
  · rw [hmarker] at hother
    cases hother
    exact ⟨hfound, hheld, hcode⟩

theorem settled_of_not_zeros (hzeros : ¬ [0, 0] <:+ payload)
    (hlead : IsPrefixed parser.codec → ¬ [0, 0, 1] <:+ payload)
    (hstate : parser.parseState = if [0] <:+ payload then .A1 else .A0) (byte : UInt8) :
    Settled parser (parser.settle byte) payload byte := by
  refine settled_search (marker_of_not _ _ hzeros hlead) ?_
  rw [searchState_concat_of_not_zeros hzeros, seesHeader_of_not _ _ hlead]
  by_cases hzero : [0] <:+ payload
  · rw [if_pos hzero] at hstate
    rw [settle_A1 hstate]
    split_ifs
    · rfl
    · rfl
  · rw [if_neg hzero] at hstate
    rw [settle_A0 hstate]
    split_ifs
    · rfl
    · rw [← hstate]

theorem settled_A2_prefixed (hcodec : IsPrefixed parser.codec) (hzeros : [0, 0] <:+ payload)
    (hstate : parser.parseState = .A2) (byte : UInt8) :
    Settled parser (parser.settle byte) payload byte := by
  have hzero := zero_of_zeros hzeros
  have hlead : ¬ [0, 0, 1] <:+ payload := fun hone => not_zero_of_one hone hzero
  have hmarker : marker parser.codec parser.headerFound payload byte = none := by
    rcases hcodec with h | h | h <;> simp [h, marker, hlead]
  refine settled_search hmarker ?_
  rw [settle_A2_prefixed hcodec hstate, searchState_prefixed_concat hcodec,
    seesHeader_of_not _ _ fun _ => hlead]
  simp only [hzeros, hzero, and_true, if_true]
  split_ifs
  · rfl
  · rfl
  · rfl

theorem settled_A2_h263 (hcodec : parser.codec = .h263) (hzeros : [0, 0] <:+ payload)
    (hstate : parser.parseState = .A2) (byte : UInt8) :
    Settled parser (parser.settle byte) payload byte := by
  have hplain : ¬ IsPrefixed parser.codec := by
    rw [hcodec]
    rintro (h | h | h) <;> cases h
  have hheader := @seesHeader_of_not _ payload parser.headerFound byte fun h => absurd h hplain
  rw [settle_A2_h263 hcodec hstate]
  by_cases hends : byte &&& 0xFC = 0x80
  · have hmarker : marker parser.codec parser.headerFound payload byte = some 3 := by
      simp [hcodec, marker, hends, hzeros]
    rw [if_pos hends]
    refine settled_found hmarker rfl rfl hheader.symm (Or.inr rfl) rfl ?_
    simp [codeFound, hcodec]
  · have hmarker : marker parser.codec parser.headerFound payload byte = none := by
      simp [hcodec, marker, hends]
    refine settled_search hmarker ?_
    rw [if_neg hends, hheader, hcodec, searchState_h263_concat, if_pos (zero_of_zeros hzeros)]
    split_ifs
    · rfl
    · rfl

theorem settled_A2_h264 (hcodec : parser.codec = .h264) (hzeros : [0, 0] <:+ payload)
    (hthree : ¬ [0, 0, 0] <:+ payload) (hstate : parser.parseState = .A2) (byte : UInt8) :
    Settled parser (parser.settle byte) payload byte := by
  have hplain : ¬ IsPrefixed parser.codec := by
    rw [hcodec]
    rintro (h | h | h) <;> cases h
  have hheader := @seesHeader_of_not _ payload parser.headerFound byte fun h => absurd h hplain
  rw [settle_A2_h264 hcodec hstate]
  by_cases hone : byte = 1
  · have hmarker : marker parser.codec parser.headerFound payload byte = some 3 := by
      simp [hcodec, marker, hone, hzeros, hthree]
    rw [if_pos hone]
    refine settled_found hmarker rfl rfl hheader.symm (Or.inr rfl) rfl ?_
    simp [codeFound, hcodec, codeOf]
  · have hmarker : marker parser.codec parser.headerFound payload byte = none := by
      simp [hcodec, marker, hone]
    refine settled_search hmarker ?_
    rw [if_neg hone, hheader, hcodec, searchState_h264_concat, if_pos hzeros]
    split_ifs
    · rfl
    · rfl

theorem settled_A3_h264 (hcodec : parser.codec = .h264) (hthree : [0, 0, 0] <:+ payload)
    (hstate : parser.parseState = .A3) (byte : UInt8) :
    Settled parser (parser.settle byte) payload byte := by
  have hplain : ¬ IsPrefixed parser.codec := by
    rw [hcodec]
    rintro (h | h | h) <;> cases h
  have hheader := @seesHeader_of_not _ payload parser.headerFound byte fun h => absurd h hplain
  rw [settle_A3_h264 hcodec hstate]
  by_cases hone : byte = 1
  · have hmarker : marker parser.codec parser.headerFound payload byte = some 4 := by
      simp [hcodec, marker, hone, hthree]
    rw [if_pos hone]
    refine settled_found hmarker rfl rfl hheader.symm (Or.inl rfl) rfl ?_
    simp [codeFound, hcodec, codeOf]
  · have hmarker : marker parser.codec parser.headerFound payload byte = none := by
      simp [hcodec, marker, hone]
    refine settled_search hmarker ?_
    rw [if_neg hone, hheader, hcodec, searchState_h264_concat,
      if_pos (zeros_of_three_zeros hthree)]
    split_ifs
    · rfl
    · rfl

theorem settled_A3_prefixed (hcodec : IsPrefixed parser.codec) (hlead : [0, 0, 1] <:+ payload)
    (hstate : parser.parseState = .A3) (byte : UInt8) :
    Settled parser (parser.settle byte) payload byte := by
  have hzero := not_zero_of_one hlead
  have hzeros : ¬ [0, 0] <:+ payload := fun h => hzero (zero_of_zeros h)
  have hheader : seesHeader parser.codec parser.headerFound payload byte =
      (parser.headerFound || parser.codec.isHeader byte) := by
    simp [seesHeader, hlead]
  rw [settle_A3_prefixed hcodec hstate]
  by_cases hends : Ends parser.codec parser.headerFound byte
  · have hmarker : marker parser.codec parser.headerFound payload byte = some 4 := by
      rcases hcodec with h | h | h <;> rw [h] at hends ⊢ <;> simp [marker, hends, hlead]
    rw [if_pos hends]
    refine settled_found hmarker rfl rfl hheader.symm (Or.inl rfl) rfl ?_
    rcases hcodec with h | h | h <;> simp [codeFound, h]
  · have hmarker : marker parser.codec parser.headerFound payload byte = none := by
      rcases hcodec with h | h | h <;> rw [h] at hends ⊢ <;> simp [marker, hends]
    refine settled_search hmarker ?_
    rw [if_neg hends, hheader, searchState_concat_of_not_zeros hzeros, if_neg hzero]

/-- A search that has seen `payload` and uses up `byte` has seen both, or found the start code that
ends there. -/
theorem settled (hstate : parser.parseState = searchState parser.codec payload) (byte : UInt8) :
    Settled parser (parser.settle byte) payload byte := by
  by_cases hcodec : IsPrefixed parser.codec
  · rw [searchState_prefixed hcodec] at hstate
    split_ifs at hstate with hone hzeros hzero
    · exact settled_A3_prefixed hcodec hone hstate byte
    · exact settled_A2_prefixed hcodec hzeros hstate byte
    · exact settled_of_not_zeros hzeros (fun _ => hone) (hstate.trans (if_pos hzero).symm) byte
    · exact settled_of_not_zeros hzeros (fun _ => hone) (hstate.trans (if_neg hzero).symm) byte
  · rcases (prefixed_or parser.codec).resolve_left hcodec with h263 | h264
    · rw [h263, searchState_h263] at hstate
      split_ifs at hstate with hzeros hzero
      · exact settled_A2_h263 h263 hzeros hstate byte
      · exact settled_of_not_zeros hzeros (fun h => absurd h hcodec)
          (hstate.trans (if_pos hzero).symm) byte
      · exact settled_of_not_zeros hzeros (fun h => absurd h hcodec)
          (hstate.trans (if_neg hzero).symm) byte
    · rw [h264, searchState_h264] at hstate
      split_ifs at hstate with hthree hzeros hzero
      · exact settled_A3_h264 h264 hthree hstate byte
      · exact settled_A2_h264 h264 hzeros hthree hstate byte
      · exact settled_of_not_zeros hzeros (fun h => absurd h hcodec)
          (hstate.trans (if_pos hzero).symm) byte
      · exact settled_of_not_zeros hzeros (fun h => absurd h hcodec)
          (hstate.trans (if_neg hzero).symm) byte

end SensorMouse.Frameworks.FrameParse
