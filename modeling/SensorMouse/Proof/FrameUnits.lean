import SensorMouse.Proof.FrameDelivery

/-!
# What the frames keep of the stream

For four of the start codes the frames are the stream itself, cut. The fifth has a short form, which is
written in full: there a stream of units comes out with one unit for a frame.
-/

namespace SensorMouse.Frameworks.FrameParse

open Lib CodecType

variable {codec : CodecType} {parser : FrameParse} {cut : Cut} {payload : List UInt8} {byte : UInt8}

/-! ### Nothing is lost -/

/-- The start code that is written is the one that was read. -/
theorem take_append_codeOf {headerFound : Bool} {k : Nat} (hcodec : codec ≠ .h264)
    (hmarker : marker codec headerFound payload byte = some k) :
    payload.take (payload.length + 1 - k) ++ codeOf codec byte = payload ++ [byte] := by
  have hsuffix : ∃ lead, codeOf codec byte = lead ++ [byte] ∧ k = lead.length + 1 ∧
      lead <:+ payload := by
    cases codec with
    | h264 => exact absurd rfl hcodec
    | h263 =>
        obtain ⟨⟨-, hlead⟩, hk⟩ := Option.ite_none_right_eq_some.mp hmarker
        exact ⟨[0, 0], rfl, (Option.some.inj hk).symm, hlead⟩
    | _ =>
        obtain ⟨⟨-, hlead⟩, hk⟩ := Option.ite_none_right_eq_some.mp hmarker
        exact ⟨[0, 0, 1], rfl, (Option.some.inj hk).symm, hlead⟩
  obtain ⟨lead, hcode, rfl, before, rfl⟩ := hsuffix
  have hlength : (before ++ lead).length + 1 - (lead.length + 1) = before.length := by
    rw [List.length_append]
    omega
  rw [hlength, List.take_left, hcode, List.append_assoc]

/-- All bytes of a cut. -/
def Cut.bytes (cut : Cut) : List UInt8 := cut.frames.flatten ++ cut.last

theorem Cut.bytes_push (hcodec : codec ≠ .h264) (cut : Cut) (byte : UInt8) :
    (cut.push codec byte).bytes = cut.bytes ++ [byte] := by
  unfold Cut.push
  cases hmarker : marker codec cut.headerFound cut.payload byte with
  | none => simp only [bytes, last, List.append_assoc]
  | some k =>
      have hcode := take_append_codeOf hcodec hmarker
      simp only
      split_ifs
      · simp only [bytes, last, List.append_assoc, List.append_nil, hcode]
      · simp only [bytes, last, List.append_assoc, List.append_nil, List.nil_append, hcode,
          List.flatten_append, List.flatten_cons, List.flatten_nil]

theorem bytes_cutOf (hcodec : codec ≠ .h264) (bytes : List UInt8) :
    (cutOf codec bytes).bytes = bytes := by
  induction bytes using List.reverseRecOn with
  | nil => rfl
  | append_singleton front byte ih =>
      unfold cutOf at ih ⊢
      rw [List.foldl_concat, Cut.bytes_push hcodec, ih]

/-- In every run the frames, what is in the destination, what is held back and what is left are the
stream, byte for byte. -/
theorem bytes_of_run {stream : List UInt8} {offers : List Offer} {final : Reading}
    (hcodec : parser.codec ≠ .h264)
    (hrun : run (Reading.step parseScFrame) { parser := parser.flush, rest := stream } offers =
      some final) :
    final.frames.flatten ++ final.frame ++ final.parser.pending ++ final.rest = stream := by
  obtain ⟨hsame, used, hused, hframes, hbetween⟩ :=
    run_invariant (Reads parser.codec stream) (reads_flush parser stream)
      (fun _ _ _ hreads hstep => hreads.step hstep) hrun
  have hbytes := bytes_cutOf hcodec used
  unfold Cut.bytes at hbytes
  rw [List.append_assoc _ final.frame, hbetween.last, hframes, hbytes, hused]

/-- A call that holds the last two bytes back. -/
theorem bytes_of_run_held :
    ([] : List (List UInt8)).flatten ++ [7] ++ pending { codec := .vc1, parseState := .A2 } ++ [] =
      [7, 0, 0] := by
  have hloop : parseLoop { codec := .vc1 } [7, 0, 0] 0 =
      ({ codec := .vc1, parseState := .A2 }, 3) :=
    (parseLoop_of_used (by decide) rfl 0).trans
      ((parseLoop_of_used (by decide) rfl 1).trans
        ((parseLoop_of_used (by decide) rfl 2).trans (by rw [parseLoop])))
  have hrun : run (Reading.step parseScFrame) { parser := { codec := .vc1 }, rest := [7, 0, 0] }
      [⟨3, 9⟩] = some ⟨{ codec := .vc1, parseState := .A2 }, [], [], [7]⟩ := by
    simp [run, Reading.step, parseScFrame, startCodeSize, writeStartCode, BufferHeader.append, Found,
      heldBack, entryLoop_of_stop, hloop, pure, Except.pure, bind, Except.bind]
  exact @bytes_of_run { codec := .vc1 } _ _ _ (by decide) hrun

/-! ### Units -/

/-- A unit of an `.h264` stream; `long` is the length of the start code before it. -/
structure NalUnit where
  long : Bool
  bytes : List UInt8
  no_code : ¬ [0, 0, 1] <:+: bytes
  no_zero : ¬ [0] <:+ bytes

/-- The unit behind its start code. -/
def NalUnit.stream (unit : NalUnit) : List UInt8 :=
  (if unit.long then [0, 0, 0, 1] else [0, 0, 1]) ++ unit.bytes

def NalUnit.frame (unit : NalUnit) : List UInt8 := CodecType.h264.startCode ++ unit.bytes

theorem Cut.push_h264_of_ne (hbyte : byte ≠ 1) :
    cut.push .h264 byte = { cut with payload := cut.payload ++ [byte] } := by
  have hmarker : marker .h264 cut.headerFound cut.payload byte = none := by
    simp [marker, hbyte]
  have hheader : seesHeader .h264 cut.headerFound cut.payload byte = cut.headerFound := by
    simp [seesHeader, isHeader]
  unfold Cut.push
  rw [hmarker, hheader]

theorem Cut.push_h264_of_not (hzeros : ¬ [0, 0] <:+ cut.payload) :
    cut.push .h264 byte = { cut with payload := cut.payload ++ [byte] } := by
  have hthree : ¬ [0, 0, 0] <:+ cut.payload := fun h => hzeros (zeros_of_three_zeros h)
  have hmarker : marker .h264 cut.headerFound cut.payload byte = none := by
    simp [marker, hzeros, hthree]
  have hheader : seesHeader .h264 cut.headerFound cut.payload byte = cut.headerFound := by
    simp [seesHeader, isHeader]
  unfold Cut.push
  rw [hmarker, hheader]

/-- A start code ends a frame and begins one. -/
def Cut.next (cut : Cut) : Cut :=
  { frames := cut.frames ++ [cut.last], code := CodecType.h264.startCode
    headerFound := cut.headerFound }

theorem Cut.push_code {k : Nat} {longer : Cut} {zeros : List UInt8}
    (hlonger : Cut.Longer cut longer zeros) (hheader : longer.headerFound = cut.headerFound)
    (hmarker : marker .h264 longer.headerFound longer.payload 1 = some k)
    (hzeros : zeros.length + 1 = k) : longer.push .h264 1 = cut.next := by
  have hseen : seesHeader .h264 longer.headerFound longer.payload 1 = cut.headerFound := by
    simp [seesHeader, isHeader, hheader]
  have hfront : longer.front k = cut.last := by
    rw [front_of_scanned hlonger hzeros.ge, hzeros, Nat.sub_self, List.take_zero, List.append_nil]
  unfold Cut.push
  rw [hmarker, hseen]
  unfold Cut.front at hfront
  simp only [inHeader, isHeader, Bool.false_eq_true, if_false, hfront, hlonger.frames]
  rfl

theorem Cut.foldl_zeros (cut : Cut) (zeros : Nat) :
    (List.replicate zeros 0).foldl (Cut.push .h264) cut =
      { cut with payload := cut.payload ++ List.replicate zeros 0 } := by
  induction zeros with
  | zero =>
      rw [List.replicate_zero, List.append_nil]
      rfl
  | succ zeros ih =>
      rw [List.replicate_succ', List.foldl_concat, ih, Cut.push_h264_of_ne (by decide)]
      simp only [List.append_assoc]

/-- A byte before the zeros keeps them in the start code. -/
theorem Cut.foldl_code (hzero : ¬ [0] <:+ cut.payload) (long : Bool) :
    (if long then [0, 0, 0, 1] else [0, 0, 1]).foldl (Cut.push .h264) cut = cut.next := by
  have hlonger : ∀ zeros, Cut.Longer cut
      { cut with payload := cut.payload ++ List.replicate zeros 0 } (List.replicate zeros 0) :=
    fun zeros => ⟨rfl, rfl, rfl, rfl⟩
  cases long with
  | true =>
      have hthree : [0, 0, 0] <:+ cut.payload ++ List.replicate 3 0 := List.suffix_append ..
      rw [if_pos rfl, show [(0 : UInt8), 0, 0, 1] = List.replicate 3 0 ++ [1] from rfl,
        List.foldl_concat, Cut.foldl_zeros]
      apply Cut.push_code (hlonger 3) rfl (k := 4) _ rfl
      exact if_pos ⟨rfl, hthree⟩
  | false =>
      have htwo : [0, 0] <:+ cut.payload ++ List.replicate 2 0 := List.suffix_append ..
      have hthree : ¬ [0, 0, 0] <:+ cut.payload ++ List.replicate 2 0 := by
        rw [show cut.payload ++ List.replicate 2 0 = (cut.payload ++ [0]) ++ [0] by simp,
          three_zeros_suffix_concat, zeros_suffix_concat]
        exact fun h => hzero h.1.1
      rw [if_neg Bool.false_ne_true, show [(0 : UInt8), 0, 1] = List.replicate 2 0 ++ [1] from rfl,
        List.foldl_concat, Cut.foldl_zeros]
      apply Cut.push_code (hlonger 2) rfl (k := 3) _ rfl
      exact (if_neg fun h => hthree h.2).trans (if_pos ⟨rfl, htwo⟩)

/-- No start code ends within a unit. -/
theorem Cut.foldl_bytes {bytes : List UInt8} (hcode : ¬ [0, 0, 1] <:+: bytes)
    (hpayload : cut.payload = []) :
    bytes.foldl (Cut.push .h264) cut = { cut with payload := bytes } := by
  induction bytes using List.reverseRecOn with
  | nil =>
      have hsame : cut = { cut with payload := [] } := by
        rw [← hpayload]
      exact hsame
  | append_singleton front byte ih =>
      have hfront : ¬ [0, 0, 1] <:+: front := fun h => hcode (h.trans (List.prefix_append ..).isInfix)
      rw [List.foldl_concat, ih hfront]
      by_cases hbyte : byte = 1
      · apply Cut.push_h264_of_not
        intro hzeros
        exact hcode (one_suffix_concat.mpr ⟨hzeros, hbyte⟩).isInfix
      · exact Cut.push_h264_of_ne hbyte

theorem Cut.foldl_units {units : List NalUnit} (hzero : ¬ [0] <:+ cut.payload) :
    ((units.flatMap NalUnit.stream).foldl (Cut.push .h264) cut).frames ++
        [((units.flatMap NalUnit.stream).foldl (Cut.push .h264) cut).last] =
      cut.frames ++ cut.last :: units.map NalUnit.frame := by
  induction units generalizing cut with
  | nil => rfl
  | cons unit units ih =>
      rw [List.flatMap_cons, List.foldl_append, NalUnit.stream, List.foldl_append,
        Cut.foldl_code hzero, Cut.foldl_bytes unit.no_code rfl, ih unit.no_zero]
      simp only [next, last, NalUnit.frame, List.nil_append, List.append_assoc, List.map_cons,
        List.cons_append]

/-- A stream of units that is read to its end has come out unit by unit, each behind a start code in
full, and in front of them the frame that the first start code ends. -/
theorem units_of_run {units : List NalUnit} {offers : List Offer} {final : Reading}
    (hcodec : parser.codec = .h264)
    (hrun : run (Reading.step parseScFrame)
      { parser := parser.flush, rest := units.flatMap NalUnit.stream } offers = some final)
    (hend : final.rest = []) :
    final.frames ++ [final.frame ++ final.parser.pending] = [] :: units.map NalUnit.frame := by
  obtain ⟨-, used, hused, hframes, hbetween⟩ :=
    run_invariant (Reads parser.codec (units.flatMap NalUnit.stream))
      (reads_flush parser _) (fun _ _ _ hreads hstep => hreads.step hstep) hrun
  rw [hend, List.append_nil] at hused
  rw [hframes, hbetween.last, ← hused, hcodec]
  apply Cut.foldl_units
  decide

/-- Two units in buffers of three bytes: the second start code ends the frame of the first unit. -/
theorem units_of_run_two :
    ∃ calls final,
      run (Reading.step parseScFrame)
          { parser := { codec := .h264 }, rest := [0, 0, 1, 7, 5, 0, 0, 0, 1, 9] }
          ((List.range calls).map fun _ => ⟨3, 5⟩) = some final ∧
        final.frames ++ [final.frame ++ final.parser.pending] =
          [[], [0, 0, 0, 1, 7, 5], [0, 0, 0, 1, 9]] := by
  obtain ⟨calls, -, final, hrun, hend, -⟩ :=
    @stream_is_read { codec := .h264 } [0, 0, 1, 7, 5, 0, 0, 0, 1, 9] (fun _ => ⟨3, 5⟩)
      fun _ => ⟨by decide, by decide, by decide⟩
  exact ⟨calls, final, hrun, @units_of_run { codec := .h264 }
    [⟨false, [7, 5], by decide, by decide⟩, ⟨true, [9], by decide, by decide⟩] _ _ rfl hrun hend⟩

end SensorMouse.Frameworks.FrameParse
